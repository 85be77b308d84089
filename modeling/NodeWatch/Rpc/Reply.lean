import NodeWatch.Json.Parser
import NodeWatch.Rpc.Error
import NodeWatch.Text.Utf8

/-!
# Replies of the node

A reply is the bytes that arrive until the node closes the connection: a
status line, header lines, a blank line and the body. The head ends at the
first blank line, wherever it stands; of the head only the status line
counts. The body is an envelope in JSON, an object that holds a result or an
error. The node reports its own errors with status 500 and the envelope all
the same.

## Main definitions

* `Rpc.Reply`: A status and a body.
* `Rpc.splitHead?`: The bytes around the first blank line.
* `Rpc.status?`: The status of a status line.
* `Rpc.Reply.ofBytes`: The reply that bytes make up.
* `Rpc.Reply.envelope`: The envelope of a reply.
* `Rpc.answer`: The result that bytes carry.
-/

namespace NodeWatch

namespace Rpc

/-- A reply without its header lines. -/
structure Reply where
  status : Double
  body : Text
deriving DecidableEq

/-- The bytes before and after the first blank line, if there is one. -/
def splitHead? : Bytes → Option (Bytes × Bytes)
  | 0x0D :: 0x0A :: 0x0D :: 0x0A :: rest => some ([], rest)
  | [] => none
  | b :: rest => (splitHead? rest).map fun (head, body) => (b :: head, body)

/-- The digit that a unit is. -/
def digit? (u : CodeUnit) : Option Nat := if u.isDigit then some (u.toNat - 0x30) else none

/-- The status of a line `HTTP/d.d ddd` that ends there or goes on with a blank. -/
def status? (line : Text) : Option Nat :=
  match line with
  | h :: t₁ :: t₂ :: p :: slash :: major :: point :: minor :: blank :: a :: b :: c :: rest => do
    guard ([h, t₁, t₂, p, slash] = ("HTTP/" : Text) ∧ major.isDigit ∧ point = ascii '.' ∧
      minor.isDigit ∧ blank = ascii ' ' ∧ (rest = [] ∨ rest.head? = some (ascii ' ')))
    return ((← digit? a) * 10 + (← digit? b)) * 10 + (← digit? c)
  | _ => none

/-- The reply that bytes make up. The status line is looked at before the end
    of the head is asked for. -/
def Reply.ofBytes (raw : Bytes) : Except Error Reply :=
  if raw.isEmpty then .error (.transport .empty)
  else
    let split := splitHead? raw
    let head := Utf8.decodeMarked ((split.map (·.1)).getD raw)
    match status? (Text.before "\r\n" head), split with
    | none, _ => .error (.transport .statusLine)
    | some _, none => .error (.transport .headEnd)
    | some status, some (_, body) => .ok ⟨Double.ofNat status, Utf8.decodeMarked body⟩

/-- The envelope of a reply, unless the reply or the envelope reports an error. -/
def Reply.envelope (reply : Reply) : Except Error Json.Value :=
  if reply.status.equals 401 then .error .unauthorized
  else if !reply.status.equals 200 && !reply.status.equals 500 then .error (.status reply.status)
  else match Json.parse reply.body with
    | .error fault => .error (.protocol fault)
    | .ok envelope =>
      let fault := envelope.field "error"
      if fault.isNull then .ok envelope
      else .error (.daemon (fault.textOr "message" "RPC error") (fault.numberOr "code" 0))

/-- The envelope that bytes carry. -/
def envelopeOfBytes (raw : Bytes) : Except Error Json.Value := do
  (← Reply.ofBytes raw).envelope

/-- The result that bytes carry. -/
def answer (raw : Bytes) : Answer := do
  return (← envelopeOfBytes raw).field "result"

end Rpc

end NodeWatch

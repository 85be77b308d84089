import NodeWatch.Json.Parser
import NodeWatch.Rpc.Call
import NodeWatch.Rpc.Error

/-!
# A scripted node

A node for experiments, made of rules. A call is answered by the first rule
that fits its method and, if the rule asks for one, its first parameter, and
that is not used up. Answers are texts in which a mark stands for the first
parameter, errors of the node, or failures of the transport. A rule can also
hold its answer back until it is released.

## Main definitions

* `ScriptedNode.Reply`, `ScriptedNode.Rule`: What the node knows.
* `ScriptedNode`: The rules, and the calls that were made.
* `ScriptedNode.answer`: The answer to a call, and whether it is held back.
-/

namespace NodeWatch

namespace ScriptedNode

/-- What a rule answers. -/
inductive Reply where
  /-- A text of JSON, in which the first parameter is to be put. -/
  | json (text : Text)
  /-- An error of the node. -/
  | nodeError (message : Text) (code : Double)
  /-- A failure of the transport. -/
  | transport (message : Text)
  /-- A failure of unknown kind. -/
  | other (message : Text)

/-- A rule. -/
structure Rule where
  method : Text
  /-- The text of the first parameter, if it matters. -/
  parameter : Option Text
  /-- How often the rule can still be used, if that is limited. -/
  times : Option Double
  hold : Bool
  reply : Reply

/-- What stands for the first parameter in an answer. -/
def mark : Text := "$0"

/-- The answer of a reply to a call with a given first parameter. -/
def Reply.answer (reply : Reply) (parameter : Option Text) : Rpc.Answer :=
  match reply with
  | .json text =>
    match Json.parse (Text.replaceAll mark (parameter.getD "null") text) with
    | .ok v => .ok v
    | .error fault => .error (.malformed fault)
  | .nodeError message code => .error (.daemon message code)
  | .transport message => .error (.transport (.reported message))
  | .other message => .error (.other message)

/-- Whether a rule fits a call. -/
def Rule.fits (rule : Rule) (method : Text) (parameter : Option Text) : Bool :=
  rule.method == method && (rule.parameter.isNone || rule.parameter == parameter) &&
    (match rule.times with
      | some n => 0 < n
      | none => true)

/-- The rule after it was used. -/
def Rule.use (rule : Rule) : Rule := { rule with times := rule.times.map (· - 1) }

/-- The answer of the first rule that fits, whether it is held back, and the
    rules after that. -/
def consult (method : Text) (parameter : Option Text) :
    List Rule → Option (Rpc.Answer × Bool × List Rule)
  | [] => none
  | rule :: rest =>
    if rule.fits method parameter then
      some (rule.reply.answer parameter, rule.hold, rule.use :: rest)
    else
      (consult method parameter rest).map fun (answer, hold, rest) => (answer, hold, rule :: rest)

/-- What a node without a rule for a call answers. -/
def unknownMethod : Rpc.Answer := .error (.daemon "Method not found" (Double.ofInt (-32601)))

end ScriptedNode

/-- A scripted node, and the calls that it received, the last one first. -/
structure ScriptedNode where
  rules : List ScriptedNode.Rule
  calls : List Text

namespace ScriptedNode

/-- A node that received no calls. -/
def ofRules (rules : List Rule) : ScriptedNode := ⟨rules, []⟩

/-- What became of a call. -/
structure Response where
  answer : Rpc.Answer
  /-- The answer waits to be released. -/
  held : Bool
  /-- The call was never sent. -/
  refused : Bool

/-- What becomes of a call, and the node after it. -/
def respond (node : ScriptedNode) (call : Rpc.Call) : Response × ScriptedNode :=
  match call.send with
  | .error fault => (⟨.error (.parameter fault), false, true⟩, node)
  | .ok sent =>
    let node := { node with calls := sent.text :: node.calls }
    match consult sent.method (sent.params.head?.map Json.Value.compact) node.rules with
    | some (answer, held, rules) => (⟨answer, held, false⟩, { node with rules })
    | none => (⟨unknownMethod, false, false⟩, node)

/-- The answer to a call that is not held back by anyone. -/
def answer (node : ScriptedNode) (call : Rpc.Call) : Rpc.Answer × ScriptedNode :=
  let (response, node) := node.respond call
  (response.answer, node)

/-- The calls in their order, and the node with its list emptied. -/
def takeCalls (node : ScriptedNode) : List Text × ScriptedNode :=
  (node.calls.reverse, { node with calls := [] })

end ScriptedNode

end NodeWatch

import NodeWatch.Proofs.Double.Bounds
import NodeWatch.Proofs.Json.LastEntry
import NodeWatch.Proofs.Rpc.Truncation
import NodeWatch.Proofs.Text.Ascii

/-!
# What Any Reply Comes To

The node may send any bytes, or a proxy in front of it may. Whatever they are,
they come to one of eight outcomes, and which one it is depends on what is found
first: no bytes at all, no status line, no end of the head, a status that is an
answer by itself, a body that is no JSON, an error in the body. `Verdict` lists
the outcomes in this order and says for each of them what the bytes are like,
by where the first blank line is, how the status line is written and which
entries the body has.

That the bytes in front of the blank line are decoded before the status line is
looked for is not part of the verdict: the line is told from its bytes, because
it is ASCII.

## Main definitions

* `Parts`: What is in front of the first blank line and what is behind it.
* `Wording`, `Code`: What an error of the node tells.
* `Verdict`: What bytes come to.

## Theorems

* `splitHead?_of_parts`, `exists_parts`: The first blank line is found.
* `status?_eq_some_iff`: The status line is told from its bytes.
* `answer_of_verdict`: Every verdict is kept.
* `exists_verdict`: There is a verdict on any bytes.
* `answer_eq_iff`: What any bytes come to.
-/

namespace NodeWatch

namespace Text

/-- A text goes on with the mark behind what stands before it, or ends. -/
theorem exists_before_append (mark t : Text) :
    ∃ rest, t = before mark t ++ rest ∧ (rest = [] ∨ mark <+: rest) := by
  induction t with
  | nil => exact ⟨[], rfl, .inl rfl⟩
  | cons u t ih =>
      rw [before]
      by_cases hmark : mark.isPrefixOf (u :: t) = true
      · rw [if_pos hmark]
        exact ⟨u :: t, rfl, .inr (List.isPrefixOf_iff_prefix.mp hmark)⟩
      · rw [if_neg hmark]
        rcases ih with ⟨rest, hsplit, hrest⟩
        exact ⟨rest, by rw [List.cons_append, ← hsplit], hrest⟩

end Text

namespace Rpc

open Json (Value Says says_iff)

/-- The bytes in front of the first blank line, and the bytes behind it. With no
    blank line all bytes are in front. -/
inductive Parts : Bytes → Bytes → Option Bytes → Prop where
  | cut {head body : Bytes} (hfirst : SingleBlankLine head) :
      Parts (head ++ (blankLine ++ body)) head (some body)
  | whole {raw : Bytes} (hnone : ∀ i, ¬ blankLine <+: raw.drop i) : Parts raw raw none

/-- The wording of an error of the node. -/
inductive Wording (e : Value) : Text → Prop where
  | given {message : Text} (h : e.field "message" = .string message) : Wording e message
  | missing (h : ∀ message, e.field "message" ≠ .string message) : Wording e "RPC error"

/-- The code of an error of the node. -/
inductive Code (e : Value) : Double → Prop where
  | int {n : Int64} (h : e.field "code" = .int n) : Code e (Double.ofInt n.toInt)
  | float {x : Double} (h : e.field "code" = .float x) : Code e x
  | missing (h : (e.field "code").isNumber = false) : Code e 0

/-- What bytes come to. -/
inductive Verdict (raw : Bytes) : Answer → Prop where
  /-- The connection was closed without a byte. -/
  | empty (hraw : raw = []) : Verdict raw (.error (.transport .empty))
  /-- The head does not begin with a status line. -/
  | statusLine {head : Bytes} {body? : Option Bytes} (hraw : raw ≠ [])
      (hparts : Parts raw head body?) (hline : ∀ status, ¬ StatusLine status head) :
      Verdict raw (.error (.transport .statusLine))
  /-- The head does not end. -/
  | headEnd {head : Bytes} {status : Nat} (hparts : Parts raw head none)
      (hline : StatusLine status head) : Verdict raw (.error (.transport .headEnd))
  /-- The credentials are not accepted, whatever the body is. -/
  | unauthorized {head body : Bytes} (hparts : Parts raw head (some body))
      (hline : StatusLine 401 head) : Verdict raw (.error .unauthorized)
  /-- No answer is behind the status, whatever the body is. -/
  | status {head body : Bytes} {status : Nat} (hparts : Parts raw head (some body))
      (hline : StatusLine status head) (hcredentials : status ≠ 401)
      (hunknown : ¬ (status = 200 ∨ status = 500)) :
      Verdict raw (.error (.status (Double.ofNat status)))
  /-- The body is no JSON. -/
  | protocol {head body : Bytes} {status : Nat} {fault : Json.ParseError}
      (hparts : Parts raw head (some body)) (hline : StatusLine status head)
      (hknown : status = 200 ∨ status = 500)
      (hbody : Json.parse (Utf8.decodeMarked body) = .error fault) :
      Verdict raw (.error (.protocol fault))
  /-- The body has an error. -/
  | daemon {head body : Bytes} {status : Nat} {e : Value} {message : Text} {code : Double}
      (hparts : Parts raw head (some body)) (hline : StatusLine status head)
      (hknown : status = 200 ∨ status = 500)
      (herror : Says (Utf8.decodeMarked body) "error" e) (hnull : e ≠ .null)
      (hmessage : Wording e message) (hcode : Code e code) :
      Verdict raw (.error (.daemon message code))
  /-- The body has a result, or nothing at all. -/
  | result {head body : Bytes} {status : Nat} {envelope r : Value}
      (hparts : Parts raw head (some body)) (hline : StatusLine status head)
      (hknown : status = 200 ∨ status = 500)
      (hbody : Json.parse (Utf8.decodeMarked body) = .ok envelope)
      (herror : Says (Utf8.decodeMarked body) "error" .null)
      (hresult : Says (Utf8.decodeMarked body) "result" r) : Verdict raw (.ok r)

/-! ### The first blank line -/

section Parts

variable {raw head : Bytes} {body? : Option Bytes}

theorem splitHead?_of_parts (h : Parts raw head body?) :
    splitHead? raw = body?.map fun body => (head, body) := by
  cases h with
  | cut hfirst => exact splitHead?_append hfirst _
  | whole hnone => exact splitHead?_eq_none hnone

/-- A blank line behind the first byte is the first one, unless there is one at
    the front. -/
theorem SingleBlankLine.cons {b : UInt8} {body : Bytes} (h : SingleBlankLine head)
    (hfront : ¬ blankLine <+: b :: (head ++ (blankLine ++ body))) :
    SingleBlankLine (b :: head) := by
  intro i hi hc
  cases i with
  | zero =>
      refine hfront (hc.trans ⟨body, ?_⟩)
      rw [List.drop_zero, List.cons_append, List.cons_append, List.append_assoc]
  | succ i => exact h i (Nat.lt_of_succ_lt_succ hi) hc

theorem exists_parts (raw : Bytes) : ∃ head body?, Parts raw head body? := by
  induction raw with
  | nil =>
      refine ⟨[], none, .whole fun i hc => ?_⟩
      rw [List.drop_nil] at hc
      exact absurd (List.prefix_nil.mp hc) (List.cons_ne_nil _ _)
  | cons b rest ih =>
      by_cases hfront : blankLine <+: b :: rest
      · rcases hfront with ⟨body, hraw⟩
        have hfirst : SingleBlankLine [] := fun i hi => absurd hi (Nat.not_lt_zero i)
        rw [← hraw]
        exact ⟨[], some body, .cut hfirst⟩
      · rcases ih with ⟨head, body?, hparts⟩
        cases hparts with
        | cut hfirst => exact ⟨b :: head, _, .cut (hfirst.cons hfront)⟩
        | whole hnone =>
            refine ⟨b :: rest, none, .whole fun i => ?_⟩
            cases i with
            | zero => exact hfront
            | succ i => exact hnone i

end Parts

/-! ### The status line -/

section Status

variable {head : Bytes} {n : Nat}

theorem exists_statusText {line : Text} (h : status? line = some n) :
    ∃ major minor a b c tail, line = statusText major minor a b c ++ tail ∧
      major.isDigit = true ∧ minor.isDigit = true ∧ a.isDigit = true ∧ b.isDigit = true ∧
      c.isDigit = true ∧ (tail = [] ∨ tail.head? = some (ascii ' ')) := by
  unfold status? at h
  split at h
  · next h' t₁ t₂ p slash major point minor blank a b c rest =>
      simp only [digit?, guard, Option.bind_eq_bind, Option.bind_eq_some_iff,
        Option.pure_def, Option.failure_eq_none, Option.ite_none_right_eq_some,
        Option.some.injEq] at h
      rcases h with ⟨-, ⟨⟨hword, hmajor, hpoint, hminor, hblank, htail⟩, -⟩, x, ⟨ha, -⟩, y,
        ⟨hb, -⟩, z, ⟨hc, -⟩, -⟩
      refine ⟨major, minor, a, b, c, rest, ?_, hmajor, hminor, ha, hb, hc, htail⟩
      rw [statusText, ← hword, hpoint, hblank]
      rfl
  · cases h

theorem exists_mark (head : Bytes) :
    ∃ mark, (mark = [] ∨ mark = [0xEF, 0xBB, 0xBF]) ∧ head = mark ++ Utf8.dropMark head := by
  unfold Utf8.dropMark
  split
  · exact ⟨[0xEF, 0xBB, 0xBF], .inr rfl, rfl⟩
  · exact ⟨[], .inl rfl, rfl⟩

/-- What is behind the status of a line that ends there or goes on with a blank. -/
theorem rest_of_tail {rest : Bytes} {tail more : Text} (hdecode : Utf8.decode rest = tail ++ more)
    (htail : tail = [] ∨ tail.head? = some (ascii ' '))
    (hmore : more = [] ∨ ("\r\n" : Text) <+: more) :
    rest = [] ∨ rest.head? = some 0x20 ∨ [0x0D, 0x0A] <+: rest := by
  rcases htail with rfl | hblank
  · rcases hmore with rfl | ⟨lines, rfl⟩
    · exact .inl (Utf8.decode_eq_nil hdecode)
    · rw [List.nil_append] at hdecode
      rcases Utf8.decode_eq_append (by decide) hdecode with ⟨behind, hrest, -⟩
      exact .inr (.inr ⟨behind, hrest.symm⟩)
  · cases tail with
    | nil => cases hblank
    | cons u tail =>
        rw [Option.some.inj hblank, List.cons_append] at hdecode
        rcases Utf8.decode_eq_cons (by decide) hdecode with ⟨behind, rfl, -⟩
        exact .inr (.inl rfl)

/-- The status line is told from its bytes. -/
theorem status?_eq_some_iff :
    status? (Text.before "\r\n" (Utf8.decodeMarked head)) = some n ↔ StatusLine n head := by
  refine ⟨fun h => ?_, status_of_statusLine⟩
  rcases exists_statusText h with
    ⟨major, minor, a, b, c, tail, hline, hmajor, hminor, ha, hb, hc, htail⟩
  rw [hline, status?_statusText hmajor hminor ha hb hc htail, Option.some.injEq] at h
  subst h
  rcases Text.exists_before_append "\r\n" (Utf8.decodeMarked head) with ⟨more, hsplit, hmore⟩
  rw [hline, List.append_assoc] at hsplit
  -- The line is ASCII up to the status, so it was read from its own bytes.
  have hascii := isAscii_statusText hmajor hminor ha hb hc
  rcases Utf8.decode_eq_append hascii hsplit with ⟨rest, hbytes, hrest⟩
  rcases exists_mark head with ⟨mark, hmark, hhead⟩
  rw [hhead, hbytes]
  exact .mk hmark hmajor hminor ha hb hc (rest_of_tail hrest htail hmore)

/-- A status has three digits. -/
theorem StatusLine.lt (h : StatusLine n head) : n < 1000 := by
  cases h with
  | @mk mark rest major minor a b c hmark hmajor hminor ha hb hc hrest =>
      have hdigit : ∀ {u : CodeUnit}, u.isDigit = true → u.toNat ≤ 0x39 := fun hu =>
        UInt16.le_iff_toNat_le.mp (Json.isDigit_iff.mp hu).2
      have ha := hdigit ha
      have hb := hdigit hb
      have hc := hdigit hc
      simp only [Text.digitsValue, List.foldl_cons, List.foldl_nil]
      omega

theorem equals_ofNat {m : Nat} (hn : n < 1000) (hm : m < 1000) :
    (Double.ofNat n).equals (Double.ofNat m) = decide (n = m) := by
  have hfit : ∀ {k : Nat}, k < 1000 → k < twoPow 53 := fun hk =>
    Nat.lt_trans hk (by decide)
  rw [Bool.eq_iff_iff, decide_eq_true_eq,
    Double.equals_iff (Double.toInt?_ofNat (hfit hn)) (Double.toInt?_ofNat (hfit hm)),
    Int.natCast_inj]

end Status

/-! ### The verdict -/

section Answer

variable {raw head : Bytes} {body? : Option Bytes} {status : Nat} {body : Bytes}

theorem ne_nil_of_statusLine (h : StatusLine status head) : head ≠ [] := by
  rintro rfl
  exact absurd (status_of_statusLine h) (by simp only [status?, Utf8.decodeMarked, Utf8.dropMark,
    Utf8.decode, Utf8.decodeFrom, List.flatMap_nil, Text.before, reduceCtorEq, not_false_eq_true])

/-- Without a status line it does not matter whether the head ends. -/
theorem ofBytes_of_forall (hraw : raw ≠ []) (hparts : Parts raw head body?)
    (hline : ∀ status, ¬ StatusLine status head) :
    Reply.ofBytes raw = .error (.transport .statusLine) := by
  have hnone : status? (Text.before "\r\n" (Utf8.decodeMarked head)) = none :=
    Option.eq_none_iff_forall_ne_some.mpr fun status h => hline status (status?_eq_some_iff.mp h)
  rw [Reply.ofBytes, if_neg (by rw [List.isEmpty_iff]; exact hraw), splitHead?_of_parts hparts]
  cases hparts with
  | cut => simp only [Option.map_some, Option.getD_some, hnone]
  | whole => simp only [Option.map_none, Option.getD_none, hnone]

theorem ofBytes_of_none (hparts : Parts raw head none) (hline : StatusLine status head) :
    Reply.ofBytes raw = .error (.transport .headEnd) := by
  rw [Reply.ofBytes, splitHead?_of_parts hparts]
  cases hparts with
  | whole =>
      rw [if_neg (by rw [List.isEmpty_iff]; exact ne_nil_of_statusLine hline)]
      simp only [Option.map_none, Option.getD_none, status_of_statusLine hline]

theorem ofBytes_of_some (hparts : Parts raw head (some body)) (hline : StatusLine status head) :
    Reply.ofBytes raw = .ok ⟨Double.ofNat status, Utf8.decodeMarked body⟩ := by
  cases hparts with
  | cut hfirst => exact ofBytes_append hline hfirst body

/-- A status other than the three is an answer by itself. -/
theorem envelope_of_status (hlt : status < 1000) (hcredentials : status ≠ 401)
    (hunknown : ¬ (status = 200 ∨ status = 500)) (text : Text) :
    (Reply.mk (Double.ofNat status) text).envelope = .error (.status (Double.ofNat status)) := by
  rcases not_or.mp hunknown with ⟨h200, h500⟩
  have hequals : ∀ m : Nat, m < 1000 → status ≠ m →
      (Double.ofNat status).equals (Double.ofNat m) = false := fun m hm hne => by
    rw [equals_ofNat hlt hm, decide_eq_false hne]
  have h401 : (Double.ofNat status).equals 401 = false := hequals 401 (by decide) hcredentials
  have h200 : (Double.ofNat status).equals 200 = false := hequals 200 (by decide) h200
  have h500 : (Double.ofNat status).equals 500 = false := hequals 500 (by decide) h500
  rw [Reply.envelope]
  simp only [h401, h200, h500, Bool.false_eq_true, if_false, Bool.not_false, Bool.and_self,
    if_true]

/-- What the body of a reply comes to. -/
theorem envelope_of_parse (hknown : status = 200 ∨ status = 500) {text : Text} {envelope : Value}
    (hbody : Json.parse text = .ok envelope) :
    (Reply.mk (Double.ofNat status) text).envelope
      = if (envelope.field "error").isNull = true then .ok envelope
        else .error (.daemon ((envelope.field "error").textOr "message" "RPC error")
          ((envelope.field "error").numberOr "code" 0)) := by
  have hpasses := passes_of_known hknown
  rw [Reply.envelope]
  simp only [hpasses.1, hpasses.2, Bool.false_eq_true, if_false, hbody]

theorem textOr_of_wording {e : Value} {message : Text} (h : Wording e message) :
    e.textOr "message" "RPC error" = message := by
  rw [Value.textOr]
  cases h with
  | given h => rw [h]; rfl
  | missing h =>
      cases hfield : e.field "message" with
      | string s => exact absurd hfield (h s)
      | _ => rfl

theorem numberOr_of_code {e : Value} {code : Double} (h : Code e code) :
    e.numberOr "code" 0 = code := by
  rw [Value.numberOr]
  cases h with
  | int h => rw [h]; rfl
  | float h => rw [h]; rfl
  | missing h =>
      generalize e.field "code" = v at h
      cases v with
      | int n => cases h
      | float x => cases h
      | _ => rfl

theorem exists_wording (e : Value) : ∃ message, Wording e message := by
  by_cases h : ∃ message, e.field "message" = .string message
  · rcases h with ⟨message, h⟩
    exact ⟨message, .given h⟩
  · exact ⟨_, .missing (not_exists.mp h)⟩

theorem exists_code (e : Value) : ∃ code, Code e code := by
  cases h : e.field "code" with
  | int n => exact ⟨_, .int h⟩
  | float x => exact ⟨_, .float h⟩
  | _ => exact ⟨_, .missing (by rw [h]; rfl)⟩

theorem isNull_iff {v : Value} : v.isNull = true ↔ v = .null := by
  cases v <;> simp only [Value.isNull, Bool.false_eq_true, reduceCtorEq]

theorem answer_of_error {e : Error} (h : Reply.ofBytes raw = .error e) :
    answer raw = .error e := by
  rw [answer, envelopeOfBytes, h]
  rfl

theorem answer_of_some (hparts : Parts raw head (some body)) (hline : StatusLine status head)
    {r : Except Error Value}
    (h : (Reply.mk (Double.ofNat status) (Utf8.decodeMarked body)).envelope = r) :
    answer raw = r.map fun envelope => envelope.field "result" := by
  rw [answer, envelopeOfBytes, ofBytes_of_some hparts hline]
  change (Reply.envelope _ >>= _) = _
  rw [h]
  cases r <;> rfl

/-- Every verdict is kept. -/
theorem answer_of_verdict {a : Answer} (h : Verdict raw a) : answer raw = a := by
  cases h with
  | empty hraw =>
      rw [hraw]
      rfl
  | statusLine hraw hparts hline => exact answer_of_error (ofBytes_of_forall hraw hparts hline)
  | headEnd hparts hline => exact answer_of_error (ofBytes_of_none hparts hline)
  | unauthorized hparts hline => exact answer_of_some hparts hline rfl
  | status hparts hline hcredentials hunknown =>
      exact answer_of_some hparts hline (envelope_of_status hline.lt hcredentials hunknown _)
  | protocol hparts hline hknown hbody =>
      exact answer_of_some hparts hline (envelope_of_fault hknown hbody)
  | daemon hparts hline hknown herror hnull hmessage hcode =>
      rcases herror.exists_parse hnull with ⟨envelope, hbody⟩
      have henvelope := envelope_of_parse hknown hbody
      rw [(says_iff hbody).mp herror, if_neg (mt isNull_iff.mp hnull),
        textOr_of_wording hmessage, numberOr_of_code hcode] at henvelope
      exact answer_of_some hparts hline henvelope
  | result hparts hline hknown hbody herror hresult =>
      have henvelope := envelope_of_parse hknown hbody
      rw [if_pos (isNull_iff.mpr ((says_iff hbody).mp herror))] at henvelope
      rw [answer_of_some hparts hline henvelope]
      exact congrArg Except.ok ((says_iff hbody).mp hresult)

/-- There is a verdict on any bytes. -/
theorem exists_verdict (raw : Bytes) : ∃ a, Verdict raw a := by
  by_cases hraw : raw = []
  · exact ⟨_, .empty hraw⟩
  rcases exists_parts raw with ⟨head, body?, hparts⟩
  by_cases hline : ∃ status, StatusLine status head
  swap
  · exact ⟨_, .statusLine hraw hparts (not_exists.mp hline)⟩
  rcases hline with ⟨status, hline⟩
  cases body? with
  | none => exact ⟨_, .headEnd hparts hline⟩
  | some body =>
      by_cases hcredentials : status = 401
      · subst hcredentials
        exact ⟨_, .unauthorized hparts hline⟩
      by_cases hknown : status = 200 ∨ status = 500
      swap
      · exact ⟨_, .status hparts hline hcredentials hknown⟩
      cases hbody : Json.parse (Utf8.decodeMarked body) with
      | error fault => exact ⟨_, .protocol hparts hline hknown hbody⟩
      | ok envelope =>
          have herror := (says_iff hbody).mpr (rfl : envelope.field "error" = _)
          by_cases hnull : envelope.field "error" = .null
          · rw [hnull] at herror
            exact ⟨_, .result hparts hline hknown hbody herror ((says_iff hbody).mpr rfl)⟩
          · rcases exists_wording (envelope.field "error") with ⟨message, hmessage⟩
            rcases exists_code (envelope.field "error") with ⟨code, hcode⟩
            exact ⟨_, .daemon hparts hline hknown herror hnull hmessage hcode⟩

/-- What any bytes come to. Exactly one of the outcomes fits them, and it is
    the one that a call gives. -/
theorem answer_eq_iff (raw : Bytes) (a : Answer) : answer raw = a ↔ Verdict raw a := by
  refine ⟨?_, answer_of_verdict⟩
  rintro rfl
  rcases exists_verdict raw with ⟨a, ha⟩
  rw [answer_of_verdict ha]
  exact ha

end Answer

end Rpc

end NodeWatch

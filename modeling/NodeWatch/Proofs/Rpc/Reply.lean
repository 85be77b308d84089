import NodeWatch.Proofs.Json.RoundTrip
import NodeWatch.Proofs.Json.Sendable
import NodeWatch.Rpc.Client

/-!
# The Way of a Reply

An envelope that the node prints, encodes and sends behind a head arrives as
the envelope that it was. The layers come off one after the other: the chunks
are put together, the head is split off at the first blank line, the status
line is read, the body is decoded and the envelope is parsed.

Each layer could be deceived by what the next one carries. A blank line inside
the body is not taken for the one that ends the head, because that one comes
first; what has to be asked for is that the head has none of its own. A byte
order mark would be dropped from the body, but the body begins with a brace.
And surrogates would be replaced, but well-formed texts have none without their
partners.

## Main definitions

* `StatusLine`: The heads that begin with the line of a status.
* `SingleBlankLine`: The blank line behind a head is the first.

## Theorems

* `splitHead?_append`: The head is split off where it ends.
* `status_of_statusLine`: The status line is read.
* `envelope_of_sendable`: The body is parsed to the envelope.
* `conclude_of_printed`: The envelope arrives.
-/

namespace NodeWatch

namespace Text

/-- What stands before a mark begins with whatever cannot be part of the mark. -/
theorem before_append {first : CodeUnit} {mark a : Text} (ha : first ∉ a) (t : Text) :
    before (first :: mark) (a ++ t) = a ++ before (first :: mark) t := by
  induction a with
  | nil => rfl
  | cons u a ih =>
      rcases not_or.mp (fun hmem => ha (List.mem_cons.mpr hmem)) with ⟨hne, hrest⟩
      have hu : (first == u) = false := beq_eq_false_iff_ne.mpr hne
      rw [List.cons_append, before, List.isPrefixOf_cons_cons, hu, Bool.false_and,
        if_neg Bool.false_ne_true, ih hrest]
      rfl

end Text

namespace Rpc

/-! ### The head -/

/-- The end of a line and an empty line behind it. -/
def blankLine : Bytes := [0x0D, 0x0A, 0x0D, 0x0A]

/-- The blank line behind a head is the first one, also where the two meet. -/
def SingleBlankLine (head : Bytes) : Prop :=
  ∀ i < head.length, ¬ blankLine <+: (head ++ blankLine).drop i

instance (head : Bytes) : Decidable (SingleBlankLine head) :=
  inferInstanceAs (Decidable (∀ i < head.length, ¬ blankLine <+: (head ++ blankLine).drop i))

/-- The beginning of a status line, up to the status. -/
def statusText (major minor a b c : CodeUnit) : Text :=
  ("HTTP/" : Text) ++ [major, ascii '.', minor, ascii ' ', a, b, c]

/-- The heads that begin with the line of a status: a version, the three
    digits of the status, and then a blank or the end of the line. Nothing is
    asked of what follows, and a byte order mark may come first. -/
inductive StatusLine : Nat → Bytes → Prop where
  | mk {mark rest : Bytes} {major minor a b c : CodeUnit}
      (hmark : mark = [] ∨ mark = [0xEF, 0xBB, 0xBF]) (hmajor : major.isDigit = true)
      (hminor : minor.isDigit = true) (ha : a.isDigit = true) (hb : b.isDigit = true)
      (hc : c.isDigit = true)
      (hrest : rest = [] ∨ rest.head? = some 0x20 ∨ [0x0D, 0x0A] <+: rest) :
      StatusLine (Text.digitsValue [a, b, c])
        (mark ++ (Utf8.encode (statusText major minor a b c) ++ rest))

section Head

variable {head : Bytes}

theorem splitHead?_cons {b : UInt8} {rest : Bytes} (h : ¬ blankLine <+: b :: rest) :
    splitHead? (b :: rest) = (splitHead? rest).map fun (head, body) => (b :: head, body) := by
  rw [splitHead?.eq_def]
  split
  · next rest' heq => exact absurd ⟨rest', heq.symm⟩ h
  · next heq => exact absurd heq (List.cons_ne_nil b rest)
  · next heq =>
      rcases List.cons.inj heq with ⟨rfl, rfl⟩
      rfl

/-- The head is split off where it ends, whatever the body holds. -/
theorem splitHead?_append (h : SingleBlankLine head) (body : Bytes) :
    splitHead? (head ++ (blankLine ++ body)) = some (head, body) := by
  induction head with
  | nil => rfl
  | cons b rest ih =>
      have hhere : ¬ blankLine <+: b :: (rest ++ (blankLine ++ body)) := by
        intro hc
        -- A blank line that begins inside the head ends before the body does.
        have hwhole : (b :: rest) ++ blankLine <+: b :: (rest ++ (blankLine ++ body)) :=
          ⟨body, by rw [List.cons_append, List.cons_append, List.append_assoc]⟩
        have hlength : blankLine.length ≤ ((b :: rest) ++ blankLine).length := by
          rw [List.length_append]
          omega
        exact h 0 (Nat.zero_lt_succ _) (List.prefix_of_prefix_length_le hc hwhole hlength)
      have hrest : SingleBlankLine rest := fun i hi => h (i + 1) (Nat.succ_lt_succ hi)
      rw [List.cons_append, splitHead?_cons hhere, ih hrest]
      rfl

theorem digit?_of_isDigit {u : CodeUnit} (h : u.isDigit = true) :
    digit? u = some (u.toNat - 0x30) := by
  rw [digit?, if_pos h]

theorem ascii_of_isDigit {u : CodeUnit} (h : u.isDigit = true) : u < 0x80 :=
  UInt16.lt_of_le_of_lt (Json.isDigit_iff.mp h).2 (by decide)

section StatusText

variable {major minor a b c : CodeUnit} (hmajor : major.isDigit = true)
  (hminor : minor.isDigit = true) (ha : a.isDigit = true) (hb : b.isDigit = true)
  (hc : c.isDigit = true)

include hmajor hminor ha hb hc

theorem status?_statusText {tail : Text} (htail : tail = [] ∨ tail.head? = some (ascii ' ')) :
    status? (statusText major minor a b c ++ tail) = some (Text.digitsValue [a, b, c]) := by
  have hword : ("HTTP/" : Text) = [0x48, 0x54, 0x54, 0x50, 0x2F] := by decide
  have hvalue : Text.digitsValue [a, b, c]
      = ((a.toNat - 0x30) * 10 + (b.toNat - 0x30)) * 10 + (c.toNat - 0x30) := by
    simp only [Text.digitsValue, List.foldl_cons, List.foldl_nil, Nat.zero_mul, Nat.zero_add]
  rw [hvalue, statusText, hword]
  simp only [List.cons_append, List.nil_append, status?, guard, digit?_of_isDigit ha,
    digit?_of_isDigit hb, digit?_of_isDigit hc]
  rw [if_pos ⟨hword.symm, hmajor, trivial, hminor, trivial, htail⟩]
  rfl

theorem isAscii_statusText : (statusText major minor a b c).IsAscii := by
  refine Text.IsAscii.append (by decide) fun u hu => ?_
  simp only [List.mem_cons, List.not_mem_nil, or_false] at hu
  rcases hu with rfl | rfl | rfl | rfl | rfl | rfl | rfl
  · exact ascii_of_isDigit hmajor
  · decide
  · exact ascii_of_isDigit hminor
  · decide
  · exact ascii_of_isDigit ha
  · exact ascii_of_isDigit hb
  · exact ascii_of_isDigit hc

/-- A line does not end before its status. -/
theorem return_notMem_statusText : 0x0D ∉ statusText major minor a b c := by
  have hdigit : ∀ u : CodeUnit, u.isDigit = true → 0x0D ≠ u := by
    rintro u hu rfl
    exact absurd hu (by decide)
  intro hmem
  rcases List.mem_append.mp hmem with hmem | hmem
  · exact absurd hmem (by decide)
  · simp only [List.mem_cons, List.not_mem_nil, or_false, hdigit _ hmajor, hdigit _ hminor,
      hdigit _ ha, hdigit _ hb, hdigit _ hc, false_or] at hmem
    exact absurd hmem (by decide)

end StatusText

/-- What follows the status is a blank, or the end of the line. -/
theorem before_decode_rest {rest : Bytes}
    (hrest : rest = [] ∨ rest.head? = some 0x20 ∨ [0x0D, 0x0A] <+: rest) :
    Text.before "\r\n" (Utf8.decode rest) = [] ∨
      (Text.before "\r\n" (Utf8.decode rest)).head? = some (ascii ' ') := by
  rcases hrest with rfl | hblank | ⟨lines, rfl⟩
  · exact .inl rfl
  · cases rest with
    | nil => exact absurd hblank (by simp only [List.head?_nil, reduceCtorEq, not_false_eq_true])
    | cons b rest =>
        rw [Option.some.inj hblank]
        refine .inr ?_
        rw [Utf8.decode, Utf8.decodeFrom_ascii (by decide)]
        rfl
  · refine .inl ?_
    rw [List.cons_append, List.singleton_append, Utf8.decode, Utf8.decodeFrom_ascii (by decide),
      Utf8.decodeFrom_ascii (by decide)]
    rfl

/-- The status line of a head is read, whatever comes after it. -/
theorem status_of_statusLine {status : Nat} (h : StatusLine status head) :
    status? (Text.before "\r\n" (Utf8.decodeMarked head)) = some status := by
  cases h with
  | @mk mark rest major minor a b c hmark hmajor hminor ha hb hc hrest =>
      -- The line is ASCII up to the status, so its bytes are read as they are.
      have hascii := isAscii_statusText hmajor hminor ha hb hc
      have hreturn := return_notMem_statusText hmajor hminor ha hb hc
      have hdrop : Utf8.dropMark (mark ++ (Utf8.encode (statusText major minor a b c) ++ rest))
          = Utf8.encode (statusText major minor a b c) ++ rest := by
        rcases hmark with rfl | rfl
        · exact Utf8.dropMark_cons (by decide) _
        · rfl
      have hline : ("\r\n" : Text) = 0x0D :: [0x0A] := by decide
      rw [Utf8.decodeMarked, hdrop, Utf8.decode_encode_append hascii.wellFormed, hline,
        Text.before_append hreturn, ← hline]
      exact status?_statusText hmajor hminor ha hb hc (before_decode_rest hrest)

end Head

/-! ### The body -/

section Body

open Json (Value Entries)

variable {es : Entries} {r : Value} {head : Bytes}

/-- The bytes of a printed envelope have no byte order mark to lose. -/
theorem decodeMarked_object (h : (Value.object es).WellFormed) (indent : Option Nat) :
    Utf8.decodeMarked (Utf8.encode ((Value.object es).print indent))
      = (Value.object es).print indent := by
  rcases Value.exists_print_object es indent with ⟨rest, hprint⟩
  have hmark : Utf8.dropMark (Utf8.encode ((Value.object es).print indent))
      = Utf8.encode ((Value.object es).print indent) := by
    rw [hprint, Utf8.encode_cons (by decide)]
    exact Utf8.dropMark_cons (by decide) _
  rw [Utf8.decodeMarked, hmark]
  exact Utf8.decode_encode (Value.wellFormed_printAt h indent 0)

/-- What comes off the bytes of a reply. -/
theorem ofBytes_append {status : Nat} (hstatus : StatusLine status head)
    (hblank : SingleBlankLine head) (body : Bytes) :
    Reply.ofBytes (head ++ (blankLine ++ body))
      = .ok ⟨Double.ofNat status, Utf8.decodeMarked body⟩ := by
  have hnonempty : (head ++ (blankLine ++ body)).isEmpty = false := by
    cases head <;> rfl
  rw [Reply.ofBytes, hnonempty, if_neg Bool.false_ne_true, splitHead?_append hblank]
  simp only [Option.map_some, Option.getD_some, status_of_statusLine hstatus]

/-- The two status that stand for an answer pass both tests. -/
theorem passes_of_known {status : Nat} (h : status = 200 ∨ status = 500) :
    (Double.ofNat status).equals 401 = false ∧
      (!(Double.ofNat status).equals 200 && !(Double.ofNat status).equals 500) = false := by
  rcases h with rfl | rfl <;> decide

/-- An envelope without an error is what a reply comes to. -/
theorem envelope_of_sendable (hsendable : (Value.object es).Sendable)
    (herror : ∀ e, Entries.lookup? "error" es = some e → e = .null) {status : Nat}
    (hstatus : status = 200 ∨ status = 500) (indent : Option Nat) :
    ∃ envelope, (Reply.mk (Double.ofNat status) ((Value.object es).print indent)).envelope
        = .ok envelope ∧ envelope.Same (.object es) := by
  rcases Value.parse_sendable hsendable indent with ⟨w, hparse, hsame⟩
  refine ⟨w, ?_, hsame⟩
  -- A missing error reads as `null`, like one that is spelled out.
  have hnone : (Value.object es).field "error" = .null := by
    change (Entries.lookup? "error" es).getD .null = .null
    cases h : Entries.lookup? "error" es with
    | none => rfl
    | some e => exact herror e h
  have hnull : (w.field "error").isNull = true := by
    have hfield := hsame.field "error"
    rw [hnone] at hfield
    generalize w.field "error" = fault at hfield
    cases hfield with
    | null => rfl
  have hknown := passes_of_known hstatus
  rw [Reply.envelope]
  simp only [hknown.1, hknown.2, Bool.false_eq_true, if_false, hparse, hnull, if_true]

/-- An envelope that was printed with any indentation and sent behind a head
    arrives, in whatever pieces. The client gets the same envelope, and the
    answer is the same result. -/
theorem conclude_of_printed (client : Client) (hsendable : (Value.object es).Sendable)
    (hresult : Entries.lookup? "result" es = some r)
    (herror : ∀ e, Entries.lookup? "error" es = some e → e = .null)
    {indent : Option Double} {text : Text} (hprint : (Value.object es).printWith indent = .ok text)
    (hstatus : StatusLine 200 head ∨ StatusLine 500 head) (hblank : SingleBlankLine head)
    {chunks : List Bytes} (hchunks : chunks.flatten = head ++ (blankLine ++ Utf8.encode text)) :
    ∃ envelope, client.conclude (.closed chunks) = .ok envelope ∧ envelope.Same (.object es) ∧
      answer chunks.flatten = .ok (envelope.field "result") ∧
      (envelope.field "result").Same r := by
  rcases Value.exists_print hprint with ⟨n, rfl⟩
  obtain ⟨status, hline, hknown⟩ :
      ∃ status, StatusLine status head ∧ (status = 200 ∨ status = 500) := by
    rcases hstatus with h | h
    · exact ⟨200, h, .inl rfl⟩
    · exact ⟨500, h, .inr rfl⟩
  rcases envelope_of_sendable hsendable herror hknown n with ⟨envelope, henvelope, hsame⟩
  have hbytes : envelopeOfBytes chunks.flatten = .ok envelope := by
    rw [hchunks, envelopeOfBytes, ofBytes_append hline hblank,
      decodeMarked_object hsendable.wellFormed]
    exact henvelope
  refine ⟨envelope, hbytes, hsame, ?_, ?_⟩
  · rw [answer, hbytes]
    rfl
  · have hfield := hsame.field "result"
    have hr : (Value.object es).field "result" = r := by
      change (Entries.lookup? "result" es).getD .null = r
      rw [hresult]
      rfl
    rw [hr] at hfield
    exact hfield

/-- A result with a character outside the basic plane and a fraction. -/
def sampleResult : Value := .array [.string [0xD83D, 0xDE00], .float Json.half]

/-- An envelope with the error spelled out. -/
def sampleEntries : Entries := [("result", sampleResult), ("error", .null)]

theorem part_sample {u : Value} (h : Value.Part u (.object sampleEntries)) :
    u = .object sampleEntries ∨ u = sampleResult ∨ u = .string [0xD83D, 0xDE00] ∨
      u = .float Json.half ∨ u = .null := by
  cases h with
  | self => exact .inl rfl
  | entry he h =>
      refine .inr ?_
      rcases List.mem_cons.mp he with rfl | he
      · cases h with
        | self => exact .inl rfl
        | item hv h =>
            rcases List.mem_cons.mp hv with rfl | hv
            · cases h
              exact .inr (.inl rfl)
            · rw [List.mem_singleton.mp hv] at h
              cases h
              exact .inr (.inr (.inl rfl))
      · rw [List.mem_singleton.mp he] at h
        cases h
        exact .inr (.inr (.inr rfl))

theorem sample_sendable : (Value.object sampleEntries).Sendable where
  distinct := by
    intro es h
    rcases part_sample h with h | h | h | h | h <;> cases h
    exact (by decide : ([("result" : Text), "error"]).Nodup)
  wellFormed := by
    refine ⟨fun s h => ?_, fun es h => ?_⟩
    · rcases part_sample h with h | h | h | h | h <;> cases h
      decide
    · rcases part_sample h with h | h | h | h | h <;> cases h
      intro e he
      rcases List.mem_cons.mp he with rfl | he
      · exact (by decide : Text.WellFormed "result")
      · rw [List.mem_singleton.mp he]
        exact (by decide : Text.WellFormed "error")
  finite := by
    intro x h
    rcases part_sample h with h | h | h | h | h <;> cases h
    decide
  survive := by
    intro x h _
    rcases part_sample h with h | h | h | h | h <;> cases h
    exact Json.parse_half

/-- A head with one header line. -/
def sampleHead : Bytes := Utf8.encode "HTTP/1.1 200 OK\r\nServer: node"

theorem sample_statusLine : StatusLine 200 sampleHead := by
  have hdigits : Text.digitsValue [ascii '2', ascii '0', ascii '0'] = 200 := by decide
  have hhead : sampleHead
      = [] ++ (Utf8.encode (statusText (ascii '1') (ascii '1') (ascii '2') (ascii '0') (ascii '0'))
        ++ Utf8.encode " OK\r\nServer: node") := by decide +kernel
  rw [hhead, ← hdigits]
  exact StatusLine.mk (.inl rfl) (by decide) (by decide) (by decide) (by decide) (by decide)
    (.inr (.inl (by decide +kernel)))

/-- The sample arrives in two pieces, cut apart inside a character. -/
theorem conclude_of_printed_sample :
    let client : Client := ⟨⟨"localhost", 8332, ⟨"user", "secret"⟩, 1000⟩, 1⟩
    let raw := sampleHead ++ (blankLine ++ Utf8.encode (Value.object sampleEntries).compact)
    SingleBlankLine sampleHead ∧ ∃ envelope,
      client.conclude (.closed [raw.take 60, raw.drop 60]) = .ok envelope ∧
        (envelope.field "result").Same sampleResult := by
  intro client raw
  have hblank : SingleBlankLine sampleHead := by decide +kernel
  have herror : ∀ e, Entries.lookup? "error" sampleEntries = some e → e = .null := by
    intro e he
    exact (Option.some.inj he).symm
  have hprint : (Value.object sampleEntries).printWith none
      = .ok (Value.object sampleEntries).compact := rfl
  have hchunks : [raw.take 60, raw.drop 60].flatten = raw := by
    rw [List.flatten_cons, List.flatten_singleton, List.take_append_drop]
  rcases conclude_of_printed client sample_sendable rfl herror hprint (.inl sample_statusLine)
    hblank hchunks with ⟨envelope, henvelope, -, -, hr⟩
  exact ⟨hblank, envelope, henvelope, hr⟩

end Body

end Rpc

end NodeWatch

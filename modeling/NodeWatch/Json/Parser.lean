import NodeWatch.Decimal.Numeral
import NodeWatch.Json.Error
import NodeWatch.Json.Printer

/-!
# Reading JSON

A reader takes the front of a text and leaves the rest. Readers of values
come with a proof that the rest is shorter, and it is the length of the text
that lets them call each other: every item of an array and every entry of an
object is read from what the one before it left.

The grammar is the usual one with three freedoms. Numbers may have leading
zeros, strings may hold any unit but a quotation mark and a backslash, and of
equal keys the last one counts. A number with neither a fraction nor an
exponent is a whole number and has to fit sixty-four bits; every other one is
the double nearest to it.

## Main definitions

* `Json.Parsed`: A value and the shorter rest that its reader left.
* `Json.stringBody`: A string behind its opening quotation mark.
* `Json.number`: A number.
* `Json.value`, `Json.items`, `Json.members`: Values and what they contain.
* `Json.parse`: The value of a whole text.
-/

namespace NodeWatch

namespace Json

/-- The blanks between the parts of a JSON text. -/
def isSpace (u : CodeUnit) : Bool := u == 0x20 || u == 0x09 || u == 0x0D || u == 0x0A

/-- The text without blanks at its front. -/
def skipSpace (s : Text) : Text := s.dropWhile isSpace

theorem skipSpace_length_le (s : Text) : (skipSpace s).length ≤ s.length :=
  List.dropWhile_sublist isSpace |>.length_le

theorem length_lt_of_skipSpace {s rest : Text} {u : CodeUnit}
    (h : skipSpace s = u :: rest) : rest.length < s.length := by
  have := skipSpace_length_le s
  rw [h, List.length_cons] at this
  omega

/-- The unit that a backslash and a letter stand for. -/
def escaped? (e : CodeUnit) : Option CodeUnit :=
  if e = 0x22 ∨ e = 0x5C ∨ e = 0x2F then some e
  else if e = ascii 'b' then some 0x08
  else if e = ascii 'f' then some 0x0C
  else if e = ascii 'n' then some 0x0A
  else if e = ascii 'r' then some 0x0D
  else if e = ascii 't' then some 0x09
  else none

/-- The unit that four hexadecimal digits write. -/
def hexUnit? (a b c d : CodeUnit) : Option CodeUnit := do
  let n := ((← a.hexValue?) * 16 + (← b.hexValue?)) * 16 + (← c.hexValue?)
  return UInt16.ofNat (n * 16 + (← d.hexValue?))

/-- A unit put in front of a string that was read. -/
def consUnit (u : CodeUnit) : Except Failure (Text × Text) → Except Failure (Text × Text)
  | .ok (s, rest) => .ok (u :: s, rest)
  | .error e => .error e

/-- A string behind its opening quotation mark, and what follows it. -/
def stringBody : Text → Except Failure (Text × Text)
  | [] => .error ⟨.unterminated, 0⟩
  | u :: rest =>
    if u = 0x22 then .ok ([], rest)
    else if u = 0x5C then
      match rest with
      | [] => .error ⟨.unterminatedEscape, 0⟩
      | e :: rest =>
        match escaped? e with
        | some c => consUnit c (stringBody rest)
        | none =>
          if e = ascii 'u' then
            match rest with
            | a :: b :: c :: d :: tail =>
              match hexUnit? a b c d with
              | some n => consUnit n (stringBody tail)
              | none => .error ⟨.badHex, rest.length⟩
            | _ => .error ⟨.shortHex, rest.length⟩
          else .error ⟨.escape e, rest.length + 1⟩
    else consUnit u (stringBody rest)

theorem consUnit_eq_ok {u : CodeUnit} {r : Except Failure (Text × Text)} {s rest : Text}
    (h : consUnit u r = .ok (s, rest)) : ∃ t, s = u :: t ∧ r = .ok (t, rest) := by
  rcases r with e | ⟨t, q⟩
  · simp [consUnit] at h
  · simp only [consUnit, Except.ok.injEq, Prod.mk.injEq] at h
    exact ⟨t, h.1.symm, by rw [h.2]⟩

/-- A string that was read is followed by less than was there. -/
theorem stringBody_length_lt {s t rest : Text} (h : stringBody s = .ok (t, rest)) :
    rest.length < s.length := by
  fun_induction stringBody s generalizing t with
  | case1 => simp at h
  | case2 => simp_all
  | case3 => simp at h
  | case4 _ _ _ _ _ ih | case5 _ _ _ _ _ _ _ _ _ ih | case9 _ _ _ _ ih =>
    obtain ⟨t', -, h'⟩ := consUnit_eq_ok h
    have := ih h'
    simp only [List.length_cons]
    omega
  | _ => simp at h

/-- What a reader takes from the front of a text, with the shorter rest. -/
structure Parsed (α : Type) (s : Text) where
  value : α
  rest : Text
  shorter : rest.length < s.length

/-- The value of a number written by its parts. Without a fraction and an
    exponent it is a whole number and has to be in range. -/
def numberValue (negative : Bool) (whole : Text) (fraction : Option Text)
    (exponent : Option Int) : Option Value :=
  match fraction, exponent with
  | none, none =>
    let n : Int := Text.digitsValue whole
    (int? (if negative then -n else n)).toOption
  | _, _ =>
    let digits := fraction.getD []
    some (.float (Double.ofDecimal negative (Text.digitsValue (whole ++ digits))
      (exponent.getD 0 - digits.length)))

/-- Digits at the front of a text; there has to be one. -/
def digits (fault : Fault) (s : Text) : Except Failure (Text × Text) :=
  let (ds, rest) := Numeral.splitDigits s
  if ds.isEmpty then .error ⟨fault, rest.length⟩ else .ok (ds, rest)

/-- The fraction at the front of a text, if a point announces one. -/
def fraction? : Text → Except Failure (Option Text × Text)
  | [] => .ok (none, [])
  | u :: rest =>
    if u = ascii '.' then (digits .fractionDigit rest).map fun (ds, r) => (some ds, r)
    else .ok (none, u :: rest)

/-- The exponent at the front of a text, if a letter announces one. -/
def exponent? : Text → Except Failure (Option Int × Text)
  | [] => .ok (none, [])
  | u :: rest =>
    if u = ascii 'e' ∨ u = ascii 'E' then
      let (negative, rest) := Numeral.splitSign rest
      (digits .exponentDigit rest).map fun (ds, r) =>
        let n : Int := Text.digitsValue ds
        (some (if negative then -n else n), r)
    else .ok (none, u :: rest)

/-- A minus sign at the front of a text: whether there is one, and the rest. -/
def splitMinus : Text → Bool × Text
  | [] => (false, [])
  | u :: rest => if u = ascii '-' then (true, rest) else (false, u :: rest)

/-- A number at the front of a text, and what follows it. -/
def number (s : Text) : Except Failure (Value × Text) := do
  let (negative, afterSign) := splitMinus s
  let (whole, afterWhole) ← digits .digit afterSign
  let (fraction, afterFraction) ← fraction? afterWhole
  let (exponent, rest) ← exponent? afterFraction
  match numberValue negative whole fraction exponent with
  | some v => return (v, rest)
  | none => throw ⟨.intRange, s.length⟩

theorem splitDigits_length (s : Text) :
    (Numeral.splitDigits s).1.length + (Numeral.splitDigits s).2.length = s.length := by
  rw [Numeral.splitDigits, ← List.length_append, List.takeWhile_append_dropWhile]

theorem digits_length_lt {fault : Fault} {s ds rest : Text}
    (h : digits fault s = .ok (ds, rest)) : rest.length < s.length := by
  have hs := splitDigits_length s
  simp only [digits] at h
  split at h
  · simp at h
  · next hne =>
    simp only [Except.ok.injEq, Prod.mk.injEq] at h
    have : 0 < ds.length := by
      rw [← h.1]
      exact List.length_pos_iff.mpr (by simpa using hne)
    rw [h.1, h.2] at hs
    omega

theorem fraction?_length_le {s rest : Text} {f : Option Text}
    (h : fraction? s = .ok (f, rest)) : rest.length ≤ s.length := by
  cases s with
  | nil => simp_all [fraction?]
  | cons u t =>
    simp only [fraction?] at h
    split at h
    · cases hd : digits .fractionDigit t with
      | error e => simp [hd, Except.map] at h
      | ok p =>
        simp only [hd, Except.map, Except.ok.injEq, Prod.mk.injEq] at h
        have := digits_length_lt (show digits .fractionDigit t = .ok (p.1, p.2) from hd)
        rw [← h.2, List.length_cons]
        omega
    · simp only [Except.ok.injEq, Prod.mk.injEq] at h
      exact Nat.le_of_eq (congrArg List.length h.2.symm)

theorem splitSign_length_le (s : Text) : (Numeral.splitSign s).2.length ≤ s.length := by
  cases s with
  | nil => simp [Numeral.splitSign]
  | cons u t =>
    simp only [Numeral.splitSign]
    split
    · simp
    · split <;> simp

theorem exponent?_length_le {s rest : Text} {e : Option Int}
    (h : exponent? s = .ok (e, rest)) : rest.length ≤ s.length := by
  cases s with
  | nil => simp_all [exponent?]
  | cons u t =>
    simp only [exponent?] at h
    split at h
    · cases hd : digits .exponentDigit (Numeral.splitSign t).2 with
      | error e => simp [hd, Except.map] at h
      | ok p =>
        simp only [hd, Except.map, Except.ok.injEq, Prod.mk.injEq] at h
        have := digits_length_lt
          (show digits .exponentDigit (Numeral.splitSign t).2 = .ok (p.1, p.2) from hd)
        have := splitSign_length_le t
        rw [← h.2, List.length_cons]
        omega
    · simp only [Except.ok.injEq, Prod.mk.injEq] at h
      exact Nat.le_of_eq (congrArg List.length h.2.symm)

theorem splitMinus_length_le (s : Text) : (splitMinus s).2.length ≤ s.length := by
  cases s with
  | nil => simp [splitMinus]
  | cons u t => simp only [splitMinus]; split <;> simp

/-- A number that was read is followed by less than was there. -/
theorem number_length_lt {s rest : Text} {v : Value} (h : number s = .ok (v, rest)) :
    rest.length < s.length := by
  simp only [number, bind, Except.bind] at h
  have h0 := splitMinus_length_le s
  split at h
  · simp at h
  · next p hp =>
    have h1 := digits_length_lt (show digits .digit (splitMinus s).2 = .ok (p.1, p.2) from hp)
    split at h
    · simp at h
    · next f hf =>
      have h2 := fraction?_length_le (show fraction? p.2 = .ok (f.1, f.2) from hf)
      split at h
      · simp at h
      · next x hx =>
        have h3 := exponent?_length_le (show exponent? f.2 = .ok (x.1, x.2) from hx)
        split at h
        · simp only [pure, Except.pure, Except.ok.injEq, Prod.mk.injEq] at h
          rw [← h.2]
          omega
        · simp [throw, throwThe, MonadExceptOf.throw] at h

/-- A word that spells a literal, with the value that it stands for. -/
def literal (word : Text) (v : Value) (s : Text) : Except Failure (Parsed Value s) :=
  if h : s.length - word.length < s.length ∧ word.isPrefixOf s then
    .ok ⟨v, s.drop word.length, by rw [List.length_drop]; exact h.1⟩
  else .error ⟨.literal word, s.length⟩

/-- A result read from a later part of a text is read from the text. -/
def Parsed.widen {s t : Text} (h : s.length ≤ t.length) (p : Parsed α s) : Parsed α t :=
  ⟨p.value, p.rest, Nat.lt_of_lt_of_le p.shorter h⟩

/-- A result with its value made into another. -/
def Parsed.map {s : Text} (f : α → β) (p : Parsed α s) : Parsed β s :=
  ⟨f p.value, p.rest, p.shorter⟩

/-- A string at the front of a text, its opening quotation mark already seen. -/
def string {s : Text} (u : CodeUnit) (body : Text) (hs : s = u :: body) :
    Except Failure (Parsed Text s) :=
  match h : stringBody body with
  | .error e => .error e
  | .ok (t, rest) => .ok ⟨t, rest, by
      have := stringBody_length_lt h
      rw [hs, List.length_cons]
      omega⟩

/-- A number at the front of a text, with the proof that it takes some of it. -/
def numeral (s : Text) : Except Failure (Parsed Value s) :=
  match h : number s with
  | .error e => .error e
  | .ok (v, rest) => .ok ⟨v, rest, number_length_lt h⟩

mutual

/-- A value at the front of a text, blanks in front of it skipped. -/
def value (s : Text) : Except Failure (Parsed Value s) :=
  match h : skipSpace s with
  | [] => .error ⟨.endOfInput, 0⟩
  | u :: rest =>
    have hle : (u :: rest).length ≤ s.length := h ▸ skipSpace_length_le s
    have hlt : rest.length < s.length := length_lt_of_skipSpace h
    if u = ascii '{' then
      match hr : skipSpace rest with
      | [] => .error ⟨.key, 0⟩
      | c :: tail =>
        if c = ascii '}' then
          .ok ⟨.object [], tail, Nat.lt_trans (length_lt_of_skipSpace hr) hlt⟩
        else match members rest with
          | .error e => .error e
          | .ok p => .ok ⟨.object (Entries.ofList p.value), p.rest, Nat.lt_trans p.shorter hlt⟩
    else if u = ascii '[' then
      match hr : skipSpace rest with
      | [] => .error ⟨.endOfInput, 0⟩
      | c :: tail =>
        if c = ascii ']' then
          .ok ⟨.array [], tail, Nat.lt_trans (length_lt_of_skipSpace hr) hlt⟩
        else match items rest with
          | .error e => .error e
          | .ok p => .ok ⟨.array p.value, p.rest, Nat.lt_trans p.shorter hlt⟩
    else if u = 0x22 then
      (string u rest rfl).map fun p => (p.map Value.string).widen hle
    else if u = ascii 't' then (literal "true" (.bool true) (u :: rest)).map (·.widen hle)
    else if u = ascii 'f' then (literal "false" (.bool false) (u :: rest)).map (·.widen hle)
    else if u = ascii 'n' then (literal "null" .null (u :: rest)).map (·.widen hle)
    else if u = ascii '-' ∨ u.isDigit then (numeral (u :: rest)).map (·.widen hle)
    else .error ⟨.unexpected u, rest.length + 1⟩
termination_by (s.length, 0)

/-- The items of an array from the first of them on, up to its closing bracket. -/
def items (s : Text) : Except Failure (Parsed (List Value) s) :=
  match value s with
  | .error e => .error e
  | .ok p =>
    match h : skipSpace p.rest with
    | [] => .error ⟨.arrayEnd, 0⟩
    | u :: rest =>
      have hlt : rest.length < s.length := Nat.lt_trans (length_lt_of_skipSpace h) p.shorter
      if u = ascii ',' then
        match items rest with
        | .error e => .error e
        | .ok q => .ok ⟨p.value :: q.value, q.rest, Nat.lt_trans q.shorter hlt⟩
      else if u = ascii ']' then .ok ⟨[p.value], rest, hlt⟩
      else .error ⟨.arraySeparator, rest.length + 1⟩
termination_by (s.length, 1)

/-- The entries of an object from the first of them on, up to its closing brace. -/
def members (s : Text) : Except Failure (Parsed (List (Text × Value)) s) :=
  match h : skipSpace s with
  | [] => .error ⟨.key, 0⟩
  | u :: body =>
    have hs : (u :: body).length ≤ s.length := h ▸ skipSpace_length_le s
    if u = 0x22 then
      match string u body rfl with
      | .error e => .error e
      | .ok k =>
        match hc : skipSpace k.rest with
        | [] => .error ⟨.colonMissing, 0⟩
        | c :: tail =>
          have htail : tail.length < s.length :=
            Nat.lt_of_lt_of_le (Nat.lt_trans (length_lt_of_skipSpace hc) k.shorter) hs
          if c = ascii ':' then
            match value tail with
            | .error e => .error e
            | .ok p =>
              match hp : skipSpace p.rest with
              | [] => .error ⟨.objectEnd, 0⟩
              | d :: rest =>
                have hlt : rest.length < s.length :=
                  Nat.lt_trans (Nat.lt_trans (length_lt_of_skipSpace hp) p.shorter) htail
                if d = ascii ',' then
                  match members rest with
                  | .error e => .error e
                  | .ok q =>
                    .ok ⟨(k.value, p.value) :: q.value, q.rest, Nat.lt_trans q.shorter hlt⟩
                else if d = ascii '}' then .ok ⟨[(k.value, p.value)], rest, hlt⟩
                else .error ⟨.objectSeparator, rest.length + 1⟩
          else .error ⟨.colonExpected c, tail.length + 1⟩
    else .error ⟨.key, body.length + 1⟩
termination_by (s.length, 1)

end

/-- The value of a whole text, with nothing but blanks around it. -/
def read (s : Text) : Except Failure Value :=
  match value s with
  | .error e => .error e
  | .ok p =>
    let rest := skipSpace p.rest
    if rest.isEmpty then .ok p.value else .error ⟨.trailing, rest.length⟩

/-- The value of a whole text, or its first fault with the place of it. -/
def parse (s : Text) : Except ParseError Value :=
  (read s).mapError (Failure.locate s.length)

end Json

end NodeWatch

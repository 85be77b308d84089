import NodeWatch.Json.Value
import NodeWatch.Proofs.Double.Nearest

/-!
# The Grammar of JSON

Which texts are JSON, and what each of them means, said without a reader.
The reader takes a text apart from the left and has to decide at every unit
what comes next; the grammar only says how texts are put together, so a text
may be cut in any way that makes its parts fit. That the two agree is the
subject of `Proofs.Json.Reading`.

The grammar is kept apart from the reader down to its leaves: blanks, digits
and their values, and escapes are listed here once more. How a number is rounded
is not shared either: the grammar asks for the nearest double, and the reader
computes it.

Numbers may have leading zeros, strings may hold every unit but a quotation
mark and a backslash, and entries of an object may repeat a key. Then the last
of the entries with one key counts, and it counts where the first of them
stands.

## Main definitions

* `Grammar.Blank`, `Grammar.Digits`: Texts of blanks, and of digits.
* `Grammar.decimal`, `Grammar.HexDigit`: The values of digits.
* `Grammar.Number`: Numbers and their values.
* `Grammar.Quoted`: Strings between quotation marks and what they hold.
* `Grammar.Bare`: Values without blanks around them.
* `Grammar.Denotes`: Values with blanks around them, which are the JSON texts.
* `Grammar.Items`, `Grammar.Entry`, `Grammar.Members`: What is between brackets.
* `Grammar.Holds`: What an object holds of the entries that are written in it.

## Theorems

* `Grammar.Blank.append`: Blanks after blanks are blanks.
* `Grammar.Denotes.surround`: More blanks around a value change nothing.
-/

namespace NodeWatch

namespace Json

namespace Grammar

/-- Spaces, tabs, carriage returns and line feeds, or nothing at all. -/
def Blank (t : Text) : Prop := ∀ u ∈ t, u = 0x20 ∨ u = 0x09 ∨ u = 0x0D ∨ u = 0x0A

/-- Decimal digits, at least one. -/
def Digits (t : Text) : Prop := t ≠ [] ∧ ∀ u ∈ t, 0x30 ≤ u ∧ u ≤ 0x39

/-- The number that digits write: one of them counts ten times for each that
    stands behind it. -/
def decimal : Text → Nat
  | [] => 0
  | u :: rest => (u.toNat - 0x30) * 10 ^ rest.length + decimal rest

/-- An optional minus sign, and whether it is there. -/
inductive Sign : Text → Bool → Prop where
  | none : Sign [] false
  | minus : Sign [ascii '-'] true

/-- An optional fraction, and its digits if it is there. -/
inductive Fraction : Text → Option Text → Prop where
  | none : Fraction [] none
  | some {ds : Text} (hds : Digits ds) : Fraction (ascii '.' :: ds) (some ds)

/-- The sign of an exponent, which may be a plus. -/
inductive ExponentSign : Text → Bool → Prop where
  | none : ExponentSign [] false
  | plus : ExponentSign [ascii '+'] false
  | minus : ExponentSign [ascii '-'] true

/-- An integer of a given sign and magnitude. -/
def signed (negative : Bool) (n : Nat) : Int := if negative then -(n : Int) else n

/-- An optional exponent, and its value if it is there. -/
inductive Exponent : Text → Option Int → Prop where
  | none : Exponent [] none
  | some {e : CodeUnit} {sign ds : Text} {negative : Bool} (he : e = ascii 'e' ∨ e = ascii 'E')
      (hsign : ExponentSign sign negative) (hds : Digits ds) :
      Exponent (e :: (sign ++ ds)) (some (signed negative (decimal ds)))

/-- The value of a number by its parts. With neither a fraction nor an
    exponent it is an integer, and there is a value only for those of
    sixty-four bits; otherwise it is the double nearest to the decimal. -/
inductive Meaning (negative : Bool) (whole : Text) :
    Option Text → Option Int → Value → Prop where
  | int {n : Int64} (hn : n.toInt = signed negative (decimal whole)) :
      Meaning negative whole none none (.int n)
  | fraction {ds : Text} {exponent : Option Int} {x : Double}
      (hx : Double.Nearest negative
        (decimal (whole ++ ds) * 10 ^ (exponent.getD 0 - ds.length)) x) :
      Meaning negative whole (some ds) exponent (.float x)
  | exponent {e : Int} {x : Double}
      (hx : Double.Nearest negative (decimal whole * 10 ^ e) x) :
      Meaning negative whole none (some e) (.float x)

/-- A number and its value. -/
inductive Number : Text → Value → Prop where
  | mk {sign whole fraction exponent : Text} {negative : Bool} {f : Option Text} {e : Option Int}
      {v : Value} (hs : Sign sign negative) (hw : Digits whole) (hf : Fraction fraction f)
      (he : Exponent exponent e) (hv : Meaning negative whole f e v) :
      Number (sign ++ (whole ++ (fraction ++ exponent))) v

/-- The letter of an escape of two units, and what it stands for. -/
inductive Letter : CodeUnit → CodeUnit → Prop where
  | quotation : Letter 0x22 0x22
  | backslash : Letter 0x5C 0x5C
  | slash : Letter 0x2F 0x2F
  | backspace : Letter (ascii 'b') 0x08
  | formFeed : Letter (ascii 'f') 0x0C
  | lineFeed : Letter (ascii 'n') 0x0A
  | carriageReturn : Letter (ascii 'r') 0x0D
  | tab : Letter (ascii 't') 0x09

/-- A hexadecimal digit of either case, and its value. -/
inductive HexDigit (u : CodeUnit) (n : Nat) : Prop where
  | digit (hn : n < 10) (hu : u.toNat = 0x30 + n)
  | lower (hn : 10 ≤ n ∧ n < 16) (hu : u.toNat = 0x61 + (n - 10))
  | upper (hn : 10 ≤ n ∧ n < 16) (hu : u.toNat = 0x41 + (n - 10))

/-- One unit of a string in any of its spellings. -/
inductive Spelling : Text → CodeUnit → Prop where
  /-- Control characters and lone surrogates may stand for themselves. -/
  | raw {u : CodeUnit} (hq : u ≠ 0x22) (hb : u ≠ 0x5C) : Spelling [u] u
  | letter {e c : CodeUnit} (h : Letter e c) : Spelling [0x5C, e] c
  | hex {a b c d : CodeUnit} {w x y z : Nat} (ha : HexDigit a w) (hb : HexDigit b x)
      (hc : HexDigit c y) (hd : HexDigit d z) :
      Spelling [0x5C, ascii 'u', a, b, c, d] (UInt16.ofNat (((w * 16 + x) * 16 + y) * 16 + z))

/-- The spellings of the units of a string one after the other. -/
inductive Body : Text → Text → Prop where
  | nil : Body [] []
  | cons {t b s : Text} {u : CodeUnit} (hu : Spelling t u) (hb : Body b s) :
      Body (t ++ b) (u :: s)

/-- A string between quotation marks. -/
inductive Quoted : Text → Text → Prop where
  | mk {b s : Text} (h : Body b s) : Quoted (0x22 :: (b ++ [0x22])) s

/-- What an object holds of the entries that are written in it: every key once,
    in the order in which the keys are first written, and with it the value of
    the last entry with that key. -/
structure Holds (writes : List (Text × Value)) (es : Entries) : Prop where
  keys : es.map Prod.fst = (writes.map Prod.fst).eraseDups
  last : ∀ k v, (k, v) ∈ es →
    ∃ before after, writes = before ++ (k, v) :: after ∧ ∀ e ∈ after, e.1 ≠ k

mutual

/-- A value without blanks around it. -/
inductive Bare : Text → Value → Prop where
  | null : Bare "null" .null
  | bool (b : Bool) : Bare (Text.ofBool b) (.bool b)
  | number {t : Text} {v : Value} (h : Number t v) : Bare t v
  | string {t s : Text} (h : Quoted t s) : Bare t (.string s)
  | emptyArray {b : Text} (hb : Blank b) : Bare (ascii '[' :: (b ++ [ascii ']'])) (.array [])
  | array {t : Text} {vs : List Value} (h : Items t vs) :
      Bare (ascii '[' :: (t ++ [ascii ']'])) (.array vs)
  | emptyObject {b : Text} (hb : Blank b) :
      Bare (ascii '\x7b' :: (b ++ [ascii '\x7d'])) (.object [])
  | object {t : Text} {writes : List (Text × Value)} {es : Entries} (h : Members t writes)
      (hes : Holds writes es) : Bare (ascii '\x7b' :: (t ++ [ascii '\x7d'])) (.object es)

/-- A value with blanks around it. -/
inductive Denotes : Text → Value → Prop where
  | mk {a t b : Text} {v : Value} (ha : Blank a) (h : Bare t v) (hb : Blank b) :
      Denotes (a ++ (t ++ b)) v

/-- Values with commas between them, at least one. -/
inductive Items : Text → List Value → Prop where
  | last {t : Text} {v : Value} (h : Denotes t v) : Items t [v]
  | cons {t ts : Text} {v : Value} {vs : List Value} (h : Denotes t v) (hs : Items ts vs) :
      Items (t ++ ascii ',' :: ts) (v :: vs)

/-- A key and its value with a colon between them. -/
inductive Entry : Text → Text × Value → Prop where
  | mk {a key b t s : Text} {v : Value} (ha : Blank a) (hk : Quoted key s) (hb : Blank b)
      (h : Denotes t v) : Entry (a ++ (key ++ (b ++ ascii ':' :: t))) (s, v)

/-- Entries with commas between them, at least one. -/
inductive Members : Text → List (Text × Value) → Prop where
  | last {t : Text} {e : Text × Value} (h : Entry t e) : Members t [e]
  | cons {t ts : Text} {e : Text × Value} {es : List (Text × Value)} (h : Entry t e)
      (hs : Members ts es) : Members (t ++ ascii ',' :: ts) (e :: es)

end

theorem Blank.nil : Blank [] := by
  intro u hu
  exact absurd hu (List.not_mem_nil)

theorem Blank.append {a b : Text} (ha : Blank a) (hb : Blank b) : Blank (a ++ b) := by
  intro u hu
  rcases List.mem_append.mp hu with h | h
  · exact ha u h
  · exact hb u h

/-- More blanks around a value change nothing. This is what lets a value be
    indented without looking into its text. -/
theorem Denotes.surround {a t b : Text} {v : Value} (ha : Blank a) (h : Denotes t v)
    (hb : Blank b) : Denotes (a ++ (t ++ b)) v := by
  cases h with
  | mk hc h hd =>
      have := Denotes.mk (ha.append hc) h (hd.append hb)
      simpa only [List.append_assoc] using this

theorem Bare.denotes {t : Text} {v : Value} (h : Bare t v) : Denotes t v := by
  have := Denotes.mk Blank.nil h Blank.nil
  simpa only [List.nil_append, List.append_nil] using this

end Grammar

end Json

end NodeWatch

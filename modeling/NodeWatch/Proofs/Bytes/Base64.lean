import NodeWatch.Bytes.Base64

/-!
# Reading Base64

The other direction of the encoding, as the receiver of a request reads it.
Four letters are three bytes. The last four may be filled up, and the bits that
no byte takes have to be zero then. It is enough to know that a letter stands
for the bits it was made of: the bytes of a group are put together from these
bits by shifts that are plain arithmetic.

## Main definitions

* `Base64.value?`: The six bits of a letter.
* `Base64.decode`: The bytes of letters.

## Theorems

* `value?_letter`: A letter stands for the bits that it was made of.
* `encode_bounds`: No letter ends a line.
* `decode_encode`: Bytes are read back.
-/

namespace NodeWatch

namespace Base64

/-- The six bits that a letter stands for. -/
def value? (u : CodeUnit) : Option Nat :=
  if 0x41 ≤ u ∧ u ≤ 0x5A then some (u.toNat - 0x41)
  else if 0x61 ≤ u ∧ u ≤ 0x7A then some (u.toNat - 0x61 + 26)
  else if 0x30 ≤ u ∧ u ≤ 0x39 then some (u.toNat - 0x30 + 52)
  else if u = 0x2B then some 62
  else if u = 0x2F then some 63
  else none

/-- The byte of two letters, the second of which has two bits to give. -/
def one? (a b : CodeUnit) : Option Bytes := do
  let x ← value? a
  let y ← value? b
  guard (y % 16 = 0)
  return [UInt8.ofNat (x * 4 + y / 16)]

/-- The bytes of three letters, the third of which has four bits to give. -/
def two? (a b c : CodeUnit) : Option Bytes := do
  let x ← value? a
  let y ← value? b
  let z ← value? c
  guard (z % 4 = 0)
  return [UInt8.ofNat (x * 4 + y / 16), UInt8.ofNat (y % 16 * 16 + z / 4)]

/-- The bytes of four letters. -/
def three? (a b c d : CodeUnit) : Option Bytes := do
  let x ← value? a
  let y ← value? b
  let z ← value? c
  let w ← value? d
  return [UInt8.ofNat (x * 4 + y / 16), UInt8.ofNat (y % 16 * 16 + z / 4),
    UInt8.ofNat (z % 4 * 64 + w)]

/-- The bytes of letters, which come in fours. Only the last four may be
    filled up. -/
def decode : Text → Option Bytes
  | [] => some []
  | a :: b :: c :: d :: rest =>
    if rest = [] ∧ d = filler then if c = filler then one? a b else two? a b c
    else do return (← three? a b c d) ++ (← decode rest)
  | _ => none

theorem value?_letter {n : Nat} (h : n < 64) : value? (letter n) = some n := by
  have hall : ∀ n : Fin 64, value? (letter n) = some n.val := by decide +kernel
  exact hall ⟨n, h⟩

theorem value?_filler : value? filler = none := by decide

theorem letter_ne_filler {n : Nat} (h : n < 64) : letter n ≠ filler := by
  intro hc
  have hvalue := value?_letter h
  rw [hc, value?_filler] at hvalue
  exact absurd hvalue (by simp only [reduceCtorEq, not_false_eq_true])

theorem letter_bounds {n : Nat} (h : n < 64) : 0x2B ≤ letter n ∧ letter n < 0x80 := by
  have hall : ∀ n : Fin 64, 0x2B ≤ letter n ∧ letter n < 0x80 := by decide +kernel
  exact hall ⟨n, h⟩

/-- Letters and fillers are ASCII, and come after everything that ends a line. -/
theorem encode_bounds (bytes : Bytes) : ∀ u ∈ encode bytes, 0x2B ≤ u ∧ u < 0x80 := by
  have hfiller : 0x2B ≤ filler ∧ filler < 0x80 := by decide
  fun_induction encode bytes with
  | case1 => exact fun u hu => absurd hu List.not_mem_nil
  | case2 a =>
      have ha := a.toNat_lt
      simp only [List.forall_mem_cons, List.not_mem_nil, false_implies, implies_true, and_true]
      exact ⟨letter_bounds (by omega), letter_bounds (by omega), hfiller, hfiller⟩
  | case3 a b =>
      have ha := a.toNat_lt
      have hb := b.toNat_lt
      simp only [List.forall_mem_cons, List.not_mem_nil, false_implies, implies_true, and_true]
      exact ⟨letter_bounds (by omega), letter_bounds (by omega), letter_bounds (by omega), hfiller⟩
  | case4 a b c rest ih =>
      have ha := a.toNat_lt
      have hb := b.toNat_lt
      have hc := c.toNat_lt
      simp only [List.forall_mem_cons]
      exact ⟨letter_bounds (by omega), letter_bounds (by omega), letter_bounds (by omega),
        letter_bounds (by omega), ih⟩

/-! ### Groups -/

section Groups

variable {x y z w : Nat} (hx : x < 64) (hy : y < 64) (hz : z < 64) (hw : w < 64)

include hx hy in
theorem one?_letter (hrest : y % 16 = 0) :
    one? (letter x) (letter y) = some [UInt8.ofNat (x * 4 + y / 16)] := by
  have hguard : (guard (y % 16 = 0) : Option Unit) = some () := if_pos hrest
  rw [one?, value?_letter hx, value?_letter hy]
  change (guard (y % 16 = 0) >>= fun _ => some _) = _
  rw [hguard]
  rfl

include hx hy hz in
theorem two?_letter (hrest : z % 4 = 0) :
    two? (letter x) (letter y) (letter z)
      = some [UInt8.ofNat (x * 4 + y / 16), UInt8.ofNat (y % 16 * 16 + z / 4)] := by
  have hguard : (guard (z % 4 = 0) : Option Unit) = some () := if_pos hrest
  rw [two?, value?_letter hx, value?_letter hy, value?_letter hz]
  change (guard (z % 4 = 0) >>= fun _ => some _) = _
  rw [hguard]
  rfl

include hx hy hz hw in
theorem three?_letter :
    three? (letter x) (letter y) (letter z) (letter w)
      = some [UInt8.ofNat (x * 4 + y / 16), UInt8.ofNat (y % 16 * 16 + z / 4),
        UInt8.ofNat (z % 4 * 64 + w)] := by
  simp only [three?, value?_letter hx, value?_letter hy, value?_letter hz, value?_letter hw]
  rfl

end Groups

theorem ofNat_eq {n : Nat} {b : UInt8} (h : n = b.toNat) : UInt8.ofNat n = b := by
  rw [h, UInt8.ofNat_toNat]

theorem decode_encode (bytes : Bytes) : decode (encode bytes) = some bytes := by
  -- Within a group what is left to show of a byte is arithmetic on its quotients.
  fun_induction encode bytes with
  | case1 => rfl
  | case2 a =>
      have ha := a.toNat_lt
      rw [decode, if_pos ⟨rfl, rfl⟩, if_pos rfl, one?_letter (by omega) (by omega) (by omega),
        ofNat_eq (b := a) (by omega)]
  | case3 a b =>
      have ha := a.toNat_lt
      have hb := b.toNat_lt
      rw [decode, if_pos ⟨rfl, rfl⟩, if_neg (letter_ne_filler (by omega)),
        two?_letter (by omega) (by omega) (by omega) (by omega), ofNat_eq (b := a) (by omega),
        ofNat_eq (b := b) (by omega)]
  | case4 a b c rest ih =>
      have ha := a.toNat_lt
      have hb := b.toNat_lt
      have hc := c.toNat_lt
      -- The fourth letter is no filler, so this group is not taken for the last.
      have hlast : ¬ (encode rest = [] ∧ letter (c.toNat % 64) = filler) :=
        fun h => letter_ne_filler (by omega) h.2
      rw [decode, if_neg hlast, ih, three?_letter (by omega) (by omega) (by omega) (by omega),
        ofNat_eq (b := a) (by omega), ofNat_eq (b := b) (by omega), ofNat_eq (b := c) (by omega)]
      rfl

end Base64

end NodeWatch

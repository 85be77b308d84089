import NodeWatch.Proofs.Text.Utf8
import Mathlib.Tactic.SplitIfs

/-!
# The Order of Texts

Texts are read side by side until two code points differ or one of the texts
ends. That is the lexicographic order of their code points, `compare_eq`,
although the end counts what is left in units: whoever ends first has nothing
left. So the order leaves nothing open: of two different texts one comes first,
lone surrogates or not. Most of this is inherited from the order of lists. What
has to be added is that no two texts have the same code points, since a text is
made up of them.

On well-formed texts the order is the one of their bytes. Code units would not
do: a pair of surrogates lies below the units from `0xE000` on, and the
character that the pair stands for lies above them. The bytes have no such
gap. A longer form begins with a greater byte, and within one length the bytes
are the digits of the code point to the base of `0x40`, the first of them in
front. So the bytes of two code points differ at a byte that decides, and it
decides whatever follows. `Before` is that property, and it is what lets code
points be compared one after the other although their bytes differ in number.

## Main definitions

* `Utf8.Before`: Bytes that come first whatever follows them.

## Theorems

* `Text.compare_eq`: The order of texts is that of their code points.
* `Text.isLE_total`, `Text.isLE_trans`, `Text.isLE_antisymm`: The order of
  texts is a linear one.
* `Utf8.before_encodePoint`: The bytes of code points are in their order.
* `Text.compare_encode`: The order of well-formed texts is that of their bytes.
* `Text.compare_linear`: Both together.
-/

namespace NodeWatch

namespace Text

/-! ### Side by side -/

/-- A text is its front and what stands behind as many units as that takes. -/
theorem codePoints_front (u : CodeUnit) (t : Text) :
    codePoints (u :: t) = front (u :: t) :: codePoints ((u :: t).drop (width (front (u :: t)))) := by
  have hunit : width u.toNat = 1 := by
    have hlt := u.toNat_lt
    exact if_neg (by omega)
  cases t with
  | nil => rw [codePoints, front, hunit, List.drop_one, List.tail_cons, codePoints]
  | cons v rest =>
      by_cases hpair : (u.isHighSurrogate && v.isLowSurrogate) = true
      · have hjoined : width (joinPair u v) = 2 := by
          have hbeyond : 0x10000 ≤ joinPair u v := by
            unfold joinPair
            omega
          exact if_pos (by omega)
        rw [codePoints_pair hpair, front, if_pos hpair, hjoined]
        rfl
      · rw [codePoints_apart hpair, front, if_neg hpair, hunit]
        rfl

/-- At the end of a text the one that goes on comes behind the other. -/
theorem compare_of_ended {a b : Text}
    (h : ∀ (u : CodeUnit) (s : List CodeUnit) (v : CodeUnit) (t : List CodeUnit),
      a = u :: s → b = v :: t → False) :
    Ord.compare ((a.length : Int) - b.length) 0
      = List.compareLex Ord.compare (codePoints a) (codePoints b) := by
  cases a with
  | nil =>
      cases b with
      | nil => rfl
      | cons v t =>
          have hless : (0 : Int) - (v :: t).length < 0 := by
            rw [List.length_cons]
            omega
          rw [codePoints_front v t]
          exact Std.compare_eq_lt.mpr hless
  | cons u s =>
      cases b with
      | nil =>
          have hmore : (0 : Int) < (u :: s).length - 0 := by
            rw [List.length_cons]
            omega
          rw [codePoints_front u s]
          exact Std.compare_eq_gt.mpr hmore
      | cons v t => exact (h u s v t rfl rfl).elim

/-- The order of texts is that of their code points. -/
theorem compare_eq (a b : Text) :
    compare a b = List.compareLex Ord.compare (codePoints a) (codePoints b) := by
  unfold compare
  induction a, b using difference.induct with
  | case1 u a v b m n hdiffer hlt =>
      rw [difference, if_pos hdiffer, if_pos hlt, codePoints_front u a, codePoints_front v b,
        List.compareLex_cons_cons, Nat.compare_eq_lt.mpr hlt]
      rfl
  | case2 u a v b m n hdiffer hle =>
      have hgt : n < m := by omega
      rw [difference, if_pos hdiffer, if_neg hle, codePoints_front u a, codePoints_front v b,
        List.compareLex_cons_cons, Nat.compare_eq_gt.mpr hgt]
      rfl
  | case3 u a v b m n hsame ih =>
      have hequal : m = n := Decidable.not_not.mp hsame
      rw [difference, if_neg hsame, ih, codePoints_front u a, codePoints_front v b,
        List.compareLex_cons_cons, Nat.compare_eq_eq.mpr hequal]
      rfl
  | case4 a b hended =>
      rw [difference.eq_2 a b hended]
      exact compare_of_ended hended

/-! ### A linear order -/

theorem compare_swap (a b : Text) : compare a b = (compare b a).swap := by
  rw [compare_eq, compare_eq]
  exact Std.OrientedCmp.eq_swap

theorem isLE_total (a b : Text) : isLE a b = true ∨ isLE b a = true := by
  unfold isLE
  rw [compare_swap a b]
  cases compare b a
  · exact .inr rfl
  · exact .inl rfl
  · exact .inl rfl

theorem isLE_trans {a b c : Text} (hab : isLE a b = true) (hbc : isLE b c = true) :
    isLE a c = true := by
  unfold isLE at hab hbc ⊢
  rw [compare_eq] at hab hbc ⊢
  exact Std.TransCmp.isLE_trans hab hbc

theorem compare_eq_iff {a b : Text} : compare a b = .eq ↔ a = b := by
  constructor
  · intro h
    -- Equal code points make up equal texts.
    rw [compare_eq] at h
    have hpoints : codePoints a = codePoints b := Std.LawfulEqCmp.eq_of_compare h
    rw [← flatMap_codePoints a, hpoints, flatMap_codePoints]
  · rintro rfl
    rw [compare_eq]
    exact Std.ReflCmp.compare_self

theorem isLE_antisymm {a b : Text} (hab : isLE a b = true) (hba : isLE b a = true) : a = b := by
  unfold isLE at hab hba
  rw [compare_swap b a] at hba
  apply compare_eq_iff.mp
  cases h : compare a b with
  | eq => rfl
  | lt =>
      rw [h] at hba
      exact absurd hba (by decide)
  | gt =>
      rw [h] at hab
      exact absurd hab (by decide)

theorem compare_lt_of_isLE {a b : Text} (h : isLE a b = true) (hne : a ≠ b) :
    compare a b = .lt := by
  unfold isLE at h
  cases hc : compare a b with
  | lt => rfl
  | eq => exact absurd (compare_eq_iff.mp hc) hne
  | gt =>
      rw [hc] at h
      exact absurd h (by decide)

end Text

namespace Utf8

/-! ### The bytes of code points -/

section Before

variable {s t : Bytes} {m n u v : Nat}

/-- Bytes that come first whatever follows them and the others. -/
def Before (s t : Bytes) : Prop :=
  ∀ x y : Bytes, List.compareLex Ord.compare (s ++ x) (t ++ y) = .lt

/-- The first byte decides, or it is the same and the others do. -/
theorem before_cons (hv : v < 0x100) (h : u < v ∨ u = v ∧ Before s t) :
    Before (UInt8.ofNat u :: s) (UInt8.ofNat v :: t) := by
  intro x y
  rw [List.cons_append, List.cons_append, List.compareLex_cons_cons]
  rcases h with hlt | ⟨rfl, hst⟩
  · have hbyte : UInt8.ofNat u < UInt8.ofNat v := by
      rw [UInt8.lt_iff_toNat_lt, toNat_ofNat (Nat.lt_trans hlt hv), toNat_ofNat hv]
      exact hlt
    rw [Std.compare_eq_lt.mpr hbyte]
    rfl
  · have hsame : Ord.compare (UInt8.ofNat u) (UInt8.ofNat u) = .eq := Std.ReflCmp.compare_self
    rw [hsame]
    exact hst x y

/-- The bytes of code points are in the order of the code points. -/
theorem before_encodePoint (h : m < n) (hn : n ≤ 0x10FFFF) :
    Before (encodePoint m) (encodePoint n) := by
  unfold encodePoint
  -- By the length of the lesser one. If the other one is longer its first byte
  -- is greater; if it is as long, the first digit that differs is greater.
  by_cases hone : m < 0x80
  · rw [if_pos hone]
    by_cases hone' : n < 0x80
    · rw [if_pos hone']
      exact before_cons (by omega) (.inl h)
    · rw [if_neg hone']
      split_ifs <;> exact before_cons (by omega) (.inl (by omega))
  rw [if_neg hone, if_neg (show ¬ n < 0x80 by omega)]
  by_cases htwo : m < 0x800
  · rw [if_pos htwo]
    by_cases htwo' : n < 0x800
    · rw [if_pos htwo']
      have hdigits : m / 0x40 < n / 0x40 ∨ m / 0x40 = n / 0x40 ∧ m % 0x40 < n % 0x40 := by omega
      refine before_cons (by omega) (hdigits.imp (by omega) fun hd => ⟨by omega, ?_⟩)
      exact before_cons (by omega) (.inl (by omega))
    · rw [if_neg htwo']
      split_ifs <;> exact before_cons (by omega) (.inl (by omega))
  rw [if_neg htwo, if_neg (show ¬ n < 0x800 by omega)]
  by_cases hthree : m < 0x10000
  · rw [if_pos hthree]
    by_cases hthree' : n < 0x10000
    · rw [if_pos hthree']
      have hdigits : m / 0x1000 < n / 0x1000 ∨ m / 0x1000 = n / 0x1000 ∧
          (m / 0x40 % 0x40 < n / 0x40 % 0x40 ∨
            m / 0x40 % 0x40 = n / 0x40 % 0x40 ∧ m % 0x40 < n % 0x40) := by omega
      refine before_cons (by omega) (hdigits.imp (by omega) fun hd => ⟨by omega, ?_⟩)
      refine before_cons (by omega) (hd.2.imp (by omega) fun hd => ⟨by omega, ?_⟩)
      exact before_cons (by omega) (.inl (by omega))
    · rw [if_neg hthree']
      exact before_cons (by omega) (.inl (by omega))
  · rw [if_neg hthree, if_neg (show ¬ n < 0x10000 by omega)]
    have hdigits : m / 0x40000 < n / 0x40000 ∨ m / 0x40000 = n / 0x40000 ∧
        (m / 0x1000 % 0x40 < n / 0x1000 % 0x40 ∨ m / 0x1000 % 0x40 = n / 0x1000 % 0x40 ∧
          (m / 0x40 % 0x40 < n / 0x40 % 0x40 ∨
            m / 0x40 % 0x40 = n / 0x40 % 0x40 ∧ m % 0x40 < n % 0x40)) := by omega
    refine before_cons (by omega) (hdigits.imp (by omega) fun hd => ⟨by omega, ?_⟩)
    refine before_cons (by omega) (hd.2.imp (by omega) fun hd => ⟨by omega, ?_⟩)
    refine before_cons (by omega) (hd.2.imp (by omega) fun hd => ⟨by omega, ?_⟩)
    exact before_cons (by omega) (.inl (by omega))

end Before

/-- A code point has a byte at least. -/
theorem exists_encodePoint (n : Nat) : ∃ b rest, encodePoint n = b :: rest := by
  unfold encodePoint
  split_ifs <;> exact ⟨_, _, rfl⟩

/-- The same bytes in front of two sequences leave their order to the rest. -/
theorem compareLex_append_left (s x y : Bytes) :
    List.compareLex Ord.compare (s ++ x) (s ++ y) = List.compareLex Ord.compare x y := by
  induction s with
  | nil => rfl
  | cons b s ih =>
      have hsame : Ord.compare b b = .eq := Std.ReflCmp.compare_self
      rw [List.cons_append, List.cons_append, List.compareLex_cons_cons, hsame, ih]
      rfl

/-- Bytes of code points are ordered as the code points are. -/
theorem compareLex_flatMap {ms ns : List Nat} (hms : ∀ m ∈ ms, m ≤ 0x10FFFF)
    (hns : ∀ n ∈ ns, n ≤ 0x10FFFF) :
    List.compareLex Ord.compare (ms.flatMap encodePoint) (ns.flatMap encodePoint)
      = List.compareLex Ord.compare ms ns := by
  induction ms generalizing ns with
  | nil =>
      cases ns with
      | nil => rfl
      | cons n ns =>
          rcases exists_encodePoint n with ⟨b, rest, hb⟩
          rw [List.flatMap_cons, hb]
          rfl
  | cons m ms ih =>
      cases ns with
      | nil =>
          rcases exists_encodePoint m with ⟨b, rest, hb⟩
          rw [List.flatMap_cons, hb]
          rfl
      | cons n ns =>
          rw [List.forall_mem_cons] at hms hns
          rw [List.flatMap_cons, List.flatMap_cons, List.compareLex_cons_cons]
          rcases Nat.lt_trichotomy m n with hlt | rfl | hlt
          · rw [before_encodePoint hlt hns.1, Nat.compare_eq_lt.mpr hlt]
            rfl
          · rw [compareLex_append_left, ih hms.2 hns.2, Nat.compare_eq_eq.mpr rfl]
            rfl
          -- The other way round it is the first case again.
          · have hbefore := before_encodePoint hlt hms.1 (ns.flatMap encodePoint)
              (ms.flatMap encodePoint)
            rw [Nat.compare_eq_gt.mpr hlt]
            exact Std.OrientedCmp.gt_of_lt hbefore

end Utf8

namespace Text

/-- Well-formed texts are ordered as their bytes are. -/
theorem compare_encode {a b : Text} (ha : WellFormed a) (hb : WellFormed b) :
    compare a b = List.compareLex Ord.compare (Utf8.encode a) (Utf8.encode b) := by
  rw [Utf8.encode, Utf8.encode, ha.scalars_eq, hb.scalars_eq,
    Utf8.compareLex_flatMap (codePoints_le a) (codePoints_le b), compare_eq]

/-- Texts are in a linear order, lone surrogates or not, and for well-formed
    texts it is the lexicographic order of their bytes. -/
theorem compare_linear :
    (∀ a b : Text, compare b a = (compare a b).swap) ∧
      (∀ a b c : Text, compare a b = .lt → compare b c = .lt → compare a c = .lt) ∧
      (∀ a b : Text, compare a b = .eq ↔ a = b) ∧
      ∀ a b : Text, WellFormed a → WellFormed b →
        compare a b = List.compareLex Ord.compare (Utf8.encode a) (Utf8.encode b) := by
  refine ⟨fun a b => compare_swap b a, fun a b c hab hbc => ?_, fun a b => compare_eq_iff,
    fun a b => compare_encode⟩
  rw [compare_eq] at hab hbc ⊢
  exact Std.TransCmp.lt_trans hab hbc

/-- A lone surrogate comes before the last character of the basic plane, and
    that one before a character beyond it, whose first unit is a surrogate. The
    bytes of the two characters are in the same order. -/
theorem compare_linear_beyond :
    compare [0xD83D] [0xFFFF] = .lt ∧ compare [0xFFFF] [0xD83D, 0xDE00] = .lt ∧
      compare [0xD83D] [0xD83D, 0xDE00] = .lt ∧
      WellFormed [0xFFFF] ∧ WellFormed [0xD83D, 0xDE00] ∧
      List.compareLex Ord.compare (Utf8.encode [0xFFFF]) (Utf8.encode [0xD83D, 0xDE00]) = .lt := by
  have hlow : compare [0xD83D] [0xFFFF] = .lt := by decide
  have hhigh : compare [0xFFFF] [0xD83D, 0xDE00] = .lt := by decide
  have hlast : WellFormed [0xFFFF] := by decide
  have hbeyond : WellFormed [0xD83D, 0xDE00] := by decide
  refine ⟨hlow, hhigh, compare_linear.2.1 _ _ _ hlow hhigh, hlast, hbeyond, ?_⟩
  rw [← compare_linear.2.2.2 _ _ hlast hbeyond]
  exact hhigh

end Text

end NodeWatch

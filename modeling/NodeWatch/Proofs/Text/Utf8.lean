import NodeWatch.Text.Utf8

/-!
# Texts and Their Bytes

A well-formed text is read back from its bytes as it was written. Two things
come together. Joining the surrogates of a text to code points loses nothing,
well-formed or not. And the decoder finds the boundaries between code points
again: after the bytes of one of them it is where it was before, with nothing
begun.

The decoder is narrower than four lengths would suggest, because the first
continuation byte has bounds of its own after some leading bytes. `lead_three`
and `lead_four` say that the bytes of a code point always keep them. The bound
after `0xED` is the one that keeps surrogates out, so it is there that a text
has to be well-formed.

## Main definitions

* `IsAscii`: Every unit is an ASCII character.

## Theorems

* `WellFormed.ind`: Induction on a well-formed text.
* `codePoints_append`: Well-formed texts join without their code points
  changing.
* `flatMap_codePoints`: A text is made up of its code points.
* `decodeFrom_encodePoint`: One code point is read back.
* `decode_encode`: A well-formed text is read back.
* `mem_of_mem_encode`: A byte of ASCII stands for a unit of the text.
* `decode_take_encode`: What is read of a text whose bytes are cut off.
-/

namespace NodeWatch

namespace Text

/-! ### Code points -/

theorem isHighSurrogate_eq_false {u : CodeUnit} (h : CodePoint.isSurrogate u.toNat = false) :
    u.isHighSurrogate = false := by
  simp only [CodePoint.isSurrogate, CodeUnit.isHighSurrogate, Bool.and_eq_false_iff,
    decide_eq_false_iff_not, UInt16.le_iff_toNat_le, UInt16.toNat_ofNat] at h ⊢
  omega

/-- A unit that is no surrogate is a code point, whatever comes after it. -/
theorem codePoints_cons {u : CodeUnit} (h : CodePoint.isSurrogate u.toNat = false) (t : Text) :
    codePoints (u :: t) = u.toNat :: codePoints t := by
  cases t with
  | nil => rfl
  | cons v rest =>
      have hpair : (u.isHighSurrogate && v.isLowSurrogate) ≠ true := by
        rw [isHighSurrogate_eq_false h]
        exact Bool.false_ne_true
      rw [codePoints, if_neg hpair]

theorem surrogates_toNat {u v : CodeUnit} (h : (u.isHighSurrogate && v.isLowSurrogate) = true) :
    0xD800 ≤ u.toNat ∧ u.toNat ≤ 0xDBFF ∧ 0xDC00 ≤ v.toNat ∧ v.toNat ≤ 0xDFFF := by
  simp only [CodeUnit.isHighSurrogate, CodeUnit.isLowSurrogate, Bool.and_eq_true,
    decide_eq_true_eq, UInt16.le_iff_toNat_le, UInt16.toNat_ofNat] at h
  omega

theorem joinPair_bounds {u v : CodeUnit} (h : (u.isHighSurrogate && v.isLowSurrogate) = true) :
    0x10000 ≤ joinPair u v ∧ joinPair u v ≤ 0x10FFFF := by
  have hbounds := surrogates_toNat h
  unfold joinPair
  omega

theorem codePoints_pair {u v : CodeUnit} (h : (u.isHighSurrogate && v.isLowSurrogate) = true)
    (t : Text) : codePoints (u :: v :: t) = joinPair u v :: codePoints t := by
  rw [codePoints, if_pos h]

theorem codePoints_apart {u v : CodeUnit} (h : (u.isHighSurrogate && v.isLowSurrogate) ≠ true)
    (t : Text) : codePoints (u :: v :: t) = u.toNat :: codePoints (v :: t) := by
  rw [codePoints, if_neg h]

theorem wellFormed_nil : WellFormed [] := by
  intro n hn
  exact absurd hn List.not_mem_nil

theorem wellFormed_cons {u : CodeUnit} (hu : CodePoint.isSurrogate u.toNat = false) {t : Text}
    (h : WellFormed t) : WellFormed (u :: t) := by
  intro n hn
  rw [codePoints_cons hu] at hn
  rcases List.mem_cons.mp hn with rfl | hn
  · exact hu
  · exact h n hn

theorem wellFormed_pair {u v : CodeUnit} (hpair : (u.isHighSurrogate && v.isLowSurrogate) = true)
    {t : Text} (h : WellFormed t) : WellFormed (u :: v :: t) := by
  intro n hn
  rw [codePoints_pair hpair] at hn
  rcases List.mem_cons.mp hn with hjoin | hn
  · have hbounds := joinPair_bounds hpair
    simp only [CodePoint.isSurrogate, Bool.and_eq_false_iff, decide_eq_false_iff_not]
    omega
  · exact h n hn

/-- Induction on a well-formed text: it is a sequence of pairs and of units
    that are no surrogates. -/
theorem WellFormed.ind {P : Text → Prop} (nil : P [])
    (unit : ∀ u t, CodePoint.isSurrogate u.toNat = false → WellFormed t → P t → P (u :: t))
    (pair : ∀ u v t, (u.isHighSurrogate && v.isLowSurrogate) = true → WellFormed t → P t →
      P (u :: v :: t)) {t : Text} (h : WellFormed t) : P t := by
  induction t using codePoints.induct with
  | case1 => exact nil
  | case2 u => exact unit u [] (h u.toNat (List.mem_singleton_self _)) wellFormed_nil nil
  | case3 u v rest hpair ih =>
      have hrest : WellFormed rest := by
        intro n hn
        exact h n (by rw [codePoints_pair hpair]; exact List.mem_cons_of_mem _ hn)
      exact pair u v rest hpair hrest (ih hrest)
  | case4 u v rest hpair ih =>
      have hsplit := codePoints_apart hpair rest
      have hu : CodePoint.isSurrogate u.toNat = false :=
        h u.toNat (by rw [hsplit]; exact List.mem_cons_self)
      have hrest : WellFormed (v :: rest) := by
        intro n hn
        exact h n (by rw [hsplit]; exact List.mem_cons_of_mem _ hn)
      exact unit u (v :: rest) hu hrest (ih hrest)

/-- A well-formed text does not end with half a pair, so what comes after it
    is read on its own. -/
theorem codePoints_append {a : Text} (h : WellFormed a) (b : Text) :
    codePoints (a ++ b) = codePoints a ++ codePoints b := by
  refine h.ind (P := fun a => codePoints (a ++ b) = codePoints a ++ codePoints b) rfl ?_ ?_
  · intro u t hu _ ih
    rw [List.cons_append, codePoints_cons hu, codePoints_cons hu, ih, List.cons_append]
  · intro u v t hpair _ ih
    rw [List.cons_append, List.cons_append, codePoints_pair hpair, codePoints_pair hpair, ih,
      List.cons_append]

/-- A unit that is no surrogate cannot finish a pair, so a text is read on its
    own up to it, well-formed or not. -/
theorem codePoints_append_cons {u : CodeUnit} (hu : CodePoint.isSurrogate u.toNat = false)
    (a b : Text) : codePoints (a ++ u :: b) = codePoints a ++ codePoints (u :: b) := by
  induction a using codePoints.induct with
  | case1 => rfl
  | case2 v =>
      have hpair : (v.isHighSurrogate && u.isLowSurrogate) ≠ true := by
        intro hc
        have hbounds := surrogates_toNat hc
        simp only [CodePoint.isSurrogate, Bool.and_eq_false_iff, decide_eq_false_iff_not] at hu
        omega
      exact codePoints_apart hpair b
  | case3 v w rest hpair ih =>
      rw [List.cons_append, List.cons_append, codePoints_pair hpair, codePoints_pair hpair, ih,
        List.cons_append]
  | case4 v w rest hpair ih =>
      rw [List.cons_append, List.cons_append, codePoints_apart hpair, codePoints_apart hpair,
        ← List.cons_append, ih, List.cons_append]

theorem WellFormed.append {a b : Text} (ha : WellFormed a) (hb : WellFormed b) :
    WellFormed (a ++ b) := by
  intro n hn
  rw [codePoints_append ha] at hn
  rcases List.mem_append.mp hn with hn | hn
  · exact ha n hn
  · exact hb n hn

/-! ### ASCII -/

/-- Every unit is an ASCII character. -/
def IsAscii (t : Text) : Prop := ∀ u ∈ t, u < 0x80

instance (t : Text) : Decidable (IsAscii t) := List.decidableBAll (· < 0x80) t

theorem IsAscii.append {a b : Text} (ha : IsAscii a) (hb : IsAscii b) : IsAscii (a ++ b) := by
  intro u hu
  rcases List.mem_append.mp hu with hu | hu
  · exact ha u hu
  · exact hb u hu

theorem IsAscii.cons {u : CodeUnit} {t : Text} (hu : u < 0x80) (ht : IsAscii t) :
    IsAscii (u :: t) := by
  intro v hv
  rcases List.mem_cons.mp hv with rfl | hv
  · exact hu
  · exact ht v hv

theorem isAscii_replicate {u : CodeUnit} (hu : u < 0x80) (n : Nat) :
    IsAscii (List.replicate n u) := by
  intro v hv
  rw [List.eq_of_mem_replicate hv]
  exact hu

theorem isSurrogate_ascii {u : CodeUnit} (h : u < 0x80) :
    CodePoint.isSurrogate u.toNat = false := by
  have hlow := UInt16.lt_iff_toNat_lt.mp h
  simp only [CodePoint.isSurrogate, Bool.and_eq_false_iff, decide_eq_false_iff_not,
    UInt16.toNat_ofNat] at hlow ⊢
  omega

theorem IsAscii.wellFormed {t : Text} (h : IsAscii t) : WellFormed t := by
  induction t with
  | nil => exact wellFormed_nil
  | cons u t ih =>
      have hrest := ih fun v hv => h v (List.mem_cons_of_mem u hv)
      exact wellFormed_cons (isSurrogate_ascii (h u List.mem_cons_self)) hrest

theorem wellFormed_join {separator : Text} (hseparator : WellFormed separator)
    {parts : List Text} (hparts : ∀ p ∈ parts, WellFormed p) :
    WellFormed (join separator parts) := by
  induction parts with
  | nil => exact wellFormed_nil
  | cons p rest ih =>
      have hp := hparts p List.mem_cons_self
      have hrest := ih fun q hq => hparts q (List.mem_cons_of_mem p hq)
      cases rest with
      | nil =>
          rw [join, List.intercalate_singleton]
          exact hp
      | cons q rest =>
          rw [join, List.intercalate_cons_cons]
          exact (hp.append hseparator).append hrest

/-! ### Units of code points -/

theorem ofCodePoint_unit (u : CodeUnit) : ofCodePoint u.toNat = [u] := by
  have hu : u.toNat < 0x10000 := u.toNat_lt
  rw [ofCodePoint, if_pos hu, UInt16.ofNat_toNat]

theorem ofCodePoint_joinPair {u v : CodeUnit}
    (h : (u.isHighSurrogate && v.isLowSurrogate) = true) : ofCodePoint (joinPair u v) = [u, v] := by
  have hbounds := surrogates_toNat h
  have hlarge := Nat.not_lt.mpr (joinPair_bounds h).1
  have hhigh : 0xD800 + (joinPair u v - 0x10000) / 0x400 = u.toNat := by
    unfold joinPair
    omega
  have hlow : 0xDC00 + (joinPair u v - 0x10000) % 0x400 = v.toNat := by
    unfold joinPair
    omega
  rw [ofCodePoint, if_neg hlarge, hhigh, hlow, UInt16.ofNat_toNat, UInt16.ofNat_toNat]

/-- A text is made up of its code points. -/
theorem flatMap_codePoints (t : Text) : (codePoints t).flatMap ofCodePoint = t := by
  induction t using codePoints.induct with
  | case1 => rfl
  | case2 u => rw [codePoints, List.flatMap_singleton, ofCodePoint_unit]
  | case3 u v rest hpair ih =>
      rw [codePoints_pair hpair, List.flatMap_cons, ofCodePoint_joinPair hpair, ih]
      rfl
  | case4 u v rest hpair ih =>
      rw [codePoints, if_neg hpair, List.flatMap_cons, ofCodePoint_unit, ih]
      rfl

theorem codePoints_le (t : Text) : ∀ n ∈ codePoints t, n ≤ 0x10FFFF := by
  have hunit : ∀ u : CodeUnit, u.toNat ≤ 0x10FFFF := by
    intro u
    have hu := u.toNat_lt
    omega
  induction t using codePoints.induct with
  | case1 =>
      intro n hn
      rw [codePoints] at hn
      exact absurd hn List.not_mem_nil
  | case2 u =>
      intro n hn
      rw [List.mem_singleton.mp hn]
      exact hunit u
  | case3 u v rest hpair ih =>
      intro n hn
      rw [codePoints_pair hpair] at hn
      rcases List.mem_cons.mp hn with hjoin | hn
      · exact Nat.le_trans (Nat.le_of_eq hjoin) (joinPair_bounds hpair).2
      · exact ih n hn
  | case4 u v rest hpair ih =>
      intro n hn
      rw [codePoints, if_neg hpair] at hn
      rcases List.mem_cons.mp hn with rfl | hn
      · exact hunit u
      · exact ih n hn

theorem WellFormed.scalars_eq {t : Text} (h : WellFormed t) : scalars t = codePoints t := by
  unfold scalars
  refine (List.map_congr_left fun n hn => ?_).trans (List.map_id _)
  rw [h n hn, if_neg Bool.false_ne_true]
  rfl

end Text

namespace Utf8

/-! ### One code point -/

theorem decodeFrom_ascii {b : UInt8} (h : b.toNat < 0x80) (rest : Bytes) :
    decodeFrom none (b :: rest) = b.toNat :: decodeFrom none rest := by
  rw [decodeFrom, fresh, if_pos h]
  rfl

theorem decodeFrom_lead {b : UInt8} (h : ¬ b.toNat < 0x80) {p : Partial}
    (hp : lead b.toNat = some p) (rest : Bytes) :
    decodeFrom none (b :: rest) = decodeFrom (some p) rest := by
  rw [decodeFrom, fresh, if_neg h, hp]
  rfl

theorem decodeFrom_next {p : Partial} {b : UInt8} (hlower : p.lower ≤ b.toNat)
    (hupper : b.toNat ≤ p.upper) (hmissing : 1 < p.missing) (rest : Bytes) :
    decodeFrom (some p) (b :: rest)
      = decodeFrom (some ⟨p.value * 0x40 + (b.toNat - 0x80), p.missing - 1, 0x80, 0xBF⟩) rest := by
  have hbounds : (decide (p.lower ≤ b.toNat) && decide (b.toNat ≤ p.upper)) = true := by
    rw [decide_eq_true hlower, decide_eq_true hupper]
    rfl
  rw [decodeFrom, resume, if_pos hbounds, if_neg (Nat.not_le.mpr hmissing)]
  rfl

theorem decodeFrom_last {p : Partial} {b : UInt8} (hlower : p.lower ≤ b.toNat)
    (hupper : b.toNat ≤ p.upper) (hmissing : p.missing ≤ 1) (rest : Bytes) :
    decodeFrom (some p) (b :: rest)
      = (p.value * 0x40 + (b.toNat - 0x80)) :: decodeFrom none rest := by
  have hbounds : (decide (p.lower ≤ b.toNat) && decide (b.toNat ≤ p.upper)) = true := by
    rw [decide_eq_true hlower, decide_eq_true hupper]
    rfl
  rw [decodeFrom, resume, if_pos hbounds, if_pos hmissing]
  rfl

theorem toNat_ofNat {n : Nat} (h : n < 0x100) : (UInt8.ofNat n).toNat = n := by
  rw [UInt8.toNat_ofNat']
  omega

theorem lead_two {n : Nat} (hlow : 0x80 ≤ n) (hhigh : n < 0x800) :
    lead (0xC0 + n / 0x40) = some ⟨n / 0x40, 1, 0x80, 0xBF⟩ := by
  have hbounds : (decide (0xC2 ≤ 0xC0 + n / 0x40) && decide (0xC0 + n / 0x40 ≤ 0xDF)) = true := by
    rw [Bool.and_eq_true, decide_eq_true_eq, decide_eq_true_eq]
    omega
  rw [lead, if_pos hbounds, Nat.add_sub_cancel_left]

/-- The bytes of a code point keep the bounds that the leading byte sets. -/
theorem lead_three {n : Nat} (hlow : 0x800 ≤ n) (hhigh : n < 0x10000)
    (hpaired : CodePoint.isSurrogate n = false) :
    ∃ p, lead (0xE0 + n / 0x1000) = some p ∧ p.value = n / 0x1000 ∧ p.missing = 2 ∧
      p.lower ≤ 0x80 + n / 0x40 % 0x40 ∧ 0x80 + n / 0x40 % 0x40 ≤ p.upper := by
  simp only [CodePoint.isSurrogate, Bool.and_eq_false_iff, decide_eq_false_iff_not] at hpaired
  simp only [lead, Bool.and_eq_true, decide_eq_true_eq]
  rw [if_neg (by omega)]
  -- A small value may not have a shorter form, and `0xED` begins surrogates.
  by_cases hzero : n / 0x1000 = 0
  · rw [if_pos (by omega)]
    refine ⟨_, rfl, hzero.symm, rfl, ?_, ?_⟩ <;> simp only <;> omega
  · rw [if_neg (by omega)]
    by_cases hthirteen : n / 0x1000 = 0xD
    · rw [if_pos (by omega)]
      refine ⟨_, rfl, hthirteen.symm, rfl, ?_, ?_⟩ <;> simp only <;> omega
    · rw [if_neg (by omega), if_pos (by omega)]
      refine ⟨_, rfl, ?_, rfl, ?_, ?_⟩ <;> simp only <;> omega

theorem lead_four {n : Nat} (hlow : 0x10000 ≤ n) (hhigh : n ≤ 0x10FFFF) :
    ∃ p, lead (0xF0 + n / 0x40000) = some p ∧ p.value = n / 0x40000 ∧ p.missing = 3 ∧
      p.lower ≤ 0x80 + n / 0x1000 % 0x40 ∧ 0x80 + n / 0x1000 % 0x40 ≤ p.upper := by
  simp only [lead, Bool.and_eq_true, decide_eq_true_eq]
  rw [if_neg (by omega), if_neg (by omega), if_neg (by omega), if_neg (by omega)]
  -- The value may not have a shorter form, nor lie past the last code point.
  by_cases hzero : n / 0x40000 = 0
  · rw [if_pos (by omega)]
    refine ⟨_, rfl, hzero.symm, rfl, ?_, ?_⟩ <;> simp only <;> omega
  · rw [if_neg (by omega)]
    by_cases hfour : n / 0x40000 = 4
    · rw [if_pos (by omega)]
      refine ⟨_, rfl, hfour.symm, rfl, ?_, ?_⟩ <;> simp only <;> omega
    · rw [if_neg (by omega), if_pos (by omega)]
      refine ⟨_, rfl, ?_, rfl, ?_, ?_⟩ <;> simp only <;> omega

theorem toNat_tail (m : Nat) : (UInt8.ofNat (0x80 + m % 0x40)).toNat = 0x80 + m % 0x40 :=
  toNat_ofNat (by omega)

theorem decodeFrom_tail {p : Partial} (hlower : p.lower = 0x80) (hupper : p.upper = 0xBF)
    (hmissing : p.missing = 1) (m : Nat) (rest : Bytes) :
    decodeFrom (some p) (UInt8.ofNat (0x80 + m % 0x40) :: rest)
      = (p.value * 0x40 + m % 0x40) :: decodeFrom none rest := by
  have hm := toNat_tail m
  rw [decodeFrom_last (by omega) (by omega) (by omega), hm, Nat.add_sub_cancel_left]

/-- One code point is read back, and nothing is begun after it. -/
theorem decodeFrom_encodePoint {n : Nat} (hn : n ≤ 0x10FFFF)
    (hpaired : CodePoint.isSurrogate n = false) (rest : Bytes) :
    decodeFrom none (encodePoint n ++ rest) = n :: decodeFrom none rest := by
  unfold encodePoint
  by_cases hone : n < 0x80
  · have hbyte : (UInt8.ofNat n).toNat = n := toNat_ofNat (by omega)
    rw [if_pos hone, List.singleton_append, decodeFrom_ascii (by omega), hbyte]
  rw [if_neg hone]
  -- The bytes give back the digits of the code point to the base of `0x40`.
  by_cases htwo : n < 0x800
  · have hbyte : (UInt8.ofNat (0xC0 + n / 0x40)).toNat = 0xC0 + n / 0x40 := toNat_ofNat (by omega)
    have hlead := lead_two (Nat.le_of_not_lt hone) htwo
    rw [← hbyte] at hlead
    have hvalue : n / 0x40 * 0x40 + n % 0x40 = n := by omega
    rw [if_pos htwo, List.cons_append, List.singleton_append, decodeFrom_lead (by omega) hlead,
      decodeFrom_tail rfl rfl rfl, hvalue]
  rw [if_neg htwo]
  by_cases hthree : n < 0x10000
  · have hbyte : (UInt8.ofNat (0xE0 + n / 0x1000)).toNat = 0xE0 + n / 0x1000 :=
      toNat_ofNat (by omega)
    rcases lead_three (Nat.le_of_not_lt htwo) hthree hpaired with
      ⟨p, hlead, hvalue, hmissing, hlower, hupper⟩
    rw [← hbyte] at hlead
    have hnext := toNat_tail (n / 0x40)
    rw [if_pos hthree, List.cons_append, List.cons_append, List.singleton_append,
      decodeFrom_lead (by omega) hlead, decodeFrom_next (by omega) (by omega) (by omega), hnext,
      decodeFrom_tail rfl rfl (by simp only [hmissing])]
    simp only [hvalue, List.cons.injEq, and_true]
    omega
  · have hbyte : (UInt8.ofNat (0xF0 + n / 0x40000)).toNat = 0xF0 + n / 0x40000 :=
      toNat_ofNat (by omega)
    rcases lead_four (Nat.le_of_not_lt hthree) hn with
      ⟨p, hlead, hvalue, hmissing, hlower, hupper⟩
    rw [← hbyte] at hlead
    have hsecond := toNat_tail (n / 0x1000)
    have hthird := toNat_tail (n / 0x40)
    rw [if_neg hthree, List.cons_append, List.cons_append, List.cons_append, List.singleton_append,
      decodeFrom_lead (by omega) hlead, decodeFrom_next (by omega) (by omega) (by omega), hsecond,
      decodeFrom_next (by simp only; omega) (by simp only; omega) (by simp only; omega), hthird,
      decodeFrom_tail rfl rfl (by simp only [hmissing])]
    simp only [hvalue, List.cons.injEq, and_true]
    omega

/-! ### Texts -/

/-- A text of code points is read back code point by code point. -/
theorem decodeFrom_flatMap {ns : List Nat} (hns : ∀ n ∈ ns, n ≤ 0x10FFFF)
    (hpaired : ∀ n ∈ ns, CodePoint.isSurrogate n = false) (rest : Bytes) :
    decodeFrom none (ns.flatMap encodePoint ++ rest) = ns ++ decodeFrom none rest := by
  induction ns with
  | nil => rfl
  | cons n ns ih =>
      rw [List.flatMap_cons, List.append_assoc,
        decodeFrom_encodePoint (hns n List.mem_cons_self) (hpaired n List.mem_cons_self),
        ih (fun m hm => hns m (List.mem_cons_of_mem n hm))
          fun m hm => hpaired m (List.mem_cons_of_mem n hm)]
      rfl

/-- A well-formed text is read back from its bytes, whatever comes after it. -/
theorem decode_encode_append {t : Text} (h : t.WellFormed) (rest : Bytes) :
    decode (encode t ++ rest) = t ++ decode rest := by
  unfold decode encode
  rw [h.scalars_eq, decodeFrom_flatMap (Text.codePoints_le t) h, List.flatMap_append,
    Text.flatMap_codePoints]

theorem decode_encode {t : Text} (h : t.WellFormed) : decode (encode t) = t := by
  have hend := decode_encode_append h []
  rw [List.append_nil] at hend
  exact hend.trans (List.append_nil t)

theorem encode_cons {u : CodeUnit} (hu : u < 0x80) (t : Text) :
    encode (u :: t) = UInt8.ofNat u.toNat :: encode t := by
  have hnormal := Text.isSurrogate_ascii hu
  have hlow : u.toNat < 0x80 := UInt16.lt_iff_toNat_lt.mp hu
  unfold encode Text.scalars
  rw [Text.codePoints_cons hnormal, List.map_cons, List.flatMap_cons, hnormal,
    if_neg Bool.false_ne_true, encodePoint, if_pos hlow]
  rfl

theorem dropMark_cons {b : UInt8} (hb : b ≠ 0xEF) (rest : Bytes) :
    dropMark (b :: rest) = b :: rest := by
  unfold dropMark
  split
  · next h => exact absurd (List.cons.inj h).1 hb
  · rfl

/-! ### Bytes of ASCII -/

theorem eq_nil_of_encode {t : Text} (h : encode t = []) : t = [] := by
  have hpoint : ∀ n, encodePoint n ≠ [] := by
    intro n
    unfold encodePoint
    repeat' split
    all_goals exact List.cons_ne_nil _ _
  rw [← Text.flatMap_codePoints t]
  cases hpoints : Text.codePoints t with
  | nil => rfl
  | cons n ns =>
      rw [encode, Text.scalars, hpoints, List.map_cons, List.flatMap_cons] at h
      exact absurd (List.append_eq_nil_iff.mp h).1 (hpoint _)

/-- Texts are encoded one by one if the second begins with ASCII. -/
theorem encode_append_cons {u : CodeUnit} (hu : u < 0x80) (a b : Text) :
    encode (a ++ u :: b) = encode a ++ encode (u :: b) := by
  rw [encode, Text.scalars, Text.codePoints_append_cons (Text.isSurrogate_ascii hu),
    List.map_append, List.flatMap_append]
  rfl

/-- Every byte of a character beyond ASCII says so. -/
theorem le_of_mem_encodePoint {n : Nat} (hn : 0x80 ≤ n) (hmax : n ≤ 0x10FFFF) {b : UInt8}
    (hb : b ∈ encodePoint n) : 0x80 ≤ b := by
  have hbyte : ∀ m, 0x80 ≤ m → m < 0x100 → (0x80 : UInt8) ≤ UInt8.ofNat m := by
    intro m hlow hhigh
    rw [UInt8.le_iff_toNat_le, toNat_ofNat hhigh]
    exact hlow
  revert b
  unfold encodePoint
  rw [if_neg (by omega)]
  split
  · simp only [List.forall_mem_cons, List.not_mem_nil, false_implies, implies_true, and_true]
    exact ⟨hbyte _ (by omega) (by omega), hbyte _ (by omega) (by omega)⟩
  · split
    · simp only [List.forall_mem_cons, List.not_mem_nil, false_implies, implies_true, and_true]
      exact ⟨hbyte _ (by omega) (by omega), hbyte _ (by omega) (by omega),
        hbyte _ (by omega) (by omega)⟩
    · simp only [List.forall_mem_cons, List.not_mem_nil, false_implies, implies_true, and_true]
      exact ⟨hbyte _ (by omega) (by omega), hbyte _ (by omega) (by omega),
        hbyte _ (by omega) (by omega), hbyte _ (by omega) (by omega)⟩

/-- A byte of ASCII stands for a unit of the text, and for nothing else. -/
theorem mem_of_mem_encode {t : Text} {b : UInt8} (hb : b ∈ encode t) (hascii : b < 0x80) :
    UInt16.ofNat b.toNat ∈ t := by
  rcases List.mem_flatMap.mp hb with ⟨n, hn, hbyte⟩
  rcases List.mem_map.mp hn with ⟨m, hm, rfl⟩
  have hmax := Text.codePoints_le t m hm
  -- A surrogate by itself is replaced, and the replacement is beyond ASCII as well.
  by_cases hbeyond : 0x80 ≤ m
  · have hle : 0x80 ≤ b := by
      split at hbyte
      · exact le_of_mem_encodePoint (by decide) (by decide) hbyte
      · exact le_of_mem_encodePoint hbeyond hmax hbyte
    rw [UInt8.lt_iff_toNat_lt] at hascii
    rw [UInt8.le_iff_toNat_le] at hle
    omega
  · have hplain : CodePoint.isSurrogate m = false := by
      simp only [CodePoint.isSurrogate, Bool.and_eq_false_iff, decide_eq_false_iff_not]
      omega
    rw [hplain, if_neg Bool.false_ne_true, encodePoint, if_pos (by omega), List.mem_singleton]
      at hbyte
    rw [hbyte, toNat_ofNat (by omega), ← Text.flatMap_codePoints t]
    refine List.mem_flatMap.mpr ⟨m, hm, ?_⟩
    rw [Text.ofCodePoint, if_pos (by omega)]
    exact List.mem_singleton_self _

/-! ### Bytes that were cut off -/

theorem decodeFrom_end (p : Partial) : decodeFrom (some p) [] = [CodePoint.replacement] := by
  rw [decodeFrom]

/-- A code point of which some bytes are missing is read as one replacement
    character. -/
theorem decodeFrom_take {n : Nat} (hn : n ≤ 0x10FFFF)
    (hpaired : CodePoint.isSurrogate n = false) {m : Nat} (hpos : 0 < m)
    (hm : m < (encodePoint n).length) :
    decodeFrom none ((encodePoint n).take m) = [CodePoint.replacement] := by
  unfold encodePoint at hm ⊢
  -- A single byte cannot be cut.
  by_cases hone : n < 0x80
  · rw [if_pos hone, List.length_singleton] at hm
    omega
  rw [if_neg hone] at hm ⊢
  by_cases htwo : n < 0x800
  · rw [if_pos htwo] at hm ⊢
    have hbyte : (UInt8.ofNat (0xC0 + n / 0x40)).toNat = 0xC0 + n / 0x40 := toNat_ofNat (by omega)
    have hlead := lead_two (Nat.le_of_not_lt hone) htwo
    rw [← hbyte] at hlead
    obtain rfl : m = 1 := by
      simp only [List.length_cons, List.length_nil] at hm
      omega
    rw [List.take_succ_cons, List.take_zero, decodeFrom_lead (by omega) hlead, decodeFrom_end]
  rw [if_neg htwo] at hm ⊢
  by_cases hthree : n < 0x10000
  · rw [if_pos hthree] at hm ⊢
    have hbyte : (UInt8.ofNat (0xE0 + n / 0x1000)).toNat = 0xE0 + n / 0x1000 :=
      toNat_ofNat (by omega)
    rcases lead_three (Nat.le_of_not_lt htwo) hthree hpaired with
      ⟨p, hlead, hvalue, hmissing, hlower, hupper⟩
    rw [← hbyte] at hlead
    have hnext := toNat_tail (n / 0x40)
    obtain rfl | rfl : m = 1 ∨ m = 2 := by
      simp only [List.length_cons, List.length_nil] at hm
      omega
    · rw [List.take_succ_cons, List.take_zero, decodeFrom_lead (by omega) hlead, decodeFrom_end]
    · rw [List.take_succ_cons, List.take_succ_cons, List.take_zero,
        decodeFrom_lead (by omega) hlead, decodeFrom_next (by omega) (by omega) (by omega),
        decodeFrom_end]
  · rw [if_neg hthree] at hm ⊢
    have hbyte : (UInt8.ofNat (0xF0 + n / 0x40000)).toNat = 0xF0 + n / 0x40000 :=
      toNat_ofNat (by omega)
    rcases lead_four (Nat.le_of_not_lt hthree) hn with
      ⟨p, hlead, hvalue, hmissing, hlower, hupper⟩
    rw [← hbyte] at hlead
    have hsecond := toNat_tail (n / 0x1000)
    have hthird := toNat_tail (n / 0x40)
    obtain rfl | rfl | rfl : m = 1 ∨ m = 2 ∨ m = 3 := by
      simp only [List.length_cons, List.length_nil] at hm
      omega
    · rw [List.take_succ_cons, List.take_zero, decodeFrom_lead (by omega) hlead, decodeFrom_end]
    · rw [List.take_succ_cons, List.take_succ_cons, List.take_zero,
        decodeFrom_lead (by omega) hlead, decodeFrom_next (by omega) (by omega) (by omega),
        decodeFrom_end]
    · rw [List.take_succ_cons, List.take_succ_cons, List.take_succ_cons, List.take_zero,
        decodeFrom_lead (by omega) hlead, decodeFrom_next (by omega) (by omega) (by omega),
        decodeFrom_next (by simp only; omega) (by simp only; omega) (by simp only; omega),
        decodeFrom_end]

/-- Of code points whose bytes are cut off, those before the cut are read, and
    a replacement character if the cut is inside one. -/
theorem decodeFrom_take_flatMap {ns : List Nat} (hns : ∀ n ∈ ns, n ≤ 0x10FFFF)
    (hpaired : ∀ n ∈ ns, CodePoint.isSurrogate n = false) {m : Nat}
    (hm : m < (ns.flatMap encodePoint).length) :
    ∃ read rest tail, ns = read ++ rest ∧ rest ≠ [] ∧
      (tail = [] ∨ tail = [CodePoint.replacement]) ∧
      decodeFrom none ((ns.flatMap encodePoint).take m) = read ++ tail := by
  induction ns generalizing m with
  | nil => exact absurd hm (Nat.not_lt_zero m)
  | cons n ns ih =>
      rw [List.flatMap_cons] at hm ⊢
      rw [List.length_append] at hm
      have hn := hns n List.mem_cons_self
      have hp := hpaired n List.mem_cons_self
      by_cases hfirst : m < (encodePoint n).length
      · rw [List.take_append_of_le_length (Nat.le_of_lt hfirst)]
        by_cases hzero : m = 0
        · subst hzero
          exact ⟨[], n :: ns, [], rfl, List.cons_ne_nil n ns, .inl rfl, rfl⟩
        · refine ⟨[], n :: ns, _, rfl, List.cons_ne_nil n ns, .inr rfl, ?_⟩
          exact decodeFrom_take hn hp (Nat.pos_of_ne_zero hzero) hfirst
      · -- The first code point is there, and the cut is further on.
        obtain ⟨k, rfl⟩ := Nat.exists_eq_add_of_le (Nat.le_of_not_lt hfirst)
        obtain ⟨read, rest, tail, rfl, hrest, htail, hread⟩ :=
          ih (fun m hm => hns m (List.mem_cons_of_mem n hm))
            (fun m hm => hpaired m (List.mem_cons_of_mem n hm)) (m := k) (by omega)
        refine ⟨n :: read, rest, tail, rfl, hrest, htail, ?_⟩
        rw [List.take_length_add_append, decodeFrom_encodePoint hn hp, hread, List.cons_append]

theorem ofCodePoint_ne_nil (n : Nat) : Text.ofCodePoint n ≠ [] := by
  unfold Text.ofCodePoint
  split <;> exact List.cons_ne_nil _ _

/-- Of a text whose bytes are cut off, the beginning is read, and a replacement
    character if the cut is inside a character. -/
theorem decode_take_encode {t : Text} (h : t.WellFormed) {m : Nat} (hm : m < (encode t).length) :
    ∃ p r tail, t = p ++ r ∧ r ≠ [] ∧ (tail = [] ∨ tail = [0xFFFD]) ∧
      decode ((encode t).take m) = p ++ tail := by
  have hencode : encode t = (Text.codePoints t).flatMap encodePoint := by
    rw [encode, h.scalars_eq]
  rw [hencode] at hm ⊢
  obtain ⟨read, rest, tail, hsplit, hrest, htail, hread⟩ :=
    decodeFrom_take_flatMap (Text.codePoints_le t) h hm
  refine ⟨read.flatMap Text.ofCodePoint, rest.flatMap Text.ofCodePoint,
    tail.flatMap Text.ofCodePoint, ?_, ?_, ?_, ?_⟩
  · rw [← List.flatMap_append, ← hsplit, Text.flatMap_codePoints]
  · intro hnil
    rcases List.exists_cons_of_ne_nil hrest with ⟨n, ns, rfl⟩
    exact ofCodePoint_ne_nil n (List.flatMap_eq_nil_iff.mp hnil n List.mem_cons_self)
  · rcases htail with rfl | rfl
    · exact .inl rfl
    · exact .inr (by decide)
  · rw [decode, hread, List.flatMap_append]

end Utf8

end NodeWatch

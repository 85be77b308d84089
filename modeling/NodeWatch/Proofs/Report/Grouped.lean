import NodeWatch.Proofs.Decimal.Digits
import NodeWatch.Proofs.Decimal.Shortest
import NodeWatch.Report.Grouped

/-!
# Groups of Three Digits

Where a separator goes is decided digit by digit, each time by the number of
digits that are still to come. So the groups are counted from the right, while
the text is written from the left, and the first group takes what is left over.

The induction goes along the digits. A digit in front of groups belongs to the
first of them as long as that one is not full. It is full exactly if the digits
behind make up threes, for all the other groups do, and that is when the
separator is written.

## Main definitions

* `Groups`: A first group of one to three digits, and others of three.
* `Separated`: An integer in groups with a mark between every two of them.

## Theorems

* `exists_groups`: Digits are written in groups.
* `separated_grouped`: Integers are written in groups, without the sign.
* `separated_of_safe`: Heights and counts.
-/

namespace NodeWatch

namespace Report

/-- A first group of one to three digits, and groups of three digits. -/
structure Groups (first : Text) (more : List Text) : Prop where
  nonempty : 1 ≤ first.length
  short : first.length ≤ 3
  full : ∀ g ∈ more, g.length = 3
  digits : ∀ g ∈ first :: more, ∀ u ∈ g, u.isDigit = true

/-- The text of an integer, with a mark in front of every group of digits but
    the first. The sign is not part of a group. -/
def Separated (mark : CodeUnit) (n : Int) (t : Text) : Prop :=
  t.filter (fun u => u ≠ mark) = Text.ofInt n ∧
    ∃ first more, Groups first more ∧
      t = (if n < 0 then [ascii '-'] else []) ++ first ++ more.flatMap (mark :: ·)

section Groups

variable {mark u : CodeUnit} {t first : Text} {more : List Text}

theorem Groups.length_mod (h : Groups first more) :
    (first ++ more.flatten).length % 3 = first.length % 3 := by
  have hmore : more.flatten.length % 3 = 0 := by
    have hfull := h.full
    clear h
    induction more with
    | nil => rfl
    | cons g more ih =>
        rw [List.flatten_cons, List.length_append, hfull g List.mem_cons_self, Nat.add_mod_left]
        exact ih fun g' hg' => hfull g' (List.mem_cons_of_mem g hg')
  rw [List.length_append, Nat.add_mod, hmore, Nat.add_zero, Nat.mod_mod]

theorem groups_single (hu : u.isDigit = true) : Groups [u] [] := by
  refine ⟨le_rfl, by simp, fun g hg => absurd hg List.not_mem_nil, ?_⟩
  simpa using hu

/-- A digit in front of a group that is not full belongs to it. -/
theorem Groups.cons (h : Groups first more) (hu : u.isDigit = true) (hroom : first.length < 3) :
    Groups (u :: first) more := by
  have hdigits := h.digits
  rw [List.forall_mem_cons] at hdigits
  refine ⟨by simp, by simpa [Nat.lt_succ_iff] using hroom, h.full, ?_⟩
  rw [List.forall_mem_cons, List.forall_mem_cons]
  exact ⟨⟨hu, hdigits.1⟩, hdigits.2⟩

/-- In front of a full group a digit begins another one. -/
theorem Groups.begin (h : Groups first more) (hu : u.isDigit = true) (hfull : first.length = 3) :
    Groups [u] (first :: more) := by
  refine ⟨le_rfl, by simp, ?_, ?_⟩
  · rw [List.forall_mem_cons]
    exact ⟨hfull, h.full⟩
  · rw [List.forall_mem_cons]
    exact ⟨by simpa using hu, h.digits⟩

/-- Digits are written in groups. -/
theorem exists_groups (mark : CodeUnit) (hne : t ≠ []) (h : ∀ u ∈ t, u.isDigit = true) :
    ∃ first more, Groups first more ∧ t = first ++ more.flatten ∧
      group mark t = first ++ more.flatMap (mark :: ·) := by
  induction t with
  | nil => exact absurd rfl hne
  | cons u rest ih =>
      rw [List.forall_mem_cons] at h
      have hafter : (rest.takeWhile CodeUnit.isDigit).length = rest.length := by
        rw [List.takeWhile_eq_self_iff.mpr h.2]
      unfold group
      simp only [hafter, h.1, true_and]
      by_cases hrest : rest = []
      · subst hrest
        exact ⟨[u], [], groups_single h.1, rfl, rfl⟩
      · rcases ih hrest h.2 with ⟨first, more, hgroups, hsplit, hwritten⟩
        have hpos : 0 < rest.length := List.length_pos_iff.mpr hrest
        have hnonempty := hgroups.nonempty
        have hshort := hgroups.short
        -- The other groups are full, so the length tells whether the first one is.
        have hmod := hgroups.length_mod
        rw [← hsplit] at hmod
        by_cases hfull : rest.length % 3 = 0
        · refine ⟨[u], first :: more, hgroups.begin h.1 (by omega), ?_, ?_⟩
          · rw [hsplit, List.flatten_cons]
            rfl
          · rw [if_pos ⟨hpos, hfull⟩, hwritten, List.flatMap_cons]
            rfl
        · refine ⟨u :: first, more, hgroups.cons h.1 (by omega), ?_, ?_⟩
          · rw [hsplit]
            rfl
          · rw [if_neg fun hc => hfull hc.2, hwritten]
            rfl

/-- Without the marks the groups are the digits again. -/
theorem Groups.filter (h : Groups first more) (hmark : mark.isDigit = false) :
    (first ++ more.flatMap (mark :: ·)).filter (fun u => u ≠ mark) = first ++ more.flatten := by
  have hkept : ∀ g ∈ first :: more, g.filter (fun u => u ≠ mark) = g := by
    intro g hg
    rw [List.filter_eq_self]
    intro u hu
    exact decide_eq_true (CodeUnit.ne_of_digit (h.digits g hg u hu) hmark)
  have hmore : ∀ g ∈ more, (mark :: g).filter (fun u => u ≠ mark) = g := by
    intro g hg
    rw [List.filter_cons_of_neg (by simp), hkept g (List.mem_cons_of_mem first hg)]
  rw [List.filter_append, hkept first List.mem_cons_self, List.filter_flatMap,
    ← List.flatMap_id, List.flatMap_congr hmore]
  rfl

end Groups

section Integers

variable {mark : CodeUnit} {x : Double} {n : Int}

/-- Integers are written in groups. -/
theorem separated_grouped (hmark : mark.isDigit = false) (hminus : mark ≠ ascii '-')
    (hx : x.toInt? = some n) (hn : n.natAbs < twoPow 53) : Separated mark n (grouped mark x) := by
  have hdigits := Json.digits_ofNat n.natAbs
  rcases exists_groups mark hdigits.1 fun u hu => Json.isDigit_iff.mpr (hdigits.2 u hu) with
    ⟨first, more, hgroups, hsplit, hwritten⟩
  have hfilter := hgroups.filter hmark
  rw [← hsplit, ← hwritten] at hfilter
  have hsign := Double.lt_iff hx Double.toInt?_zero
  unfold grouped
  by_cases hneg : n < 0
  · have hshown : (-x).display = Text.ofNat n.natAbs := by
      have htext := Double.display_of_toInt? (Double.toInt?_neg hx) (by rwa [Int.natAbs_neg])
      rw [show -n = (n.natAbs : Int) by omega] at htext
      exact htext
    have hall : Text.ofInt n = ascii '-' :: Text.ofNat n.natAbs := by
      rcases Int.eq_negSucc_of_lt_zero hneg with ⟨k, rfl⟩
      rfl
    rw [if_pos (hsign.mpr hneg), hshown]
    refine ⟨?_, first, more, hgroups, ?_⟩
    · rw [List.filter_cons, if_pos (decide_eq_true hminus.symm), hfilter, hall]
    · rw [if_pos hneg, hwritten]
      rfl
  · have hshown : x.display = Text.ofNat n.natAbs := by
      rw [Double.display_of_toInt? hx hn]
      conv_lhs => rw [show n = (n.natAbs : Int) by omega]
      rfl
    have hall : Text.ofInt n = Text.ofNat n.natAbs :=
      (Double.display_of_toInt? hx hn).symm.trans hshown
    rw [if_neg (mt hsign.mp hneg), hshown]
    refine ⟨?_, first, more, hgroups, ?_⟩
    · rw [hfilter, hall]
    · rw [if_neg hneg, hwritten]
      rfl

/-- A height is written in groups with apostrophes between them, and a count
    with commas: a first group of one to three digits, the sign in front of it
    if there is one, and every other group of three digits with one separator in
    front of it. Without the separators both are the digits of the number. -/
theorem separated_of_safe (hx : x.toInt? = some n) (hn : n.natAbs < twoPow 53) :
    Separated (ascii '\'') n (height x) ∧ Separated (ascii ',') n (count x) :=
  ⟨separated_grouped (by decide) (by decide) hx hn, separated_grouped (by decide) (by decide) hx hn⟩

/-- The least of the safe integers. No digit is missing in a group, and the sign
    is not followed by a separator. -/
theorem separated_of_safe_least :
    (-9007199254740991 : Int).natAbs < twoPow 53 ∧
      Separated (ascii '\'') (-9007199254740991) (height (Double.ofInt (-9007199254740991))) ∧
      Separated (ascii ',') (-9007199254740991) (count (Double.ofInt (-9007199254740991))) ∧
      count (Double.ofInt (-9007199254740991)) = "-9,007,199,254,740,991" := by
  have hfits : (-9007199254740991 : Int).natAbs < twoPow 53 := by decide
  have hvalue := Double.toInt?_ofInt hfits
  exact ⟨hfits, (separated_of_safe hvalue hfits).1, (separated_of_safe hvalue hfits).2,
    by decide +kernel⟩

end Integers

end Report

end NodeWatch

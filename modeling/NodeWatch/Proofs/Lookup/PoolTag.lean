import Mathlib.Data.List.Induction
import Mathlib.Order.Nat
import NodeWatch.Lookup.PoolTag
import NodeWatch.Proofs.Bytes.Hex

/-!
# Which Run Is the Name

The tag of a pool is cut from one run of letters among the bytes of a coinbase.
Which run that is can be said without a list of runs, by where a run stands: it
is made of letters, it ends only where a byte is none or the bytes end, no other
run is longer, and no other one of its length begins further left.

The program passes over the bytes once and never has more than two runs in its
hands. It leaves what is the longest in the list of all runs, the first of
several equally long ones, if that one is long enough, `bestRun_eq`. The list
is taken from the bytes from the right, and the longest is taken from the list
from the left. What ties the two together is the number of bytes before a run
that are no letters, which is also its place in the list. Between two such bytes
there is always a run, which may be empty.

The cut to the width of the screen comes last. It is no part of the choice, so
a run is not preferred for being short enough.

## Main definitions

* `IsName`: The bytes that names are made of.
* `MaximalRun`: Where a run of them stands.
* `LeftmostLongest`: The run that is taken for the name.
* `runs`, `longest`: The list of runs, and the first of the longest in it.
* `fillers`: How many bytes are part of no run.

## Theorems

* `getElem?_runs`, `exists_maximalRun`: The place of a run in the list.
* `firstLongest_longest`: The one that is taken from a list.
* `leftmostLongest_longest`: The one that is taken from the bytes.
* `bestRun_eq`: The one that a single pass leaves.
* `ofCoinbase_names`: The tag of a coinbase.
-/

namespace NodeWatch

namespace PoolTag

/-- A printable ASCII character, but not a slash. -/
def IsName (b : UInt8) : Prop := 0x20 ≤ b ∧ b ≤ 0x7E ∧ b ≠ 0x2F

/-- Where a run stands: all of it can be part of a name, and what is next to it
    on either side cannot. -/
structure MaximalRun (bytes before run after : Bytes) : Prop where
  whole : bytes = before ++ (run ++ after)
  name : ∀ b ∈ run, IsName b
  left : ∀ b, before.getLast? = some b → ¬ IsName b
  right : ∀ b, after.head? = some b → ¬ IsName b

/-- A run that no other one is longer than, and of those of its length the one
    furthest to the left. -/
structure LeftmostLongest (bytes before run after : Bytes) : Prop where
  maximal : MaximalRun bytes before run after
  longest : ∀ before' run' after', MaximalRun bytes before' run' after' →
    run'.length ≤ run.length
  leftmost : ∀ before' run' after', MaximalRun bytes before' run' after' →
    run'.length = run.length → before.length ≤ before'.length

/-- The maximal runs of letters, in order. -/
def runs : Bytes → List Bytes
  | [] => [[]]
  | b :: rest =>
    if isLetter b then
      match runs rest with
      | [] => [[b]]
      | run :: more => (b :: run) :: more
    else [] :: runs rest

/-- The longer one of two runs, and the first if they are equally long. -/
def longer (best run : Bytes) : Bytes := if best.length < run.length then run else best

/-- The longest of several runs, of equally long ones the first. -/
def longest (candidates : List Bytes) : Bytes := candidates.foldl longer []

/-- A run if it is long enough for a name. -/
def named (run : Bytes) : Bytes := if shortest ≤ run.length then run else []

/-- A list around the first of the longest runs in it. -/
def FirstLongest (candidates : List Bytes) (best : Bytes) : Prop :=
  ∃ front back, candidates = front ++ best :: back ∧
    (∀ run ∈ front, run.length < best.length) ∧ ∀ run ∈ back, run.length ≤ best.length

/-- How many bytes are part of no run. -/
def fillers (bytes : Bytes) : Nat := bytes.countP fun b => !isLetter b

theorem isLetter_iff {b : UInt8} : isLetter b = true ↔ IsName b := by
  simp only [isLetter, IsName, Bool.and_eq_true, decide_eq_true_eq, bne_iff_ne, ne_eq,
    UInt8.le_iff_toNat_le, UInt8.lt_iff_toNat_lt, and_assoc]
  have hslash : (0x7F : UInt8).toNat = (0x7E : UInt8).toNat + 1 := rfl
  rw [hslash, Nat.lt_succ_iff]

/-! ### The list of runs -/

section Runs

variable {bytes before run after rest : Bytes} {b : UInt8}

theorem runs_ne_nil (bytes : Bytes) : runs bytes ≠ [] := by
  cases bytes with
  | nil => exact List.cons_ne_nil _ _
  | cons b rest =>
      unfold runs
      split
      · split <;> exact List.cons_ne_nil _ _
      · exact List.cons_ne_nil _ _

/-- A letter makes the first run longer. -/
theorem runs_letter (h : isLetter b = true) (rest : Bytes) :
    ∃ run more, runs rest = run :: more ∧ runs (b :: rest) = (b :: run) :: more := by
  rcases List.exists_cons_of_ne_nil (runs_ne_nil rest) with ⟨run, more, hruns⟩
  refine ⟨run, more, hruns, ?_⟩
  rw [runs, if_pos h, hruns]

/-- Any other byte comes before a run of its own. -/
theorem runs_filler (h : isLetter b = false) (rest : Bytes) :
    runs (b :: rest) = [] :: runs rest := by
  rw [runs, h, if_neg Bool.false_ne_true]

theorem fillers_cons (b : UInt8) (rest : Bytes) :
    fillers (b :: rest) = fillers rest + if isLetter b then 0 else 1 := by
  rw [fillers, List.countP_cons]
  cases isLetter b <;> rfl

/-- A run at the front is the first of the list. -/
theorem getElem?_runs_zero (hname : ∀ b ∈ run, IsName b)
    (hright : ∀ b, after.head? = some b → ¬ IsName b) :
    (runs (run ++ after))[0]? = some run := by
  induction run with
  | nil =>
      cases after with
      | nil => rfl
      | cons b rest =>
          have hfiller : isLetter b = false :=
            Bool.eq_false_iff.mpr fun h => hright b rfl (isLetter_iff.mp h)
          rw [List.nil_append, runs_filler hfiller]
          rfl
  | cons b run ih =>
      rw [List.forall_mem_cons] at hname
      rcases runs_letter (isLetter_iff.mpr hname.1) (run ++ after) with ⟨first, more, hruns, hcons⟩
      have hfirst := ih hname.2
      rw [hruns, List.getElem?_cons_zero, Option.some.injEq] at hfirst
      rw [List.cons_append, hcons, List.getElem?_cons_zero, hfirst]

/-- What is next to a run on its left, if there is one more byte further left. -/
theorem forall_getLast?_cons {P : UInt8 → Prop} :
    (∀ c, (b :: before).getLast? = some c → P c) ↔
      (before = [] → P b) ∧ ∀ c, before.getLast? = some c → P c := by
  rcases List.eq_nil_or_concat before with rfl | ⟨front, c, rfl⟩
  · simp
  · rw [List.concat_eq_append, ← List.cons_append, List.getLast?_concat, List.getLast?_concat]
    simp

/-- A run that does not begin at the front has a byte before it that is in no
    run. -/
theorem fillers_pos (hleft : ∀ b, before.getLast? = some b → ¬ IsName b) (h : before ≠ []) :
    0 < fillers before := by
  rcases List.eq_nil_or_concat before with rfl | ⟨front, c, rfl⟩
  · exact absurd rfl h
  · rw [List.concat_eq_append] at hleft ⊢
    have hc : isLetter c = false :=
      Bool.eq_false_iff.mpr fun hc => hleft c List.getLast?_concat (isLetter_iff.mp hc)
    refine List.countP_pos_iff.mpr ⟨c, List.mem_append_right front (List.mem_singleton_self c), ?_⟩
    rw [hc]
    rfl

/-- A run is in the list at the place that is the number of bytes before it
    that are in no run. -/
theorem getElem?_runs (h : MaximalRun bytes before run after) :
    (runs bytes)[fillers before]? = some run := by
  rcases h with ⟨rfl, hname, hleft, hright⟩
  induction before with
  | nil => exact getElem?_runs_zero hname hright
  | cons b before ih =>
      rw [forall_getLast?_cons] at hleft
      have hplace := ih hleft.2
      rw [fillers_cons, List.cons_append]
      cases hb : isLetter b with
      | false =>
          rw [runs_filler hb]
          exact hplace
      | true =>
          -- A letter is not the last byte before the run, so the run is not the first.
          have hpos : 0 < fillers before :=
            fillers_pos hleft.2 fun hnil => hleft.1 hnil (isLetter_iff.mp hb)
          rcases runs_letter hb (before ++ (run ++ after)) with ⟨first, more, hruns, hcons⟩
          obtain ⟨k, hk⟩ := Nat.exists_eq_succ_of_ne_zero hpos.ne'
          rw [hruns, hk, List.getElem?_cons_succ] at hplace
          rw [hcons, hk]
          exact hplace

/-- Every place in the list is that of a run. -/
theorem exists_maximalRun {i : Nat} (h : (runs bytes)[i]? = some run) :
    ∃ before after, MaximalRun bytes before run after ∧ fillers before = i := by
  induction bytes generalizing i run with
  | nil =>
      obtain ⟨rfl, rfl⟩ : i = 0 ∧ run = [] := by
        rcases List.getElem?_eq_some_iff.mp h with ⟨hi, hrun⟩
        obtain rfl : i = 0 := Nat.lt_one_iff.mp hi
        exact ⟨rfl, hrun.symm⟩
      exact ⟨[], [], ⟨rfl, by simp, by simp, by simp⟩, rfl⟩
  | cons b rest ih =>
      cases hb : isLetter b with
      | false =>
          have hfiller : ¬ IsName b := fun hc => by
            rw [isLetter_iff.mpr hc] at hb
            exact Bool.noConfusion hb
          rw [runs_filler hb] at h
          cases i with
          | zero =>
              rw [List.getElem?_cons_zero, Option.some.injEq] at h
              subst h
              refine ⟨[], b :: rest, ⟨rfl, by simp, by simp, fun c hc => ?_⟩, rfl⟩
              rw [← Option.some.inj hc]
              exact hfiller
          | succ i =>
              rw [List.getElem?_cons_succ] at h
              rcases ih h with ⟨before, after, hrun, rfl⟩
              refine ⟨b :: before, after, ⟨?_, hrun.name, ?_, hrun.right⟩, ?_⟩
              · rw [List.cons_append, ← hrun.whole]
              · exact forall_getLast?_cons.mpr ⟨fun _ => hfiller, hrun.left⟩
              · rw [fillers_cons, hb]
                rfl
      | true =>
          have hletter := isLetter_iff.mp hb
          rcases runs_letter hb rest with ⟨first, more, hruns, hcons⟩
          rw [hcons] at h
          cases i with
          | zero =>
              rw [List.getElem?_cons_zero, Option.some.injEq] at h
              subst h
              have hplace : (runs rest)[0]? = some first := by rw [hruns]; rfl
              rcases ih hplace with ⟨before, after, hrun, hzero⟩
              -- The first run begins at the front, and the letter belongs to it.
              obtain rfl : before = [] := by
                by_contra hne
                exact (fillers_pos hrun.left hne).ne' hzero
              refine ⟨[], after, ⟨?_, ?_, hrun.left, hrun.right⟩, rfl⟩
              · rw [hrun.whole]
                rfl
              · exact List.forall_mem_cons.mpr ⟨hletter, hrun.name⟩
          | succ i =>
              have hnext : (runs rest)[i + 1]? = some run := by rw [hruns]; exact h
              rcases ih hnext with ⟨before, after, hrun, hplace⟩
              have hne : before ≠ [] := by
                rintro rfl
                exact absurd hplace (Nat.succ_ne_zero i).symm
              refine ⟨b :: before, after, ⟨?_, hrun.name, ?_, hrun.right⟩, ?_⟩
              · rw [List.cons_append, ← hrun.whole]
              · exact forall_getLast?_cons.mpr ⟨fun hnil => absurd hnil hne, hrun.left⟩
              · rw [fillers_cons, hb, hplace]
                rfl

end Runs

/-! ### The choice -/

section Choice

variable {bytes best : Bytes} {candidates : List Bytes}

theorem FirstLongest.length_le (h : FirstLongest candidates best) :
    ∀ run ∈ candidates, run.length ≤ best.length := by
  rcases h with ⟨front, back, rfl, hfront, hback⟩
  intro run hrun
  rcases List.mem_append.mp hrun with hrun | hrun
  · exact (hfront run hrun).le
  · rcases List.mem_cons.mp hrun with rfl | hrun
    · exact le_rfl
    · exact hback run hrun

/-- A shorter run in front is not taken. -/
theorem FirstLongest.cons {run : Bytes} (h : FirstLongest candidates best)
    (hlt : run.length < best.length) : FirstLongest (run :: candidates) best := by
  rcases h with ⟨front, back, rfl, hfront, hback⟩
  exact ⟨run :: front, back, rfl, List.forall_mem_cons.mpr ⟨hlt, hfront⟩, hback⟩

/-- A run that is no longer than the one before it is not taken. -/
theorem FirstLongest.insert {first run : Bytes} (h : FirstLongest (first :: candidates) best)
    (hle : run.length ≤ first.length) : FirstLongest (first :: run :: candidates) best := by
  have hbest := h.length_le first List.mem_cons_self
  rcases h with ⟨front, back, hsplit, hfront, hback⟩
  cases front with
  | nil =>
      rw [List.nil_append, List.cons.injEq] at hsplit
      rcases hsplit with ⟨rfl, rfl⟩
      exact ⟨[], run :: candidates, rfl, by simp, List.forall_mem_cons.mpr ⟨hle, hback⟩⟩
  | cons head front =>
      rw [List.cons_append, List.cons.injEq] at hsplit
      rcases hsplit with ⟨rfl, rfl⟩
      rw [List.forall_mem_cons] at hfront
      refine ⟨first :: run :: front, back, rfl, ?_, hback⟩
      exact List.forall_mem_cons.mpr ⟨hfront.1,
        List.forall_mem_cons.mpr ⟨lt_of_le_of_lt hle hfront.1, hfront.2⟩⟩

/-- What is taken from a list after one run is already there. -/
theorem firstLongest_foldl (first : Bytes) (candidates : List Bytes) :
    FirstLongest (first :: candidates) (candidates.foldl longer first) := by
  induction candidates generalizing first with
  | nil => exact ⟨[], [], rfl, by simp, by simp⟩
  | cons run candidates ih =>
      rw [List.foldl_cons, longer]
      by_cases hlt : first.length < run.length
      · rw [if_pos hlt]
        have htaken := ih run
        exact htaken.cons (lt_of_lt_of_le hlt (htaken.length_le run List.mem_cons_self))
      · rw [if_neg hlt]
        exact (ih first).insert (Nat.le_of_not_lt hlt)

/-- The first of the longest runs is taken from a list. -/
theorem firstLongest_longest (h : candidates ≠ []) :
    FirstLongest candidates (longest candidates) := by
  rcases List.exists_cons_of_ne_nil h with ⟨run, more, rfl⟩
  have hempty : longest (run :: more) = more.foldl longer run := by
    rw [longest, List.foldl_cons]
    cases run <;> rfl
  rw [hempty]
  exact firstLongest_foldl run more

/-- A run to the left of another is at an earlier place of the list. -/
theorem fillers_lt {before run after before' run' after' : Bytes}
    (h : MaximalRun bytes before run after) (h' : MaximalRun bytes before' run' after')
    (hlt : before'.length < before.length) : fillers before' < fillers before := by
  have hprefix : before' <+: before :=
    List.prefix_of_prefix_length_le ⟨_, h'.whole.symm⟩ ⟨_, h.whole.symm⟩ hlt.le
  rcases hprefix with ⟨between, rfl⟩
  have hne : between ≠ [] := by
    rintro rfl
    rw [List.append_nil] at hlt
    exact lt_irrefl _ hlt
  have hpos : 0 < fillers between := by
    refine fillers_pos (fun b hb => h.left b ?_) hne
    rw [List.getLast?_append, hb, Option.some_or]
  have hsum : fillers (before' ++ between) = fillers before' + fillers between :=
    List.countP_append
  rw [hsum]
  exact Nat.lt_add_of_pos_right hpos

/-- The first of the longest runs of the list is the leftmost of the longest
    runs among the bytes. -/
theorem leftmostLongest_longest (bytes : Bytes) :
    ∃ before after, LeftmostLongest bytes before (longest (runs bytes)) after := by
  rcases firstLongest_longest (runs_ne_nil bytes) with ⟨front, back, hsplit, hfront, hback⟩
  have hplace : (runs bytes)[front.length]? = some (longest (runs bytes)) := by
    generalize longest (runs bytes) = best at hsplit
    rw [hsplit, List.getElem?_append_right le_rfl, Nat.sub_self, List.getElem?_cons_zero]
  rcases exists_maximalRun hplace with ⟨before, after, hrun, hfillers⟩
  refine ⟨before, after, hrun, fun before' run' after' h' => ?_,
    fun before' run' after' h' heq => ?_⟩
  · exact FirstLongest.length_le ⟨front, back, hsplit, hfront, hback⟩ run'
      (List.mem_of_getElem? (getElem?_runs h'))
  · by_contra hlt
    -- Further left it would be among the runs that are shorter.
    have hearlier := fillers_lt hrun h' (Nat.lt_of_not_le hlt)
    have hplace' := getElem?_runs h'
    rw [hfillers] at hearlier
    rw [hsplit, List.getElem?_append_left hearlier] at hplace'
    exact absurd heq (hfront run' (List.mem_of_getElem? hplace')).ne

/-- There is one such run among the bytes. -/
theorem LeftmostLongest.unique {before run after before' run' after' : Bytes}
    (h : LeftmostLongest bytes before run after)
    (h' : LeftmostLongest bytes before' run' after') : run = run' := by
  have hlength : run.length = run'.length :=
    le_antisymm (h'.longest _ _ _ h.maximal) (h.longest _ _ _ h'.maximal)
  have hplace : before.length = before'.length :=
    le_antisymm (h.leftmost _ _ _ h'.maximal hlength.symm) (h'.leftmost _ _ _ h.maximal hlength)
  have hwhole := h.maximal.whole.symm.trans h'.maximal.whole
  exact (List.append_inj (List.append_inj hwhole hplace).2 hlength).1

end Choice

/-! ### The pass -/

section Pass

variable {best run first : Bytes} {more : List Bytes}

theorem named_of_le (h : shortest ≤ run.length) : named run = run := if_pos h

theorem named_of_lt (h : run.length < shortest) : named run = [] := if_neg (Nat.not_le_of_lt h)

/-- A run that ends is compared with the best one before it, whether or not the
    two are long enough. -/
theorem close_eq (best run : Bytes) :
    Pass.close ⟨named best, run⟩ = ⟨named (longer best run), []⟩ := by
  unfold Pass.close longer
  simp only
  by_cases hrun : shortest ≤ run.length
  · by_cases hbest : shortest ≤ best.length
    · rw [named_of_le hbest]
      by_cases hlt : best.length < run.length
      · rw [if_pos ⟨hrun, hlt⟩, if_pos hlt, named_of_le hrun]
      · rw [if_neg fun hc => hlt hc.2, if_neg hlt, named_of_le hbest]
    -- The first run that is long enough.
    · have hshort : best.length < shortest := Nat.lt_of_not_le hbest
      have hlt : best.length < run.length := Nat.lt_of_lt_of_le hshort hrun
      have hsome : ([] : Bytes).length < run.length := Nat.zero_lt_of_lt hlt
      rw [named_of_lt hshort, if_pos ⟨hrun, hsome⟩, if_pos hlt, named_of_le hrun]
  · have hshort : run.length < shortest := Nat.lt_of_not_le hrun
    rw [if_neg fun hc => hrun hc.1]
    by_cases hlt : best.length < run.length
    · rw [if_pos hlt, named_of_lt hshort, named_of_lt (Nat.lt_trans hlt hshort)]
    · rw [if_neg hlt]

/-- What the pass leaves of the runs that are still to come, where the first one
    goes on with the run that it is in. -/
theorem pass_eq (best run : Bytes) {bytes : Bytes} (hruns : runs bytes = first :: more) :
    (bytes.foldl Pass.next ⟨named best, run⟩).close.best
      = named (((run ++ first) :: more).foldl longer best) := by
  induction bytes generalizing best run first more with
  | nil =>
      obtain ⟨rfl, rfl⟩ := List.cons.inj hruns
      rw [List.foldl_nil, close_eq, List.append_nil]
      rfl
  | cons b rest ih =>
      rw [List.foldl_cons, Pass.next]
      cases hb : isLetter b with
      | true =>
          rcases runs_letter hb rest with ⟨first', more', hrest, hcons⟩
          obtain ⟨rfl, rfl⟩ := List.cons.inj (hcons.symm.trans hruns)
          rw [if_pos rfl, ih _ _ hrest, List.append_assoc]
          rfl
      | false =>
          rcases List.exists_cons_of_ne_nil (runs_ne_nil rest) with ⟨first', more', hrest⟩
          obtain ⟨rfl, rfl⟩ := List.cons.inj ((runs_filler hb rest).symm.trans hruns)
          rw [if_neg Bool.false_ne_true, close_eq, ih _ _ hrest, hrest, List.append_nil]
          rfl

/-- A single pass leaves the first of the longest runs, if it is long enough. -/
theorem bestRun_eq (bytes : Bytes) : bestRun bytes = named (longest (runs bytes)) := by
  rcases List.exists_cons_of_ne_nil (runs_ne_nil bytes) with ⟨first, more, hruns⟩
  have hpass := pass_eq [] [] hruns
  rw [hruns]
  exact hpass

end Pass

/-- The tag that is cut from the run that is taken. -/
theorem ofBytes_eq {bytes before run after : Bytes}
    (h : LeftmostLongest bytes before run after) :
    ofBytes bytes = if 4 ≤ run.length then (run.take 24).map fun b => UInt16.ofNat b.toNat
      else placeholder := by
  rcases leftmostLongest_longest bytes with ⟨before', after', hlongest⟩
  rw [ofBytes, bestRun_eq, ← h.unique hlongest, named, shortest, width]
  by_cases hlength : 4 ≤ run.length
  · have hsome : run.isEmpty = false := by
      cases run with
      | nil => exact absurd hlength (by decide)
      | cons b rest => rfl
    rw [if_pos hlength, if_pos hlength, hsome]
    rfl
  · rw [if_neg hlength, if_neg hlength]
    rfl

/-- The tag of a coinbase of any length. Half a byte at its end is left out,
    whatever it is. If all that remains are digits, the tag is the beginning of
    the leftmost of the longest runs among the bytes that they write, unless
    that run is too short to be a name; if not, there is no tag, and for no
    other reason. -/
theorem ofCoinbase_names (hex : Text) :
    let kept := if hex.length % 2 = 1 then hex.dropLast else hex
    ((∃ e, ofCoinbase hex = .error e) ↔ ∃ u ∈ kept, u.isHexDigit = false) ∧
      ∀ tag, ofCoinbase hex = .ok tag ↔ ∃ bytes before run after, Hex.Writes kept bytes ∧
        LeftmostLongest bytes before run after ∧
        tag = if 4 ≤ run.length then (run.take 24).map fun b => UInt16.ofNat b.toNat
          else placeholder := by
  intro kept
  have hkept : (if hex.length % 2 = 0 then hex else hex.dropLast) = kept := by
    rw [← ite_not]
    exact if_congr (by omega) rfl rfl
  have heven : kept.length % 2 = 0 := by
    change (if hex.length % 2 = 1 then hex.dropLast else hex).length % 2 = 0
    split
    · rw [List.length_dropLast]
      omega
    · omega
  rw [ofCoinbase, hkept]
  refine ⟨?_, fun tag => ?_⟩
  · rw [← Hex.exists_decode_error_iff heven]
    cases Hex.decode kept with
    | error e => simp only [Except.map, Except.error.injEq, exists_eq']
    | ok bytes => simp only [Except.map, reduceCtorEq, exists_false]
  · cases hdecode : Hex.decode kept with
    | error e =>
        simp only [← Hex.decode_eq_ok_iff, hdecode, Except.map, reduceCtorEq, false_and,
          exists_false]
    | ok bytes =>
        have hwrites := Hex.decode_eq_ok_iff.mp hdecode
        rw [Except.map, Except.ok.injEq]
        constructor
        · rintro rfl
          rcases leftmostLongest_longest bytes with ⟨before, after, hrun⟩
          exact ⟨bytes, before, _, after, hwrites, hrun, ofBytes_eq hrun⟩
        · rintro ⟨bytes', before, run, after, hwrites', hrun, rfl⟩
          have hbytes := (Hex.decode_eq_ok_iff.mpr hwrites').symm.trans hdecode
          rw [← Except.ok.inj hbytes]
          exact ofBytes_eq hrun

/-- Of `ABCD/EFGH` the left half, whatever the odd digit at the end. -/
example : ofCoinbase "414243442f454647486" = .ok "ABCD" := by decide

end PoolTag

end NodeWatch

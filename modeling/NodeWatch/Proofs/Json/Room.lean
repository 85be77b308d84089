import NodeWatch.Json.Printer
import NodeWatch.Proofs.Double.Whole
import NodeWatch.Proofs.Json.Normal
import Mathlib.Algebra.Order.BigOperators.Group.List

/-!
# Room for a Text

The units of an indented text are counted with doubles before the text is
written. The count is right: whenever the text has room, its length is what
was counted, so every value has a text for every indentation that leaves room
for one.

The blanks in front of a line are a product of doubles, the depth and the
indentation. Such a line is a part of the text, so when the text has room the
product is small, and small products of whole numbers are exact.

## Theorems

* `countOf_mul`: A product of whole numbers is the count it stands for.
* `bracket_length`: The units between brackets and of the brackets.
* `sizeAt_eq`: What is counted is the length of the text.
* `printWith_eq`: Where there is room, a value has a text.
-/

namespace NodeWatch

namespace Json

open Double

/-! ### Counts -/

theorem countOf_whole {x : Double} {s : Bool} {k : Nat} (hx : Whole x s k)
    (hs : s = true → k = 0) : Text.countOf x = Text.fitting k := by
  have htrunc := hx.truncInt?
  rcases hx with ⟨m, q, hq, rfl, -⟩
  rw [Text.countOf]
  · simp only [htrunc, Option.getD_some]
    -- A negative count is refused; the only one that is not is zero.
    cases s with
    | false => rw [if_neg Bool.false_ne_true, if_neg (by omega), Int.toNat_natCast]
    | true =>
        rw [hs rfl]
        rfl
  · exact fun h => by simp only [reduceCtorEq] at h
  · exact fun s h => by simp only [reduceCtorEq] at h

theorem fitting_eq {n : Nat} (h : n ≤ Text.longest) : Text.fitting n = .ok n := by
  rw [Text.fitting, if_neg (by omega)]

theorem longest_lt : Text.longest < twoPow 53 := by decide

/-- Anything counted is nothing when it is multiplied by a zero. -/
theorem countOf_mul_zero (y : Double) {x : Double} {s : Bool} (hx : Whole x s 0) :
    Text.countOf (y * x) = .ok 0 := by
  rcases hx with ⟨m, q, hq, rfl, hm⟩
  rw [Nat.zero_mul] at hm
  obtain rfl : m = 0 := (Nat.mul_eq_zero.mp hm).resolve_right (twoPow_pos _).ne'
  cases y with
  | nan => rfl
  | infinite t => rfl
  | finite t l r hr =>
      -- Of finite numbers the product is a zero of some sign.
      have hzero := whole_ofRatio (t != s) (k := 0) (twoPow_pos (-(r + q)).toNat) (by decide)
      rw [Nat.zero_mul] at hzero
      change Text.countOf (ofScaled (t != s) (l * 0) (r + q)) = .ok 0
      rw [ofScaled, Nat.mul_zero, Nat.zero_mul, countOf_whole hzero fun _ => rfl]
      exact fitting_eq (Nat.zero_le _)

/-- The blanks in front of a line, counted with doubles. -/
theorem countOf_mul {x : Double} {n d : Nat} (hx : x.toInt? = some (n : Int))
    (hroom : d * n ≤ Text.longest) : Text.countOf (Double.ofNat d * x) = .ok (d * n) := by
  rcases whole_of_toInt? hx with ⟨s, hwhole, hsign⟩
  rw [Int.natAbs_natCast] at hwhole
  rcases Nat.eq_zero_or_pos n with rfl | hn
  · exact countOf_mul_zero _ hwhole
  · have hlt := longest_lt
    -- Both factors are no greater than the product, which has room in a text.
    have hd : d ≤ d * n := Nat.le_mul_of_pos_right d hn
    have hprod := (whole_ofNat (k := d) (by omega)).mul hwhole (by omega)
    have hs : s = false := by
      cases s with
      | false => rfl
      | true => exact absurd (hsign rfl) (by omega)
    rw [hs] at hprod
    rw [countOf_whole hprod fun h => absurd h (by decide)]
    exact fitting_eq hroom

/-! ### The units of a text -/

theorem join_length (separator : Text) (parts : List Text) :
    (Text.join separator parts).length
      = (parts.map List.length).sum + (parts.length - 1) * separator.length := by
  induction parts with
  | nil => simp [Text.join]
  | cons p rest ih =>
      cases rest with
      | nil => simp [Text.join]
      | cons q rest =>
          rw [Text.join] at ih ⊢
          rw [List.intercalate_cons_cons, List.length_append, List.length_append, ih]
          simp only [List.map_cons, List.sum_cons, List.length_cons, Nat.add_sub_cancel]
          ring

/-- The units between brackets on lines of their own, brackets included. -/
theorem bracket_length (opening closing : CodeUnit) (n depth : Nat) {parts : List Text}
    (hne : parts ≠ []) :
    (bracket opening closing (some n) depth parts).length
      = 4 + (depth + 1) * n + depth * n
        + ((parts.length - 1) * (2 + (depth + 1) * n) + (parts.map List.length).sum) := by
  have hempty : parts.isEmpty = false := by
    cases parts with
    | nil => exact absurd rfl hne
    | cons _ _ => rfl
  have hsep : (",\n" : Text).length = 2 := by decide
  have hline : ("\n" : Text).length = 1 := by decide
  rw [bracket, hempty]
  simp only [Bool.false_eq_true, if_false, List.length_append, List.length_singleton, join_length,
    hsep, hline, margin, List.length_replicate]
  ring

/-- No part is longer than the text that holds it. -/
theorem length_le_bracket (opening closing : CodeUnit) (n depth : Nat) {parts : List Text}
    {p : Text} (hp : p ∈ parts) :
    p.length ≤ (bracket opening closing (some n) depth parts).length := by
  have hsum := List.single_le_sum (fun x _ => Nat.zero_le x) p.length (List.mem_map_of_mem hp)
  rw [bracket_length opening closing n depth (List.ne_nil_of_mem hp)]
  omega

theorem foldl_add (sizes : List Nat) (acc : Nat) : sizes.foldl (· + ·) acc = acc + sizes.sum := by
  induction sizes generalizing acc with
  | nil => rfl
  | cons size rest ih => rw [List.foldl_cons, ih, List.sum_cons, Nat.add_assoc]

/-- What is counted for brackets is what stands there. -/
theorem bracketSize_eq {x : Double} {n : Nat} (hx : x.toInt? = some (n : Int))
    (opening closing : CodeUnit) (depth : Nat) (parts : List Text)
    (hroom : (bracket opening closing (some n) depth parts).length ≤ Text.longest) :
    bracketSize x depth (parts.map List.length)
      = .ok (bracket opening closing (some n) depth parts).length := by
  cases parts with
  | nil => rfl
  | cons p rest =>
      have hlength := bracket_length opening closing n depth (List.cons_ne_nil p rest)
      -- The blanks of the two margins are a part of the text, so they have room.
      have hinner := countOf_mul (d := depth + 1) hx (by omega)
      have houter := countOf_mul (d := depth) hx (by omega)
      rw [bracketSize, List.map_cons, List.isEmpty_cons]
      simp only [Bool.false_eq_true, if_false, hinner, houter, bind, Except.bind]
      rw [foldl_add, ← List.map_cons, List.length_map, ← hlength]
      exact fitting_eq hroom

/-! ### Values -/

theorem itemSizes_eq {x : Double} {depth : Nat} {f : Value → Nat} {vs : List Value}
    (h : ∀ v ∈ vs, v.sizeAt x depth = .ok (f v)) :
    Value.itemSizes x depth vs = .ok (vs.map f) := by
  induction vs with
  | nil => rfl
  | cons v rest ih =>
      rw [Value.itemSizes, h v List.mem_cons_self,
        ih fun w hw => h w (List.mem_cons_of_mem v hw)]
      rfl

theorem entrySizes_eq_map (x : Double) (depth : Nat) (es : Entries) :
    Value.entrySizes x depth es = es.map fun e => (e.1, e.2.sizeAt x depth) := by
  induction es with
  | nil => rfl
  | cons e rest ih => rw [Value.entrySizes, ih, List.map_cons]

theorem mapM_eq_ok {α β ε : Type} {f : α → Except ε β} {g : α → β} {xs : List α}
    (h : ∀ a ∈ xs, f a = .ok (g a)) : xs.mapM f = .ok (xs.map g) := by
  induction xs with
  | nil => rfl
  | cons a rest ih =>
      rw [List.mapM_cons, h a List.mem_cons_self, ih fun b hb => h b (List.mem_cons_of_mem a hb)]
      rfl

/-- What is counted for an entry is what it takes. -/
theorem entrySize_eq {n : Nat} {k t : Text}
    (hroom : (entryText (some n) (k, t)).length ≤ Text.longest) :
    entrySize (k, .ok t.length) = .ok (entryText (some n) (k, t)).length := by
  have hlength : (quote k).length + 2 + t.length = (entryText (some n) (k, t)).length := by
    rw [entryText_some, List.length_append, List.length_cons, List.length_append,
      List.length_singleton]
    omega
  rw [entrySize]
  simp only [bind, Except.bind]
  rw [hlength]
  exact fitting_eq hroom

/-- What is counted for a value is the length of its text, if there is room
    for the text. -/
theorem sizeAt_eq {x : Double} {n : Nat} (hx : x.toInt? = some (n : Int)) (v : Value)
    (depth : Nat) (hroom : (v.printAt (some n) depth).length ≤ Text.longest) :
    v.sizeAt x depth = .ok (v.printAt (some n) depth).length := by
  induction v using Value.ind generalizing depth with
  | array vs ih =>
      rw [Value.printAt, Value.printItems_eq_map] at hroom ⊢
      have hitems : ∀ v ∈ vs,
          v.sizeAt x (depth + 1) = .ok (v.printAt (some n) (depth + 1)).length := fun v hv =>
        ih v hv (depth + 1)
          ((length_le_bracket _ _ n depth (List.mem_map_of_mem hv)).trans hroom)
      rw [Value.sizeAt, itemSizes_eq hitems]
      have := bracketSize_eq hx _ _ depth _ hroom
      rw [List.map_map] at this
      exact this
  | object es ih =>
      rw [Value.printAt, Value.printEntries_eq_map, sortByKey_map, List.map_map] at hroom ⊢
      have hentries : ∀ e ∈ sortByKey es,
          entrySize (e.1, e.2.sizeAt x (depth + 1))
            = .ok (entryText (some n) (e.1, e.2.printAt (some n) (depth + 1))).length := by
        intro e he
        -- The entry is a part of the text, and its value is a part of the entry.
        have hentry := (length_le_bracket _ _ n depth (List.mem_map_of_mem he)).trans hroom
        have hvalue : (e.2.printAt (some n) (depth + 1)).length ≤ Text.longest := by
          refine Nat.le_trans ?_ hentry
          rw [Function.comp_apply, entryText, List.length_append]
          exact Nat.le_add_left _ _
        rw [ih e ((sortByKey_perm es).mem_iff.mp he) (depth + 1) hvalue]
        exact entrySize_eq hentry
      have hsizes := mapM_eq_ok hentries
      have := bracketSize_eq hx _ _ depth _ hroom
      rw [List.map_map] at this
      rw [Value.sizeAt, entrySizes_eq_map, sortByKey_map, List.mapM_map]
      simp only [Function.comp_def] at this hsizes ⊢
      rw [hsizes]
      exact this
  | _ => rfl

/-- Where there is room for it, a value has a text of the indentation that a
    number asks for. -/
theorem printWith_eq {x : Double} {n : Nat} (hx : indentOf? x = some n) (v : Value)
    (hroom : (v.print (some n)).length ≤ Text.longest) :
    v.printWith (some x) = .ok (v.print (some n)) := by
  have hint : x.toInt? = some (n : Int) := by
    rw [indentOf?] at hx
    split at hx
    · next k hk =>
      split at hx
      · next hpos =>
        rw [Option.some.injEq] at hx
        rw [hk, ← hx, Int.toNat_of_nonneg hpos]
      · exact absurd hx (by simp only [reduceCtorEq, not_false_eq_true])
    · exact absurd hx (by simp only [reduceCtorEq, not_false_eq_true])
  rw [Value.printWith, hx, sizeAt_eq hint v 0 hroom]
  rfl

end Json

end NodeWatch

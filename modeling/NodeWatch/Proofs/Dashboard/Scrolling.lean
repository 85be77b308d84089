import NodeWatch.Proofs.Dashboard.Drawing

/-!
# Scrolling through an Open List

An open list shows ten of its entries, and the window on them follows the
cursor. It keeps the cursor in its middle as long as it can, and at the ends of
the list it stands still while the cursor goes on. The two bounds that hold it
there interact: a list that is shorter than the window has no room for either,
and the one that comes last has to win without breaking the other.

Over integers the place of the window is `windowTop`, and everything about it
is arithmetic. The number of entries and the cursor are doubles, which may also
be a negative zero, so the window is first shown to be the one over integers.
What the panel draws for it is known from `inverse_listPanel`: under the cursor
is the entry itself. So a cursor that walks down the list has every entry drawn
once, and drawn inverse.

## Main definitions

* `WellPlaced`: Where a window may stand for a cursor.
* `Overlay.walked`: A list after several steps down from its first entry.

## Theorems

* `wellPlaced_windowTop`: Where the window stands.
* `windowTop_step`: How far one step of the cursor moves it.
* `toInt?_around`: The window with any numbers for the two integers.
* `toInt?_walked`: Where a walk down the list leads to.
* `window_of_cursor`: The window, its moves and what a walk draws.
-/

namespace NodeWatch

namespace Lookup

/-- Where a window may stand on a list of `n` entries while the cursor is at
    `i`, nowhere if that is negative: it has ten entries or all there are, it is
    within the list, it shows the entry under the cursor, and that is in its
    middle unless the window touches an end of the list. -/
structure WellPlaced (n : Nat) (i top size : Int) : Prop where
  entries : size = min (n : Int) 10
  start : 0 ≤ top
  stop : top + size ≤ n
  shown : 0 ≤ i → top ≤ i ∧ i < top + size
  middle : 0 ≤ i → i - top = size / 2 ∨ top = 0 ∨ top + size = n

/-- An open list after a number of steps down from its first entry. -/
def Overlay.walked (n : Nat) : Nat → Overlay
  | 0 => ⟨true, 0⟩
  | steps + 1 => (walked n steps).move 1 n

section Integers

variable {n : Nat} {i : Int}

theorem wellPlaced_windowTop (hlow : -1 ≤ i) (hhigh : i < n) :
    WellPlaced n i (windowTop n i) (shown n) := by
  have hbounds := windowTop_bounds hlow (Int.le_sub_one_of_lt hhigh)
  refine ⟨Nat.cast_min n 10, hbounds.1, hbounds.2.1, hbounds.2.2, fun h0 => ?_⟩
  have hshown : shown n = min n 10 := rfl
  rw [windowTop, if_pos h0]
  omega

/-- A step of the cursor moves the window by one entry at most, in the same
    direction, and the step onto the first entry does not move it. -/
theorem windowTop_step (hlow : -1 ≤ i) (hhigh : i + 1 < n) :
    windowTop n i ≤ windowTop n (i + 1) ∧ windowTop n (i + 1) ≤ windowTop n i + 1 ∧
      (i = -1 → windowTop n i = 0 ∧ windowTop n (i + 1) = 0) := by
  have hshown : shown n = min n 10 := rfl
  unfold windowTop
  split <;> split <;> omega

end Integers

section Doubles

variable {n : Nat} {rows x : Double} {i : Int}

/-- The window with any numbers for the two integers, zeros of either sign
    included. -/
theorem toInt?_around (hn : n < twoPow 53) (hrows : rows.toInt? = some (n : Int))
    (hx : x.toInt? = some i) (hlow : -1 ≤ i) (hhigh : i < n) :
    (Window.around rows x).top.toInt? = some (windowTop n i) ∧
      (Window.around rows x).size.toInt? = some (shown n : Int) := by
  have hsize : (Window.around rows x).size.toInt? = some (shown n : Int) := by
    have hten : windowSize.toInt? = some 10 := Double.toInt?_ofNat (k := 10) (by decide)
    rw [shown, Nat.cast_min]
    exact Double.toInt?_min hrows hten
  refine ⟨?_, hsize⟩
  by_cases hzero : n = 0
  · -- An empty list has no entry for the cursor, so the window is at its start.
    have hnowhere : ¬ 0 ≤ i := by omega
    have hneg : ¬ 0 ≤ x := fun h => hnowhere ((Double.le_iff Double.toInt?_zero hx).mp h)
    change (if 0 ≤ x then _ else (0 : Double)).toInt? = _
    rw [if_neg hneg, windowTop, if_neg hnowhere]
    exact Double.toInt?_zero
  · obtain rfl : rows = Double.ofNat n :=
      Double.eq_of_toInt? hrows (Double.toInt?_ofNat hn) (by omega)
    exact (toInt?_window hn hx hlow (Int.le_sub_one_of_lt hhigh)).1

/-- As many steps down as there are entries left lead to the entry of that
    number. -/
theorem toInt?_walked (hn : n < twoPow 53) {k : Nat} (hk : k < n) :
    (Overlay.walked n k).selected.toInt? = some (k : Int) := by
  induction k with
  | zero => exact Double.toInt?_zero
  | succ k ih =>
      have hone : (1 : Double).toInt? = some 1 := Double.toInt?_ofNat (k := 1) (by decide)
      have htwo : twoPow 53 = 2 ^ 53 := rfl
      change (clamp ((Overlay.walked n k).selected + 1) ((n : Int) - 1)).toInt? = _
      rw [toInt?_clamp (ih (by omega)) hone (by omega), Option.some.injEq]
      omega

end Doubles

end Lookup

namespace Dashboard

open Lookup (WellPlaced Overlay Window)

/-- A list of any number of entries, with the cursor on any of them or nowhere.
    The window is within the list and around the cursor; a step of the cursor
    moves it by one entry at most and never the other way; and a walk from the
    first entry to the last has each of them drawn when the cursor is on it. -/
theorem window_of_cursor {n : Nat} (hn : n < twoPow 53) {rows : Double}
    (hrows : rows.toInt? = some (n : Int)) :
    (∀ (x : Double) (i : Int), x.toInt? = some i → -1 ≤ i → i < n → ∃ top size,
      (Window.around rows x).top.toInt? = some top ∧
        (Window.around rows x).size.toInt? = some size ∧ WellPlaced n i top size) ∧
    (∀ (x y : Double) (i : Int), x.toInt? = some i → y.toInt? = some (i + 1) → -1 ≤ i →
      i + 1 < n → ∃ top top', (Window.around rows x).top.toInt? = some top ∧
        (Window.around rows y).top.toInt? = some top' ∧ top ≤ top' ∧ top' ≤ top + 1 ∧
        (i = -1 → top = 0 ∧ top' = 0)) ∧
    ∀ (title query : Text) (entries : List Entry), entries.length = n →
      ∀ k (hk : k < entries.length),
        (listPanel title query entries (Overlay.walked n k).selected).inverse
          = entryTexts (Double.ofNat k) entries[k].label := by
  refine ⟨fun x i hx hlow hhigh => ?_, fun x y i hx hy hlow hhigh => ?_,
    fun title query entries hlength k hk => ?_⟩
  · have haround := Lookup.toInt?_around hn hrows hx hlow hhigh
    exact ⟨_, _, haround.1, haround.2, Lookup.wellPlaced_windowTop hlow hhigh⟩
  · have hbefore := Lookup.toInt?_around hn hrows hx hlow (by omega)
    have hafter := Lookup.toInt?_around hn hrows hy (by omega) hhigh
    exact ⟨_, _, hbefore.1, hafter.1, Lookup.windowTop_step hlow hhigh⟩
  · subst hlength
    have hselected := Lookup.toInt?_walked hn hk
    have hwithin : Lookup.Within (Overlay.walked entries.length k).selected (entries.length - 1) :=
      ⟨k, hselected, by omega, by omega⟩
    have hentry : Lookup.entryAt? entries (Overlay.walked entries.length k).selected
        = some entries[k] := by
      rw [Lookup.entryAt?, hselected]
      simp only [Option.bind_eq_bind, Option.bind_some, Int.natCast_nonneg, if_true,
        Int.toNat_natCast, List.getElem?_eq_getElem hk]
    rw [inverse_listPanel title query entries hn hwithin, hentry, Option.elim_some, entryTexts,
      entryTexts, Double.display_eq hselected (Double.toInt?_ofNat (hk.trans hn))]

/-- With twelve entries the window begins to move when the cursor goes on from
    the sixth of them. -/
theorem window_of_cursor_twelve :
    ((12 : Double).toInt? = some 12 ∧ (5 : Double).toInt? = some 5 ∧ (6 : Double).toInt? = some 6) ∧
      (∃ top size, (Window.around 12 6).top.toInt? = some top ∧
        (Window.around 12 6).size.toInt? = some size ∧ WellPlaced 12 6 top size) ∧
      (∃ top top', (Window.around 12 5).top.toInt? = some top ∧
        (Window.around 12 6).top.toInt? = some top' ∧ top ≤ top' ∧ top' ≤ top + 1 ∧
        ((5 : Int) = -1 → top = 0 ∧ top' = 0)) ∧
      (Window.around 12 5).top = 0 ∧ (Window.around 12 6).top = 1 := by
  have htwelve : (12 : Double).toInt? = some 12 := by decide +kernel
  have hfive : (5 : Double).toInt? = some 5 := by decide +kernel
  have hsix : (6 : Double).toInt? = some 6 := by decide +kernel
  rcases window_of_cursor (n := 12) (by decide) htwelve with ⟨hplace, hstep, -⟩
  exact ⟨⟨htwelve, hfive, hsix⟩, hplace 6 6 hsix (by decide) (by decide),
    hstep 5 6 5 hfive hsix (by decide) (by decide), by decide +kernel, by decide +kernel⟩

end Dashboard

end NodeWatch

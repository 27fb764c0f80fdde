import Ladybug.World.Basic

/-!
# Cells of a changed grid

* `Grid.cell?_put_map`, `Grid.cell?_put`   a changed grid has the new cell in its place and the old
  ones elsewhere
* `Grid.count_put`      a change takes one cell from one kind and gives it to another
* `World.cellAt?_put`, `World.count_put`, `World.valid_put`   the same for worlds
-/

namespace Ladybug

namespace Grid

theorem length_put (g : Grid) (x y : Nat) (c : Cell) : (g.put x y c).length = g.length :=
  List.length_modify ..

theorem length_of_mem_put {g : Grid} {n : Nat} (h : ∀ row ∈ g, row.length = n) (x y : Nat)
    (c : Cell) : ∀ row ∈ g.put x y c, row.length = n := by
  intro row hrow
  obtain ⟨i, hi⟩ := List.mem_iff_getElem?.mp hrow
  rw [put, List.getElem?_modify] at hi
  obtain ⟨old, hold, rfl⟩ := Option.map_eq_some_iff.mp hi
  have hlen := h old (List.mem_of_getElem? hold)
  by_cases hy : y = i
  · simp only [hy, ↓reduceIte, List.length_set, hlen]
  · simp only [hy, ↓reduceIte, hlen]

/-- A change where no cell stands changes nothing. -/
theorem cell?_put_map (g : Grid) (x y : Nat) (c : Cell) (x' y' : Nat) :
    (g.put x y c).cell? x' y'
      = if x = x' ∧ y = y' then (g.cell? x' y').map fun _ => c else g.cell? x' y' := by
  rw [cell?, put, List.getElem?_modify, cell?]
  cases hrow : g[y']? with
  | none => simp
  | some row =>
    show (if y = y' then row.set x c else row)[x']? = _
    by_cases hy : y = y'
    · rw [if_pos hy, List.getElem?_set']
      by_cases hx : x = x'
      · rw [if_pos hx, if_pos ⟨hx, hy⟩]
        rfl
      · rw [if_neg hx, if_neg fun h => hx h.1]
        rfl
    · rw [if_neg hy, if_neg fun h => hy h.2]
      rfl

theorem cell?_put {g : Grid} {x y : Nat} {old : Cell} (h : g.cell? x y = some old) (c : Cell)
    (x' y' : Nat) :
    (g.put x y c).cell? x' y' = if x' = x ∧ y' = y then some c else g.cell? x' y' := by
  rw [cell?_put_map]
  by_cases e : x' = x ∧ y' = y
  · obtain ⟨rfl, rfl⟩ := e
    rw [if_pos ⟨rfl, rfl⟩, if_pos ⟨rfl, rfl⟩, h]
    rfl
  · rw [if_neg e, if_neg fun e' => e ⟨e'.1.symm, e'.2.symm⟩]

theorem count_put {g : Grid} {x y : Nat} {old : Cell} (h : g.cell? x y = some old) (c d : Cell) :
    (g.put x y c).count d + (if old = d then 1 else 0) = g.count d + (if c = d then 1 else 0) := by
  induction g generalizing y with
  | nil => cases h
  | cons row g ih =>
    cases y with
    | zero =>
      have hx : row[x]? = some old := h
      obtain ⟨hlt, hget⟩ := List.getElem?_eq_some_iff.mp hx
      have hle : (if old = d then 1 else 0) ≤ row.count d := by
        by_cases hod : old = d
        · rw [if_pos hod]
          exact List.count_pos_iff.mpr (hod ▸ hget ▸ List.getElem_mem hlt)
        · rw [if_neg hod]
          exact Nat.zero_le _
      show ((row.set x c) ++ g.flatten).count d + _ = (row ++ g.flatten).count d + _
      rw [List.count_append, List.count_append, List.count_set hlt, hget]
      simp only [beq_iff_eq]
      omega
    | succ y =>
      have ih' := ih (y := y) h
      show (row ++ (put g x y c).flatten).count d + _ = (row ++ g.flatten).count d + _
      rw [List.count_append, List.count_append]
      simp only [count] at ih'
      omega

end Grid

theorem Position.ext {p q : Position} (hx : p.x = q.x) (hy : p.y = q.y) : p = q := by
  cases p
  cases q
  cases hx
  cases hy
  rfl

namespace World

theorem inBounds_iff (w : World) (p : Position) :
    w.inBounds p = true ↔ 0 ≤ p.x ∧ p.x < w.width ∧ 0 ≤ p.y ∧ p.y < w.height := by
  simp only [inBounds, Bool.and_eq_true, decide_eq_true_eq, and_assoc]

theorem inBounds_of_cellAt? {w : World} {p : Position} {c : Cell} (h : w.cellAt? p = some c) :
    w.inBounds p = true := by
  unfold cellAt? at h
  split at h
  · assumption
  · cases h

theorem cell?_of_cellAt? {w : World} {p : Position} {c : Cell} (h : w.cellAt? p = some c) :
    w.grid.cell? p.x.toNat p.y.toNat = some c := by
  rwa [cellAt?, if_pos (inBounds_of_cellAt? h)] at h

/-- no place on the grid is the one off it -/
theorem ne_offGrid_of_inBounds {w : World} {p : Position} (h : w.inBounds p = true) :
    p ≠ Position.offGrid := by
  rintro rfl
  have hx := ((inBounds_iff w _).mp h).1
  simp only [Position.offGrid] at hx
  omega

theorem cellAt?_put {w : World} {p : Position} {old : Cell} (h : w.cellAt? p = some old) (c : Cell)
    (q : Position) : (w.put p c).cellAt? q = if q = p then some c else w.cellAt? q := by
  have hp := (inBounds_iff w p).mp (inBounds_of_cellAt? h)
  unfold cellAt?
  show (if w.inBounds q = true then (w.grid.put _ _ c).cell? _ _ else none) = _
  by_cases hq : w.inBounds q = true
  · have hq' := (inBounds_iff w q).mp hq
    rw [if_pos hq, if_pos hq, Grid.cell?_put (cell?_of_cellAt? h)]
    by_cases e : q = p
    · rw [e, if_pos ⟨rfl, rfl⟩, if_pos rfl]
    · rw [if_neg e, if_neg]
      rintro ⟨hx, hy⟩
      exact e (Position.ext (by omega) (by omega))
  · have e : q ≠ p := fun e => hq (e ▸ inBounds_of_cellAt? h)
    rw [if_neg hq, if_neg hq, if_neg e]

theorem count_put {w : World} {p : Position} {old : Cell} (h : w.cellAt? p = some old)
    (c d : Cell) :
    (w.put p c).count d + (if old = d then 1 else 0) = w.count d + (if c = d then 1 else 0) :=
  Grid.count_put (cell?_of_cellAt? h) c d

theorem valid_put {w : World} (hw : w.Valid) (p : Position) (c : Cell) : (w.put p c).Valid where
  width_pos := hw.width_pos
  height_pos := hw.height_pos
  rows := (Grid.length_put ..).trans hw.rows
  cells := Grid.length_of_mem_put hw.cells _ _ _
  placed := hw.placed

end World

end Ladybug

import Ladybug.Proofs.World.Grid
import Mathlib.Tactic.Conv
import Mathlib.Tactic.SplitIfs

/-!
# Grids and the lists of their points

* `Grid.cell?_foldl_mark`    a cell of a grid with points filled in is what the last of them says
* `Grid.mem_positionsOf`     the points of one kind are those where a cell of it stands
* `Grid.Lists`               a list that gives each filled cell of a grid its place
* `Grid.foldl_mark_of_lists`, `World.filled_of_lists`   a grid is filled in again from such a list
* `World.misfit?_eq_none_iff`   nothing is wrong with a valid world
* `World.count_eq_zero_iff`  no cell of a kind is counted if none is there
* `World.valid_filled`       a world that is filled in is valid, wherever the points are
-/

namespace Ladybug

namespace Grid

variable {g : Grid} {cells : List (Position × Cell)}

/-! ### filling in -/

/-- the point with a column and a row -/
def point (x y : Nat) : Position := ⟨x, y⟩

theorem point_inj {x y x' y' : Nat} : point x y = point x' y' ↔ x = x' ∧ y = y' := by
  simp only [point, Position.mk.injEq, Int.ofNat_inj]

theorem eq_point {p : Position} (hx : 0 ≤ p.x) (hy : 0 ≤ p.y) :
    p = point p.x.toNat p.y.toNat :=
  Position.ext (Int.toNat_of_nonneg hx).symm (Int.toNat_of_nonneg hy).symm

theorem cell?_mark (g : Grid) (entry : Position × Cell) (x y : Nat) :
    (g.mark entry).cell? x y
      = if entry.1 = point x y then (g.cell? x y).map fun _ => entry.2 else g.cell? x y := by
  by_cases h : 0 ≤ entry.1.x ∧ 0 ≤ entry.1.y
  · have hmark : g.mark entry = g.put entry.1.x.toNat entry.1.y.toNat entry.2 := by
      simp only [mark, h, decide_true, Bool.and_self, ↓reduceIte]
    have hpoint : entry.1 = point x y ↔ entry.1.x.toNat = x ∧ entry.1.y.toNat = y := by
      rw [eq_point h.1 h.2]
      exact point_inj
    rw [hmark, cell?_put_map]
    simp only [hpoint]
  · have hmark : g.mark entry = g := by
      simp only [mark, Bool.and_eq_true, decide_eq_true_eq, h, ↓reduceIte]
    have hpoint : entry.1 ≠ point x y := by
      intro e
      rw [e] at h
      exact h ⟨Int.natCast_nonneg x, Int.natCast_nonneg y⟩
    rw [hmark, if_neg hpoint]

theorem length_mark (g : Grid) (entry : Position × Cell) : (g.mark entry).length = g.length := by
  rw [mark]
  split
  · exact length_put ..
  · rfl

theorem length_foldl_mark (g : Grid) (cells : List (Position × Cell)) :
    (cells.foldl mark g).length = g.length := by
  induction cells generalizing g with
  | nil => rfl
  | cons e cells ih => rw [List.foldl_cons, ih, length_mark]

theorem length_of_mem_mark {n : Nat} (h : ∀ row ∈ g, row.length = n) (entry : Position × Cell) :
    ∀ row ∈ g.mark entry, row.length = n := by
  rw [mark]
  split
  · exact length_of_mem_put h _ _ _
  · exact h

theorem length_of_mem_foldl_mark {n : Nat} (h : ∀ row ∈ g, row.length = n)
    (cells : List (Position × Cell)) : ∀ row ∈ cells.foldl mark g, row.length = n := by
  induction cells generalizing g with
  | nil => exact h
  | cons e cells ih => exact ih (length_of_mem_mark h e)

theorem lastAt?_cons (e : Position × Cell) (cells : List (Position × Cell)) (p : Position) :
    lastAt? (e :: cells) p = (lastAt? cells p).or (if e.1 = p then some e.2 else none) := by
  rw [lastAt?, lastAt?, List.reverse_cons, List.find?_append]
  cases cells.reverse.find? fun c => c.1 == p with
  | some c => rfl
  | none =>
    by_cases h : e.1 = p
    · simp [h]
    · simp [h]

theorem mem_of_lastAt? {p : Position} {c : Cell} (h : lastAt? cells p = some c) :
    (p, c) ∈ cells := by
  obtain ⟨e, he, rfl⟩ := Option.map_eq_some_iff.mp h
  have hp : e.1 = p := beq_iff_eq.mp (List.find?_some (p := fun c : Position × Cell => c.1 == p) he)
  rw [← hp]
  exact List.mem_reverse.mp (List.mem_of_find?_eq_some he)

theorem not_mem_of_lastAt? {p : Position} (h : lastAt? cells p = none) (c : Cell) :
    (p, c) ∉ cells := by
  intro hm
  have hnone := List.find?_eq_none.mp (Option.map_eq_none_iff.mp h) (p, c) (List.mem_reverse.mpr hm)
  exact hnone (beq_self_eq_true p)

/-- **The last word about a point counts**, where there is a cell at all. -/
theorem cell?_foldl_mark (g : Grid) (cells : List (Position × Cell)) (x y : Nat) :
    (cells.foldl mark g).cell? x y
      = (g.cell? x y).map fun old => (lastAt? cells (point x y)).getD old := by
  induction cells generalizing g with
  | nil =>
    show g.cell? x y = (g.cell? x y).map fun old => old
    rw [Option.map_id']
  | cons e cells ih =>
    rw [List.foldl_cons, ih, cell?_mark, lastAt?_cons]
    by_cases h : e.1 = point x y
    · rw [if_pos h, if_pos h, Option.map_map]
      cases lastAt? cells (point x y) with
      | none => rfl
      | some c => rfl
    · rw [if_neg h, if_neg h, Option.or_none]

/-! ### listing -/

/-- the points of one kind in a row -/
def inRow (row : List Cell) (y : Nat) (c : Cell) : List Position :=
  (row.zipIdx.filter fun e => e.1 == c).map fun e => point e.2 y

theorem mem_inRow {row : List Cell} {y : Nat} {c : Cell} {p : Position} :
    p ∈ inRow row y c ↔ ∃ x, p = point x y ∧ row[x]? = some c := by
  rw [inRow, List.mem_map]
  constructor
  · rintro ⟨⟨cell, x⟩, hmem, rfl⟩
    obtain ⟨hx, hc⟩ := List.mem_filter.mp hmem
    exact ⟨x, rfl, beq_iff_eq.mp hc ▸ List.mem_zipIdx_iff_getElem?.mp hx⟩
  · rintro ⟨x, rfl, hx⟩
    refine ⟨(c, x), List.mem_filter.mpr ⟨List.mem_zipIdx_iff_getElem?.mpr hx, ?_⟩, rfl⟩
    exact beq_self_eq_true c

theorem positionsOf_eq_flatMap (g : Grid) (c : Cell) :
    g.positionsOf c = g.zipIdx.flatMap fun e => inRow e.1 e.2 c := rfl

theorem mem_positionsOf {p : Position} {c : Cell} :
    p ∈ g.positionsOf c ↔ ∃ x y, p = point x y ∧ g.cell? x y = some c := by
  rw [positionsOf_eq_flatMap, List.mem_flatMap]
  constructor
  · rintro ⟨⟨row, y⟩, hmem, hp⟩
    obtain ⟨x, rfl, hx⟩ := mem_inRow.mp hp
    refine ⟨x, y, rfl, ?_⟩
    rw [cell?, List.mem_zipIdx_iff_getElem?.mp hmem]
    exact hx
  · rintro ⟨x, y, rfl, h⟩
    obtain ⟨row, hy, hx⟩ := Option.bind_eq_some_iff.mp h
    exact ⟨(row, y), List.mem_zipIdx_iff_getElem?.mpr hy, mem_inRow.mpr ⟨x, rfl, hx⟩⟩

theorem count_eq_zero_iff {c : Cell} : g.count c = 0 ↔ ∀ p, p ∉ g.positionsOf c := by
  rw [count, List.count_eq_zero, List.mem_flatten]
  constructor
  · intro h p hp
    obtain ⟨x, y, rfl, hc⟩ := mem_positionsOf.mp hp
    obtain ⟨row, hrow, hx⟩ := Option.bind_eq_some_iff.mp hc
    exact h ⟨row, List.mem_of_getElem? hrow, List.mem_of_getElem? hx⟩
  · rintro h ⟨row, hrow, hc⟩
    obtain ⟨y, hy⟩ := List.mem_iff_getElem?.mp hrow
    obtain ⟨x, hx⟩ := List.mem_iff_getElem?.mp hc
    exact h _ (mem_positionsOf.mpr ⟨x, y, rfl, Option.bind_eq_some_iff.mpr ⟨row, hy, hx⟩⟩)

/-- What is listed stands there, and what is not empty is listed. -/
structure Lists (cells : List (Position × Cell)) (g : Grid) : Prop where
  stands : ∀ e ∈ cells, ∃ x y, e.1 = point x y ∧ g.cell? x y = some e.2
  complete : ∀ x y c, g.cell? x y = some c → c ≠ .empty → (point x y, c) ∈ cells

/-- the points of some kinds, kind by kind -/
def pointsOf (g : Grid) (kinds : List Cell) : List (Position × Cell) :=
  kinds.flatMap fun c => (g.positionsOf c).map fun p => (p, c)

theorem lists_pointsOf {kinds : List Cell} (h : ∀ c, c ≠ .empty → c ∈ kinds) :
    Lists (g.pointsOf kinds) g where
  stands := by
    intro e he
    obtain ⟨c, -, he⟩ := List.mem_flatMap.mp he
    obtain ⟨p, hp, rfl⟩ := List.mem_map.mp he
    exact mem_positionsOf.mp hp
  complete := by
    intro x y c hc hne
    refine List.mem_flatMap.mpr ⟨c, h c hne, List.mem_map.mpr ⟨point x y, ?_, rfl⟩⟩
    exact mem_positionsOf.mpr ⟨x, y, rfl, hc⟩

/-- Whatever the order and the repetitions, a list says of each cell what it is. -/
theorem Lists.lastAt?_getD (h : Lists cells g) {x y : Nat} {c : Cell}
    (hc : g.cell? x y = some c) : (lastAt? cells (point x y)).getD .empty = c := by
  cases hlast : lastAt? cells (point x y) with
  | some d =>
    obtain ⟨x', y', he, hd⟩ := h.stands _ (mem_of_lastAt? hlast)
    obtain ⟨rfl, rfl⟩ := point_inj.mp he
    exact Option.some.inj (hd.symm.trans hc)
  | none =>
    by_cases hne : c = .empty
    · exact hne.symm
    · exact absurd (h.complete x y c hc hne) (not_mem_of_lastAt? hlast c)

/-! ### filling in what has been listed -/

theorem ext {g g' : Grid} (hlength : g.length = g'.length)
    (h : ∀ x y, g.cell? x y = g'.cell? x y) : g = g' := by
  refine List.ext_getElem hlength fun y hy hy' => List.ext_getElem? fun x => ?_
  have hrow : g[y]? = some g[y] := List.getElem?_eq_getElem hy
  have hrow' : g'[y]? = some g'[y] := List.getElem?_eq_getElem hy'
  have hcell := h x y
  rwa [cell?, cell?, hrow, hrow'] at hcell

/-- The empty grid of a size has a cell wherever a grid of that size has one. -/
theorem cell?_allEmpty {width height : Nat} (hrows : g.length = height)
    (hcells : ∀ row ∈ g, row.length = width) (x y : Nat) :
    (allEmpty width height).cell? x y = (g.cell? x y).map fun _ => .empty := by
  rw [cell?, cell?, allEmpty, List.getElem?_replicate, ← hrows]
  by_cases hy : y < g.length
  · have hrow : g[y]? = some g[y] := List.getElem?_eq_getElem hy
    have hwidth : g[y].length = width := hcells _ (List.getElem_mem hy)
    rw [if_pos hy, hrow]
    show (List.replicate width Cell.empty)[x]? = (g[y])[x]?.map fun _ => .empty
    rw [List.getElem?_replicate, ← hwidth]
    by_cases hx : x < g[y].length
    · rw [if_pos hx, List.getElem?_eq_getElem hx]
      rfl
    · rw [if_neg hx, List.getElem?_eq_none (Nat.le_of_not_lt hx)]
      rfl
  · rw [if_neg hy, List.getElem?_eq_none (Nat.le_of_not_lt hy)]
    rfl

/-- **A grid is filled in again from the list of its cells.** -/
theorem foldl_mark_of_lists (h : Lists cells g) {width height : Nat} (hrows : g.length = height)
    (hcells : ∀ row ∈ g, row.length = width) :
    cells.foldl mark (allEmpty width height) = g := by
  have hlength : (cells.foldl mark (allEmpty width height)).length = g.length := by
    rw [length_foldl_mark, hrows]
    exact List.length_replicate
  refine ext hlength fun x y => ?_
  rw [cell?_foldl_mark, cell?_allEmpty hrows hcells, Option.map_map]
  cases hc : g.cell? x y with
  | none => rfl
  | some c => exact congrArg some (h.lastAt?_getD hc)

end Grid

/-! ### checked worlds -/

namespace World

theorem uneven?_eq_none_iff {width : Nat} {g : Grid} :
    uneven? width g = none ↔ ∀ row ∈ g, row.length = width := by
  have hfst : (g.zipIdx.map Prod.fst) = g := List.zipIdx_map_fst 0 g
  rw [uneven?, Option.map_eq_none_iff, List.find?_eq_none]
  conv_rhs => rw [← hfst, List.forall_mem_map]
  simp only [bne_iff_ne, ne_eq, Decidable.not_not]

/-- Nothing is wrong with a world just if it is valid. -/
theorem misfit?_eq_none_iff (w : World) : w.misfit? = none ↔ w.Valid := by
  have hplaced : (w.character.position.isOffGrid || w.inBounds w.character.position) = true ↔
      w.character.position = Position.offGrid ∨ w.inBounds w.character.position = true := by
    rw [Bool.or_eq_true, Position.isOffGrid, beq_iff_eq]
  constructor
  · intro h
    unfold misfit? at h
    split_ifs at h with hwidth hheight hrows
    split at h
    · cases h
    · rename_i heven
      dsimp only at h
      split_ifs at h with hp
      exact ⟨Nat.le_of_not_lt hwidth, Nat.le_of_not_lt hheight, Decidable.not_not.mp hrows,
        uneven?_eq_none_iff.mp heven, hplaced.mp hp⟩
  · intro h
    rw [misfit?, if_neg (Nat.not_lt.mpr h.width_pos), if_neg (Nat.not_lt.mpr h.height_pos),
      if_neg (not_not_intro h.rows), uneven?_eq_none_iff.mpr h.cells]
    exact if_pos (hplaced.mpr h.placed)

end World

/-! ### worlds -/

/-- What is listed lies on the grid. -/
theorem World.inBounds_of_mem_positionsOf {w : World} (hw : w.Valid) {p : Position} {c : Cell}
    (h : p ∈ w.positionsOf c) : w.inBounds p = true := by
  obtain ⟨x, y, rfl, hc⟩ := Grid.mem_positionsOf.mp h
  obtain ⟨row, hrow, hx⟩ := Option.bind_eq_some_iff.mp hc
  have hy : y < w.grid.length := (List.getElem?_eq_some_iff.mp hrow).1
  have hx : x < row.length := (List.getElem?_eq_some_iff.mp hx).1
  rw [hw.rows] at hy
  rw [hw.cells row (List.mem_of_getElem? hrow)] at hx
  rw [World.inBounds_iff]
  simp only [Grid.point]
  omega

theorem World.mem_positionsOf {w : World} (hw : w.Valid) {p : Position} {c : Cell} :
    p ∈ w.positionsOf c ↔ w.cellAt? p = some c := by
  constructor
  · intro h
    have hp := World.inBounds_of_mem_positionsOf hw h
    obtain ⟨x, y, rfl, hc⟩ := Grid.mem_positionsOf.mp h
    rwa [World.cellAt?, if_pos hp]
  · intro h
    obtain ⟨hx, -, hy, -⟩ := (World.inBounds_iff w p).mp (World.inBounds_of_cellAt? h)
    exact Grid.mem_positionsOf.mpr ⟨_, _, Grid.eq_point hx hy, World.cell?_of_cellAt? h⟩

/-- None of a kind is counted just if none stands anywhere. -/
theorem World.count_eq_zero_iff {w : World} (hw : w.Valid) {c : Cell} :
    w.count c = 0 ↔ ∀ p, w.cellAt? p ≠ some c := by
  rw [World.count, Grid.count_eq_zero_iff]
  exact forall_congr' fun p => not_congr (World.mem_positionsOf hw)

/-- **A world that is filled in is valid**, wherever the points are, with a character on the grid or
off it for good. -/
theorem World.valid_filled {width height : Nat} (hwidth : 1 ≤ width) (hheight : 1 ≤ height)
    (cells : List (Position × Cell)) {c : Character}
    (hc : c.position = Position.offGrid ∨
      (World.filled width height (some c) cells).inBounds c.position = true) :
    (World.filled width height (some c) cells).Valid where
  width_pos := hwidth
  height_pos := hheight
  rows := (Grid.length_foldl_mark ..).trans List.length_replicate
  cells := by
    refine Grid.length_of_mem_foldl_mark (fun row hrow => ?_) cells
    rw [List.eq_of_mem_replicate hrow]
    exact List.length_replicate
  placed := hc

/-- **A world is filled in again from the list of its cells**, with any character. -/
theorem World.filled_of_lists {w : World} (hw : w.Valid) {cells : List (Position × Cell)}
    (h : Grid.Lists cells w.grid) (c : Character) :
    World.filled w.width w.height (some c) cells = { w with character := c } := by
  unfold World.filled
  rw [Grid.foldl_mark_of_lists h hw.rows hw.cells]
  rfl

end Ladybug

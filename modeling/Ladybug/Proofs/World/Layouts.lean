import Ladybug.Proofs.World.Points
import Ladybug.World.Layout

/-!
# Layouts and the worlds that they describe

The points of a layout may repeat, overlap and lie outside the grid; of two entries for a point the
later one counts, and clovers come after mushrooms, mushrooms after trees.

* `Grid.lastAt?_append`, `Grid.lastAt?_map`   what several lists say of a point
* `World.cellAt?_filled`     a cell of a world that is filled in
* `World.blank_of_valid`     a world is made if it is valid and its rows are not too long
* `Layout.Proper`            a layout with a size, whose character has a place
* `Layout.Describes`         what a layout says of a world
* `Layout.Proper.world_eq`   the world that a layout describes is made
* `world_ofWorld`            the layout of a world describes that world
-/

namespace Ladybug

/-! ### what lists say of a point -/

namespace Grid

theorem lastAt?_append (cells more : List (Position × Cell)) (p : Position) :
    lastAt? (cells ++ more) p = (lastAt? more p).or (lastAt? cells p) := by
  rw [lastAt?, List.reverse_append, List.find?_append, lastAt?, lastAt?]
  cases more.reverse.find? fun e => e.1 == p <;> rfl

/-- A list of points of one kind says the same of all its points. -/
theorem lastAt?_map (ps : List Position) (c : Cell) (p : Position) :
    lastAt? (ps.map (·, c)) p = if p ∈ ps then some c else none := by
  induction ps with
  | nil => rfl
  | cons q ps ih =>
    rw [List.map_cons, lastAt?_cons, ih]
    by_cases hp : p ∈ ps
    · rw [if_pos hp, if_pos (List.mem_cons_of_mem q hp)]
      rfl
    · rw [if_neg hp, Option.none_or]
      by_cases hq : q = p
      · rw [if_pos hq, if_pos (hq ▸ List.mem_cons_self)]
      · have hnot : p ∉ q :: ps := List.not_mem_cons_of_ne_of_not_mem (Ne.symm hq) hp
        rw [if_neg hq, if_neg hnot]

end Grid

/-! ### worlds that are filled in -/

namespace World

variable {width height : Nat} {character : Option Character} {cells : List (Position × Cell)}

theorem cellAt?_filled {p : Position}
    (hp : (filled width height character cells).inBounds p = true) :
    (filled width height character cells).cellAt? p
      = some ((Grid.lastAt? cells p).getD .empty) := by
  obtain ⟨hx, hx', hy, hy'⟩ := (inBounds_iff _ p).mp hp
  have hx' : p.x < width := hx'
  have hy' : p.y < height := hy'
  have hempty : (Grid.allEmpty width height).cell? p.x.toNat p.y.toNat = some .empty := by
    rw [Grid.cell?, Grid.allEmpty, List.getElem?_replicate, if_pos (by omega), Option.bind_some,
      List.getElem?_replicate, if_pos (by omega)]
  rw [cellAt?, if_pos hp]
  show (cells.foldl Grid.mark (Grid.allEmpty width height)).cell? _ _ = _
  rw [Grid.cell?_foldl_mark, hempty, ← Grid.eq_point hx hy]
  rfl

/-- A world is made if it is valid and its rows are not too long. -/
theorem blank_of_valid (h : (filled width height character cells).Valid) :
    blank width height character cells
      = if fitsWord width then .ok (filled width height character cells)
        else .error .rowTooLong := by
  have hwidth : ¬ (width : Int) < 1 := Int.not_lt.mpr (Int.ofNat_le.mpr h.width_pos)
  have hheight : (1 : Int) ≤ height := Int.ofNat_le.mpr h.height_pos
  have hlong : rowTooLong width height = !fitsWord width := by
    simp only [rowTooLong, hheight, decide_true, Bool.true_and]
  rw [blank, hlong, if_neg hwidth, if_neg (Int.not_lt.mpr hheight), Int.toNat_natCast,
    Int.toNat_natCast, checked, (misfit?_eq_none_iff _).mpr h]
  cases fitsWord width <;> rfl

end World

/-! ### layouts -/

namespace Layout

/-- the points that a layout lists for a kind of cell -/
def listed (l : Layout) : Cell → List Position
  | .empty => []
  | .tree => l.trees
  | .mushroom => l.mushrooms
  | .clover => l.clovers

/-- What a layout says of a point. -/
def cellOf (l : Layout) (p : Position) : Cell :=
  if p ∈ l.clovers then .clover
  else if p ∈ l.mushrooms then .mushroom
  else if p ∈ l.trees then .tree
  else .empty

/-- the grid of a layout reaches as far as a position -/
def Within (l : Layout) (p : Position) : Prop :=
  0 ≤ p.x ∧ p.x < l.width ∧ 0 ≤ p.y ∧ p.y < l.height

/-- A layout with a size, whose character is on the grid or off it for good, if it has one. -/
structure Proper (l : Layout) : Prop where
  width_pos : 1 ≤ l.width
  height_pos : 1 ≤ l.height
  placed : ∀ c ∈ l.character, (⟨c.x, c.y⟩ : Position) = .offGrid ∨ l.Within ⟨c.x, c.y⟩

instance (l : Layout) (p : Position) : Decidable (l.Within p) :=
  inferInstanceAs (Decidable (_ ∧ _ ∧ _ ∧ _))

instance (l : Layout) : Decidable l.Proper :=
  decidable_of_iff (1 ≤ l.width ∧ 1 ≤ l.height ∧
      ∀ c ∈ l.character, (⟨c.x, c.y⟩ : Position) = .offGrid ∨ l.Within ⟨c.x, c.y⟩)
    ⟨fun h => ⟨h.1, h.2.1, h.2.2⟩, fun h => ⟨h.width_pos, h.height_pos, h.placed⟩⟩

/-- the character of a layout; without one, it stands in the middle and looks north -/
def placedCharacter (l : Layout) : Character :=
  (l.character.map CharacterLayout.place).getD { position := ⟨l.width / 2, l.height / 2⟩ }

/-- A world is as a layout describes it. -/
structure Describes (l : Layout) (w : World) : Prop where
  valid : w.Valid
  width : w.width = l.width
  height : w.height = l.height
  character : w.character = l.placedCharacter
  cells : ∀ p, w.inBounds p = true → w.cellAt? p = some (l.cellOf p)

/-- the world of a layout -/
def made (l : Layout) : World := World.filled l.width l.height (some l.placedCharacter) l.cells

/-- Whatever repetitions and overlaps there are. -/
theorem lastAt?_cells (l : Layout) (p : Position) :
    (Grid.lastAt? l.cells p).getD .empty = l.cellOf p := by
  simp only [cells, Grid.lastAt?_append, Grid.lastAt?_map, cellOf]
  split
  · rfl
  · split
    · rfl
    · split <;> rfl

theorem Proper.describes {l : Layout} (h : l.Proper) : l.Describes l.made where
  valid := by
    refine World.valid_filled h.width_pos h.height_pos l.cells ?_
    rw [World.inBounds_iff]
    unfold placedCharacter
    cases hc : l.character with
    | none =>
      have hwidth := h.width_pos
      have hheight := h.height_pos
      right
      show 0 ≤ (l.width : Int) / 2 ∧ (l.width : Int) / 2 < l.width ∧ 0 ≤ (l.height : Int) / 2 ∧
        (l.height : Int) / 2 < l.height
      omega
    | some c => exact h.placed c hc
  width := rfl
  height := rfl
  character := rfl
  cells p hp := (World.cellAt?_filled hp).trans (congrArg some (l.lastAt?_cells p))

theorem world_eq_blank (l : Layout) :
    l.world = World.blank l.width l.height (l.character.map CharacterLayout.place) l.cells := rfl

/-- A world is made of a layout alike whether its character is in the middle or is not given. -/
theorem filled_eq_made (l : Layout) :
    World.filled l.width l.height (l.character.map CharacterLayout.place) l.cells = l.made := by
  unfold made placedCharacter
  cases l.character <;> rfl

/-- **The world that a layout describes is made**, if its rows are not too long. -/
theorem Proper.world_eq {l : Layout} (h : l.Proper) :
    l.world = if fitsWord l.width then .ok l.made else .error .rowTooLong := by
  have hvalid := h.describes.valid
  rw [← filled_eq_made] at hvalid
  rw [world_eq_blank, World.blank_of_valid hvalid, filled_eq_made]

/-! ### the layout of a world -/

variable {w : World} (hw : w.Valid)
include hw

theorem proper_ofWorld : (ofWorld w).Proper where
  width_pos := hw.width_pos
  height_pos := hw.height_pos
  placed := by
    rintro c ⟨⟩
    exact hw.placed.imp id (World.inBounds_iff w _).mp

/-- The points of a world, and whatever character is given. -/
theorem made_withCharacter (c : Option CharacterLayout) :
    ({ ofWorld w with character := c } : Layout).made
      = { w with character := ({ ofWorld w with character := c } : Layout).placedCharacter } := by
  have hkinds : ∀ c, c ≠ .empty → c ∈ [Cell.tree, .mushroom, .clover] := by
    intro c
    cases c <;> decide
  have hcells : ({ ofWorld w with character := c } : Layout).cells
      = w.grid.pointsOf [.tree, .mushroom, .clover] := by
    show _ ++ _ ++ _ = _ ++ (_ ++ (_ ++ []))
    rw [List.append_nil, List.append_assoc]
    rfl
  rw [made, hcells]
  exact World.filled_of_lists hw (Grid.lists_pointsOf hkinds) _

theorem made_ofWorld : (ofWorld w).made = w := made_withCharacter hw (ofWorld w).character

/-- **The layout of a world makes the world again.** -/
theorem world_ofWorld :
    (ofWorld w).world = if fitsWord w.width then .ok w else .error .rowTooLong := by
  rw [(proper_ofWorld hw).world_eq, made_ofWorld hw]
  rfl

end Layout

end Ladybug

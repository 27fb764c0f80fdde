import Ladybug.Proofs.World.Kept
import Ladybug.Proofs.World.Leads
import Ladybug.Proofs.World.Points

/-!
# Commands that are undone

A turn is undone by the other one, a clover that was picked is placed again, and a step is undone by
a step the other way. Only a mushroom is never pulled back. On its way back the character comes to
cells where it has stood, so they must be free: no tree or mushroom may lie under it at first.

* `World.Walkable`        the character stands where it can walk
* `Command.Pushes`        a command that pushes a mushroom
* `Command.undoing`       the commands that undo one; `undoingAll` those that undo some
* `Does.walkable`         a command that acts leaves the character where it can walk
* `Does.undone`           one command is undone
* `Command.all_undone`    any number of them
-/

namespace Ladybug

/-! ### grids and directions that come back -/

theorem Grid.put_put {g : Grid} {x y : Nat} {c : Cell} (h : g.cell? x y = some c) (d : Cell) :
    (g.put x y d).put x y c = g := by
  have hput : (g.put x y d).cell? x y = some d := by rw [cell?_put h, if_pos ⟨rfl, rfl⟩]
  refine Grid.ext (by rw [length_put, length_put]) fun x' y' => ?_
  rw [cell?_put hput, cell?_put h]
  by_cases he : x' = x ∧ y' = y
  · rw [if_pos he, he.1, he.2, h]
  · rw [if_neg he, if_neg he]

/-- A cell that is changed and changed back. -/
theorem World.put_put {w : World} {p : Position} {c : Cell} (h : w.cellAt? p = some c) (d : Cell) :
    (w.put p d).put p c = w := by
  have hgrid := Grid.put_put (cell?_of_cellAt? h) d
  rw [put, put, hgrid]

/-- the other way -/
def Direction.back (d : Direction) : Direction := d.left.left

theorem Direction.back_back (d : Direction) : d.back.back = d := by cases d <;> rfl

theorem Position.step_back (p : Position) (d : Direction) : (p.step d).step d.back = p := by
  apply Position.ext <;> cases d <;>
    simp only [step, Direction.back, Direction.left, Direction.delta] <;> omega

/-! ### one command -/

/-- The character stands where it can walk. -/
def World.Walkable (w : World) : Prop :=
  ∃ c, (c = .empty ∨ c = .clover) ∧ w.cellAt? w.character.position = some c

namespace Command

/-- The character pushes a mushroom. -/
def Pushes (c : Command) (w : World) : Prop :=
  c = .moveForward ∧ w.cellAt? w.ahead = some .mushroom

instance (c : Command) (w : World) : Decidable (c.Pushes w) := inferInstanceAs (Decidable (_ ∧ _))

/-- The commands that undo one; a step is undone by one between two half turns. -/
def undoing : Command → List Command
  | .moveForward => [.turnLeft, .turnLeft, .moveForward, .turnLeft, .turnLeft]
  | .turnLeft => [.turnRight]
  | .turnRight => [.turnLeft]
  | .pickClover => [.placeClover]
  | .placeClover => [.pickClover]

/-- The last command is undone first. -/
def undoingAll (cs : List Command) : List Command := cs.reverse.flatMap undoing

theorem undoingAll_cons (c : Command) (cs : List Command) :
    undoingAll (c :: cs) = undoingAll cs ++ c.undoing := by
  rw [undoingAll, List.reverse_cons, List.flatMap_append, List.flatMap_singleton]
  rfl

/-- **A command that acts leaves the character where it can walk.** -/
theorem Does.walkable {c : Command} {w w' : World} (h : c.Does w w') (hw : w.Walkable) :
    w'.Walkable := by
  cases h with
  | walk here free ahead => exact ⟨_, free, ahead⟩
  | push here ahead beyond =>
    have hne : w.ahead ≠ w.ahead.step w.character.direction := (Position.step_ne _ _).symm
    have hahead : (w.put (w.ahead.step w.character.direction) .mushroom).cellAt? w.ahead
        = some .mushroom := by
      rw [World.cellAt?_put beyond, if_neg hne, ahead]
    refine ⟨.empty, .inl rfl, ?_⟩
    show ((w.put _ .mushroom).put w.ahead .empty).cellAt? w.ahead = _
    rw [World.cellAt?_put hahead, if_pos rfl]
  | left | right => exact hw
  | pick on =>
    refine ⟨.empty, .inl rfl, ?_⟩
    show (w.put w.character.position .empty).cellAt? w.character.position = _
    rw [World.cellAt?_put on, if_pos rfl]
  | place has on =>
    refine ⟨.clover, .inr rfl, ?_⟩
    show (w.put w.character.position .clover).cellAt? w.character.position = _
    rw [World.cellAt?_put on, if_pos rfl]

theorem Leads.single {c : Command} {w w' : World} (h : c.Does w w') : Leads [c] w w' :=
  .cons (apply_eq_some_iff.mpr h) .nil

/-- Two turns to the left face the other way. -/
theorem leads_back (w : World) :
    Leads [.turnLeft, .turnLeft] w (w.face w.character.direction.back) :=
  .cons rfl (.cons rfl .nil)

/-- A step is undone by one between two half turns. -/
theorem leads_undoing_walk {w : World} (hw : w.Walkable)
    (here : w.ahead ≠ Position.offGrid) :
    Leads (undoing .moveForward) (w.moveTo w.ahead) w := by
  obtain ⟨c, hfree, hc⟩ := hw
  let turned := (w.moveTo w.ahead).face w.character.direction.back
  have hback : turned.ahead = w.character.position := Position.step_back _ _
  have hwalk : Does .moveForward turned (turned.moveTo turned.ahead) :=
    .walk here hfree (hback ▸ hc)
  have hsame : (turned.moveTo turned.ahead).face w.character.direction.back.back = w := by
    rw [hback, Direction.back_back]
    rfl
  have hfirst : Leads [.turnLeft, .turnLeft] (w.moveTo w.ahead) turned := leads_back _
  have hlast := leads_back (turned.moveTo turned.ahead)
  have hall := (hfirst.append (.single hwalk)).append hlast
  exact hsame ▸ hall

/-- **One command that pushes no mushroom is undone.** -/
theorem Does.undone {c : Command} {w w' : World} (h : c.Does w w') (hw : w.Walkable)
    (hpush : ¬ c.Pushes w) : Leads c.undoing w' w := by
  cases h with
  | walk here free ahead =>
    exact leads_undoing_walk hw (World.ne_offGrid_of_inBounds (World.inBounds_of_cellAt? ahead))
  | push here ahead beyond => exact absurd ⟨rfl, ahead⟩ hpush
  | left =>
    have hsame : (w.face w.character.direction.left).face w.character.direction.left.right = w := by
      rw [Direction.right_left]
      rfl
    exact .cons (congrArg some hsame) .nil
  | right =>
    have hsame :
        (w.face w.character.direction.right).face w.character.direction.right.left = w := by
      rw [Direction.left_right]
      rfl
    exact .cons (congrArg some hsame) .nil
  | pick on =>
    let picked := (w.put w.character.position .empty).hold (w.character.inventory + 1)
    have hon : picked.cellAt? picked.character.position = some .empty := by
      show (w.put w.character.position .empty).cellAt? w.character.position = _
      rw [World.cellAt?_put on, if_pos rfl]
    have hplace : Does .placeClover picked
        (((w.put w.character.position .empty).put w.character.position .clover).hold
          w.character.inventory) := .place rfl hon
    rw [World.put_put on] at hplace
    exact .single hplace
  | @place _ n has on =>
    let placed := (w.put w.character.position .clover).hold n
    have hon : placed.cellAt? placed.character.position = some .clover := by
      show (w.put w.character.position .clover).cellAt? w.character.position = _
      rw [World.cellAt?_put on, if_pos rfl]
    have hpick : Does .pickClover placed
        (((w.put w.character.position .clover).put w.character.position .empty).hold (n + 1)) :=
      .pick hon
    rw [World.put_put on, ← has] at hpick
    exact .single hpick

/-! ### many commands -/

/-- None of some commands, done one after the other, pushes a mushroom. -/
def NeverPushes : List Command → World → Prop
  | [], _ => True
  | c :: cs, w => ¬ c.Pushes w ∧ ∀ v ∈ c.apply w, NeverPushes cs v

instance decidableNeverPushes (cs : List Command) : DecidablePred (NeverPushes cs) :=
  match cs with
  | [] => fun _ => inferInstanceAs (Decidable True)
  | c :: cs =>
    have : DecidablePred (NeverPushes cs) := decidableNeverPushes cs
    fun w => inferInstanceAs (Decidable (¬ c.Pushes w ∧ ∀ v ∈ c.apply w, NeverPushes cs v))

/-- Commands that push no mushroom are undone, the last one first. -/
theorem Leads.undone {cs : List Command} {w v : World} (h : Leads cs w v) (hw : w.Walkable)
    (hpush : NeverPushes cs w) : Leads (undoingAll cs) v w := by
  induction h with
  | nil => exact .nil
  | @cons c cs _ v _ first _ ih =>
    have hdoes := apply_eq_some_iff.mp first
    rw [undoingAll_cons]
    exact (ih (hdoes.walkable hw) (hpush.2 v first)).append (hdoes.undone hw hpush.1)

/-- **All but pushing a mushroom is undone.** A command that acts where the character can walk
leaves it where it can walk; and commands that all act and push no mushroom are undone by commands
that all act, which lead back to the same world. -/
theorem all_undone {w : World} (hw : w.Walkable) :
    (∀ (c : Command) (v : World), c.apply w = some v → v.Walkable) ∧
      ∀ cs v, Leads cs w v → NeverPushes cs w → Leads (undoingAll cs) v w :=
  ⟨fun _ _ h => (apply_eq_some_iff.mp h).walkable hw, fun _ _ h hpush => h.undone hw hpush⟩

/-- a clover under the character, a tree at the end of its row, a mushroom below -/
def meadow : World where
  width := 3
  height := 2
  grid := [[.clover, .empty, .tree], [.empty, .mushroom, .empty]]
  character := { position := ⟨0, 0⟩, direction := .east }

/-- The clover is carried to the next cell, and back to where it was. -/
theorem meadow_undone :
    let carried : World :=
      { meadow with
        grid := [[.empty, .clover, .tree], [.empty, .mushroom, .empty]]
        character := { position := ⟨0, 0⟩, direction := .west } }
    let carrying := [.pickClover, .moveForward, .placeClover, .turnLeft, .turnLeft, .moveForward]
    meadow.Walkable ∧ Leads carrying meadow carried ∧ NeverPushes carrying meadow ∧
      Leads (undoingAll carrying) carried meadow := by
  intro carried carrying
  have hw : meadow.Walkable := ⟨.clover, .inr rfl, rfl⟩
  have hleads : Leads carrying meadow carried :=
    .cons rfl (.cons rfl (.cons rfl (.cons rfl (.cons rfl (.cons rfl .nil)))))
  have hpush : NeverPushes carrying meadow := by decide
  exact ⟨hw, hleads, hpush, (all_undone hw).2 carrying carried hleads hpush⟩

end Command

end Ladybug

import Ladybug.Proofs.World.Kept
import Ladybug.World.Sensor

/-!
# What keeps a command from acting

The readings tell beforehand whether a command will act, and the report of a command that does not
act names the one thing that keeps it from acting.

* `Command.after`      the world after a command, whether it acts or not
* `Command.Able`       what a command needs of a world, as far as possible in readings
* `Obstacle.Hinders`   what an obstacle says of a world
* `Command.able_iff`   a command acts just if it finds what it needs
* `Hinders.eq_obstacle`, `hinders_obstacle`   there is one obstacle, and it is the one reported
* `Command.foretold`   all of this together
-/

namespace Ladybug

/-! ### readings -/

namespace World

variable {w : World}

/-- A valid world has a cell at every position of its grid. -/
theorem Valid.cellAt?_eq_none_iff (hw : w.Valid) {p : Position} :
    w.cellAt? p = none ↔ w.inBounds p = false := by
  unfold cellAt?
  by_cases hp : w.inBounds p = true
  · obtain ⟨hx, hx', hy, hy'⟩ := (inBounds_iff w p).mp hp
    have hrow : p.y.toNat < w.grid.length := by
      rw [hw.rows]
      omega
    have hcell : p.x.toNat < w.grid[p.y.toNat].length := by
      rw [hw.cells _ (List.getElem_mem hrow)]
      omega
    have hsome : w.grid.cell? p.x.toNat p.y.toNat = some w.grid[p.y.toNat][p.x.toNat] := by
      rw [Grid.cell?, List.getElem?_eq_getElem hrow, Option.bind_some,
        List.getElem?_eq_getElem hcell]
    rw [if_pos hp, hsome, hp]
    simp only [reduceCtorEq]
  · rw [if_neg hp]
    simp only [Bool.not_eq_true] at hp
    simp only [hp]

/-- Off the grid no step leads onto it. -/
theorem ne_offGrid_of_ahead {c : Cell} (h : w.cellAt? w.ahead = some c) :
    w.character.position ≠ Position.offGrid := by
  intro hoff
  have hahead := (inBounds_iff w _).mp (inBounds_of_cellAt? h)
  rw [ahead, hoff] at hahead
  cases hd : w.character.direction <;>
    simp only [hd, Position.step, Position.offGrid, Direction.delta] at hahead <;> omega

theorem treeFront_eq_false_iff :
    Detector.treeFront.read w = false ↔ ∃ c, w.cellAt? w.ahead = some c ∧ c ≠ .tree := by
  show w.treeTowards w.character.direction = false ↔ _
  have hahead : w.neighbour? w.character.direction = w.cellAt? w.ahead := rfl
  rw [treeTowards, hahead]
  cases w.cellAt? w.ahead with
  | none => simp only [reduceCtorEq, false_and, exists_false]
  | some c => cases c <;> simp

theorem mushroomFront_eq_true_iff :
    Detector.mushroomFront.read w = true ↔ w.cellAt? w.ahead = some .mushroom := beq_iff_eq

theorem onLeaf_eq_true_iff :
    Detector.onLeaf.read w = true ↔ w.cellAt? w.character.position = some .clover := beq_iff_eq

end World

/-! ### commands that act -/

namespace Command

/-- The world after a command: the same one if the command does not act. -/
def after (c : Command) (w : World) : World := (c.apply w).getD w

/-- What a command needs of a world. -/
def Able : Command → World → Prop
  | .moveForward, w => Detector.treeFront.read w = false ∧
      (Detector.mushroomFront.read w = true →
        w.cellAt? (w.ahead.step w.character.direction) = some .empty)
  | .turnLeft, _ | .turnRight, _ => True
  | .pickClover, w => Detector.onLeaf.read w = true
  | .placeClover, w =>
      0 < w.character.inventory ∧ w.cellAt? w.character.position = some .empty

theorem able_of_does {c : Command} {w w' : World} (h : c.Does w w') : c.Able w := by
  cases h with
  | @walk _ cell here free ahead =>
    refine ⟨World.treeFront_eq_false_iff.mpr ⟨cell, ahead, ?_⟩, fun hm => ?_⟩
    · rcases free with rfl | rfl <;> decide
    · rw [World.mushroomFront_eq_true_iff, ahead] at hm
      rcases free with rfl | rfl <;> cases hm
  | push here ahead beyond =>
    exact ⟨World.treeFront_eq_false_iff.mpr ⟨.mushroom, ahead, by decide⟩, fun _ => beyond⟩
  | left | right => exact trivial
  | pick on => exact World.onLeaf_eq_true_iff.mpr on
  | place has on => exact ⟨by omega, on⟩

theorem exists_does_of_able {c : Command} {w : World} (h : c.Able w) : ∃ w', c.Does w w' := by
  cases c with
  | moveForward =>
    obtain ⟨htree, hmushroom⟩ := h
    obtain ⟨cell, hahead, hcell⟩ := World.treeFront_eq_false_iff.mp htree
    have here := World.ne_offGrid_of_ahead hahead
    cases cell with
    | empty => exact ⟨_, .walk here (.inl rfl) hahead⟩
    | clover => exact ⟨_, .walk here (.inr rfl) hahead⟩
    | tree => exact absurd rfl hcell
    | mushroom =>
      exact ⟨_, .push here hahead (hmushroom (World.mushroomFront_eq_true_iff.mpr hahead))⟩
  | turnLeft => exact ⟨_, .left⟩
  | turnRight => exact ⟨_, .right⟩
  | pickClover => exact ⟨_, .pick (World.onLeaf_eq_true_iff.mp h)⟩
  | placeClover =>
    obtain ⟨n, hn⟩ := Nat.exists_eq_succ_of_ne_zero (Nat.ne_of_gt h.1)
    exact ⟨_, .place hn h.2⟩

/-- **A command acts just if it finds what it needs.** -/
theorem able_iff {c : Command} {w : World} : c.Able w ↔ ∃ w', c.apply w = some w' := by
  simp only [apply_eq_some_iff]
  exact ⟨exists_does_of_able, fun ⟨_, h⟩ => able_of_does h⟩

/-- A command that acts changes the world. -/
theorem ne_of_does {c : Command} {w w' : World} (h : c.Does w w') : w' ≠ w := by
  have hturn (d : Direction) : d.left ≠ d ∧ d.right ≠ d := by cases d <;> decide
  intro heq
  have hposition := congrArg (fun w : World => w.character.position) heq
  have hdirection := congrArg (fun w : World => w.character.direction) heq
  have hinventory := congrArg (fun w : World => w.character.inventory) heq
  cases h with
  | walk | push => exact Position.step_ne _ _ hposition
  | left => exact (hturn _).1 hdirection
  | right => exact (hturn _).2 hdirection
  | pick => exact Nat.succ_ne_self _ hinventory
  | place has =>
    rw [has] at hinventory
    exact Nat.succ_ne_self _ hinventory.symm

/-- A command does not act just if the world after it is the same. -/
theorem apply_eq_none_iff {c : Command} {w : World} : c.apply w = none ↔ c.after w = w := by
  rw [after]
  cases h : c.apply w with
  | none => exact ⟨fun _ => rfl, fun _ => rfl⟩
  | some w' =>
    have hne : w' ≠ w := ne_of_does (apply_eq_some_iff.mp h)
    simp only [reduceCtorEq, Option.getD_some, hne]

theorem apply_eq_none_iff_not_able {c : Command} {w : World} : c.apply w = none ↔ ¬ c.Able w := by
  rw [able_iff, ← Option.isSome_iff_exists, Option.not_isSome_iff_eq_none]

end Command

/-! ### obstacles -/

namespace Obstacle

/-- What an obstacle says of a world in which a command does not act. -/
def Hinders (w : World) : Obstacle → Command → Prop
  | .edge, .moveForward => w.inBounds w.ahead = false
  | .tree, .moveForward => w.cellAt? w.ahead = some .tree
  | .mushroom, .moveForward => w.cellAt? w.ahead = some .mushroom ∧
      w.cellAt? (w.ahead.step w.character.direction) ≠ some .empty
  | .noClover, .pickClover => w.cellAt? w.character.position ≠ some .clover
  | .inventoryEmpty, .placeClover => w.character.inventory = 0
  | .cellNotEmpty, .placeClover =>
      w.character.inventory ≠ 0 ∧ w.cellAt? w.character.position ≠ some .empty
  | _, _ => False

/-- Reasons are told apart by their names. -/
theorem eq_of_reason {o o' : Obstacle} (h : o.reason = o'.reason) :
    o = o' ∨ ∃ c c', o = .unknown c ∧ o' = .unknown c' := by
  cases o <;> cases o' <;> simp [reason] at h ⊢

end Obstacle

section
open Obstacle (Hinders)
variable {c : Command} {w : World}

/-- Nothing but what is reported keeps a command from acting. -/
theorem Obstacle.Hinders.eq_obstacle (hw : w.Valid) {o : Obstacle} (h : o.Hinders w c) :
    o = c.obstacle w := by
  -- one case for each line of `Hinders`
  unfold Hinders at h
  split at h
  · simp only [Command.obstacle, hw.cellAt?_eq_none_iff.mpr h]
  · simp only [Command.obstacle, h]
  · simp only [Command.obstacle, h.1]
  · rfl
  · simp only [Command.obstacle, h, ↓reduceIte]
  · simp only [Command.obstacle, h.1, ↓reduceIte]
  · exact h.elim

/-- What is reported of a command that does not act keeps it from acting. -/
theorem Command.hinders_obstacle (hw : w.Valid) (h : ¬ c.Able w) : (c.obstacle w).Hinders w c := by
  cases c with
  | moveForward =>
    unfold obstacle
    cases hahead : w.cellAt? w.ahead with
    | none => exact hw.cellAt?_eq_none_iff.mp hahead
    | some cell =>
      have hbeyond (hcell : cell ≠ .tree) : cell = .mushroom ∧
          w.cellAt? (w.ahead.step w.character.direction) ≠ some .empty := by
        have htree := World.treeFront_eq_false_iff.mpr ⟨cell, hahead, hcell⟩
        obtain ⟨hm, hbeyond⟩ := Classical.not_imp.mp fun hm => h ⟨htree, hm⟩
        rw [World.mushroomFront_eq_true_iff, hahead] at hm
        exact ⟨Option.some.inj hm, hbeyond⟩
      cases cell with
      | tree => exact hahead
      | mushroom => exact ⟨hahead, (hbeyond (by decide)).2⟩
      | empty => exact absurd (hbeyond (by decide)).1 (by decide)
      | clover => exact absurd (hbeyond (by decide)).1 (by decide)
  | turnLeft | turnRight => exact absurd trivial h
  | pickClover => exact fun hon => h (World.onLeaf_eq_true_iff.mpr hon)
  | placeClover =>
    unfold obstacle
    by_cases hempty : w.character.inventory = 0
    · rw [if_pos hempty]
      exact hempty
    · rw [if_neg hempty]
      exact ⟨hempty, fun hon => h ⟨Nat.pos_of_ne_zero hempty, hon⟩⟩

/-- What keeps a command from acting is not there if the command acts. -/
theorem Obstacle.Hinders.not_able (hw : w.Valid) {o : Obstacle} (h : o.Hinders w c) :
    ¬ c.Able w := by
  unfold Hinders at h
  split at h
  · rintro ⟨htree, -⟩
    obtain ⟨cell, hahead, -⟩ := World.treeFront_eq_false_iff.mp htree
    rw [hw.cellAt?_eq_none_iff.mpr h] at hahead
    cases hahead
  · rintro ⟨htree, -⟩
    obtain ⟨cell, hahead, hcell⟩ := World.treeFront_eq_false_iff.mp htree
    rw [h] at hahead
    exact hcell (Option.some.inj hahead).symm
  · exact fun hable => h.2 (hable.2 (World.mushroomFront_eq_true_iff.mpr h.1))
  · exact fun hable => h (World.onLeaf_eq_true_iff.mp hable)
  · exact fun hable => Nat.ne_of_gt hable.1 h
  · exact fun hable => h.2 hable.2
  · exact h.elim

/-! ### the whole -/

/-- What is known of a command and a world beforehand, and what is said afterwards. A command that
does not act has one obstacle, and the report gives its name. -/
structure Command.Foretold (c : Command) (w : World) : Prop where
  changes : c.after w ≠ w ↔ c.Able w
  same : c.apply w = none ↔ c.after w = w
  hindered : c.apply w = none ↔ ∃ o : Obstacle, o.Hinders w c
  reported : c.apply w = none →
    ∀ o : Obstacle, o.Hinders w c ↔ (c.blocked w).reason = some o.reason

/-- **Readings foretell what commands do, and reports name the true cause.** In a valid world, with
the character on the grid or off it, a command changes the world just if it finds what it needs; it
is reported not to act just if the world is the same; and then there is one obstacle, whose name is
the reason that is given. -/
theorem Command.foretold (hw : w.Valid) (c : Command) : c.Foretold w where
  changes := by rw [Ne, ← apply_eq_none_iff, apply_eq_none_iff_not_able, Classical.not_not]
  same := apply_eq_none_iff
  hindered := by
    rw [apply_eq_none_iff_not_able]
    exact ⟨fun h => ⟨_, hinders_obstacle hw h⟩, fun ⟨_, h⟩ => h.not_able hw⟩
  reported := by
    intro hnone o
    have hthere := hinders_obstacle hw (apply_eq_none_iff_not_able.mp hnone)
    constructor
    · intro h
      rw [h.eq_obstacle hw]
      rfl
    · intro hreason
      rcases Obstacle.eq_of_reason (Option.some.inj hreason) with heq | ⟨_, _, heq, -⟩
      · rwa [← heq]
      · rw [heq] at hthere
        exact hthere.elim

end

/-- a clover between two edges, a mushroom before it and a tree behind that -/
def World.gorge : World where
  width := 1
  height := 3
  grid := [[.tree], [.mushroom], [.clover]]
  character := { position := ⟨0, 2⟩ }

/-- The mushroom stays where it is, and the clover can be picked. -/
theorem World.gorge_foretold :
    gorge.Valid ∧ Command.moveForward.after gorge = gorge ∧
      (∀ o : Obstacle, o.Hinders gorge .moveForward ↔ some "mushroom" = some o.reason) ∧
      Command.pickClover.after gorge ≠ gorge := by
  have hv : gorge.Valid := by
    constructor
    case placed => exact .inr rfl
    all_goals decide
  have hmove := Command.foretold hv .moveForward
  have hpick := Command.foretold hv .pickClover
  have hstuck : Command.moveForward.apply gorge = none := by decide
  have hon : Detector.onLeaf.read gorge = true := by decide
  exact ⟨hv, hmove.same.mp hstuck, hmove.reported hstuck, hpick.changes.mpr hon⟩

end Ladybug

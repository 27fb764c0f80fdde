import Ladybug.Proofs.Text
import Ladybug.Proofs.World.Kept
import Ladybug.Proofs.World.Layouts
import Ladybug.Proofs.World.Leads
import Ladybug.Scenario.Builtin

/-!
# Scenarios and their solutions

A scenario is solved by commands that it allows, all of which act, if they lead from its first world
to one in which its goal holds.

* `Goal.Holds`          what a goal asks of a world, cell by cell
* `Goal.met_iff`        a valid world meets a goal just if the goal holds in it
* `Scenario.Solves`     a list of commands that solves a scenario
* `Scenario.solves_iff` what the commands lead to decides
* `Scenario.named?_builtin`, `Scenario.start_builtin`   the scenarios that come with the program
-/

namespace Ladybug

open Command (Leads)

theorem Command.Leads.reaches {cs : List Command} {u v : World} (h : Leads cs u v) :
    u.Reaches v := by
  induction h with
  | nil => exact .refl
  | cons first _ ih => exact (World.Reaches.single first).trans ih

/-! ### goals -/

namespace Goal

/-- What a goal asks of a world. -/
inductive Holds (w : World) : Goal → Prop
  | noClovers (clear : ∀ p, w.cellAt? p ≠ some .clover) : Holds w .noClovers
  | reach {place : Position} (there : w.character.position = place) : Holds w (.reach place)
  | noCloversAnd {home : Position} (there : w.character.position = home)
      (clear : ∀ p, w.cellAt? p ≠ some .clover) : Holds w (.noCloversAnd home)
  | cloverAt {place : Position} (lies : w.cellAt? place = some .clover) :
      Holds w (.cloverAt place)
  | inventory {count : Nat} (carried : w.character.inventory = count) :
      Holds w (.inventory count)
  | facing {direction : Direction} (looks : w.character.direction = direction) :
      Holds w (.facing direction)
  | allOf {goals : List Goal} (each : ∀ g ∈ goals, Holds w g) : Holds w (.allOf goals)

/-- **A valid world meets a goal just if the goal holds in it.** -/
theorem met_iff {w : World} (hw : w.Valid) : ∀ g : Goal, g.met w = true ↔ g.Holds w
  | .noClovers => by
    rw [met, beq_iff_eq, World.count_eq_zero_iff hw]
    exact ⟨.noClovers, fun | .noClovers clear => clear⟩
  | .reach p => by
    rw [met, beq_iff_eq]
    exact ⟨.reach, fun | .reach there => there⟩
  | .noCloversAnd p => by
    rw [met, Bool.and_eq_true, beq_iff_eq, beq_iff_eq, World.count_eq_zero_iff hw]
    exact ⟨fun h => .noCloversAnd h.1 h.2, fun | .noCloversAnd there clear => ⟨there, clear⟩⟩
  | .cloverAt p => by
    rw [met, beq_iff_eq]
    exact ⟨.cloverAt, fun | .cloverAt lies => lies⟩
  | .inventory n => by
    rw [met, beq_iff_eq]
    exact ⟨.inventory, fun | .inventory carried => carried⟩
  | .facing d => by
    rw [met, beq_iff_eq]
    exact ⟨.facing, fun | .facing looks => looks⟩
  | .allOf gs => by
    have heach : (∀ g ∈ gs, g.met w = true) ↔ ∀ g ∈ gs, g.Holds w :=
      forall₂_congr fun g _ => met_iff hw g
    rw [met, allMet_iff, heach]
    exact ⟨.allOf, fun | .allOf each => each⟩

end Goal

/-! ### solutions -/

namespace Scenario

/-- A list of commands solves a scenario: all are allowed, each acts after those before it, and the
goal holds in the world that they lead to. -/
structure Solves (s : Scenario) (cs : List Command) : Prop where
  allowed : ∀ c ∈ cs, c ∈ s.allowed
  reached : ∃ w v, s.start = .ok w ∧ Leads cs w v ∧ s.goal.Holds v

/-- Commands that lead somewhere solve a scenario by where they lead. -/
theorem solves_iff {s : Scenario} {cs : List Command} {w v : World} (hstart : s.start = .ok w)
    (hw : w.Valid) (hleads : Leads cs w v) :
    s.Solves cs ↔ s.allows cs = true ∧ s.solvedBy v = true := by
  rw [allows_iff, solvedBy, Goal.met_iff (hleads.reaches.kept hw).1]
  constructor
  · rintro ⟨allowed, u, u', hu, hleads', hgoal⟩
    cases hstart.symm.trans hu
    exact ⟨allowed, hleads.unique hleads' ▸ hgoal⟩
  · rintro ⟨allowed, hgoal⟩
    exact ⟨allowed, w, v, hstart, hleads, hgoal⟩

/-! ### the scenarios that come with the program -/

/-- Each of them is found by its name. -/
theorem named?_builtin {s : Scenario} (h : s ∈ builtin) : named? builtin s.id = some s := by
  have honce : (builtin.map Scenario.id).Nodup := by decide
  exact find?_of_nodup honce h

/-- Each of them begins with a valid world. -/
theorem start_builtin {s : Scenario} (h : s ∈ builtin) : ∃ w, s.start = .ok w ∧ w.Valid := by
  have hlayouts : ∀ l ∈ builtin.map Scenario.layout, l.Proper ∧ fitsWord l.width = true := by
    decide
  obtain ⟨hproper, hfits⟩ := List.forall_mem_map.mp hlayouts s h
  refine ⟨s.layout.made, ?_, hproper.describes.valid⟩
  rw [start, hproper.world_eq, if_pos hfits]

/-- Their names can be kept. -/
theorem id_builtin {s : Scenario} (h : s ∈ builtin) :
    s.id.isEmpty = false ∧ Text.mark ∉ s.id.toList := by
  have hids : ∀ id ∈ builtin.map Scenario.id, id.isEmpty = false ∧ Text.mark ∉ id.toList := by
    decide
  exact List.forall_mem_map.mp hids s h

end Scenario

end Ladybug

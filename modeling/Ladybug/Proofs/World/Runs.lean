import Ladybug.Automaton.Phase
import Ladybug.Proofs.World.Kept
import Ladybug.Runner
import Ladybug.Script.Interpreter

/-!
# Every way to run a program only does commands

Whatever runs a program, the world it leaves is reached from the first one by commands that act; so
it is valid when the first one is, and all is kept that commands keep.

* `Runner.Call`, `Sequencer.Call`   what a caller may ask for, in any order
* `reaches_…`                       the world after one call, and after a run
* `World.LeftBy`                    a world that some run of some program has left
* `World.kept_of_leftBy`                what every such world has in common with the first one
-/

namespace Ladybug

open World (Reaches)

/-! ### lists of commands -/

namespace Runner

/-- What a caller asks of a runner; `relist` puts another list in the place of its own. -/
inductive Call where
  | step
  | skip
  | reset
  | clamp
  | relist (commands : List Command)

/-- A call, the world being the one that the call before it gave. -/
def call (x : Runner × World) : Call → Runner × World
  | .step => ((x.1.step x.2).1, (x.1.step x.2).2.world)
  | .skip => ((x.1.skip x.2).1, (x.1.skip x.2).2.world)
  | .reset => (x.1.reset, x.2)
  | .clamp => (x.1.clamp, x.2)
  | .relist commands => ({ x.1 with commands }, x.2)

theorem next_step (r : Runner) (w : World) : w.Next (r.step w).2.world := by
  unfold step
  cases r.fault with
  | some f => exact .inl rfl
  | none =>
    cases r.commands[r.taken]? with
    | none => exact .inl rfl
    | some c =>
      simp only
      cases h : c.apply w with
      | none => exact .inl rfl
      | some w' => exact .inr ⟨c, h⟩

theorem reaches_step (r : Runner) (w : World) : Reaches w (r.step w).2.world :=
  (r.next_step w).reaches

theorem reaches_stepAll (fuel : Nat) (r : Runner) (s : CommandStep) :
    Reaches s.world (stepAll fuel r s).2.world := by
  induction fuel generalizing r s with
  | zero => exact .refl
  | succ fuel ih =>
    unfold stepAll
    by_cases h : s.done = true
    · rw [if_pos h]
      exact .refl
    · rw [if_neg h]
      exact (reaches_step r s.world).trans (ih ..)

theorem reaches_skip (r : Runner) (w : World) : Reaches w (r.skip w).2.world :=
  reaches_stepAll _ r ⟨w, r.place, none, r.done, r.fault⟩

theorem reaches_call (x : Runner × World) (c : Call) : Reaches x.2 (call x c).2 := by
  cases c with
  | step => exact reaches_step ..
  | skip => exact reaches_skip ..
  | reset => exact .refl
  | clamp => exact .refl
  | relist => exact .refl

end Runner

/-! ### automata -/

namespace Automaton

theorem reaches_act (cs : List Command) (w : World) : Reaches w (act cs w).1 := by
  induction cs generalizing w with
  | nil => exact .refl
  | cons c cs ih =>
    unfold act
    cases h : c.apply w with
    | none => exact .refl
    | some w' => exact (Reaches.single h).trans (ih w')

theorem reaches_step (a : Automaton) (w : World) (id : String) :
    Reaches w (a.step w id).world := by
  unfold step
  cases a.structuralFault? (some id) with
  | some f => exact .refl
  | none =>
    simp only
    split
    · exact .refl
    · cases a.transition? w id with
      | none => exact .refl
      | some t =>
        have h := reaches_act t.actions w
        simp only
        split <;> rename_i e <;> rw [e] at h <;> exact h

theorem reaches_runFrom (a : Automaton) (b : Budget) (left steps : Nat) (w : World)
    (id : String) : Reaches w (a.runFrom b left steps w id).world := by
  fun_induction runFrom a b left steps w id with
  | case1 | case2 => exact .refl
  | case3 _ w id => exact reaches_step a w id
  | case4 _ w id _ _ _ _ ih => exact (reaches_step a w id).trans ih

theorem reaches_run (a : Automaton) (w : World) (id : Option String) (limit : Option Nat) :
    Reaches w (a.run w id limit).world := by
  unfold run
  cases (id <|> a.start) with
  | none => exact .refl
  | some s => exact reaches_runFrom ..

theorem reaches_runOption (a : Option Automaton) (w : World) (id : Option String)
    (limit : Option Nat) : Reaches w (runOption a w id limit).world := by
  cases a with
  | none => exact .refl
  | some a => exact reaches_run ..

end Automaton

/-! ### automata phase by phase -/

namespace Automaton.Sequencer

/-- What a caller asks of a run in progress. -/
inductive Call where
  | advance
  | skip

/-- A call, the world being the one that the call before it gave. -/
def call (x : Sequencer × World) : Call → Sequencer × World
  | .advance => x.1.advance x.2
  | .skip => x.1.skip x.2

theorem next_actAt (s : Sequencer) (w : World) (t : Transition) (i : Nat) :
    w.Next (s.actAt w t i).2 := by
  unfold actAt
  cases t.actions[i]? with
  | none => exact .inl rfl
  | some c =>
    simp only
    cases h : c.apply w with
    | none => exact .inl rfl
    | some w' => exact .inr ⟨c, h⟩

theorem reaches_actAt (s : Sequencer) (w : World) (t : Transition) (i : Nat) :
    Reaches w (s.actAt w t i).2 := (s.next_actAt w t i).reaches

theorem reaches_actFrom (fuel : Nat) (s : Sequencer) (w : World) (t : Transition) (i : Nat) :
    Reaches w (actFrom fuel s w t i).2 := by
  induction fuel generalizing s w i with
  | zero => exact reaches_actAt ..
  | succ fuel ih =>
    have h := reaches_actAt s w t i
    unfold actFrom
    simp only
    cases (s.actAt w t i).1.stage with
    | acting t' j => exact h.trans (ih ..)
    | idle | found | arrow | finished => exact h

theorem reaches_settle (s : Sequencer) (w : World) : Reaches w (s.settle w).2 := by
  unfold settle
  cases s.stage with
  | found | acting => exact reaches_actFrom ..
  | idle | arrow | finished => exact .refl

theorem next_advance (s : Sequencer) (w : World) : w.Next (s.advance w).2 := by
  unfold advance
  cases s.stage with
  | found | acting => exact next_actAt ..
  | idle | arrow | finished => exact .inl rfl

theorem reaches_advance (s : Sequencer) (w : World) : Reaches w (s.advance w).2 :=
  (s.next_advance w).reaches

theorem reaches_skip (s : Sequencer) (w : World) : Reaches w (s.skip w).2 := by
  have h := reaches_settle s w
  unfold skip
  simp only
  split
  · exact h
  · exact h.trans (Automaton.reaches_runOption ..)

theorem reaches_call (x : Sequencer × World) (c : Call) : Reaches x.2 (call x c).2 := by
  cases c with
  | advance => exact reaches_advance ..
  | skip => exact reaches_skip ..

end Automaton.Sequencer

/-- Calls that each reach their world from the one before reach it together. -/
theorem World.reaches_foldl {σ κ : Type} {call : σ × World → κ → σ × World}
    (h : ∀ x c, Reaches x.2 (call x c).2) (calls : List κ) (x : σ × World) :
    Reaches x.2 (calls.foldl call x).2 := by
  induction calls generalizing x with
  | nil => exact .refl
  | cons c calls ih => exact (h x c).trans (ih _)

/-! ### scripts -/

namespace Script

theorem reaches_extractFrom (fuel : Nat) (i : Interpreter) (w : World) (done : List Command) :
    Reaches w (extractFrom fuel i w done).world := by
  induction fuel generalizing i w done with
  | zero => exact .refl
  | succ fuel ih =>
    unfold extractFrom
    simp only
    cases (i.next w).2.command with
    | none => exact .refl
    | some c =>
      simp only
      cases h : c.apply w with
      | none => exact .refl
      | some w' => exact (Reaches.single h).trans (ih ..)

theorem reaches_extract (source dialect : String) (limits : Limits) (w : World) :
    Reaches w (extract source dialect limits w).world := by
  unfold extract
  cases compile source dialect with
  | error m => exact .refl
  | ok p => exact reaches_extractFrom ..

end Script

/-! ### all of them -/

namespace World

/-- The worlds that runs of programs leave, whether or not a run ended in a fault: of lists of
commands and of automata phase by phase after any calls, of automata as a whole (or of none), and
of scripts. -/
inductive LeftBy (w : World) : World → Prop
  | commands (commands : List Command) (calls : List Runner.Call) :
      LeftBy w (calls.foldl Runner.call (⟨commands, 0, none⟩, w)).2
  | automaton (a : Option Automaton) (start : Option String) (limit : Option Nat) :
      LeftBy w (Automaton.runOption a w start limit).world
  | phases (a : Automaton) (start : Option String) (limit : Option Nat)
      (calls : List Automaton.Sequencer.Call) :
      LeftBy w (calls.foldl Automaton.Sequencer.call (.ofProgram a start limit, w)).2
  | script (source dialect : String) (limits : Script.Limits) :
      LeftBy w (Script.extract source dialect limits w).world

theorem LeftBy.reaches {w w' : World} (h : LeftBy w w') : Reaches w w' := by
  cases h with
  | commands cs calls => exact reaches_foldl Runner.reaches_call calls (_, w)
  | automaton a start limit => exact Automaton.reaches_runOption ..
  | phases a start limit calls =>
    exact reaches_foldl Automaton.Sequencer.reaches_call calls (_, w)
  | script source dialect limits => exact Script.reaches_extract ..

/-- **A run of any program leaves a valid world that has the size, the trees, the number of
mushrooms and the clovers of the first one, the inventory being counted with the clovers. A
character off the grid stays there and changes nothing, and one on the grid never leaves it.** -/
theorem kept_of_leftBy {w w' : World} (h : LeftBy w w') (hw : w.Valid) : w'.Valid ∧ Kept w w' :=
  h.reaches.kept hw

/-- a row that ends in a tree, a mushroom before it and a clover under the character -/
def hedge : World where
  width := 5
  height := 1
  grid := [[.clover, .mushroom, .empty, .empty, .tree]]
  character := { position := ⟨0, 0⟩, direction := .east }

/-- The clover is picked and the mushroom pushed as far as the tree lets it. -/
theorem hedge_kept :
    hedge.Valid ∧
      ((List.replicate 4 Runner.Call.step).foldl Runner.call
        (⟨[.pickClover, .moveForward, .moveForward, .moveForward], 0, none⟩, hedge)).2.grid
        = [[.empty, .empty, .empty, .mushroom, .tree]] ∧
      Kept hedge
        ((List.replicate 4 Runner.Call.step).foldl Runner.call
          (⟨[.pickClover, .moveForward, .moveForward, .moveForward], 0, none⟩, hedge)).2 := by
  have hv : hedge.Valid := by
    constructor
    case placed => exact .inr rfl
    all_goals decide
  exact ⟨hv, by decide, (kept_of_leftBy (.commands _ _) hv).2⟩

end World

end Ladybug

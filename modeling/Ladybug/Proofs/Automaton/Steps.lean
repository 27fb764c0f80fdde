import Ladybug.Automaton.Run

/-!
# One transition, and a run of them

* `step_of_structural`, `step_of_stuck`, `step_of_acted`, `step_of_blocked`   one transition
* `runFrom_stop`, `runFrom_spent`, `runFrom_of_fault`, `runFrom_of_step`      a run
-/

namespace Ladybug.Automaton

/-! ### one transition -/

theorem step_of_structural {a : Automaton} {w : World} {id : String} {f : Fault}
    (h : a.structuralFault? (some id) = some f) : a.step w id = ⟨w, id, true, some f, none⟩ := by
  rw [step, h]

theorem step_of_stuck {a : Automaton} {w : World} {id : String}
    (h : a.structuralFault? (some id) = none) (hid : id ≠ a.stop)
    (ht : a.transition? w id = none) :
    a.step w id = ⟨w, id, true, some (a.stuckFault w id), none⟩ := by
  simp only [step, h, if_neg hid, ht]

theorem step_of_acted {a : Automaton} {w w' : World} {id : String} {t : Transition}
    (h : a.structuralFault? (some id) = none) (hid : id ≠ a.stop)
    (ht : a.transition? w id = some t) (hact : act t.actions w = (w', none)) :
    a.step w id = ⟨w', t.target, t.target = a.stop, none, some t.id⟩ := by
  simp only [step, h, if_neg hid, ht, hact]

theorem step_of_blocked {a : Automaton} {w w' : World} {id : String} {t : Transition} {c : Command}
    (h : a.structuralFault? (some id) = none) (hid : id ≠ a.stop)
    (ht : a.transition? w id = some t) (hact : act t.actions w = (w', some c)) :
    a.step w id = ⟨w', id, true, some (blockedFault c w' (some id)), some t.id⟩ := by
  simp only [step, h, if_neg hid, ht, hact]

/-! ### a run -/

section

variable {a : Automaton} {b : Budget} {left n : Nat} {w : World} {id : String}

theorem runFrom_stop (hid : id = a.stop) : a.runFrom b left n w id = ⟨w, some id, n, none⟩ := by
  cases left <;> rw [runFrom, if_pos hid]

theorem runFrom_spent (hid : id ≠ a.stop) :
    a.runFrom b 0 n w id = ⟨w, some id, n, some b.fault⟩ := by
  rw [runFrom, if_neg hid]

theorem runFrom_of_fault {f : Fault} (hid : id ≠ a.stop) (hf : (a.step w id).fault = some f) :
    a.runFrom b (left + 1) n w id = ⟨(a.step w id).world, some id, n, some f⟩ := by
  rw [runFrom, if_neg hid]
  simp only [hf]

theorem runFrom_of_step (hid : id ≠ a.stop) (hf : (a.step w id).fault = none) :
    a.runFrom b (left + 1) n w id =
      a.runFrom b left (n + 1) (a.step w id).world (a.step w id).next := by
  rw [runFrom, if_neg hid]
  simp only [hf]

end

end Ladybug.Automaton

import Ladybug.Intake.Automaton
import Ladybug.Proofs.Intake

/-!
# What is taken from a document as an automaton

One statement for each part of a program says what its reading takes: which fields are looked up,
under which names, and how each of them is read.
-/

namespace Ladybug.Intake
open Ladybug

theorem condition_eq_ok_iff {e : String × Datum} {c : Detector × Option Bool} :
    condition e = .ok c ↔ detector (.text e.1) = .ok c.1 ∧ optional bool e.2 = .ok c.2 := by
  simp only [condition, bind_eq_ok_iff, under_eq_ok_iff]
  constructor
  · rintro ⟨d, hd, v, hv, ⟨⟩⟩
    exact ⟨hd, hv⟩
  · rintro ⟨hd, hv⟩
    exact ⟨_, hd, _, hv, rfl⟩

/-- The fields of a transition. -/
structure TransitionFields (es : Entries) (t : Automaton.Transition) : Prop where
  id : field es ["id"] text = .ok t.id
  target : field es ["targetStateId", "target_state_id"] text = .ok t.target
  conditions : fieldOr es ["detectorConditions", "detector_conditions"] [] conditions
    = .ok t.conditions
  actions : fieldOr es ["actions"] [] (list action) = .ok t.actions

theorem transition_eq_ok_iff {d : Datum} {t : Automaton.Transition} :
    transition d = .ok t ↔ ∃ es, entries? d = some es ∧ TransitionFields es t := by
  simp only [transition, bind_eq_ok_iff, record_eq_ok_iff]
  constructor
  · rintro ⟨es, hes, id, hid, target, htarget, c, hc, actions, hactions, ⟨⟩⟩
    exact ⟨es, hes, hid, htarget, hc, hactions⟩
  · rintro ⟨es, hes, hid, htarget, hc, hactions⟩
    exact ⟨es, hes, _, hid, _, htarget, _, hc, _, hactions, rfl⟩

/-- The fields of a state. -/
structure StateFields (es : Entries) (s : Automaton.State) : Prop where
  id : field es ["id"] text = .ok s.id
  name : field es ["name"] text = .ok s.name
  x : fieldOr es ["x"] .zero float = .ok s.x
  y : fieldOr es ["y"] .zero float = .ok s.y
  transitions : fieldOr es ["transitions"] [] (list transition) = .ok s.transitions
  detectors : fieldOr es ["activeDetectors", "active_detectors"] [] (list detector)
    = .ok s.detectors

theorem state_eq_ok_iff {d : Datum} {s : Automaton.State} :
    state d = .ok s ↔ ∃ es, entries? d = some es ∧ StateFields es s := by
  simp only [state, bind_eq_ok_iff, record_eq_ok_iff]
  constructor
  · rintro ⟨es, hes, id, hid, name, hname, x, hx, y, hy, ts, hts, ds, hds, ⟨⟩⟩
    exact ⟨es, hes, hid, hname, hx, hy, hts, hds⟩
  · rintro ⟨es, hes, hid, hname, hx, hy, hts, hds⟩
    exact ⟨es, hes, _, hid, _, hname, _, hx, _, hy, _, hts, _, hds, rfl⟩

/-- The fields of a program. -/
structure AutomatonFields (es : Entries) (a : Automaton) : Prop where
  states : field es ["states"] (list state) = .ok a.states
  start : fieldOr es ["startStateId", "start_state_id"] none (optional text) = .ok a.start
  stop : fieldOr es ["stopStateId", "stop_state_id"] Automaton.stopId text = .ok a.stop

/-- A program is taken only without a flaw. -/
theorem automaton_eq_ok_iff {d : Datum} {a : Automaton} :
    automaton d = .ok a ↔
      (∃ es, entries? d = some es ∧ AutomatonFields es a) ∧ a.flaw? = none := by
  simp only [automaton, bind_eq_ok_iff, record_eq_ok_iff]
  constructor
  · rintro ⟨es, hes, states, hstates, start, hstart, stop, hstop, hflaw⟩
    split at hflaw
    · cases hflaw
    · rename_i hnone
      cases hflaw
      exact ⟨⟨es, hes, hstates, hstart, hstop⟩, hnone⟩
  · rintro ⟨⟨es, hes, hstates, hstart, hstop⟩, hnone⟩
    refine ⟨es, hes, _, hstates, _, hstart, _, hstop, ?_⟩
    simp only [hnone]
    rfl

end Ladybug.Intake

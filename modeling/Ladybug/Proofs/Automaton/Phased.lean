import Ladybug.Automaton.Phase
import Ladybug.Proofs.Automaton.Steps

/-!
# A run phase by phase ends where the whole run ends

Skipping to the end gives the same world and the same state before and after any phase
(`at?_skip_advance`). A run that is skipped after some phases therefore ends where the run skipped
at once ends, which is the whole run; and a run that is finished is left alone by skipping.

* `endFrom`                    where the whole run ends, one transition at a time
* `Sequencer.actFrom_eq`       bringing a transition to its end is doing its actions
* `Sequencer.settle_actAt`     one action more or less makes no difference to that
* `Sequencer.Ready`            what holds of a run between its phases
* `Sequencer.work_advance`     every phase leaves less to do
-/

namespace Ladybug.Automaton

/-! ### the whole run, one transition at a time -/

/-- The count of steps is carried along; the world and the state do not depend on it, nor on the
words of the budget. -/
theorem runFrom_congr (a : Automaton) (b b' : Budget) (left n n' : Nat) (w : World)
    (id : String) :
    (a.runFrom b left n w id).world = (a.runFrom b' left n' w id).world ∧
      (a.runFrom b left n w id).state = (a.runFrom b' left n' w id).state := by
  fun_induction runFrom a b left n w id generalizing n' with
  | case1 =>
    rw [runFrom_stop rfl]
    exact ⟨rfl, rfl⟩
  | case2 n w id hid =>
    rw [runFrom_spent hid]
    exact ⟨rfl, rfl⟩
  | case3 n w id hid left s f hf =>
    rw [runFrom_of_fault hid hf]
    exact ⟨rfl, rfl⟩
  | case4 n w id hid left s hf ih =>
    rw [runFrom_of_step hid hf]
    exact ih (n' + 1)

/-- Where a run ends when it can make `left` more transitions from a state. -/
def endFrom (a : Automaton) (left : Nat) (w : World) (id : Option String) :
    World × Option String :=
  let r := a.run w id (some left)
  (r.world, r.state)

theorem endFrom_none {a : Automaton} (h : a.start = none) (left : Nat) (w : World) :
    a.endFrom left w none = (w, none) := by
  simp only [endFrom, run, h]
  rfl

theorem endFrom_some (a : Automaton) (left : Nat) (w : World) (id : String) (b : Budget) (n : Nat) :
    a.endFrom left w (some id)
      = ((a.runFrom b left n w id).world, (a.runFrom b left n w id).state) := by
  obtain ⟨hw, hs⟩ := runFrom_congr a ⟨some left, "steps", 0⟩ b left 0 n w id
  rw [← hw, ← hs]
  rfl

theorem endFrom_zero (a : Automaton) (w : World) (id : String) :
    a.endFrom 0 w (some id) = (w, some id) := by
  rw [endFrom_some a 0 w id ⟨none, "", 0⟩ 0]
  by_cases hid : id = a.stop
  · rw [runFrom_stop hid]
  · rw [runFrom_spent hid]

theorem endFrom_stop (a : Automaton) (left : Nat) (w : World) :
    a.endFrom left w (some a.stop) = (w, some a.stop) := by
  rw [endFrom_some a left w a.stop ⟨none, "", 0⟩ 0, runFrom_stop rfl]

/-- A transition that cannot be made is the end of a run, with what it has done so far. -/
theorem endFrom_of_fault {a : Automaton} {w : World} {id : String} {f : Fault} {left : Nat}
    (hid : id ≠ a.stop) (h : (a.step w id).fault = some f) :
    a.endFrom (left + 1) w (some id) = ((a.step w id).world, some id) := by
  rw [endFrom_some a _ w id ⟨none, "", 0⟩ 0, runFrom_of_fault hid h]

theorem endFrom_of_step {a : Automaton} {w : World} {id : String} {left : Nat}
    (hid : id ≠ a.stop) (h : (a.step w id).fault = none) :
    a.endFrom (left + 1) w (some id)
      = a.endFrom left (a.step w id).world (some (a.step w id).next) := by
  rw [endFrom_some a _ w id ⟨none, "", 0⟩ 0, endFrom_some a _ _ _ ⟨none, "", 0⟩ 1,
    runFrom_of_step hid h]

/-- A fault before any transition is chosen leaves the world alone. -/
theorem endFrom_of_still {a : Automaton} {w : World} {id : String} {left : Nat}
    (h : id ≠ a.stop → ∃ f, (a.step w id).fault = some f ∧ (a.step w id).world = w) :
    a.endFrom left w (some id) = (w, some id) := by
  by_cases hid : id = a.stop
  · rw [hid, endFrom_stop]
  · obtain ⟨f, hf, hw⟩ := h hid
    cases left with
    | zero => exact endFrom_zero ..
    | succ left => rw [endFrom_of_fault hid hf, hw]

namespace Sequencer

/-! ### the transition in progress -/

/-- A run that has done the last action of a transition. -/
def arrowed (s : Sequencer) (t : Transition) : Sequencer :=
  { s with previous := s.state, state := some t.target, stage := .arrow t }

/-- A run that an action with an index has ended. -/
def blockedAt (s : Sequencer) (t : Transition) (i : Nat) (f : Fault) : Sequencer :=
  { s with stage := .finished (some (t, i)) (some f) }

theorem actAt_of_none {s : Sequencer} {w : World} {t : Transition} {i : Nat}
    (h : t.actions[i]? = none) : s.actAt w t i = (s.arrowed t, w) := by
  simp only [actAt, h, arrowed]

theorem actAt_of_blocked {s : Sequencer} {w : World} {t : Transition} {i : Nat} {c : Command}
    (h : t.actions[i]? = some c) (hc : c.apply w = none) :
    s.actAt w t i = (s.blockedAt t i (blockedFault c w s.state), w) := by
  simp only [actAt, h, hc, blockedAt]

theorem actAt_of_acting {s : Sequencer} {w w' : World} {t : Transition} {i : Nat} {c : Command}
    (h : t.actions[i]? = some c) (hc : c.apply w = some w') :
    s.actAt w t i = ({ s with stage := .acting t i }, w') := by
  simp only [actAt, h, hc]

theorem actFrom_of_none {s : Sequencer} {w : World} {t : Transition} {i : Nat} (fuel : Nat)
    (h : t.actions[i]? = none) : actFrom fuel s w t i = (s.arrowed t, w) := by
  cases fuel with
  | zero => exact actAt_of_none h
  | succ fuel =>
    unfold actFrom
    rw [actAt_of_none h]
    rfl

theorem actFrom_of_blocked {s : Sequencer} {w : World} {t : Transition} {i : Nat} {c : Command}
    (fuel : Nat) (h : t.actions[i]? = some c) (hc : c.apply w = none) :
    actFrom fuel s w t i = (s.blockedAt t i (blockedFault c w s.state), w) := by
  cases fuel with
  | zero => exact actAt_of_blocked h hc
  | succ fuel =>
    unfold actFrom
    rw [actAt_of_blocked h hc]
    rfl

theorem actFrom_of_acting {s : Sequencer} {w w' : World} {t : Transition} {i : Nat} {c : Command}
    (fuel : Nat) (h : t.actions[i]? = some c) (hc : c.apply w = some w') :
    actFrom (fuel + 1) s w t i = actFrom fuel { s with stage := .acting t i } w' t (i + 1) := by
  rw [actFrom, actAt_of_acting h hc]

/-- Fuel for all actions that are left is enough. -/
theorem actFrom_succ {t : Transition} (fuel i : Nat) (h : t.actions.length ≤ i + fuel)
    (s : Sequencer) (w : World) : actFrom (fuel + 1) s w t i = actFrom fuel s w t i := by
  induction fuel generalizing i s w with
  | zero =>
    have hi : t.actions[i]? = none := List.getElem?_eq_none h
    rw [actFrom_of_none 1 hi, actFrom_of_none 0 hi]
  | succ fuel ih =>
    cases hi : t.actions[i]? with
    | none => rw [actFrom_of_none _ hi, actFrom_of_none _ hi]
    | some c =>
      cases hc : c.apply w with
      | none => rw [actFrom_of_blocked _ hi hc, actFrom_of_blocked _ hi hc]
      | some w' =>
        rw [actFrom_of_acting _ hi hc, actFrom_of_acting _ hi hc]
        exact ih (i + 1) (by omega) _ _

/-- Bringing a transition to its end is the same before and after one of its actions. -/
theorem settle_actAt (s : Sequencer) (w : World) (t : Transition) (i : Nat) :
    (s.actAt w t i).1.settle (s.actAt w t i).2 = actFrom t.actions.length s w t i := by
  cases hi : t.actions[i]? with
  | none =>
    rw [actAt_of_none hi, actFrom_of_none _ hi]
    rfl
  | some c =>
    have hlt : i < t.actions.length := (List.getElem?_eq_some_iff.mp hi).1
    obtain ⟨n, hn⟩ : ∃ n, t.actions.length = n + 1 := ⟨t.actions.length - 1, by omega⟩
    cases hc : c.apply w with
    | none =>
      rw [actAt_of_blocked hi hc, actFrom_of_blocked _ hi hc]
      rfl
    | some w' =>
      rw [actAt_of_acting hi hc, hn, actFrom_of_acting _ hi hc]
      show actFrom t.actions.length _ _ _ _ = _
      rw [hn, actFrom_succ n (i + 1) (by omega)]

/-- **Bringing a transition to its end is doing the actions that are left**, after which there is
the arrow, unless one of them is blocked; its index is then `j`. -/
theorem actFrom_eq {t : Transition} (fuel i : Nat) (hf : t.actions.length ≤ i + fuel)
    (s : Sequencer) (w : World) :
    ∃ j, (∀ c, (act (t.actions.drop i) w).2 = some c → i ≤ j ∧ t.actions[j]? = some c) ∧
      actFrom fuel s w t i = match act (t.actions.drop i) w with
        | (w', none) => (s.arrowed t, w')
        | (w', some c) => (s.blockedAt t j (blockedFault c w' s.state), w') := by
  induction fuel generalizing s w i with
  | zero =>
    rw [List.drop_eq_nil_of_le (by omega)]
    exact ⟨i, nofun, actFrom_of_none 0 (List.getElem?_eq_none hf)⟩
  | succ fuel ih =>
    cases hi : t.actions[i]? with
    | none =>
      rw [List.drop_eq_nil_of_le (List.getElem?_eq_none_iff.mp hi)]
      exact ⟨i, nofun, actFrom_of_none _ hi⟩
    | some c =>
      obtain ⟨hlt, hget⟩ := List.getElem?_eq_some_iff.mp hi
      rw [List.drop_eq_getElem_cons hlt, hget, act]
      cases hc : c.apply w with
      | none =>
        refine ⟨i, fun b hb => ?_, actFrom_of_blocked _ hi hc⟩
        cases hb
        exact ⟨Nat.le_refl i, hi⟩
      | some w' =>
        obtain ⟨j, hblocked, hj⟩ := ih (i + 1) (by omega) { s with stage := .acting t i } w'
        refine ⟨j, fun b hb => ?_, (actFrom_of_acting _ hi hc).trans hj⟩
        obtain ⟨hle, hget⟩ := hblocked b hb
        exact ⟨Nat.le_of_succ_le hle, hget⟩

/-! ### skipping -/

/-- What holds of a run of an automaton with a limit between any two of its phases. -/
structure Ready (a : Automaton) (m : Nat) (s : Sequencer) : Prop where
  program : s.program = some a
  limit : s.budget.limit = some m
  homeless : s.state = none → a.start = none
  inside : ∀ t i, s.stage = .acting t i → i < t.actions.length

/-- how many transitions may still be made -/
def left (m : Nat) (s : Sequencer) : Nat := ((m : Int) - s.budget.count).toNat

/-- the world and the state at which a run has arrived -/
def at? (x : Sequencer × World) : World × Option String := (x.2, x.1.state)

theorem exhausted_charge_iff {a : Automaton} {m : Nat} {s : Sequencer} (h : Ready a m s) :
    s.budget.charge.exhausted = true ↔ left m s = 0 := by
  simp only [Budget.exhausted, Budget.charge, h.limit, left, decide_eq_true_eq,
    Int.ofNat_eq_natCast]
  omega

theorem settle_of_finished {s : Sequencer} (w : World) (h : s.finished = true) :
    s.settle w = (s, w) := by
  unfold finished at h
  unfold settle
  cases hst : s.stage with
  | finished last f => rfl
  | idle | found | acting | arrow => simp only [hst, Stage.isFinished, Bool.false_eq_true] at h

theorem skip_of_finished {s : Sequencer} {w : World} (h : (s.settle w).1.finished = true) :
    s.skip w = s.settle w := by
  unfold skip
  simp only [h, ↓reduceIte]

theorem skip_eq_self {s : Sequencer} (w : World) (h : s.finished = true) : s.skip w = (s, w) := by
  have hset := settle_of_finished w h
  rw [skip_of_finished (by rw [hset]; exact h), hset]

/-- A run without a transition in progress is skipped by a whole run of what is left. -/
theorem at?_skip {a : Automaton} {m : Nat} {s : Sequencer} {w : World}
    (h : Ready a m (s.settle w).1) (hf : (s.settle w).1.finished = false) :
    at? (s.skip w)
      = a.endFrom (left m (s.settle w).1) (s.settle w).2 (s.settle w).1.state := by
  have hl : ((s.settle w).1.budget.remaining.map Int.toNat).getD defaultLimit
      = left m (s.settle w).1 := by
    simp only [Budget.remaining, h.limit, Option.map_some, Option.getD_some, left,
      Int.ofNat_eq_natCast]
    omega
  unfold skip
  simp only [hf, Bool.false_eq_true, ↓reduceIte, h.program, hl]
  rfl

theorem finished_skip (s : Sequencer) (w : World) : (s.skip w).1.finished = true := by
  unfold skip
  simp only
  split
  · assumption
  · rfl

theorem skip_congr {s s' : Sequencer} {w w' : World} (h : s.settle w = s'.settle w') :
    s.skip w = s'.skip w' := by
  unfold skip
  rw [h]

/-! ### one phase -/

theorem at?_skip_finish (s : Sequencer) (f : Option Fault) (w : World) :
    at? ((s.finish f).skip w) = (w, s.state) := by
  rw [skip_of_finished rfl]
  rfl

/-- A transition that has been found is made by skipping as the whole run makes it. -/
theorem at?_skip_found {a : Automaton} {m : Nat} {s : Sequencer} {w : World} {id : String}
    {t : Transition} (h : Ready a m s) (hid : s.state = some id) (hstop : id ≠ a.stop)
    (hs : a.structuralFault? (some id) = none) (ht : a.transition? w id = some t) :
    at? (skip { s with stage := .found t } w) = a.endFrom (left m s + 1) w (some id) := by
  obtain ⟨j, -, hj⟩ :=
    actFrom_eq (t := t) t.actions.length 0 (by omega) { s with stage := .found t } w
  have hset : settle { s with stage := .found t } w
      = actFrom t.actions.length { s with stage := .found t } w t 0 := rfl
  rw [List.drop_zero] at hj
  cases hact : act t.actions w with
  | mk w' blocked =>
    rw [hact] at hj
    cases blocked with
    | none =>
      have hstep := step_of_acted hs hstop ht hact
      have hr : Ready a m (arrowed { s with stage := .found t } t) :=
        ⟨h.program, h.limit, (fun e => by cases e), (fun t i e => by cases e)⟩
      rw [endFrom_of_step hstop (by rw [hstep]), hstep]
      rw [← hset] at hj
      rw [at?_skip (by rw [hj]; exact hr) (by rw [hj]; rfl), hj]
      rfl
    | some c =>
      have hstep := step_of_blocked hs hstop ht hact
      rw [endFrom_of_fault hstop (by rw [hstep]), hstep]
      rw [← hset] at hj
      rw [skip_of_finished (by rw [hj]; rfl), hj, ← hid]
      rfl

section
variable {a : Automaton} {s : Sequencer} {w : World} {id : String}

theorem find_of_structural {f : Fault} (hp : s.program = some a)
    (hf : a.structuralFault? s.state = some f) : s.find w = s.finish (some f) := by
  simp only [find, hp, hf]

theorem find_of_stop (hp : s.program = some a) (hf : a.structuralFault? s.state = none)
    (hid : s.state = some a.stop) : s.find w = s.finish none := by
  rw [hid] at hf
  simp only [find, hp, hid, hf, Option.getD_some, ↓reduceIte]

theorem find_of_stuck (hp : s.program = some a) (hf : a.structuralFault? s.state = none)
    (hid : s.state = some id) (hstop : id ≠ a.stop) (ht : a.transition? w id = none) :
    s.find w = s.finish (some (a.stuckFault w id)) := by
  rw [hid] at hf
  simp only [find, hp, hid, hf, Option.getD_some, if_neg hstop, ht]

theorem find_of_transition {t : Transition} (hp : s.program = some a)
    (hf : a.structuralFault? s.state = none) (hid : s.state = some id) (hstop : id ≠ a.stop)
    (ht : a.transition? w id = some t) :
    s.find w = if s.budget.charge.exhausted then
        finish { s with budget := s.budget.charge } (some s.budget.charge.fault)
      else { s with budget := s.budget.charge, steps := s.steps + 1, stage := .found t } := by
  rw [hid] at hf
  simp only [find, hp, hid, hf, Option.getD_some, if_neg hstop, ht]

end

theorem exists_of_structuralFault? {a : Automaton} {state : Option String}
    (h : a.structuralFault? state = none) : ∃ id, state = some id := by
  cases state with
  | some id => exact ⟨id, rfl⟩
  | none =>
    unfold structuralFault? at h
    split at h
    · cases h
    · split at h <;> cases h

/-- **Looking for a transition ends the run where the whole run ends, or finds what that does
next.** -/
theorem at?_skip_find {a : Automaton} {m : Nat} {s : Sequencer} {w : World} (h : Ready a m s) :
    at? ((s.find w).skip w) = a.endFrom (left m s) w s.state := by
  cases hs : a.structuralFault? s.state with
  | some f =>
    rw [find_of_structural h.program hs, at?_skip_finish]
    cases hid : s.state with
    | none => exact (endFrom_none (h.homeless hid) ..).symm
    | some id =>
      have hstep := step_of_structural (w := w) (hid ▸ hs)
      exact (endFrom_of_still fun _ => ⟨f, by rw [hstep], by rw [hstep]⟩).symm
  | none =>
    obtain ⟨id, hid⟩ := exists_of_structuralFault? hs
    have hs' : a.structuralFault? (some id) = none := hid ▸ hs
    by_cases hstop : id = a.stop
    · rw [find_of_stop h.program hs (hstop ▸ hid), at?_skip_finish, hid, hstop, endFrom_stop]
    · cases ht : a.transition? w id with
      | none =>
        have hstep := step_of_stuck hs' hstop ht
        rw [find_of_stuck h.program hs hid hstop ht, at?_skip_finish, hid]
        exact (endFrom_of_still fun _ => ⟨_, by rw [hstep], by rw [hstep]⟩).symm
      | some t =>
        have hend : a.endFrom (left m s) w s.state = a.endFrom (left m s) w (some id) := by
          rw [hid]
        rw [find_of_transition h.program hs hid hstop ht, hend]
        by_cases hleft : left m s = 0
        · rw [if_pos ((exhausted_charge_iff h).mpr hleft), hleft, endFrom_zero, at?_skip_finish]
          exact congrArg (w, ·) hid
        · rw [if_neg fun e => hleft ((exhausted_charge_iff h).mp e)]
          have hr : Ready a m { s with budget := s.budget.charge, steps := s.steps + 1 } :=
            ⟨h.program, h.limit, h.homeless, h.inside⟩
          have hl : left m { s with budget := s.budget.charge, steps := s.steps + 1 } + 1
              = left m s := by
            simp only [left, Budget.charge] at hleft ⊢
            omega
          rw [← hl]
          exact at?_skip_found hr hid hstop hs' ht

/-- a run without a transition in progress -/
theorem at?_skip_advance_still {a : Automaton} {m : Nat} {s : Sequencer} {w : World}
    (h : Ready a m s) (hs : s.settle w = (s, w)) (hf : s.finished = false)
    (ha : s.advance w = (s.find w, w)) :
    at? ((s.advance w).1.skip (s.advance w).2) = at? (s.skip w) := by
  rw [ha, at?_skip_find h, at?_skip (by rw [hs]; exact h) (by rw [hs]; exact hf), hs]

/-- **Skipping after one phase more ends where skipping ends.** -/
theorem at?_skip_advance {a : Automaton} {m : Nat} {s : Sequencer} (w : World)
    (h : Ready a m s) : at? ((s.advance w).1.skip (s.advance w).2) = at? (s.skip w) := by
  cases hst : s.stage with
  | finished last f =>
    have ha : s.advance w = (s, w) := by
      simp only [advance, hst]
    rw [ha]
  | idle =>
    apply at?_skip_advance_still h <;> simp only [settle, advance, finished, hst, Stage.isFinished]
  | arrow t =>
    apply at?_skip_advance_still h <;> simp only [settle, advance, finished, hst, Stage.isFinished]
  | found t =>
    have ha : s.advance w = s.actAt w t 0 := by
      simp only [advance, hst]
    rw [ha]
    apply congrArg at?
    apply skip_congr
    rw [settle_actAt]
    simp only [settle, hst]
  | acting t i =>
    have ha : s.advance w = s.actAt w t (i + 1) := by
      simp only [advance, hst]
    rw [ha]
    apply congrArg at?
    apply skip_congr
    rw [settle_actAt]
    simp only [settle, hst]

/-! ### phases come to an end -/

theorem ready_actAt {a : Automaton} {m : Nat} {s : Sequencer} (h : Ready a m s) (w : World)
    (t : Transition) (i : Nat) : Ready a m (s.actAt w t i).1 := by
  cases hi : t.actions[i]? with
  | none =>
    rw [actAt_of_none hi]
    exact ⟨h.program, h.limit, (fun e => by cases e), (fun t i e => by cases e)⟩
  | some c =>
    cases hc : c.apply w with
    | none =>
      rw [actAt_of_blocked hi hc]
      exact ⟨h.program, h.limit, h.homeless, (fun t i e => by cases e)⟩
    | some w' =>
      rw [actAt_of_acting hi hc]
      refine ⟨h.program, h.limit, h.homeless, fun t i e => ?_⟩
      cases e
      exact (List.getElem?_eq_some_iff.mp hi).1

/-- Looking for a transition ends the run, or takes one from what is left and begins it. -/
theorem find_cases {a : Automaton} {m : Nat} {s : Sequencer} (h : Ready a m s) (w : World) :
    (∃ f b, s.find w = finish { s with budget := b } f ∧ b.limit = some m) ∨
      ∃ id t, a.transition? w id = some t ∧ 0 < left m s ∧
        s.find w
          = { s with budget := s.budget.charge, steps := s.steps + 1, stage := .found t } := by
  cases hs : a.structuralFault? s.state with
  | some f => exact .inl ⟨_, s.budget, find_of_structural h.program hs, h.limit⟩
  | none =>
    obtain ⟨id, hid⟩ := exists_of_structuralFault? hs
    by_cases hstop : id = a.stop
    · exact .inl ⟨_, s.budget, find_of_stop h.program hs (hstop ▸ hid), h.limit⟩
    · cases ht : a.transition? w id with
      | none => exact .inl ⟨_, s.budget, find_of_stuck h.program hs hid hstop ht, h.limit⟩
      | some t =>
        rw [find_of_transition h.program hs hid hstop ht]
        by_cases hleft : left m s = 0
        · rw [if_pos ((exhausted_charge_iff h).mpr hleft)]
          exact .inl ⟨_, s.budget.charge, rfl, h.limit⟩
        · rw [if_neg fun e => hleft ((exhausted_charge_iff h).mp e)]
          exact .inr ⟨id, t, ht, Nat.pos_of_ne_zero hleft, rfl⟩

theorem ready_find {a : Automaton} {m : Nat} {s : Sequencer} (h : Ready a m s) (w : World) :
    Ready a m (s.find w) := by
  rcases find_cases h w with ⟨f, b, e, hb⟩ | ⟨id, t, _, _, e⟩
  · rw [e]
    exact ⟨h.program, hb, h.homeless, (fun t i e => by cases e)⟩
  · rw [e]
    exact ⟨h.program, h.limit, h.homeless, (fun t i e => by cases e)⟩

theorem ready_advance {a : Automaton} {m : Nat} {s : Sequencer} (h : Ready a m s) (w : World) :
    Ready a m (s.advance w).1 := by
  unfold advance
  cases s.stage with
  | finished => exact h
  | idle | arrow => exact ready_find h w
  | found | acting => exact ready_actAt h w ..

end Sequencer

/-- the number of actions of the longest transition -/
def longest (a : Automaton) : Nat :=
  ((a.states.flatMap State.transitions).map fun t => t.actions.length).foldr max 0

theorem le_foldr_max {n : Nat} {ns : List Nat} (h : n ∈ ns) : n ≤ ns.foldr max 0 := by
  induction ns with
  | nil => cases h
  | cons k ns ih =>
    rcases List.mem_cons.mp h with rfl | h
    · exact Nat.le_max_left ..
    · exact Nat.le_trans (ih h) (Nat.le_max_right ..)

theorem length_le_longest {a : Automaton} {w : World} {id : String} {t : Transition}
    (h : a.transition? w id = some t) : t.actions.length ≤ a.longest := by
  unfold transition? at h
  split at h
  · cases h
  · obtain ⟨s, hs, ht⟩ := Option.bind_eq_some_iff.mp h
    have hmem : t ∈ a.states.flatMap State.transitions :=
      List.mem_flatMap.mpr ⟨s, List.mem_of_find?_eq_some hs, List.mem_of_find?_eq_some ht⟩
    exact le_foldr_max (List.mem_map.mpr ⟨t, hmem, rfl⟩)

namespace Sequencer

/-- A number of phases that is enough to come to the end: for each transition that may still be
made its actions, its beginning and its arrow, and then one phase more. -/
def work (a : Automaton) (m : Nat) (s : Sequencer) : Nat :=
  match s.stage with
  | .finished _ _ => 0
  | .idle | .arrow _ => left m s * (a.longest + 2) + 1
  | .found t => left m s * (a.longest + 2) + t.actions.length + 2
  | .acting t i => left m s * (a.longest + 2) + (t.actions.length - i) + 1

theorem work_find {a : Automaton} {m : Nat} {s : Sequencer} (h : Ready a m s) (w : World) :
    work a m (s.find w) ≤ left m s * (a.longest + 2) := by
  rcases find_cases h w with ⟨f, b, e, _⟩ | ⟨id, t, ht, hleft, e⟩
  · rw [e]
    exact Nat.zero_le _
  · have hlen := length_le_longest ht
    have hl : left m
        { s with budget := s.budget.charge, steps := s.steps + 1, stage := .found t } + 1
          = left m s := by
      simp only [left, Budget.charge] at hleft ⊢
      omega
    rw [e, ← hl, Nat.add_mul]
    simp only [work]
    omega

theorem work_actAt {s : Sequencer} (a : Automaton) (m : Nat) (w : World) (t : Transition)
    (i : Nat) :
    work a m (s.actAt w t i).1
      ≤ left m s * (a.longest + 2) + (t.actions.length - i) + 1 := by
  cases hi : t.actions[i]? with
  | none =>
    rw [actAt_of_none hi]
    show left m s * (a.longest + 2) + 1 ≤ _
    omega
  | some c =>
    cases hc : c.apply w with
    | none =>
      rw [actAt_of_blocked hi hc]
      exact Nat.zero_le _
    | some w' =>
      rw [actAt_of_acting hi hc]
      exact Nat.le_refl _

/-- **Every phase leaves less to do.** -/
theorem work_advance {a : Automaton} {m : Nat} {s : Sequencer} (h : Ready a m s) (w : World)
    (hf : s.finished = false) : work a m (s.advance w).1 < work a m s := by
  cases hst : s.stage with
  | finished last f =>
    simp only [finished, hst, Stage.isFinished, Bool.true_eq_false] at hf
  | idle =>
    have hw := work_find h w
    simp only [advance, hst]
    simp only [work, hst] at hw ⊢
    omega
  | arrow t =>
    have hw := work_find h w
    simp only [advance, hst]
    simp only [work, hst] at hw ⊢
    omega
  | found t =>
    have hw := work_actAt (s := s) a m w t 0
    simp only [advance, hst]
    simp only [work, hst] at hw ⊢
    omega
  | acting t i =>
    have hw := work_actAt (s := s) a m w t (i + 1)
    have hi := h.inside t i hst
    simp only [advance, hst]
    simp only [work, hst] at hw ⊢
    omega

/-- A number of phases, the world of each being the one that the phase before it gave. -/
def advances : Nat → Sequencer × World → Sequencer × World
  | 0, x => x
  | k + 1, x => advances k (x.1.advance x.2)

theorem exists_finished {a : Automaton} {m : Nat} (x : Sequencer × World) (h : Ready a m x.1) :
    ∃ k, k ≤ work a m x.1 ∧ (advances k x).1.finished = true := by
  induction hn : work a m x.1 using Nat.strongRecOn generalizing x with
  | ind n ih =>
    cases hf : x.1.finished with
    | true => exact ⟨0, Nat.zero_le _, hf⟩
    | false =>
      have hlt := work_advance h x.2 hf
      obtain ⟨k, hk, hfin⟩ := ih _ (hn ▸ hlt) (x.1.advance x.2) (ready_advance h x.2) rfl
      exact ⟨k + 1, by omega, hfin⟩

/-! ### the whole run -/

theorem ready_ofProgram (a : Automaton) (start : Option String) (m : Nat) :
    Ready a m (ofProgram a start (some m)) where
  program := rfl
  limit := rfl
  homeless h := by
    cases start with
    | none => exact h
    | some id => cases h
  inside t i e := by cases e

theorem at?_skip_advances {a : Automaton} {m : Nat} (k : Nat) (x : Sequencer × World)
    (h : Ready a m x.1) : at? ((advances k x).1.skip (advances k x).2) = at? (x.1.skip x.2) := by
  induction k generalizing x with
  | zero => rfl
  | succ k ih => exact (ih _ (ready_advance h x.2)).trans (at?_skip_advance x.2 h)

/-- Skipped at once, a run is the whole run. -/
theorem at?_skip_ofProgram (a : Automaton) (start : Option String) (m : Nat) (w : World) :
    at? ((ofProgram a start (some m)).skip w) = a.endFrom m w start := by
  have hl : left m (ofProgram a start (some m)) = m := by
    simp only [left, ofProgram]
    omega
  rw [at?_skip (s := ofProgram a start (some m)) (ready_ofProgram a start m) rfl]
  show a.endFrom (left m (ofProgram a start (some m))) w (start <|> a.start) = _
  rw [hl]
  cases start with
  | some id => rfl
  | none =>
    cases hs : a.start with
    | none => rfl
    | some id =>
      simp only [endFrom, run, hs]
      rfl

/-- a run after a number of phases, with the world that the last of them gave -/
def after (a : Automaton) (start : Option String) (m : Nat) (w : World) (k : Nat) :
    Sequencer × World :=
  advances k (ofProgram a start (some m), w)

/-- what a caller sees of a run, and of a run that is skipped to its end -/
def seen (x : Sequencer × World) : Snapshot := x.1.snapshot x.2
def skipped (x : Sequencer × World) : Snapshot := seen (x.1.skip x.2)

theorem at?_skip_after (a : Automaton) (start : Option String) (m : Nat) (w : World) (k : Nat) :
    at? ((after a start m w k).1.skip (after a start m w k).2) = a.endFrom m w start :=
  (at?_skip_advances k _ (ready_ofProgram a start m)).trans (at?_skip_ofProgram a start m w)

/-- **A run that is skipped to its end after any number of phases is over, in the world and in the
state in which the whole run ends. A run that is not skipped is over after some number of phases,
and whenever it is, it has ended there too.** -/
theorem phased_run_ends_as_run (a : Automaton) (start : Option String) (m : Nat) (w : World) :
    (∀ k, (skipped (after a start m w k)).stopped = true ∧
      (skipped (after a start m w k)).world = (a.run w start (some m)).world ∧
      (skipped (after a start m w k)).state = (a.run w start (some m)).state) ∧
    (∃ n, (seen (after a start m w n)).stopped = true) ∧
    (∀ k, (seen (after a start m w k)).stopped = true →
      (seen (after a start m w k)).world = (a.run w start (some m)).world ∧
      (seen (after a start m w k)).state = (a.run w start (some m)).state) := by
  refine ⟨fun k => ?_, ?_, fun k hk => ?_⟩
  · have hs := at?_skip_after a start m w k
    exact ⟨finished_skip .., congrArg Prod.fst hs, congrArg Prod.snd hs⟩
  · obtain ⟨n, _, hn⟩ :=
      exists_finished (ofProgram a start (some m), w) (ready_ofProgram a start m)
    exact ⟨n, hn⟩
  · have hs := at?_skip_after a start m w k
    have hset := settle_of_finished (after a start m w k).2 hk
    rw [skip_of_finished (by rw [hset]; exact hk), hset] at hs
    exact ⟨congrArg Prod.fst hs, congrArg Prod.snd hs⟩

end Sequencer

end Ladybug.Automaton

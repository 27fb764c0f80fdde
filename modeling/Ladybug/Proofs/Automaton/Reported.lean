import Ladybug.Proofs.Automaton.Meaning
import Ladybug.Proofs.Automaton.Phased
import Ladybug.Proofs.Limits

/-!
# What a run phase by phase reports

A run that is made phase by phase finds the next transition before it asks whether it may make one
more, and counts a transition when it has found it; the whole run asks first, and counts it when it
is made. Apart from what follows from this they report the same.

* `Helpless`             a state in which nothing can be done
* `onward`               the outcome of a run that has made some transitions
* `Sequencer.Told`       what a finished run says, and what the whole run says
* `Sequencer.Course`     a run between two phases, and the outcome of the whole run
* `Sequencer.Course.advance`   one phase more
* `Sequencer.Course.skipped`   the rest of the run at once
-/

namespace Ladybug.Automaton

/-! ### states in which nothing can be done -/

/-- A state is unknown, or none of its transitions fits. -/
def Helpless (a : Automaton) (w : World) (c : String) : Prop :=
  ∀ s, a.state? c = some s → ∀ t ∈ s.transitions, ¬ t.Fits w

/-- what is said of such a state -/
def helplessFault (a : Automaton) (w : World) (c : String) : Fault :=
  if (a.state? c).isNone then lostFault (some c) else a.stuckFault w c

theorem helplessFault_kind (a : Automaton) (w : World) (c : String) :
    (a.helplessFault w c).kind ≠ .limitExceeded ∧
      (a.helplessFault w c).kind ≠ .blockedAction := by
  unfold helplessFault
  split
  · exact ⟨nofun, nofun⟩
  · exact ⟨nofun, nofun⟩

theorem helpless_iff {a : Automaton} {w : World} {c : String} (hc : c ≠ a.stop) :
    a.Helpless w c ↔ a.transition? w c = none := by
  rw [transition?, if_neg hc]
  cases hs : a.state? c with
  | none => simp only [Helpless, hs, reduceCtorEq, false_implies, implies_true, Option.bind_none]
  | some s => simp only [Helpless, hs, Option.some.injEq, forall_eq', Option.bind_some,
      find?_eq_none_iff]

section

variable {a : Automaton} (h : (a.state? a.stop).isSome = true) {w : World} {id : String}
include h

theorem structuralFault?_of_transition {t : Transition} (ht : a.transition? w id = some t) :
    a.structuralFault? (some id) = none := by
  rw [structuralFault?_of_stop h, Option.bind_some, if_neg]
  intro hnone
  rw [Option.isNone_iff_eq_none] at hnone
  rw [transition?] at ht
  split at ht
  · cases ht
  · rw [hnone] at ht
    cases ht

theorem step_of_helpless (hid : id ≠ a.stop) (ht : a.transition? w id = none) :
    a.step w id = ⟨w, id, true, some (a.helplessFault w id), none⟩ := by
  have hs := structuralFault?_of_stop h (some id)
  rw [Option.bind_some] at hs
  unfold helplessFault
  split at hs
  · rename_i hnone
    rw [step_of_structural hs, if_pos hnone]
  · rename_i hsome
    rw [step_of_stuck hs hid ht, if_neg hsome]

end

/-! ### the whole run, with some transitions made -/

/-- what is said of a run that may make no more than `m` transitions -/
def spentFault (m : Nat) : Fault := .limitExceeded m "steps"

/-- The outcome of a run of at most `m` transitions that has made `n` of them and is at a world and
a state. -/
def onward (a : Automaton) (m n : Nat) (w : World) (id : String) : Outcome :=
  a.runFrom ⟨some m, "steps", 0⟩ (m - n) n w id

theorem start_eq_none {a : Automaton} {start : Option String} (h : (start <|> a.start) = none) :
    a.start = none := by
  cases start with
  | none => exact h
  | some id => cases h

theorem run_eq_onward (a : Automaton) (w : World) {start : Option String} {id : String}
    (h : (start <|> a.start) = some id) (m : Nat) :
    a.run w start (some m) = a.onward m 0 w id := by
  rw [run, h]
  rfl

section

variable {a : Automaton} {m n : Nat} {w : World} {id : String}

theorem onward_stop (hid : id = a.stop) : a.onward m n w id = ⟨w, some id, n, none⟩ :=
  runFrom_stop hid

theorem onward_spent (hid : id ≠ a.stop) (h : m ≤ n) :
    a.onward m n w id = ⟨w, some id, n, some (spentFault m)⟩ := by
  rw [onward, Nat.sub_eq_zero_of_le h]
  exact runFrom_spent hid

theorem onward_of_fault {f : Fault} (hid : id ≠ a.stop) (h : n < m)
    (hf : (a.step w id).fault = some f) :
    a.onward m n w id = ⟨(a.step w id).world, some id, n, some f⟩ := by
  obtain ⟨left, hleft⟩ : ∃ left, m - n = left + 1 := ⟨m - n - 1, by omega⟩
  rw [onward, hleft]
  exact runFrom_of_fault hid hf

theorem onward_of_step (hid : id ≠ a.stop) (h : n < m) (hf : (a.step w id).fault = none) :
    a.onward m n w id = a.onward m (n + 1) (a.step w id).world (a.step w id).next := by
  obtain ⟨left, hleft⟩ : ∃ left, m - n = left + 1 := ⟨m - n - 1, by omega⟩
  have hnext : m - (n + 1) = left := by omega
  rw [onward, onward, hleft, hnext]
  exact runFrom_of_step hid hf

/-- A fault that is a passed limit names another one. -/
def naming (n : Nat) (f : Fault) : Fault := if f.kind = .limitExceeded then spentFault n else f

theorem naming_eq_self {n : Nat} {f : Fault} (h : f.kind ≠ .limitExceeded) : naming n f = f :=
  if_neg h

theorem naming_naming (n k : Nat) (f : Fault) : naming n (naming k f) = naming n f := by
  by_cases hf : f.kind = .limitExceeded
  · have hk : (naming k f).kind = .limitExceeded := by
      rw [naming, if_pos hf]
      rfl
    rw [naming, if_pos hk, naming, if_pos hf]
  · rw [naming_eq_self hf]

/-- A run that has passed its limit names it. -/
theorem fault_run_named {a : Automaton} {w : World} {start : Option String} {id : String}
    (h : (start <|> a.start) = some id) (m : Nat) :
    (a.run w start (some m)).fault.map (naming m) = (a.run w start (some m)).fault := by
  -- counted from no steps at all, a run is itself
  have hself := a.runFrom_later ⟨some m, "steps", 0⟩ ⟨some m, "steps", 0⟩ m 0 0 w id
  rw [run_eq_onward a w h m]
  exact (congrArg Outcome.fault hself).symm

/-- What is left of a run is a run of its own, counted from later on. -/
theorem onward_eq_later (a : Automaton) (m n : Nat) (w : World) (id : String) :
    a.onward m n w id = (a.run w (some id) (some (m - n))).later n (spentFault m) :=
  a.runFrom_later ⟨some (m - n), "steps", 0⟩ ⟨some m, "steps", 0⟩ (m - n) n 0 w id

end

namespace Sequencer

/-! ### where a run stands -/

theorem find_of_helpless {a : Automaton} (h : (a.state? a.stop).isSome = true) {s : Sequencer}
    {w : World} {id : String} (hp : s.program = some a) (hid : s.state = some id)
    (hstop : id ≠ a.stop) (ht : a.transition? w id = none) :
    s.find w = s.finish (some (a.helplessFault w id)) := by
  have hs := structuralFault?_of_stop h (some id)
  rw [Option.bind_some] at hs
  unfold helplessFault
  split at hs
  · rename_i hnone
    rw [find_of_structural hp (by rw [hid]; exact hs), if_pos hnone]
  · rename_i hsome
    rw [find_of_stuck hp (by rw [hid]; exact hs) hid hstop ht, if_neg hsome]

/-- the transition in progress, and the index of its next action -/
def pending? (s : Sequencer) : Option (Transition × Nat) :=
  match s.stage with
  | .found t => some (t, 0)
  | .acting t i => some (t, i + 1)
  | .idle | .arrow _ | .finished _ _ => none

section

variable {s : Sequencer} {t : Transition} {i : Nat}

theorem stage_of_pending (h : s.pending? = some (t, i)) :
    s.stage = .found t ∧ i = 0 ∨ ∃ k, s.stage = .acting t k ∧ i = k + 1 := by
  unfold pending? at h
  cases hst : s.stage with
  | found t' =>
    rw [hst] at h
    cases h
    exact .inl ⟨rfl, rfl⟩
  | acting t' k =>
    rw [hst] at h
    cases h
    exact .inr ⟨k, rfl, rfl⟩
  | idle | arrow | finished =>
    rw [hst] at h
    cases h

theorem stage_of_resting (h : s.pending? = none) (hf : s.finished = false) :
    s.stage = .idle ∨ ∃ t, s.stage = .arrow t := by
  unfold pending? at h
  unfold finished at hf
  cases hst : s.stage with
  | idle => exact .inl rfl
  | arrow t => exact .inr ⟨t, rfl⟩
  | found | acting =>
    rw [hst] at h
    cases h
  | finished =>
    rw [hst] at hf
    cases hf

theorem advance_of_pending (h : s.pending? = some (t, i)) (w : World) :
    s.advance w = s.actAt w t i := by
  rcases stage_of_pending h with ⟨hst, rfl⟩ | ⟨k, hst, rfl⟩ <;> simp only [advance, hst]

theorem settle_of_pending (h : s.pending? = some (t, i)) (w : World) :
    s.settle w = actFrom t.actions.length s w t i := by
  rcases stage_of_pending h with ⟨hst, rfl⟩ | ⟨k, hst, rfl⟩ <;> simp only [settle, hst]

theorem finished_of_pending (h : s.pending? = some (t, i)) : s.finished = false := by
  rcases stage_of_pending h with ⟨hst, rfl⟩ | ⟨k, hst, rfl⟩ <;>
    simp only [finished, hst, Stage.isFinished]

theorem advance_of_resting (h : s.pending? = none) (hf : s.finished = false) (w : World) :
    s.advance w = (s.find w, w) := by
  rcases stage_of_resting h hf with hst | ⟨t, hst⟩ <;> simp only [advance, hst]

theorem settle_of_resting (h : s.pending? = none) (hf : s.finished = false) (w : World) :
    s.settle w = (s, w) := by
  rcases stage_of_resting h hf with hst | ⟨t, hst⟩ <;> simp only [settle, hst]

theorem advance_of_finished (hf : s.finished = true) (w : World) : s.advance w = (s, w) := by
  unfold finished at hf
  cases hst : s.stage with
  | finished => simp only [advance, hst]
  | idle | found | acting | arrow =>
    rw [hst] at hf
    cases hf

end

/-- What a finished run phase by phase says, and the number of its transitions, when the whole run
of at most `m` transitions has the outcome `r`. -/
inductive Told (a : Automaton) (m : Nat) (r : Outcome) : Option Fault → Nat → Prop
  | stopped (fine : r.fault = none) : Told a m r none r.steps
  | spent {c : String} (state : r.state = some c) (able : ¬ a.Helpless r.world c)
      (full : r.fault = some (spentFault m)) : Told a m r (some (spentFault m)) r.steps
  | helpless {c : String} (state : r.state = some c) (helpless : a.Helpless r.world c)
      (fault : r.fault = some (spentFault m) ∨ r.fault = some (a.helplessFault r.world c)) :
      Told a m r (some (a.helplessFault r.world c)) r.steps
  | blocked {f : Fault} (block : r.fault = some f) (kind : f.kind = .blockedAction) :
      Told a m r (some f) (r.steps + 1)

/-- The budget of a run of an automaton has counted the transitions. -/
structure Counted (a : Automaton) (m : Nat) (s : Sequencer) : Prop where
  program : s.program = some a
  budget : s.budget = ⟨some m, "steps", s.steps⟩
  within : s.steps ≤ m

/-- The budget of a run that has found one transition more. -/
theorem Counted.charge {a : Automaton} {m : Nat} {s : Sequencer} (h : Counted a m s) :
    s.budget.charge = ⟨some m, "steps", (s.steps + 1 : Nat)⟩ := by
  rw [h.budget]
  rfl

/-- A run has found a transition at a world and a state, and the whole run makes it there too. -/
structure Making (a : Automaton) (m : Nat) (r : Outcome) (s : Sequencer) (v : World) (id : String)
    (t : Transition) (n : Nat) : Prop where
  counted : Counted a m s
  steps : s.steps = n + 1
  state : s.state = some id
  going : id ≠ a.stop
  found : a.transition? v id = some t
  outcome : a.onward m n v id = r

/-- A run between two phases, when the whole run has the outcome `r`. Before a transition is looked
for, the rest of the whole run is the rest of this one; while one is made, the actions that are left
of it lead where all of them lead. -/
inductive Course (a : Automaton) (m : Nat) (r : Outcome) (s : Sequencer) (w : World) : Prop
  | resting {id : String} (counted : Counted a m s) (state : s.state = some id)
      (rests : s.pending? = none) (goes : s.finished = false)
      (outcome : a.onward m s.steps w id = r)
  | making {v : World} {id : String} {t : Transition} {n i : Nat} (making : Making a m r s v id t n)
      (pending : s.pending? = some (t, i)) (acts : act t.actions v = act (t.actions.drop i) w)
  | told (finished : s.finished = true) (told : Told a m r s.stage.fault? s.steps)

/-! ### one phase -/

section

variable {a : Automaton} (h : (a.state? a.stop).isSome = true) {m : Nat} {r : Outcome}
  {s : Sequencer} {w v : World} {id : String} {t : Transition} {n i : Nat}
include h

omit h in
theorem Making.lt (hm : Making a m r s v id t n) : n < m := by
  have hsteps := hm.steps
  have hwithin := hm.counted.within
  omega

/-- A transition whose actions have all been done. -/
theorem Making.arrowed (hm : Making a m r s v id t n) (hact : act t.actions v = (w, none)) :
    Counted a m (s.arrowed t) ∧ a.onward m (s.arrowed t).steps w t.target = r := by
  have hstep := step_of_acted (structuralFault?_of_transition h hm.found) hm.going hm.found hact
  have hnext := onward_of_step hm.going hm.lt (by rw [hstep])
  rw [hm.outcome, hstep, ← hm.steps] at hnext
  exact ⟨⟨hm.counted.program, hm.counted.budget, hm.counted.within⟩, hnext.symm⟩

/-- A transition one of whose actions is blocked. -/
theorem Making.blocked (hm : Making a m r s v id t n) {c : Command}
    (hact : act t.actions v = (w, some c)) :
    r.fault = some (blockedFault c w s.state) ∧ s.steps = r.steps + 1 := by
  have hstep := step_of_blocked (structuralFault?_of_transition h hm.found) hm.going hm.found hact
  have hend := onward_of_fault hm.going hm.lt (by rw [hstep])
  rw [hm.outcome] at hend
  rw [hend, hm.state, hm.steps]
  exact ⟨rfl, rfl⟩

/-- Looking for a transition. -/
theorem Counted.find (hc : Counted a m s) (hid : s.state = some id)
    (hr : a.onward m s.steps w id = r) : Course a m r (s.find w) w := by
  by_cases hstop : id = a.stop
  · have hs : a.structuralFault? s.state = none := by
      rw [structuralFault?_of_stop h, hid, hstop, Option.bind_some, if_neg]
      rw [Option.isNone_iff_eq_none]
      exact Option.isSome_iff_ne_none.mp h
    rw [find_of_stop hc.program hs (hstop ▸ hid)]
    rw [onward_stop hstop] at hr
    subst hr
    exact .told rfl (.stopped rfl)
  · cases ht : a.transition? w id with
    | none =>
      have hhelpless := (helpless_iff hstop).mpr ht
      have hstep := step_of_helpless h hstop ht
      rw [find_of_helpless h hc.program hid hstop ht]
      by_cases hlt : s.steps < m
      · rw [onward_of_fault hstop hlt (by rw [hstep]), hstep] at hr
        subst hr
        exact .told rfl (.helpless rfl hhelpless (.inr rfl))
      · rw [onward_spent hstop (Nat.le_of_not_lt hlt)] at hr
        subst hr
        exact .told rfl (.helpless rfl hhelpless (.inl rfl))
    | some t =>
      have hs := structuralFault?_of_transition h ht
      rw [find_of_transition hc.program (by rw [hid]; exact hs) hid hstop ht, hc.charge]
      by_cases hlt : s.steps < m
      · have hfine : ¬ Budget.exhausted ⟨some m, "steps", (s.steps + 1 : Nat)⟩ = true := by
          simp only [Budget.exhausted, decide_eq_true_eq, Int.ofNat_eq_natCast]
          omega
        rw [if_neg hfine]
        have hacts : act t.actions w = act (t.actions.drop 0) w := by rw [List.drop_zero]
        exact .making ⟨⟨hc.program, rfl, hlt⟩, rfl, hid, hstop, ht, hr⟩ rfl hacts
      · have hover : Budget.exhausted ⟨some m, "steps", (s.steps + 1 : Nat)⟩ = true := by
          simp only [Budget.exhausted, decide_eq_true_eq, Int.ofNat_eq_natCast]
          omega
        have hable : ¬ a.Helpless w id := by
          rw [helpless_iff hstop, ht]
          exact Option.some_ne_none t
        rw [if_pos hover]
        rw [onward_spent hstop (Nat.le_of_not_lt hlt)] at hr
        subst hr
        exact .told rfl (.spent rfl hable rfl)

/-- **One phase more.** -/
theorem Course.advance (hcourse : Course a m r s w) :
    Course a m r (s.advance w).1 (s.advance w).2 := by
  cases hcourse with
  | resting counted state rests goes outcome =>
    rw [advance_of_resting rests goes]
    exact counted.find h state outcome
  | @making v id t n i making pending acts =>
    rw [advance_of_pending pending]
    cases hi : t.actions[i]? with
    | none =>
      rw [List.drop_eq_nil_of_le (List.getElem?_eq_none_iff.mp hi)] at acts
      obtain ⟨hcounted, houtcome⟩ := making.arrowed h acts
      rw [actAt_of_none hi]
      exact .resting hcounted rfl rfl rfl houtcome
    | some c =>
      obtain ⟨hlt, hget⟩ := List.getElem?_eq_some_iff.mp hi
      rw [List.drop_eq_getElem_cons hlt, hget, act] at acts
      cases hc : c.apply w with
      | none =>
        rw [hc] at acts
        obtain ⟨hfault, hsteps⟩ := making.blocked h acts
        have htold : Told a m r (some (blockedFault c w s.state)) (r.steps + 1) :=
          .blocked hfault rfl
        rw [actAt_of_blocked hi hc]
        rw [← hsteps] at htold
        exact .told rfl htold
      | some w' =>
        rw [hc] at acts
        rw [actAt_of_acting hi hc]
        obtain ⟨⟨hp, hb, hw⟩, hsteps, hstate, hgoing, hfound, houtcome⟩ := making
        exact .making ⟨⟨hp, hb, hw⟩, hsteps, hstate, hgoing, hfound, houtcome⟩ rfl acts
  | told finished told =>
    rw [advance_of_finished finished]
    exact .told finished told

omit h in
/-- A run without a transition in progress is skipped by a whole run of what is left. -/
theorem Counted.skip_eq (hc : Counted a m s) (hp : s.pending? = none) (hf : s.finished = false)
    (w : World) :
    let r := a.run w s.state (some (m - s.steps))
    s.skip w = ({ s with
      steps := s.steps + r.steps
      budget := s.budget.charge r.steps
      state := r.state
      stage := .finished none r.fault }, r.world) := by
  intro r
  have hlimit : (s.budget.remaining.map Int.toNat).getD defaultLimit = m - s.steps := by
    simp only [Budget.remaining, hc.budget, Option.map_some, Option.getD_some,
      Int.ofNat_eq_natCast]
    omega
  unfold Sequencer.skip
  simp only [settle_of_resting hp hf, hf, Bool.false_eq_true, ↓reduceIte, hc.program, hlimit]
  rfl

omit h in
theorem Counted.skip (hc : Counted a m s) (hid : s.state = some id) (hp : s.pending? = none)
    (hf : s.finished = false) (hr : a.onward m s.steps w id = r) :
    (s.skip w).1.stage.fault? = r.fault.map (naming (m - s.steps)) ∧
      (s.skip w).1.steps = r.steps ∧ s.steps ≤ r.steps := by
  rw [onward_eq_later] at hr
  subst hr
  rw [hc.skip_eq hp hf, hid]
  refine ⟨?_, rfl, Nat.le_add_right ..⟩
  show (a.run w (some id) (some (m - s.steps))).fault = Option.map _ (Option.map (naming m) _)
  rw [Option.map_map, show naming (m - s.steps) ∘ naming m = naming (m - s.steps) from
    funext fun f => naming_naming _ _ f]
  have hid' : (some id <|> a.start) = some id := rfl
  exact (fault_run_named hid' (m - s.steps)).symm

/-- What a run says that is skipped to its end, and the number of its transitions, when the whole
run has the outcome `r`. -/
inductive Skips (a : Automaton) (m : Nat) (r : Outcome) (s : Sequencer) :
    Option Fault → Nat → Prop
  | handed {n : Nat} (goes : s.finished = false) (within : s.steps ≤ r.steps) :
      Skips a m r s (r.fault.map (naming n)) r.steps
  | blocked {f : Fault} (goes : s.finished = false) (block : r.fault = some f)
      (kind : f.kind = .blockedAction) (begun : s.steps = r.steps + 1) :
      Skips a m r s (some f) (r.steps + 1)
  | told (finished : s.finished = true) (told : Told a m r s.stage.fault? s.steps) :
      Skips a m r s s.stage.fault? s.steps

/-- **The rest of the run at once.** -/
theorem Course.skipped (hcourse : Course a m r s w) :
    Skips a m r s (s.skip w).1.stage.fault? (s.skip w).1.steps := by
  cases hcourse with
  | resting counted state rests goes outcome =>
    obtain ⟨hfault, hsteps, hle⟩ := counted.skip state rests goes outcome
    rw [hfault, hsteps]
    exact .handed goes hle
  | @making v id t n i making pending acts =>
    have hgoes := finished_of_pending pending
    obtain ⟨j, -, hj⟩ := actFrom_eq (t := t) t.actions.length i (by omega) s w
    rw [← settle_of_pending pending] at hj
    rcases hact : act (t.actions.drop i) w with ⟨w', blocked⟩
    rw [hact] at hj acts
    cases blocked with
    | none =>
      obtain ⟨hcounted, houtcome⟩ := making.arrowed h acts
      have hskip : s.skip w = (s.arrowed t).skip w' := skip_congr hj
      obtain ⟨hfault, hsteps, hle⟩ := hcounted.skip rfl rfl rfl houtcome
      rw [hskip, hfault, hsteps]
      exact .handed hgoes hle
    | some c =>
      obtain ⟨hfault, hsteps⟩ := making.blocked h acts
      have hend := Skips.blocked (a := a) (m := m) hgoes hfault rfl hsteps
      rw [skip_of_finished (by rw [hj]; rfl), hj]
      rw [← hsteps] at hend
      exact hend
  | told finished told =>
    rw [skip_eq_self w finished]
    exact .told finished told

end

/-! ### what is reported -/

/-- The fault of a run that ends at a world and a state is that it has passed its limit, in a state
in which nothing can be done. -/
structure SpentHelpless (a : Automaton) (fault : Option Fault) (w : World) (state : Option String)
    (c : String) : Prop where
  spent : fault.map Fault.kind = some .limitExceeded
  state : state = some c
  helpless : a.Helpless w c

section

variable {a : Automaton} {m n : Nat} {r : Outcome} {f : Option Fault}

/-- A finished run says what the whole run says, unless that has passed its limit in a state in
which nothing can be done. -/
theorem Told.fault_cases (h : Told a m r f n) :
    f = r.fault ∧ (∀ c, ¬ SpentHelpless a r.fault r.world r.state c) ∨
      ∃ c, SpentHelpless a r.fault r.world r.state c ∧ f = some (a.helplessFault r.world c) := by
  cases h with
  | stopped fine =>
    refine .inl ⟨fine.symm, fun c hc => ?_⟩
    have hspent := hc.spent
    rw [fine] at hspent
    cases hspent
  | spent state able full =>
    refine .inl ⟨full.symm, fun c hc => ?_⟩
    cases state.symm.trans hc.state
    exact able hc.helpless
  | @helpless c state helpless fault =>
    rcases fault with full | own
    · refine .inr ⟨c, ⟨?_, state, helpless⟩, rfl⟩
      rw [full]
      rfl
    · refine .inl ⟨own.symm, fun d hd => ?_⟩
      have hspent := hd.spent
      rw [own] at hspent
      exact (a.helplessFault_kind r.world c).1 (Option.some.inj hspent)
  | @blocked f block kind =>
    refine .inl ⟨block.symm, fun c hc => ?_⟩
    have hspent := hc.spent
    rw [block, Option.map_some, kind] at hspent
    cases hspent

/-- A finished run has made as many transitions as the whole run, and begun one more if an action of
that is blocked. -/
theorem Told.steps_eq (h : Told a m r f n) :
    n = if r.fault.map Fault.kind = some .blockedAction then r.steps + 1 else r.steps := by
  cases h with
  | stopped fine => rw [fine, if_neg nofun]
  | spent _ _ full => rw [full, if_neg nofun]
  | @helpless c _ _ fault =>
    rcases fault with full | own
    · rw [full, if_neg nofun]
    · have hkind := (a.helplessFault_kind r.world c).2
      rw [own, Option.map_some, if_neg fun e => hkind (Option.some.inj e)]
  | blocked block kind => rw [block, Option.map_some, kind, if_pos rfl]

end

section

variable {a : Automaton} (h : (a.state? a.stop).isSome = true) {start : Option String}
  {id : String} (hs : (start <|> a.start) = some id) (m k : Nat) (w : World)
include h hs

theorem course_after :
    Course a m (a.run w start (some m)) (after a start m w k).1 (after a start m w k).2 := by
  have hsteps : ∀ x : Sequencer × World, Course a m (a.run w start (some m)) x.1 x.2 →
      Course a m (a.run w start (some m)) (advances k x).1 (advances k x).2 := by
    induction k with
    | zero => exact fun x hx => hx
    | succ k ih => exact fun x hx => ih _ (hx.advance h)
  refine hsteps (ofProgram a start (some m), w) ?_
  exact .resting ⟨rfl, rfl, Nat.zero_le m⟩ hs rfl rfl (run_eq_onward a w hs m).symm

theorem told_after (hk : (seen (after a start m w k)).stopped = true) :
    Told a m (a.run w start (some m)) (seen (after a start m w k)).fault
      (seen (after a start m w k)).steps := by
  cases course_after h hs m k w with
  | resting _ _ _ goes => exact absurd hk (Bool.eq_false_iff.mp goes)
  | making _ pending => exact absurd hk (Bool.eq_false_iff.mp (finished_of_pending pending))
  | told _ told => exact told

omit h in
/-- Skipped at once, a run says what the whole run says. -/
theorem skipped_once :
    let once := skipped (ofProgram a start (some m), w)
    once.fault = (a.run w start (some m)).fault ∧ once.steps = (a.run w start (some m)).steps ∧
      once.world = (a.run w start (some m)).world ∧
      once.state = (a.run w start (some m)).state := by
  obtain ⟨hfault, hsteps, _⟩ := Counted.skip (s := ofProgram a start (some m))
    ⟨rfl, rfl, Nat.zero_le m⟩ hs rfl rfl (run_eq_onward a w hs m).symm
  have hend := at?_skip_ofProgram a start m w
  exact ⟨hfault.trans (fault_run_named hs m), hsteps, congrArg Prod.fst hend,
    congrArg Prod.snd hend⟩

end

/-- **What a run reports that is made phase by phase to its end.** It finishes, and then says what
the whole run says, unless that has passed its limit in a state that is unknown or none of whose
transitions fits: it then says so. It has made as many transitions as the whole run, and begun one
more if an action is blocked. -/
theorem finished_report (a : Automaton) (h : (a.state? a.stop).isSome = true) (id : String)
    (m : Nat) (w : World) :
    let r := a.run w (some id) (some m)
    let seenAfter := fun k => seen (after a (some id) m w k)
    (∃ k, (seenAfter k).stopped = true) ∧
    ∀ k, (seenAfter k).stopped = true →
      ((seenAfter k).fault ≠ r.fault ↔ ∃ c, SpentHelpless a r.fault r.world r.state c) ∧
      (∀ c, SpentHelpless a r.fault r.world r.state c →
        (seenAfter k).fault = some (a.helplessFault r.world c)) ∧
      ((seenAfter k).steps ≠ r.steps ↔ r.fault.map Fault.kind = some .blockedAction) ∧
      (r.fault.map Fault.kind = some .blockedAction → (seenAfter k).steps = r.steps + 1) := by
  intro r seenAfter
  refine ⟨?_, fun k hk => ?_⟩
  · obtain ⟨k, _, hk⟩ :=
      exists_finished (ofProgram a (some id) (some m), w) (ready_ofProgram a (some id) m)
    exact ⟨k, hk⟩
  have hid : (some id <|> a.start) = some id := rfl
  have htold : Told a m r (seenAfter k).fault (seenAfter k).steps := told_after h hid m k w hk
  refine ⟨?_, fun c hc => ?_, ?_, fun hblock => ?_⟩
  · rcases htold.fault_cases with ⟨hsame, hnone⟩ | ⟨c, hc, hf⟩
    · exact ⟨fun hne => absurd hsame hne, fun ⟨c, hc⟩ => absurd hc (hnone c)⟩
    · refine ⟨fun _ => ⟨c, hc⟩, fun _ hsame => ?_⟩
      have hspent := hc.spent
      rw [← hsame, hf] at hspent
      exact (a.helplessFault_kind r.world c).1 (Option.some.inj hspent)
  · rcases htold.fault_cases with ⟨_, hnone⟩ | ⟨d, hd, hf⟩
    · exact absurd hc (hnone c)
    · cases hc.state.symm.trans hd.state
      exact hf
  · rw [htold.steps_eq]
    split
    · rename_i hblock
      exact ⟨fun _ => hblock, fun _ => Nat.succ_ne_self _⟩
    · rename_i hblock
      exact ⟨fun hne => absurd rfl hne, fun hb => absurd hb hblock⟩
  · rw [htold.steps_eq, if_pos hblock]

/-- turns left, and is then in a state without transitions -/
def pitfall : Automaton where
  states :=
    [stopState,
     { id := "edge", name := "Edge", transitions := [⟨"turn", "hole", [], [.turnLeft]⟩] },
     { id := "hole", name := "Hole" }]
  start := some "edge"

/-- The limit is passed where nothing can be done, and phase by phase that is said instead. -/
theorem pitfall_reported :
    (pitfall.state? pitfall.stop).isSome = true ∧
      (pitfall.run spot (some "edge") (some 1)).fault = some (.limitExceeded 1 "steps") ∧
      ∃ k, (seen (after pitfall (some "edge") 1 spot k)).stopped = true ∧
        (seen (after pitfall (some "edge") 1 spot k)).fault
          = some (pitfall.stuckFault { spot with character := ⟨⟨0, 0⟩, .west, 0⟩ } "hole") := by
  have hlimit : (pitfall.run spot (some "edge") (some 1)).fault
      = some (.limitExceeded 1 "steps") := by decide +kernel
  have hworld : (pitfall.run spot (some "edge") (some 1)).world
      = { spot with character := ⟨⟨0, 0⟩, .west, 0⟩ } := by decide +kernel
  obtain ⟨⟨k, hk⟩, hall⟩ := finished_report pitfall (by decide) "edge" 1 spot
  refine ⟨by decide, hlimit, k, hk, ?_⟩
  have hhelpless : pitfall.Helpless (pitfall.run spot (some "edge") (some 1)).world "hole" := by
    rw [helpless_iff (by decide), hworld]
    decide +kernel
  have hfault := (hall k hk).2.1 "hole" ⟨congrArg (Option.map Fault.kind) hlimit,
    by decide +kernel, hhelpless⟩
  rw [hfault, hworld]
  rfl

/-- **The moment at which a run is skipped** makes a difference in two cases only. Where an action
is blocked, a transition that has been found before has been counted. And where skipping at once
passes the limit in a state in which nothing can be done, a run that has finished before says so.
Else there is the same count, and the same fault; which number a fault names that is a passed limit
is left open. -/
theorem skipped_report (a : Automaton) (h : (a.state? a.stop).isSome = true)
    (start : Option String) (id : String) (hs : (start <|> a.start) = some id) (m k : Nat)
    (w : World) :
    let once := skipped (ofProgram a start (some m), w)
    let before := seen (after a start m w k)
    let late := skipped (after a start m w k)
    late.steps = (if once.fault.map Fault.kind = some .blockedAction ∧ once.steps < before.steps
      then once.steps + 1 else once.steps) ∧
    (∀ c, before.stopped = true → SpentHelpless a once.fault once.world once.state c →
      late.fault = some (a.helplessFault once.world c)) ∧
    ((before.stopped = true → ∀ c, ¬ SpentHelpless a once.fault once.world once.state c) →
      ∃ n, late.fault = once.fault.map (naming n)) := by
  intro once before late
  obtain ⟨hfault, hsteps, hworld, hstate⟩ : once.fault = _ ∧ once.steps = _ ∧ once.world = _ ∧
    once.state = _ := skipped_once hs m w
  have hskips : Skips a m (a.run w start (some m)) (after a start m w k).1 late.fault late.steps :=
    (course_after h hs m k w).skipped h
  have hbefore : before.steps = (after a start m w k).1.steps := rfl
  have hstopped : before.stopped = (after a start m w k).1.finished := rfl
  rw [hfault, hsteps, hworld, hstate, hbefore, hstopped]
  generalize late.fault = f, late.steps = n at hskips
  cases hskips with
  | @handed n goes within =>
    rw [goes]
    refine ⟨?_, nofun, fun _ => ⟨n, rfl⟩⟩
    rw [if_neg fun hc => Nat.not_lt.mpr within hc.2]
  | @blocked f goes block kind begun =>
    rw [goes]
    refine ⟨?_, nofun, fun _ => ⟨0, ?_⟩⟩
    · rw [block, begun, if_pos ⟨congrArg some kind, Nat.lt_succ_self _⟩]
    · rw [block, Option.map_some, naming_eq_self]
      rw [kind]
      exact nofun
  | told finished told =>
    rw [finished]
    refine ⟨?_, fun c _ hc => ?_, fun hnone => ⟨m, ?_⟩⟩
    · rw [told.steps_eq]
      split
      · rename_i hblock
        rw [if_pos ⟨hblock, Nat.lt_succ_self _⟩]
      · rename_i hblock
        rw [if_neg fun hc => hblock hc.1]
    · rcases told.fault_cases with ⟨_, hnone⟩ | ⟨d, hd, hf⟩
      · exact absurd hc (hnone c)
      · cases hc.state.symm.trans hd.state
        exact hf
    · rw [fault_run_named hs m]
      rcases told.fault_cases with ⟨hsame, _⟩ | ⟨c, hc, _⟩
      · exact hsame
      · exact absurd hc (hnone rfl c)

/-- The third transition of the walker is blocked; skipped when it has been found, the run has
counted it. -/
theorem walker_skipped :
    (walker.state? walker.stop).isSome = true ∧ (none <|> walker.start) = some "walk" ∧
      (skipped (ofProgram walker none (some 10), lane)).steps = 2 ∧
      (skipped (after walker none 10 lane 8)).steps = 3 := by
  have hstart : (none <|> walker.start) = some "walk" := rfl
  have honce : (skipped (ofProgram walker none (some 10), lane)).steps = 2 := by decide +kernel
  have hblocked : (skipped (ofProgram walker none (some 10), lane)).fault.map Fault.kind
      = some .blockedAction := by decide +kernel
  have hbefore : (seen (after walker none 10 lane 8)).steps = 3 := by decide +kernel
  refine ⟨by decide, hstart, honce, ?_⟩
  obtain ⟨hsteps, -⟩ := skipped_report walker (by decide) none "walk" hstart 10 8 lane
  rw [hsteps, hblocked, honce, hbefore, if_pos ⟨rfl, by decide⟩]

/-- **The moment at which a run is skipped shows** in the count of its transitions, in the kind of
its fault, and in the number that the fault names. -/
theorem skip_moment_shows :
    (walker.flaw? = none ∧ walker.start = some "walk" ∧
      (skipped (ofProgram walker none (some 10), lane)).steps = 2 ∧
      (skipped (after walker none 10 lane 8)).steps = 3) ∧
    (pitfall.flaw? = none ∧ pitfall.start = some "edge" ∧
      (skipped (ofProgram pitfall none (some 1), spot)).fault.map Fault.kind
        = some .limitExceeded ∧
      (skipped (after pitfall none 1 spot 4)).fault.map Fault.kind = some .stuckState) ∧
    spinner.flaw? = none ∧ spinner.start = some "spin" ∧
      (skipped (ofProgram spinner none (some 5), spot)).fault
        = some (.limitExceeded 5 "steps") ∧
      (skipped (after spinner none 5 spot 1)).fault ≠ some (.limitExceeded 5 "steps") := by
  refine ⟨⟨by decide, rfl, ?_, ?_⟩, ⟨by decide, rfl, ?_, ?_⟩, by decide, rfl, ?_, ?_⟩ <;>
    decide +kernel

end Sequencer

end Ladybug.Automaton

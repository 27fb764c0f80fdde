import Ladybug.Proofs.Automaton.Edited
import Ladybug.Proofs.Automaton.Reported

/-!
# The runs that an edit affects

A transition that is added is tried after those that are there, so it is made only where a run was
stuck. A state that is deleted is missed only where it was used. All other runs are what they were,
and so is what they report.

* `exists_parting`             where the runs of two programs part
* `step_grow`                  a transition that is added makes a difference where a run is stuck
* `addTransition_conservative` runs of a program with one more transition
* `step_deleteState`           a state that is deleted makes no difference elsewhere
* `Avoids`                     a run does not use a state
* `deleteState_conservative`   a program without a state, and its runs
-/

namespace Ladybug.Automaton

open Sequencer (pitfall)

section

variable {a b : Automaton} {w v : World} {id c : String}

/-! ### runs of two programs -/

/-- A run makes a number of transitions from one place to another. -/
inductive Passes (a : Automaton) : Nat → World → String → World → String → Prop
  | nil {w : World} {id : String} : Passes a 0 w id w id
  | cons {k : Nat} {w v : World} {id c : String} (going : id ≠ a.stop)
      (fine : (a.step w id).fault = none)
      (rest : Passes a k (a.step w id).world (a.step w id).next v c) : Passes a (k + 1) w id v c

theorem Passes.runFrom {k : Nat} (h : Passes a k w id v c) (bud : Budget) (left n : Nat) :
    a.runFrom bud (left + k) n w id = a.runFrom bud left (n + k) v c := by
  induction h generalizing n with
  | nil => rfl
  | cons going fine _ ih =>
    rw [← Nat.add_assoc, runFrom_of_step going fine, ih]
    congr 1
    omega

theorem Passes.runs (ha : a.flaw? = none) {k : Nat} (h : Passes a k w id v c) :
    ∃ cs, Runs a k (w, id) cs (v, c) := by
  induction h with
  | nil => exact ⟨[], .nil⟩
  | cons going fine _ ih =>
    obtain ⟨ds, hruns⟩ := ih
    rcases step_cases ha _ going undefinedFault 0 with
      ⟨cs, hmakes, -⟩ | ⟨_, _, f, hf, -⟩
    · exact ⟨cs ++ ds, .cons hmakes hruns⟩
    · cases fine.symm.trans hf

/-- **Where the runs of two programs part.** They are the same, or they pass the same places up to
one from which the next step is another. -/
theorem exists_parting (hstop : b.stop = a.stop) (bud : Budget) (left n : Nat) (w : World)
    (id : String) :
    b.runFrom bud left n w id = a.runFrom bud left n w id ∨
      ∃ k rest v c, left = rest + 1 + k ∧ Passes a k w id v c ∧ Passes b k w id v c ∧
        c ≠ a.stop ∧ b.step v c ≠ a.step v c := by
  fun_induction runFrom a bud left n w id with
  | case1 =>
    rw [runFrom_stop hstop.symm]
    exact .inl rfl
  | case2 n w id hid =>
    rw [runFrom_spent (hstop ▸ hid)]
    exact .inl rfl
  | case3 n w id hid left s f hf =>
    by_cases hstep : b.step w id = a.step w id
    · have hf' : (b.step w id).fault = some f := (congrArg Step.fault hstep).trans hf
      rw [runFrom_of_fault (hstop ▸ hid) hf', hstep]
      exact .inl rfl
    · exact .inr ⟨0, left, w, id, rfl, .nil, .nil, hid, hstep⟩
  | case4 n w id hid left s hf ih =>
    by_cases hstep : b.step w id = a.step w id
    · have hid' : id ≠ b.stop := hstop ▸ hid
      have hf' : (b.step w id).fault = none := (congrArg Step.fault hstep).trans hf
      rw [runFrom_of_step hid' hf', hstep]
      rcases ih with hsame | ⟨k, rest, v, c, rfl, ha, hb, hpart⟩
      · exact .inl hsame
      · have hb : Passes b k (b.step w id).world (b.step w id).next v c := hstep ▸ hb
        exact .inr ⟨k + 1, rest, v, c, rfl, .cons hid hf ha, .cons hid' hf' hb, hpart⟩
    · exact .inr ⟨0, left, w, id, rfl, .nil, .nil, hid, hstep⟩

/-- Without a start state there is nothing to run, whatever the states are. -/
theorem run_unstarted {start : Option String} (ha : (start <|> a.start) = none)
    (hb : b.start = a.start) (w : World) (limit : Option Nat) :
    b.run w start limit = a.run w start limit ∧ (a.run w start limit).state = none := by
  rw [run, run, hb, ha]
  simp only [validate, hb, start_eq_none ha, and_self]

/-! ### states that are the same but for their transitions -/

theorem displayName_congr {g : State → State} (hg : ∀ s, (g s).name = s.name)
    (hs : b.state? id = (a.state? id).map g) (hstop : b.stop = a.stop)
    (hstart : some id = b.start ↔ some id = a.start) : b.displayName id = a.displayName id := by
  unfold displayName
  rw [hs]
  cases a.state? id with
  | none => rfl
  | some s => simp only [Option.map_some, hg, hstop, hstart]

/-- A step depends on the transition that is found, and on what is said if there is none. -/
theorem step_congr (hstop : b.stop = a.stop)
    (hs : b.structuralFault? (some id) = a.structuralFault? (some id))
    (ht : b.transition? w id = a.transition? w id) (hname : b.displayName id = a.displayName id) :
    b.step w id = a.step w id := by
  simp only [step, stuckFault, hs, hstop, ht, hname]

/-! ### one more transition -/

/-- A run has ended because it is stuck in a state. -/
structure Outcome.StuckIn (r : Outcome) (q : String) : Prop where
  state : r.state = some q
  kind : r.fault.map Fault.kind = some .stuckState

/-- A step is stuck only where no transition is found. -/
theorem transition?_of_stuck {f : Fault} (hf : (a.step w id).fault = some f)
    (hkind : f.kind = .stuckState) : (a.step w id).world = w ∧ a.transition? w id = none := by
  cases hs : a.structuralFault? (some id) with
  | some g =>
    rw [step_of_structural hs] at hf
    cases hf
    cases (structuralFault?_kind hs).symm.trans hkind
  | none =>
    by_cases hid : id = a.stop
    · simp only [step, hs, if_pos hid] at hf
      cases hf
    · cases ht : a.transition? w id with
      | none =>
        rw [step_of_stuck hs hid ht]
        exact ⟨rfl, rfl⟩
      | some t =>
        rcases hact : act t.actions w with ⟨u, _ | b⟩
        · rw [step_of_acted hs hid ht hact] at hf
          cases hf
        · rw [step_of_blocked hs hid ht hact] at hf
          cases hf
          cases hkind

theorem transition?_of_stuckIn {bud : Budget} {left n : Nat} {q : String}
    (h : (a.runFrom bud left n w id).StuckIn q) :
    a.transition? (a.runFrom bud left n w id).world q = none := by
  fun_induction runFrom a bud left n w id with
  | case1 | case2 => cases h.kind
  | case3 n w id _ left s f hf =>
    obtain rfl : id = q := Option.some.inj h.state
    obtain ⟨hworld, hnone⟩ := transition?_of_stuck hf (Option.some.inj h.kind)
    rw [hworld]
    exact hnone
  | case4 n w id _ left s hf ih => exact ih h

end

/-- A program with one more transition from a state. -/
def grow (a : Automaton) (q : String) (t : Transition) : Automaton :=
  { a with states := a.states.map (State.grown q t) }

section

variable {a : Automaton} {w : World} {id q target : String} {t : Transition}

theorem addTransition_eq (hq : q ≠ a.stop) (hs : (a.state? q).isSome = true)
    (htarget : (a.state? target).isSome = true) (ids : Ids) (c : Conditions) (cs : List Command) :
    (a.addTransition ids q target c cs).1
      = .ok (a.grow q ⟨(ids.draw "transition").1, target, c, cs⟩) := by
  obtain ⟨s, hs⟩ := Option.isSome_iff_exists.mp hs
  obtain ⟨u, hu⟩ := Option.isSome_iff_exists.mp htarget
  simp only [addTransition, if_neg hq, require, hu, change, hs]
  rfl

theorem state?_grow (id : String) :
    (a.grow q t).state? id = (a.state? id).map (State.grown q t) := by
  simp only [state?, grow, List.find?_map, Function.comp_def, State.grown_id]

theorem grown_name (s : State) : (s.grown q t).name = s.name := by
  unfold State.grown
  split <;> rfl

theorem structuralFault?_grow (state : Option String) :
    (a.grow q t).structuralFault? state = a.structuralFault? state := by
  have hisNone (id : String) : ((a.grow q t).state? id).isNone = (a.state? id).isNone := by
    rw [state?_grow, Option.isNone_map]
  have hstate : (state.bind (a.grow q t).state?).isNone = (state.bind a.state?).isNone := by
    cases state with
    | none => rfl
    | some id => exact hisNone id
  have hempty : (a.grow q t).states.isEmpty = a.states.isEmpty := List.isEmpty_map
  simp only [structuralFault?, hempty, hstate, hisNone]
  rfl

/-- A transition that is added is found only where it fits and no other one is found. -/
theorem transition?_grow (h : ¬ (id = q ∧ a.transition? w id = none ∧ t.Fits w)) :
    (a.grow q t).transition? w id = a.transition? w id := by
  by_cases hid : id = a.stop
  · exact (if_pos hid).trans (if_pos hid).symm
  · have hold : a.transition? w id = _ := if_neg hid
    have hnew : (a.grow q t).transition? w id = _ := if_neg hid
    rw [hold] at h ⊢
    rw [hnew, state?_grow]
    cases hs : a.state? id with
    | none => rfl
    | some s =>
      rw [hs] at h
      simp only [Option.map_some, Option.bind_some, State.grown_transitions,
        List.find?_append] at h ⊢
      cases hfound : s.transitions.find? fun u => u.matches w with
      | some u => rfl
      | none =>
        rw [Option.none_or]
        split_ifs with hq
        · rw [find?_eq_none_iff, List.forall_mem_singleton]
          exact fun hfits => h ⟨(id_of_state? hs).symm.trans hq, hfound, hfits⟩
        · rfl

/-- A transition that is added makes a difference where a run is stuck and the transition fits. -/
theorem step_grow (h : (a.grow q t).step w id ≠ a.step w id) :
    id = q ∧ t.Fits w ∧ a.structuralFault? (some id) = none ∧ a.transition? w id = none := by
  by_cases hpart : id = q ∧ a.transition? w id = none ∧ t.Fits w
  · obtain ⟨hid, hnone, hfits⟩ := hpart
    refine ⟨hid, hfits, ?_, hnone⟩
    cases hs : a.structuralFault? (some id) with
    | none => rfl
    | some f =>
      refine absurd ?_ h
      rw [step_of_structural hs, step_of_structural ((structuralFault?_grow _).trans hs)]
  · refine absurd ?_ h
    refine step_congr rfl (structuralFault?_grow _) (transition?_grow hpart) ?_
    exact displayName_congr grown_name (state?_grow id) rfl Iff.rfl

/-- Where a transition that is added fits, a run is not stuck. -/
theorem transition?_grow_ne_none (hq : q ≠ a.stop) (hs : (a.state? q).isSome = true)
    (hfits : t.Fits w) : (a.grow q t).transition? w q ≠ none := by
  obtain ⟨s, hs⟩ := Option.isSome_iff_exists.mp hs
  have hstate : (a.grow q t).state? q = some (s.grown q t) := by
    rw [state?_grow, hs, Option.map_some]
  have hmem : t ∈ (s.grown q t).transitions :=
    State.mem_grown_transitions.mpr (.inr ⟨id_of_state? hs, rfl⟩)
  intro hnone
  exact (helpless_iff (a := a.grow q t) hq).mpr hnone _ hstate t hmem hfits

/-- A run with one more transition is the same, or it goes on where it was stuck. -/
theorem onward_grow (a : Automaton) (q : String) (t : Transition) (m : Nat) (w : World)
    (id : String) :
    (a.grow q t).onward m 0 w id = a.onward m 0 w id ∨
      ∃ k v, t.Fits v ∧ a.onward m 0 w id = ⟨v, some q, k, some (a.stuckFault v q)⟩ ∧
        (a.grow q t).onward m 0 w id = (a.grow q t).onward m k v q := by
  rcases exists_parting (a := a) (b := a.grow q t) rfl ⟨some m, "steps", 0⟩ m 0 w id with
    hsame | ⟨k, rest, v, x, hm, ha, hb, hx, hpart⟩
  · exact .inl hsame
  · obtain ⟨rfl, hfits, hstructural, hnone⟩ := step_grow hpart
    have hstep := step_of_stuck hstructural hx hnone
    have hstuck := ha.runFrom ⟨some m, "steps", 0⟩ (rest + 1) 0
    have hgoes := hb.runFrom ⟨some m, "steps", 0⟩ (rest + 1) 0
    have hleft : rest + 1 = m - k := by omega
    rw [← hm, Nat.zero_add, runFrom_of_fault hx (by rw [hstep]), hstep] at hstuck
    rw [← hm, Nat.zero_add, hleft] at hgoes
    exact .inr ⟨k, v, hfits, hstuck, hgoes⟩

/-- **Runs of a program with one more transition**, which comes from the state `q`. A run that was
not stuck there is the same, and so is one that was stuck where the transition does not fit. Where
it fits, the run goes on with what is left of the limit. -/
theorem addTransition_conservative (a : Automaton) {q target : String} (hq : q ≠ a.stop)
    (hs : (a.state? q).isSome = true) (htarget : (a.state? target).isSome = true) (ids : Ids)
    (c : Conditions) (cs : List Command) :
    let t : Transition := ⟨(ids.draw "transition").1, target, c, cs⟩
    ∃ b, (a.addTransition ids q target c cs).1 = .ok b ∧
      ∀ (w : World) (start : Option String) (m : Nat),
        let r := a.run w start (some m)
        (¬ r.StuckIn q → b.run w start (some m) = r) ∧
        (r.StuckIn q → ¬ t.Fits r.world → b.run w start (some m) = r) ∧
        (r.StuckIn q → t.Fits r.world →
          b.run w start (some m)
            = (b.run r.world (some q) (some (m - r.steps))).later r.steps
                (.limitExceeded m "steps")) := by
  intro t
  refine ⟨a.grow q t, addTransition_eq hq hs htarget ids c cs, fun w start m => ?_⟩
  cases hid : start <|> a.start with
  | none =>
    obtain ⟨hsame, hnone⟩ := run_unstarted (b := a.grow q t) hid rfl w (some m)
    refine ⟨fun _ => hsame, fun _ _ => hsame, fun hstuck _ => ?_⟩
    cases hnone.symm.trans hstuck.state
  | some id =>
    rw [run_eq_onward a w hid m, run_eq_onward (a.grow q t) w hid m]
    rcases a.onward_grow q t m w id with hsame | ⟨k, v, hfits, hend, hgoes⟩
    · refine ⟨fun _ => hsame, fun _ _ => hsame, fun hstuck hfits => ?_⟩
      rw [← hsame] at hstuck hfits
      exact absurd (transition?_of_stuckIn hstuck) (transition?_grow_ne_none hq hs hfits)
    · rw [hend]
      refine ⟨fun hnot => absurd ⟨rfl, rfl⟩ hnot, fun _ hunfit => absurd hfits hunfit,
        fun _ _ => ?_⟩
      rw [hgoes]
      exact onward_eq_later ..

/-- The walker of the pitfall comes out of it by one more transition. -/
theorem pitfall_bridged :
    "hole" ≠ pitfall.stop ∧ (pitfall.state? "hole").isSome = true ∧
      (pitfall.state? "stop").isSome = true ∧
      (pitfall.run spot none (some 5)).StuckIn "hole" ∧
      ∃ b, (pitfall.addTransition {} "hole" "stop" [] [.turnLeft]).1 = .ok b ∧
        b.run spot none (some 5)
          = (b.run (pitfall.run spot none (some 5)).world (some "hole") (some 4)).later 1
              (.limitExceeded 5 "steps") := by
  have hq : "hole" ≠ pitfall.stop := by decide
  have hs : (pitfall.state? "hole").isSome = true := by decide
  have htarget : (pitfall.state? "stop").isSome = true := by decide
  have hstuck : (pitfall.run spot none (some 5)).StuckIn "hole" :=
    ⟨by decide +kernel, by decide +kernel⟩
  have hsteps : (pitfall.run spot none (some 5)).steps = 1 := by decide +kernel
  obtain ⟨b, hb, hruns⟩ :=
    addTransition_conservative pitfall hq hs htarget {} [] [.turnLeft]
  obtain ⟨-, -, hgoes⟩ := hruns spot none 5
  have hgoes := hgoes hstuck nofun
  rw [hsteps] at hgoes
  exact ⟨hq, hs, htarget, hstuck, b, hb, hgoes⟩

end

/-! ### one state less -/

/-- A state without the transitions to another one. -/
def State.without (d : String) (s : State) : State :=
  { s with transitions := s.transitions.filter fun t => t.target != d }

/-- After less than `m` transitions from a place no transition to the state `d` is selected, so that
no run of at most `m` of them comes to it. -/
def Avoids (a : Automaton) (m : Nat) (x : World × String) (d : String) : Prop :=
  ∀ k cs v c t, k < m → Runs a k x cs (v, c) → a.transition? v c = some t → t.target ≠ d

section

variable {a : Automaton} {w : World} {id d : String}

theorem Makes.transition {x : World × String} {cs : List Command} {v : World} {c : String}
    (h : Makes a x cs (v, c)) : ∃ t, a.transition? x.1 x.2 = some t ∧ t.target = c := by
  cases h with
  | @mk w v id s t going state first acts =>
    refine ⟨t, ?_, rfl⟩
    rw [transition?, if_neg going, state]
    exact firstFit_iff.mp first

/-- A run that selects no transition to a state does not come to it. -/
theorem Avoids.state_ne {m k : Nat} {x y : World × String} {cs : List Command}
    (h : Avoids a m x d) (hx : x.2 ≠ d) (hk : k ≤ m) (hruns : Runs a k x cs y) : y.2 ≠ d := by
  induction hruns generalizing m with
  | nil => exact hx
  | @cons n cs ds x y z first rest ih =>
    obtain ⟨m, rfl⟩ : ∃ l, m = l + 1 := ⟨m - 1, by omega⟩
    obtain ⟨t, ht, htarget⟩ := first.transition
    have hy : y.2 ≠ d := htarget ▸ h 0 [] x.1 x.2 t (Nat.succ_pos m) .nil ht
    refine ih (fun k es v c u hlt hruns hu => ?_) hy (Nat.le_of_succ_le_succ hk)
    exact h (k + 1) (cs ++ es) v c u (Nat.succ_lt_succ hlt) (.cons first hruns) hu

theorem deleteState_eq (hd : d ≠ a.stop) :
    a.deleteState d = { a with
      states := (a.states.filter fun s => s.id != d).map (State.without d)
      start := if a.start = some d then none else a.start } := if_neg hd

/-- Elements that are not found do not have to be there. -/
theorem find?_filter_of_kept {α : Type} {p q : α → Bool} {xs : List α}
    (h : ∀ x, xs.find? q = some x → p x = true) : (xs.filter p).find? q = xs.find? q := by
  induction xs with
  | nil => rfl
  | cons x xs ih =>
    cases hq : q x with
    | true =>
      rw [List.find?_cons_of_pos hq] at h ⊢
      rw [List.filter_cons_of_pos (h x rfl), List.find?_cons_of_pos hq]
    | false =>
      have hq : ¬ q x = true := Bool.eq_false_iff.mp hq
      rw [List.find?_cons_of_neg hq] at h ⊢
      rw [List.filter_cons]
      split_ifs
      · rw [List.find?_cons_of_neg hq, ih h]
      · exact ih h

theorem state?_deleteState (hd : d ≠ a.stop) (hid : id ≠ d) :
    (a.deleteState d).state? id = (a.state? id).map (State.without d) := by
  have hkept : (a.states.filter fun s => s.id != d).find? (fun s => s.id == id)
      = a.states.find? fun s => s.id == id := by
    refine find?_filter_of_kept fun s hs => bne_iff_ne.mpr ?_
    rwa [id_of_state? hs]
  rw [state?, deleteState_eq hd, List.find?_map, state?, ← hkept]
  rfl

theorem transition?_deleteState (hd : d ≠ a.stop) (hid : id ≠ d)
    (h : ∀ t, a.transition? w id = some t → t.target ≠ d) :
    (a.deleteState d).transition? w id = a.transition? w id := by
  have hstop : (a.deleteState d).stop = a.stop := by rw [deleteState_eq hd]
  rw [transition?, transition?, hstop]
  by_cases hgoing : id = a.stop
  · rw [if_pos hgoing, if_pos hgoing]
  · rw [transition?, if_neg hgoing] at h
    rw [if_neg hgoing, if_neg hgoing, state?_deleteState hd hid]
    cases hs : a.state? id with
    | none => rfl
    | some s =>
      rw [hs] at h
      exact find?_filter_of_kept fun t ht => bne_iff_ne.mpr (h t ht)

theorem start_deleteState (hd : d ≠ a.stop) (hid : id ≠ d) :
    some id = (a.deleteState d).start ↔ some id = a.start := by
  rw [deleteState_eq hd]
  dsimp only
  split_ifs with hstart
  · rw [hstart]
    exact ⟨nofun, fun e => absurd (Option.some.inj e) hid⟩
  · exact Iff.rfl

/-- A state that is deleted makes no difference where no transition to it is found. -/
theorem step_deleteState (ha : a.flaw? = none) (hd : d ≠ a.stop) (hid : id ≠ d)
    (h : ∀ t, a.transition? w id = some t → t.target ≠ d) :
    (a.deleteState d).step w id = a.step w id := by
  obtain ⟨s, hs, -⟩ := flaw?_eq_none_iff.mp ha
  have hstop : (a.deleteState d).stop = a.stop := by rw [deleteState_eq hd]
  have hthere : ((a.deleteState d).state? (a.deleteState d).stop).isSome = true := by
    rw [hstop, state?_deleteState hd hd.symm, hs]
    rfl
  have hstructural :
      (a.deleteState d).structuralFault? (some id) = a.structuralFault? (some id) := by
    rw [structuralFault?_of_stop hthere, structuralFault?_eq ha, Option.bind_some,
      state?_deleteState hd hid, Option.isNone_map]
  refine step_congr hstop hstructural (transition?_deleteState hd hid h) ?_
  exact displayName_congr (g := State.without d) (fun _ => rfl) (state?_deleteState hd hid) hstop
    (start_deleteState hd hid)

/-- A run that does not use a state is the same without it. -/
theorem run_deleteState (ha : a.flaw? = none) (hd : d ≠ a.stop) {start : Option String}
    (hstart : (start <|> a.start) ≠ some d) {m : Nat} (w : World)
    (havoids : ∀ id, (start <|> a.start) = some id → Avoids a m (w, id) d) :
    (a.deleteState d).run w start (some m) = a.run w start (some m) := by
  have hmark : a.start ≠ some d → (a.deleteState d).start = a.start := by
    intro hne
    rw [deleteState_eq hd]
    exact if_neg hne
  cases hid : start <|> a.start with
  | none =>
    have hne : a.start ≠ some d := by
      rw [start_eq_none hid]
      exact nofun
    exact (run_unstarted hid (hmark hne) w (some m)).1
  | some id =>
    have hne : id ≠ d := fun e => hstart (e ▸ hid)
    have hid' : (start <|> (a.deleteState d).start) = some id := by
      cases start with
      | some id => exact hid
      | none => exact (hmark hstart).trans hid
    rw [run_eq_onward a w hid m, run_eq_onward _ w hid' m]
    rcases exists_parting (a := a) (b := a.deleteState d) (by rw [deleteState_eq hd])
      ⟨some m, "steps", 0⟩ m 0 w id with hsame | ⟨k, rest, v, c, hm, hpasses, -, -, hpart⟩
    · exact hsame
    · obtain ⟨cs, hruns⟩ := hpasses.runs ha
      have havoids := havoids id hid
      have hc : c ≠ d := havoids.state_ne hne (by omega) hruns
      refine absurd (step_deleteState ha hd hc fun t ht => ?_) hpart
      exact havoids k cs v c t (by omega) hruns ht

/-- A program that does not have a state, and no transition to it, has nothing to delete. -/
theorem deleteState_of_unused (hd : d ≠ a.stop) (hstart : a.start ≠ some d)
    (h : ∀ s ∈ a.states, s.id ≠ d ∧ ∀ t ∈ s.transitions, t.target ≠ d) :
    a.deleteState d = a := by
  have hstates : a.states.filter (fun s => s.id != d) = a.states :=
    List.filter_eq_self.mpr fun s hs => bne_iff_ne.mpr (h s hs).1
  have hwithout : ∀ s ∈ a.states, s.without d = s := by
    intro s hs
    have hts : s.transitions.filter (fun t => t.target != d) = s.transitions :=
      List.filter_eq_self.mpr fun t ht => bne_iff_ne.mpr ((h s hs).2 t ht)
    rw [State.without, hts]
  rw [deleteState_eq hd, hstates, if_neg hstart, List.map_congr_left hwithout, List.map_id']

/-- **A program without a state, and its runs.** The state is gone, with the transitions to it and
the mark if it was the start state; there is nothing else that has changed, and nothing is left to
delete. A run that does not begin in the state, and selects no transition to it, is what it was. -/
theorem deleteState_conservative (a : Automaton) (ha : a.flaw? = none) {d : String}
    (hd : d ≠ a.stop) :
    let b := a.deleteState d
    (∀ s ∈ b.states, s.id ≠ d ∧ ∀ t ∈ s.transitions, t.target ≠ d) ∧
    b.states = (a.states.filter fun s => s.id != d).map (fun s =>
      { s with transitions := s.transitions.filter fun t => t.target != d }) ∧
    (a.start = some d → b.start = none) ∧ (a.start ≠ some d → b.start = a.start) ∧
    b.stop = a.stop ∧ b.deleteState d = b ∧
    ∀ (w : World) (start : Option String) (m : Nat), (start <|> a.start) ≠ some d →
      (∀ id, (start <|> a.start) = some id → Avoids a m (w, id) d) →
      b.run w start (some m) = a.run w start (some m) := by
  intro b
  have hb : b = { a with
      states := (a.states.filter fun s => s.id != d).map (State.without d)
      start := if a.start = some d then none else a.start } := deleteState_eq hd
  have hstates : b.states = (a.states.filter fun s => s.id != d).map (State.without d) := by
    rw [hb]
  have hmark : b.start = if a.start = some d then none else a.start := by rw [hb]
  have hstop : b.stop = a.stop := by rw [hb]
  have hunused : ∀ s ∈ b.states, s.id ≠ d ∧ ∀ t ∈ s.transitions, t.target ≠ d := by
    rw [hstates, List.forall_mem_map]
    intro s hs
    refine ⟨bne_iff_ne.mp (List.mem_filter.mp hs).2, fun t ht => ?_⟩
    exact bne_iff_ne.mp (List.mem_filter.mp ht).2
  have hunmarked : b.start ≠ some d := by
    rw [hmark]
    split_ifs with hstart
    · exact nofun
    · exact hstart
  refine ⟨hunused, hstates, fun hstart => ?_, fun hstart => ?_, hstop, ?_, fun w start m => ?_⟩
  · rw [hmark, if_pos hstart]
  · rw [hmark, if_neg hstart]
  · exact deleteState_of_unused (hstop ▸ hd) hunmarked hunused
  · exact fun hne havoids => run_deleteState ha hd hne w havoids

/-- goes home if there is a tree ahead, and else to a pond -/
def brink : Automaton where
  states :=
    [stopState,
     { id := "walk", name := "Walk", transitions :=
        [⟨"away", "pond", [(.treeFront, some false)], []⟩, ⟨"home", "stop", [], [.turnLeft]⟩] },
     { id := "pond", name := "Pond", transitions := [⟨"back", "walk", [], []⟩] }]
  start := some "walk"

/-- Where there is a tree, the pond is not missed. -/
theorem brink_without_pond :
    brink.flaw? = none ∧ "pond" ≠ brink.stop ∧ (none <|> brink.start) ≠ some "pond" ∧
      (∀ id, (none <|> brink.start) = some id → Avoids brink 1 (spot, id) "pond") ∧
      (brink.deleteState "pond").states.length = 2 ∧
      (brink.run spot none (some 1)).state = some "stop" ∧
      (brink.deleteState "pond").run spot none (some 1) = brink.run spot none (some 1) := by
  have ha : brink.flaw? = none := by decide
  have hd : "pond" ≠ brink.stop := by decide
  have hstart : (none <|> brink.start) ≠ some "pond" := by decide
  have havoids : ∀ id, (none <|> brink.start) = some id → Avoids brink 1 (spot, id) "pond" := by
    intro id hid k cs v c t hk hruns ht
    obtain rfl : "walk" = id := Option.some.inj hid
    obtain rfl : k = 0 := by omega
    cases hruns
    have hhome : (brink.transition? spot "walk").map Transition.target = some "stop" := by
      decide +kernel
    rw [ht] at hhome
    rw [Option.some.inj hhome]
    decide
  obtain ⟨-, -, -, -, -, -, hruns⟩ := deleteState_conservative brink ha hd
  exact ⟨ha, hd, hstart, havoids, by decide, by decide +kernel, hruns spot none 1 hstart havoids⟩

end

end Ladybug.Automaton

import Ladybug.Proofs.Automaton.Edited

/-!
# Programs with other ids

The ids of a program are of no importance. Nor are conditions that ask for nothing, the detectors
that an editor offers, and places in the drawing.

* `Automaton.Renamed`    the same program with other ids, and without those conditions
* `Outcome.renamed`      an outcome with other ids
* `Renamed.step`         one step of a program that has been renamed
* `Renamed.run`          a run of it: the same worlds, steps and messages
-/

namespace Ladybug

/-- a fault at a state with another id -/
def Fault.renamed (f : String → String) (x : Fault) : Fault :=
  { x with stateId := x.stateId.map f }

namespace Automaton

/-- The detectors that the transitions of a state ask, in the order of the transitions. -/
def State.asked (s : State) : List Detector :=
  s.transitions.flatMap fun t => t.conditions.required.map Prod.fst

/-- the transition with other ids, and with no conditions but those that ask for something -/
def Transition.renamed (f g : String → String) (t : Transition) : Transition where
  id := g t.id
  target := f t.target
  conditions := t.conditions.required.map fun c => (c.1, some c.2)
  actions := t.actions

/-- The state with other ids. It offers the detectors that are asked, too. -/
structure State.Renamed (f g : String → String) (s s' : State) : Prop where
  id : s'.id = f s.id
  name : s'.name = s.name
  transitions : s'.transitions = s.transitions.map (Transition.renamed f g)
  detectors : s'.detectors
    = s.detectors ++ (s.asked.filter fun d => !s.detectors.contains d).eraseDups

/-- The program with the ids `f` of states and `g` of transitions, different ids for what had
different ones. -/
structure Renamed (f g : String → String) (a b : Automaton) : Prop where
  states : List.Forall₂ (State.Renamed f g) a.states b.states
  stateIds : ∀ i ∈ stateIds a.states, ∀ j ∈ Automaton.stateIds a.states, f i = f j → i = j
  transitionIds : ∀ i ∈ transitionIds a.states, ∀ j ∈ Automaton.transitionIds a.states,
    g i = g j → i = j
  stop : b.stop = f a.stop
  start : b.start = a.start.map f

def Step.renamed (f g : String → String) (s : Step) : Step where
  world := s.world
  next := f s.next
  stopped := s.stopped
  fault := s.fault.map (Fault.renamed f)
  transition := s.transition.map g

def Outcome.renamed (f : String → String) (r : Outcome) : Outcome where
  world := r.world
  state := r.state.map f
  steps := r.steps
  fault := r.fault.map (Fault.renamed f)

/-! ### transitions -/

theorem required_map_some (l : List (Detector × Bool)) :
    Conditions.required (l.map fun c => (c.1, some c.2)) = l := by
  induction l with
  | nil => rfl
  | cons c l ih =>
    rw [Conditions.required, List.map_cons, List.filterMap_cons]
    exact congrArg (c :: ·) ih

@[simp] theorem Transition.matches_renamed (f g : String → String) (t : Transition) (w : World) :
    (t.renamed f g).matches w = t.matches w := by
  rw [Transition.matches, Transition.renamed, required_map_some, Transition.matches]

theorem find?_renamed (f g : String → String) (ts : List Transition) (w : World) :
    (ts.map (Transition.renamed f g)).find? (fun t => t.matches w)
      = (ts.find? fun t => t.matches w).map (Transition.renamed f g) := by
  rw [List.find?_map]
  exact congrArg _ (congrArg (List.find? · ts) (funext fun t => t.matches_renamed f g w))

/-! ### states -/

namespace Renamed

variable {f g : String → String} {a b : Automaton}

/-- A state is found under its new id. -/
theorem exists_state? (h : Renamed f g a b) {i : String} {s : State} (hs : a.state? i = some s) :
    ∃ s', b.state? (f i) = some s' ∧ State.Renamed f g s s' := by
  have hi : i ∈ Automaton.stateIds a.states := mem_stateIds_of_state? hs
  have hinj : ∀ u ∈ a.states, f u.id = f i → u.id = i :=
    fun u hu => h.stateIds u.id (id_mem_stateIds hu) i hi
  unfold state? at hs ⊢
  have hstates := h.states
  generalize a.states = ss at hs hinj hstates
  generalize b.states = ts at hstates
  induction hstates with
  | nil => cases hs
  | @cons u u' ss ts first _ ih =>
    -- a state is passed over under its new id just when it is under its old one
    by_cases hu : u.id = i
    · rw [List.find?_cons_of_pos (by simp [hu])] at hs
      cases hs
      exact ⟨u', List.find?_cons_of_pos (by simp [first.id, hu]), first⟩
    · rw [List.find?_cons_of_neg (by simp [hu])] at hs
      rw [List.forall_mem_cons] at hinj
      obtain ⟨s', hs', hsame⟩ := ih hs hinj.2
      refine ⟨s', ?_, hsame⟩
      rw [List.find?_cons_of_neg]
      · exact hs'
      · rw [first.id, beq_iff_eq]
        exact fun e => hu (hinj.1 e)

theorem stop_iff (h : Renamed f g a b) (ha : a.Intact) {i : String}
    (hi : i ∈ Automaton.stateIds a.states) : f i = b.stop ↔ i = a.stop := by
  rw [h.stop]
  exact ⟨h.stateIds i hi _ ha.stop, congrArg f⟩

theorem start_iff (h : Renamed f g a b) (ha : a.Intact) {i : String}
    (hi : i ∈ Automaton.stateIds a.states) : some (f i) = b.start ↔ some i = a.start := by
  rw [h.start]
  cases hstart : a.start with
  | none => simp only [Option.map_none, reduceCtorEq]
  | some j =>
    rw [Option.map_some, Option.some_inj, Option.some_inj]
    exact ⟨h.stateIds i hi j (ha.start j hstart).2, congrArg f⟩

theorem displayName (h : Renamed f g a b) (ha : a.Intact) {i : String} {s : State}
    (hs : a.state? i = some s) : b.displayName (f i) = a.displayName i := by
  have hi : i ∈ Automaton.stateIds a.states := mem_stateIds_of_state? hs
  obtain ⟨s', hs', hsame⟩ := h.exists_state? hs
  simp only [Automaton.displayName, hs, hs', hsame.name, h.stop_iff ha hi, h.start_iff ha hi]

/-- A program that has been renamed can be read like the one before. -/
theorem flawless (h : Renamed f g a b) (ha : a.Intact) : b.flaw? = none := by
  obtain ⟨s, hs, hts⟩ := flaw?_eq_none_iff.mp ha.flawless
  obtain ⟨s', hs', hsame⟩ := h.exists_state? hs
  refine flaw?_eq_none_iff.mpr ⟨s', h.stop ▸ hs', ?_⟩
  rw [hsame.transitions, hts]
  rfl

/-! ### runs -/

theorem step (h : Renamed f g a b) (ha : a.Intact) (w : World) {i : String}
    (hi : i ∈ Automaton.stateIds a.states) :
    b.step w (f i) = (a.step w i).renamed f g ∧
      (a.step w i).next ∈ Automaton.stateIds a.states := by
  obtain ⟨s, hmem, hid⟩ := mem_stateIds.mp hi
  have hs : a.state? i = some s := hid ▸ state?_of_mem ha.states hmem
  obtain ⟨s', hs', hsame⟩ := h.exists_state? hs
  have hstruct : a.structuralFault? (some i) = none := by
    rw [structuralFault?_eq ha.flawless, hs]
    rfl
  have hstruct' : b.structuralFault? (some (f i)) = none := by
    rw [structuralFault?_eq (h.flawless ha), hs']
    rfl
  by_cases hstop : i = a.stop
  · have hstop' := (h.stop_iff ha hi).mpr hstop
    simp only [Automaton.step, hstruct, hstruct', if_pos hstop, if_pos hstop']
    exact ⟨rfl, hi⟩
  · have hstop' : f i ≠ b.stop := fun e => hstop ((h.stop_iff ha hi).mp e)
    have htrans : a.transition? w i = s.transitions.find? fun t => t.matches w := by
      rw [transition?, if_neg hstop, hs]
      rfl
    have htrans' : b.transition? w (f i)
        = (s.transitions.find? fun t => t.matches w).map (Transition.renamed f g) := by
      rw [transition?, if_neg hstop', hs', ← find?_renamed, ← hsame.transitions]
      rfl
    cases ht : s.transitions.find? (fun t => t.matches w) with
    | none =>
      rw [ht] at htrans htrans'
      rw [step_of_stuck hstruct hstop htrans, step_of_stuck hstruct' hstop' htrans']
      refine ⟨?_, hi⟩
      simp only [Step.renamed, stuckFault, h.displayName ha hs, Option.map_some, Option.map_none,
        Fault.renamed]
    | some t =>
      rw [ht] at htrans htrans'
      have htarget : t.target ∈ Automaton.stateIds a.states :=
        ha.targets s hmem t (List.mem_of_find?_eq_some ht)
      cases hact : act t.actions w with
      | mk u c =>
        have hact' : act (t.renamed f g).actions w = (u, c) := hact
        cases c with
        | none =>
          rw [step_of_acted hstruct hstop htrans hact, step_of_acted hstruct' hstop' htrans' hact']
          refine ⟨?_, htarget⟩
          simp only [Step.renamed, Transition.renamed, h.stop_iff ha htarget, Option.map_some,
            Option.map_none]
        | some c =>
          rw [step_of_blocked hstruct hstop htrans hact,
            step_of_blocked hstruct' hstop' htrans' hact']
          exact ⟨rfl, hi⟩

theorem runFrom (h : Renamed f g a b) (ha : a.Intact) (budget : Budget) (left steps : Nat)
    (w : World) {i : String} (hi : i ∈ Automaton.stateIds a.states) :
    b.runFrom budget left steps w (f i) = (a.runFrom budget left steps w i).renamed f := by
  fun_induction Automaton.runFrom a budget left steps w i with
  | case1 =>
    rw [runFrom_stop ((h.stop_iff ha hi).mpr rfl)]
    rfl
  | case2 steps w i hstop =>
    rw [runFrom_spent fun e => hstop ((h.stop_iff ha hi).mp e)]
    rfl
  | case3 steps w i hstop left s x hf =>
    have hgoing : f i ≠ b.stop := fun e => hstop ((h.stop_iff ha hi).mp e)
    obtain ⟨hstep, -⟩ := h.step ha w hi
    have hf' : (b.step w (f i)).fault = some (x.renamed f) := by
      rw [hstep, Step.renamed, hf]
      rfl
    rw [runFrom_of_fault hgoing hf', hstep]
    rfl
  | case4 steps w i hstop left s hf ih =>
    have hgoing : f i ≠ b.stop := fun e => hstop ((h.stop_iff ha hi).mp e)
    obtain ⟨hstep, hnext⟩ := h.step ha w hi
    have hf' : (b.step w (f i)).fault = none := by
      rw [hstep, Step.renamed, hf]
      rfl
    rw [runFrom_of_step hgoing hf', hstep]
    exact ih hnext

/-- **A run of a program that has been renamed** leaves the world that a run of the program leaves,
after as many steps, in the same state under its new id, and with the same fault there. -/
theorem run (h : Renamed f g a b) (ha : a.Intact) {s : State} (hs : s ∈ a.states) (w : World)
    (limit : Option Nat) :
    b.run w (some (f s.id)) limit = (a.run w (some s.id) limit).renamed f :=
  h.runFrom ha ⟨limit, "steps", 0⟩ (limit.getD unbounded) 0 w (id_mem_stateIds hs)

end Renamed

end Automaton

end Ladybug

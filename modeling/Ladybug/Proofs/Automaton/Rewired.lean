import Ladybug.Proofs.Automaton.Edited

/-!
# Programs with other transitions

An operation of an editor that is not on states leaves them as they are called, and leaves no
reference to a state that is not there. So does any number of them.

* `Edit.onStates`     the operations that are on states: more, fewer, or other names
* `Rewired`           a program with the states of another one
* `Rewired.edit`      it stays one with every other operation
* `Rewired.edited`    and with any number of them
-/

namespace Ladybug.Automaton

/-- Operations after which there are other states, or states with other names. -/
def Edit.onStates : Edit → Bool
  | .addState .. | .deleteState _ | .renameState .. => true
  | .moveState .. | .setStart _ | .setDetectors .. | .addTransition .. | .updateTransition ..
  | .deleteTransition .. => false

/-- A program with the states of another one, under the same names. Its transitions may be any that
lead to states of the program. -/
structure Rewired (a b : Automaton) : Prop where
  states : b.states.map (fun s => (s.id, s.name)) = a.states.map fun s => (s.id, s.name)
  stop : b.stop = a.stop
  linked : b.Linked
  keyed : ∀ s ∈ b.states, ∀ t ∈ s.transitions, t.conditions.Keyed

/-- What may become of a state: it stays under its name, and its transitions lead to states that are
there. The stop state still has none. -/
structure Keeps (b : Automaton) (s s' : State) : Prop where
  id : s'.id = s.id
  name : s'.name = s.name
  bare : s.id = b.stop → s'.transitions = []
  transitions : ∀ t ∈ s'.transitions, t.target ∈ stateIds b.states ∧ t.conditions.Keyed

namespace Rewired

variable {a b : Automaton} {s : State}

theorem names (h : Rewired a b) : b.states.map State.name = a.states.map State.name := by
  have := congrArg (List.map Prod.snd) h.states
  rwa [List.map_map, List.map_map] at this

/-! ### one state -/

theorem keeps_self (h : Rewired a b) (hs : s ∈ b.states) : Keeps b s s :=
  ⟨rfl, rfl, h.linked.bare s hs, fun t ht => ⟨h.linked.targets s hs t ht, h.keyed s hs t ht⟩⟩

/-- A state with fewer transitions. -/
theorem keeps_of_subset (h : Rewired a b) (hs : s ∈ b.states) {ts : List Transition}
    (hts : ts ⊆ s.transitions) : Keeps b s { s with transitions := ts } where
  id := rfl
  name := rfl
  bare hid := List.eq_nil_of_subset_nil (h.linked.bare s hs hid ▸ hts)
  transitions t ht := (h.keeps_self hs).transitions t (hts ht)

/-- **Each state may become what it may, and another one the start state.** -/
theorem map (h : Rewired a b) {g : State → State} (hg : ∀ s ∈ b.states, Keeps b s (g s))
    {start : Option String} (hstart : ∀ id, start = some id → id ∈ stateIds b.states) :
    Rewired a { b with states := b.states.map g, start } := by
  have hids : stateIds (b.states.map g) = stateIds b.states := by
    rw [stateIds, List.map_map]
    exact List.map_congr_left fun s hs => (hg s hs).id
  constructor
  case states =>
    rw [← h.states, List.map_map]
    exact List.map_congr_left fun s hs => Prod.ext (hg s hs).id (hg s hs).name
  case stop => exact h.stop
  case linked =>
    constructor
    case states => exact hids ▸ h.linked.states
    case stop => exact hids ▸ h.linked.stop
    case bare =>
      exact List.forall_mem_map.mpr fun s hs hid => (hg s hs).bare ((hg s hs).id.symm.trans hid)
    case targets =>
      rw [hids]
      exact List.forall_mem_map.mpr fun s hs t ht => ((hg s hs).transitions t ht).1
    case start => exact hids ▸ hstart
  case keyed => exact List.forall_mem_map.mpr fun s hs t ht => ((hg s hs).transitions t ht).2

theorem mapState (h : Rewired a b) (id : String) {f : State → State}
    (hf : ∀ s ∈ b.states, s.id = id → Keeps b s (f s)) : Rewired a (b.mapState id f) := by
  refine h.map (fun s hs => ?_) h.linked.start
  split
  · exact hf s hs ‹_›
  · exact h.keeps_self hs

/-! ### one operation -/

theorem kept (h : Rewired a b) {r : Except EditError Automaton}
    (hr : ∀ c, r = .ok c → Rewired a c) : Rewired a (Automaton.kept b r) := by
  cases r with
  | error => exact h
  | ok c => exact hr c rfl

theorem change (h : Rewired a b) (id : String) {f : State → State}
    (hf : ∀ s ∈ b.states, s.id = id → Keeps b s (f s)) :
    Rewired a (Automaton.kept b (b.change id f)) := by
  refine h.kept fun c hc => ?_
  rw [eq_of_change hc]
  exact h.mapState id hf

theorem setStart (h : Rewired a b) (id : Option String) :
    Rewired a (Automaton.kept b (b.setStart id)) := by
  have hself {start : Option String} (hstart : ∀ i, start = some i → i ∈ stateIds b.states) :
      Rewired a { b with start } := by
    have := h.map (fun s hs => h.keeps_self hs) hstart
    rwa [List.map_id'] at this
  refine h.kept fun c hc => ?_
  cases id with
  | none =>
    cases hc
    exact hself nofun
  | some i =>
    unfold Automaton.setStart at hc
    cases hs : b.require i with
    | error => simp only [hs, reduceCtorEq] at hc
    | ok s =>
      simp only [hs] at hc
      split_ifs at hc
      cases hc
      refine hself fun j hj => ?_
      cases hj
      exact mem_of_require hs

theorem addTransition (h : Rewired a b) (ids : Ids) (source target : String) {c : Conditions}
    (keyed : c.Keyed) (cs : List Command) :
    Rewired a (Automaton.kept b (b.addTransition ids source target c cs).1) := by
  unfold Automaton.addTransition
  split_ifs with hsource
  · exact h
  · cases htarget : b.require target with
    | error => exact h
    | ok =>
      refine h.change source fun s hs hid => ⟨rfl, rfl, fun hstop => ?_, ?_⟩
      · exact absurd (hid.symm.trans hstop) hsource
      · refine List.forall_mem_append.mpr ⟨(h.keeps_self hs).transitions, ?_⟩
        exact List.forall_mem_singleton.mpr ⟨mem_of_require htarget, keyed⟩

theorem updateTransition (h : Rewired a b) (source id : String) {u : Update}
    (keyed : ∀ c, u.conditions = some c → c.Keyed) :
    Rewired a (Automaton.kept b (b.updateTransition source id u)) := by
  refine h.kept fun c hc => ?_
  unfold Automaton.updateTransition at hc
  cases htarget : b.requireTarget u.target with
  | error => simp only [htarget, reduceCtorEq] at hc
  | ok =>
    cases hsource : b.require source with
    | error => simp only [htarget, hsource, reduceCtorEq] at hc
    | ok s =>
      simp only [htarget, hsource] at hc
      split_ifs at hc
      cases hc
      have hfound := state?_of_require hsource
      have hs := List.mem_of_find?_eq_some hfound
      refine h.mapState source fun s' hs' hid => ⟨rfl, rfl, fun hstop => ?_, ?_⟩
      · have hbare := h.linked.bare s hs ((id_of_state? hfound).trans (hid.symm.trans hstop))
        rw [hbare]
        rfl
      · refine List.forall_mem_map.mpr fun t ht => ?_
        obtain ⟨hin, hkeyed⟩ := (h.keeps_self hs).transitions t ht
        split
        · constructor
          · cases hu : u.target with
            | none => simpa only [Transition.update, hu, Option.getD_none] using hin
            | some i =>
              rw [hu] at htarget
              simpa only [Transition.update, hu, Option.getD_some] using mem_of_requireTarget htarget
          · cases hu : u.conditions with
            | none => simpa only [Transition.update, hu, Option.getD_none] using hkeyed
            | some c => simpa only [Transition.update, hu, Option.getD_some] using keyed c hu
        · exact ⟨hin, hkeyed⟩

/-- **An operation that is not on states leaves the states of a program as they are called.** -/
theorem edit {x : Draft} (h : Rewired a x.program) {e : Edit} (he : e.onStates = false) :
    Rewired a (x.edit e).program := by
  cases e with
  | addState | deleteState | renameState => cases he
  | moveState id px py =>
    exact h.change id fun s hs _ => { h.keeps_self hs with id := rfl, name := rfl }
  | setStart id => exact h.setStart id
  | setDetectors id ds =>
    exact h.change id fun s hs _ => { h.keeps_self hs with id := rfl, name := rfl }
  | addTransition source target c keyed cs => exact h.addTransition x.ids source target keyed cs
  | updateTransition source id u keyed => exact h.updateTransition source id keyed
  | deleteTransition source id =>
    exact h.change source fun s hs _ => h.keeps_of_subset hs fun t ht => (List.mem_filter.mp ht).1

/-- **So does any number of them.** -/
theorem edited {x : Draft} (h : Rewired a x.program) {edits : List Edit}
    (hedits : ∀ e ∈ edits, e.onStates = false) :
    Rewired a (edits.foldl Draft.edit x).program := by
  induction edits generalizing x with
  | nil => exact h
  | cons e edits ih =>
    rw [List.forall_mem_cons] at hedits
    exact ih (h.edit hedits.1) hedits.2

end Rewired

end Ladybug.Automaton

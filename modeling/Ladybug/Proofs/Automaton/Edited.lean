import Ladybug.Automaton.Edit
import Ladybug.Proofs.Automaton.Meaning
import Ladybug.Proofs.Ident
import Ladybug.Proofs.Text
import Mathlib.Data.List.Flatten

/-!
# Edited programs

A program that has been edited, in whatever way, has ids that occur once, a stop state without
transitions, and no reference to a state that is not there; so every run of it from one of its
states stays in its states.

* `Edit`, `Draft.edit`   an operation of an editor; one that is refused leaves the program alone
* `Intact`               what can be relied on in a program
* `Linked`               the part of it that says how states and transitions hang together
* `Aimed`                the part of it that keeps runs in the program
* `Intact.joined`, `Intact.grown`   it stays so with one more state, and with one more transition
* `Draft.Sound`          the same, and where its ids come from
* `Draft.Sound.edit`     every operation keeps a draft sound
* `edited_intact`        after any operations a program is intact, and its runs have no other faults
                         than those of its transitions and of the limit
-/

namespace Ladybug.Automaton

/-! ### what an editor does -/

/-- Conditions with one entry at most for each detector. -/
def Conditions.Keyed (c : Conditions) : Prop := (c.map Prod.fst).Nodup

instance (c : Conditions) : Decidable c.Keyed := inferInstanceAs (Decidable (List.Nodup _))

inductive Edit where
  | addState (name : String) (x y : Option Binary)
  | deleteState (id : String)
  | renameState (id name : String)
  | moveState (id : String) (x y : Binary)
  | setStart (id : Option String)
  | setDetectors (id : String) (detectors : List Detector)
  | addTransition (source target : String) (conditions : Conditions) (keyed : conditions.Keyed)
      (actions : List Command)
  | updateTransition (source id : String) (update : Update)
      (keyed : ∀ c, update.conditions = some c → c.Keyed)
  | deleteTransition (source id : String)

/-- A program under the hands of an editor, and where the ids come from. -/
structure Draft where
  program : Automaton
  ids : Ids

/-- the program that an operation gives, or the one before it when it is refused -/
def kept (a : Automaton) : Except EditError Automaton → Automaton
  | .ok b => b
  | .error _ => a

def Draft.edit (x : Draft) : Edit → Draft
  | .addState name px py =>
    let (a, ids) := x.program.addState x.ids name px py
    ⟨a, ids⟩
  | .deleteState id => { x with program := x.program.deleteState id }
  | .renameState id name => { x with program := kept x.program (x.program.renameState id name) }
  | .moveState id px py => { x with program := kept x.program (x.program.moveState id px py) }
  | .setStart id => { x with program := kept x.program (x.program.setStart id) }
  | .setDetectors id ds => { x with program := kept x.program (x.program.setDetectors id ds) }
  | .addTransition source target c _ cs =>
    let (r, ids) := x.program.addTransition x.ids source target c cs
    ⟨kept x.program r, ids⟩
  | .updateTransition source id u _ =>
    { x with program := kept x.program (x.program.updateTransition source id u) }
  | .deleteTransition source id =>
    { x with program := kept x.program (x.program.deleteTransition source id) }

/-- An empty program after some operations. -/
def Draft.edited (ids : Ids) (edits : List Edit) : Draft :=
  edits.foldl Draft.edit ⟨Automaton.empty, ids⟩

/-! ### what can be relied on -/

def stateIds (ss : List State) : List String := ss.map State.id

def State.transitionIds (s : State) : List String := s.transitions.map Transition.id

/-- the ids of all transitions, wherever they are -/
def transitionIds (ss : List State) : List String := ss.flatMap State.transitionIds

structure Intact (a : Automaton) : Prop where
  states : (stateIds a.states).Nodup
  transitions : (transitionIds a.states).Nodup
  stop : a.stop ∈ stateIds a.states
  bare : ∀ s ∈ a.states, s.id = a.stop → s.transitions = []
  targets : ∀ s ∈ a.states, ∀ t ∈ s.transitions, t.target ∈ stateIds a.states
  start : ∀ id, a.start = some id → id ≠ a.stop ∧ id ∈ stateIds a.states
  detectors : ∀ s ∈ a.states, s.detectors.Nodup

/-- Different ids of states, a stop state without transitions, and no reference to a state that is
not there. A run may begin at the stop state, and a state may offer a detector twice. -/
structure Linked (a : Automaton) : Prop where
  states : (stateIds a.states).Nodup
  stop : a.stop ∈ stateIds a.states
  bare : ∀ s ∈ a.states, s.id = a.stop → s.transitions = []
  targets : ∀ s ∈ a.states, ∀ t ∈ s.transitions, t.target ∈ stateIds a.states
  start : ∀ id, a.start = some id → id ∈ stateIds a.states

theorem Intact.linked {a : Automaton} (h : a.Intact) : a.Linked where
  states := h.states
  stop := h.stop
  bare := h.bare
  targets := h.targets
  start := fun id hid => (h.start id hid).2

/-- Every transition leads to a state of the program. -/
def Aimed (a : Automaton) : Prop :=
  ∀ s ∈ a.states, ∀ t ∈ s.transitions, t.target ∈ stateIds a.states

theorem mem_stateIds {ss : List State} {id : String} :
    id ∈ stateIds ss ↔ ∃ s ∈ ss, s.id = id := List.mem_map

theorem id_mem_stateIds {ss : List State} {s : State} (h : s ∈ ss) : s.id ∈ stateIds ss :=
  mem_stateIds.mpr ⟨s, h, rfl⟩

theorem state?_of_mem {a : Automaton} (h : (stateIds a.states).Nodup) {s : State}
    (hs : s ∈ a.states) : a.state? s.id = some s := find?_of_nodup h hs

theorem id_of_state? {a : Automaton} {id : String} {s : State} (h : a.state? id = some s) :
    s.id = id := by
  simpa only [beq_iff_eq] using List.find?_some h

theorem mem_stateIds_of_state? {a : Automaton} {id : String} {s : State}
    (h : a.state? id = some s) : id ∈ stateIds a.states :=
  id_of_state? h ▸ id_mem_stateIds (List.mem_of_find?_eq_some h)

theorem state?_of_require {a : Automaton} {id : String} {s : State} (h : a.require id = .ok s) :
    a.state? id = some s := by
  unfold require at h
  split at h
  · rename_i hs
    cases h
    exact hs
  · cases h

theorem mem_of_require {a : Automaton} {id : String} {s : State} (h : a.require id = .ok s) :
    id ∈ stateIds a.states :=
  mem_stateIds_of_state? (state?_of_require h)

theorem eq_of_change {a b : Automaton} {id : String} {f : State → State}
    (h : a.change id f = .ok b) : b = a.mapState id f := by
  unfold change at h
  split at h
  · cases h
  · exact (Except.ok.inj h).symm

theorem mem_of_requireTarget {a : Automaton} {id : String} {u : Unit}
    (h : a.requireTarget (some id) = .ok u) : id ∈ stateIds a.states := by
  unfold requireTarget at h
  cases hs : a.require id with
  | error => simp only [hs, Except.map, reduceCtorEq] at h
  | ok => exact mem_of_require hs

/-- A program that hangs together is one that can be read. -/
theorem Linked.flawless {a : Automaton} (h : a.Linked) : a.flaw? = none := by
  obtain ⟨s, hs, hid⟩ := mem_stateIds.mp h.stop
  rw [flaw?_eq_none_iff]
  exact ⟨s, hid ▸ state?_of_mem h.states hs, h.bare s hs hid⟩

theorem Intact.flawless {a : Automaton} (h : a.Intact) : a.flaw? = none := h.linked.flawless

/-! ### one more state -/

section
variable {ss : List State} {s : State}

theorem stateIds_append_singleton : stateIds (ss ++ [s]) = stateIds ss ++ [s.id] :=
  List.map_append

theorem transitionIds_append_singleton (h : s.transitions = []) :
    transitionIds (ss ++ [s]) = transitionIds ss := by
  simp only [transitionIds, State.transitionIds, List.flatMap_append, List.flatMap_cons,
    List.flatMap_nil, h, List.map_nil, List.append_nil]

/-- **An intact program stays so with one more state**, which has a new id and nothing else. -/
theorem Intact.joined {a : Automaton} (h : a.Intact) (hid : s.id ∉ stateIds a.states)
    (hts : s.transitions = []) (hds : s.detectors = []) :
    Intact { a with states := a.states ++ [s] } := by
  constructor
  case states =>
    rw [stateIds_append_singleton]
    exact nodup_append_singleton.mpr ⟨hid, h.states⟩
  case transitions =>
    rw [transitionIds_append_singleton hts]
    exact h.transitions
  case stop =>
    rw [stateIds_append_singleton]
    exact List.mem_append_left _ h.stop
  case bare =>
    rw [List.forall_mem_append, List.forall_mem_singleton]
    exact ⟨h.bare, fun _ => hts⟩
  case targets =>
    rw [List.forall_mem_append, List.forall_mem_singleton, hts, stateIds_append_singleton]
    exact ⟨fun u hu t ht => List.mem_append_left _ (h.targets u hu t ht), List.forall_mem_nil _⟩
  case start =>
    intro i hi
    obtain ⟨hne, hmem⟩ := h.start i hi
    rw [stateIds_append_singleton]
    exact ⟨hne, List.mem_append_left _ hmem⟩
  case detectors =>
    rw [List.forall_mem_append, List.forall_mem_singleton, hds]
    exact ⟨h.detectors, List.nodup_nil⟩

end

/-! ### states with one more transition -/

/-- A state with one more transition if it has the id `source`, and else as it is. -/
def State.grown (source : String) (t : Transition) (s : State) : State :=
  if s.id = source then { s with transitions := s.transitions ++ [t] } else s

namespace State

variable (source : String) (t : Transition) (s : State)

theorem grown_id : (s.grown source t).id = s.id := by
  unfold grown
  split <;> rfl

theorem grown_detectors : (s.grown source t).detectors = s.detectors := by
  unfold grown
  split <;> rfl

theorem grown_transitions :
    (s.grown source t).transitions = s.transitions ++ if s.id = source then [t] else [] := by
  unfold grown
  split
  · rfl
  · exact (List.append_nil _).symm

theorem grown_transitionIds :
    (s.grown source t).transitionIds
      = s.transitionIds ++ if s.id = source then [t.id] else [] := by
  rw [transitionIds, transitionIds, grown_transitions, List.map_append]
  split <;> rfl

variable {source t s}

theorem mem_grown_transitions {u : Transition} :
    u ∈ (s.grown source t).transitions ↔ u ∈ s.transitions ∨ s.id = source ∧ u = t := by
  rw [grown_transitions, List.mem_append]
  by_cases h : s.id = source <;> simp [h]

theorem mem_grown_transitionIds {i : String} :
    i ∈ (s.grown source t).transitionIds ↔ i ∈ s.transitionIds ∨ s.id = source ∧ i = t.id := by
  rw [grown_transitionIds, List.mem_append]
  by_cases h : s.id = source <;> simp [h]

end State

section
variable {source : String} {t : Transition} {ss : List State}

theorem stateIds_map_grown : stateIds (ss.map (State.grown source t)) = stateIds ss := by
  simp only [stateIds, List.map_map]
  exact List.map_congr_left fun s _ => s.grown_id source t

theorem mem_transitionIds_map_grown {i : String}
    (h : i ∈ transitionIds (ss.map (State.grown source t))) :
    i ∈ transitionIds ss ∨ i = t.id := by
  rw [transitionIds, List.flatMap_map] at h
  obtain ⟨s, hs, hi⟩ := List.mem_flatMap.mp h
  rcases State.mem_grown_transitionIds.mp hi with hi | ⟨-, rfl⟩
  · exact .inl (List.mem_flatMap.mpr ⟨s, hs, hi⟩)
  · exact .inr rfl

/-- A transition with a new id leaves the ids apart. -/
theorem nodup_transitionIds_map_grown (hs : (stateIds ss).Nodup) (hts : (transitionIds ss).Nodup)
    (hnew : t.id ∉ transitionIds ss) :
    (transitionIds (ss.map (State.grown source t))).Nodup := by
  obtain ⟨heach, hdisjoint⟩ := List.nodup_flatMap.mp hts
  have hne : ss.Pairwise fun s u => s.id ≠ u.id := List.pairwise_map.mp hs
  have hold {s : State} (hs : s ∈ ss) : t.id ∉ s.transitionIds := fun hi =>
    hnew (List.mem_flatMap.mpr ⟨s, hs, hi⟩)
  rw [transitionIds, List.flatMap_map, List.nodup_flatMap]
  constructor
  · intro s hs
    rw [State.grown_transitionIds]
    split
    · exact nodup_append_singleton.mpr ⟨hold hs, heach s hs⟩
    · rw [List.append_nil]
      exact heach s hs
  · refine (hdisjoint.and hne).imp_of_mem fun {s u} hs hu hsu i hi hi' => ?_
    -- two states have no id in common, and only one of them has the new one
    obtain ⟨hdis, hne⟩ := hsu
    rcases State.mem_grown_transitionIds.mp hi with hi | ⟨hs', rfl⟩
    · rcases State.mem_grown_transitionIds.mp hi' with hi' | ⟨-, rfl⟩
      · exact hdis hi hi'
      · exact hold hs hi
    · rcases State.mem_grown_transitionIds.mp hi' with hi' | ⟨hu', -⟩
      · exact hold hu hi'
      · exact hne (hs'.trans hu'.symm)

/-- **An intact program stays so with one more transition**, from a state that is not the stop state
to one that is there. -/
theorem Intact.grown {a : Automaton} (h : a.Intact) (hsource : source ≠ a.stop)
    (hnew : t.id ∉ transitionIds a.states) (htarget : t.target ∈ stateIds a.states) :
    Intact { a with states := a.states.map (State.grown source t) } := by
  constructor
  case states =>
    rw [stateIds_map_grown]
    exact h.states
  case transitions => exact nodup_transitionIds_map_grown h.states h.transitions hnew
  case stop =>
    rw [stateIds_map_grown]
    exact h.stop
  case bare =>
    rw [List.forall_mem_map]
    intro s hs hstop
    rw [State.grown_id] at hstop
    rw [State.grown_transitions, if_neg (fun e => hsource (e.symm.trans hstop)), List.append_nil]
    exact h.bare s hs hstop
  case targets =>
    rw [List.forall_mem_map, stateIds_map_grown]
    intro s hs u hu
    rcases State.mem_grown_transitions.mp hu with hu | ⟨-, rfl⟩
    · exact h.targets s hs u hu
    · exact htarget
  case start =>
    rw [stateIds_map_grown]
    exact h.start
  case detectors =>
    rw [List.forall_mem_map]
    intro s hs
    rw [State.grown_detectors]
    exact h.detectors s hs

end

/-- No id that is drawn is that of the stop state. -/
theorem draw_ne_stopId (ids : Ids) (stem : String) : (ids.draw stem).1 ≠ stopId := by
  have hdash : '-' ∉ stopId.toList := by decide
  exact fun e => Ids.not_gave_of_dash_not_mem hdash _ (e ▸ Ids.gave_draw ids stem)

/-- What holds of a program that is edited: it is intact, its ids have been drawn, and each of its
conditions has one entry for a detector. -/
structure Draft.Sound (x : Draft) : Prop where
  intact : x.program.Intact
  stopId : x.program.stop = stopId
  drawnStates : ∀ id ∈ stateIds x.program.states, id = Automaton.stopId ∨ x.ids.Gave id
  drawnTransitions : ∀ id ∈ transitionIds x.program.states, x.ids.Gave id
  keyed : ∀ s ∈ x.program.states, ∀ t ∈ s.transitions, t.conditions.Keyed

namespace Draft.Sound

theorem empty (ids : Ids) : Draft.Sound ⟨Automaton.empty, ids⟩ where
  intact :=
    { states := List.nodup_singleton _
      transitions := List.nodup_nil
      stop := List.mem_cons_self
      bare := fun s hs _ => by rw [List.mem_singleton.mp hs]; rfl
      targets := fun s hs t ht => by rw [List.mem_singleton.mp hs] at ht; cases ht
      start := fun id h => by cases h
      detectors := fun s hs => by rw [List.mem_singleton.mp hs]; exact List.nodup_nil }
  stopId := rfl
  drawnStates id h := .inl (List.mem_singleton.mp h)
  drawnTransitions id h := by cases h
  keyed s hs t ht := by
    rw [List.mem_singleton.mp hs] at ht
    cases ht

/-- More ids may be drawn than a program has. -/
theorem draw {x : Draft} (h : x.Sound) (stem : String) :
    Draft.Sound ⟨x.program, (x.ids.draw stem).2⟩ where
  intact := h.intact
  stopId := h.stopId
  drawnStates id hid := (h.drawnStates id hid).imp_right fun hg => hg.draw stem
  drawnTransitions id hid := (h.drawnTransitions id hid).draw stem
  keyed := h.keyed

/-- An operation that is done keeps a draft sound, so it does when it is refused. -/
theorem kept {x : Draft} {ids : Ids} {r : Except EditError Automaton}
    (h : Draft.Sound ⟨x.program, ids⟩) (hr : ∀ a, r = .ok a → Draft.Sound ⟨a, ids⟩) :
    Draft.Sound ⟨Automaton.kept x.program r, ids⟩ := by
  cases r with
  | error => exact h
  | ok a => exact hr a rfl

/-! ### states and transitions taken away or changed in place -/

/-- What may become of a state when `ids` are those of the states that stay: its id stays, no
transition is added to it, and those that stay lead to states that stay. -/
structure Trims (ids : List String) (s s' : State) : Prop where
  id : s'.id = s.id
  transitions : s'.transitionIds.Sublist s.transitionIds
  targets : ∀ t ∈ s'.transitions, t.target ∈ ids ∧ t.conditions.Keyed
  detectors : s'.detectors.Nodup

theorem trims_self {x : Draft} (h : x.Sound) {s : State} (hs : s ∈ x.program.states) :
    Trims (stateIds x.program.states) s s where
  id := rfl
  transitions := List.Sublist.refl _
  targets t ht := ⟨h.intact.targets s hs t ht, h.keyed s hs t ht⟩
  detectors := h.intact.detectors s hs

/-- **Some states of a draft, each of them trimmed, with a start state among them, are sound.** -/
theorem trim {x : Draft} (h : x.Sound) {l : List State} (hl : l.Sublist x.program.states)
    (hstop : x.program.stop ∈ stateIds l) {g : State → State}
    (hg : ∀ s ∈ l, Trims (stateIds l) s (g s)) {start : Option String}
    (hstart : ∀ id, start = some id → id ≠ x.program.stop ∧ id ∈ stateIds l) :
    Draft.Sound ⟨{ x.program with states := l.map g, start }, x.ids⟩ := by
  have hids : stateIds (l.map g) = stateIds l := by
    simp only [stateIds, List.map_map]
    exact List.map_congr_left fun s hs => (hg s hs).id
  have hts : (transitionIds (l.map g)).Sublist (transitionIds x.program.states) := by
    rw [transitionIds, List.flatMap_map]
    exact (List.Sublist.flatMap_right l fun s hs => (hg s hs).transitions).trans (hl.flatMap _)
  have hmap {P : State → Prop} (hP : ∀ s ∈ l, P (g s)) : ∀ s ∈ l.map g, P s := by
    intro s hs
    obtain ⟨u, hu, rfl⟩ := List.mem_map.mp hs
    exact hP u hu
  constructor
  case intact =>
    constructor
    case states =>
      rw [hids]
      exact h.intact.states.sublist (hl.map _)
    case transitions => exact h.intact.transitions.sublist hts
    case stop => rwa [hids]
    case bare =>
      refine hmap fun s hs hid => ?_
      have hbare := h.intact.bare s (hl.subset hs) ((hg s hs).id.symm.trans hid)
      have hsub := (hg s hs).transitions
      rw [State.transitionIds, State.transitionIds, hbare, List.map_nil, List.sublist_nil] at hsub
      exact List.map_eq_nil_iff.mp hsub
    case targets =>
      rw [hids]
      exact hmap fun s hs t ht => ((hg s hs).targets t ht).1
    case start => rwa [hids]
    case detectors => exact hmap fun s hs => (hg s hs).detectors
  case stopId => exact h.stopId
  case drawnStates =>
    rw [hids]
    exact fun id hid => h.drawnStates id ((hl.map _).subset hid)
  case drawnTransitions => exact fun id hid => h.drawnTransitions id (hts.subset hid)
  case keyed => exact hmap fun s hs t ht => ((hg s hs).targets t ht).2

/-- One state changed, the others left alone. -/
theorem mapState {x : Draft} (h : x.Sound) (id : String) {f : State → State}
    (hf : ∀ s ∈ x.program.states, s.id = id → Trims (stateIds x.program.states) s (f s)) :
    Draft.Sound ⟨x.program.mapState id f, x.ids⟩ := by
  refine h.trim (List.Sublist.refl _) h.intact.stop (fun s hs => ?_) h.intact.start
  by_cases hid : s.id = id
  · simp only [hid, ↓reduceIte]
    exact hf s hs hid
  · simp only [hid, ↓reduceIte]
    exact h.trims_self hs

theorem change {x : Draft} (h : x.Sound) (id : String) {f : State → State}
    (hf : ∀ s ∈ x.program.states, s.id = id → Trims (stateIds x.program.states) s (f s)) :
    Draft.Sound ⟨Automaton.kept x.program (x.program.change id f), x.ids⟩ := by
  refine h.kept fun a ha => ?_
  rw [eq_of_change ha]
  exact h.mapState id hf

theorem nodup_eraseDups (ds : List Detector) : ds.eraseDups.Nodup := by
  induction hn : ds.length using Nat.strongRecOn generalizing ds with
  | ind n ih =>
    cases ds with
    | nil => exact List.nodup_nil
    | cons d ds =>
      rw [List.eraseDups_cons, List.nodup_cons, List.mem_eraseDups, List.mem_filter]
      refine ⟨fun hd => ?_, ih _ ?_ _ rfl⟩
      · simp only [BEq.rfl, Bool.not_true, Bool.false_eq_true, and_false] at hd
      · have hle := List.length_filter_le (fun e => !e == d) ds
        rw [List.length_cons] at hn
        omega

theorem deleteState {x : Draft} (h : x.Sound) (id : String) :
    Draft.Sound ⟨x.program.deleteState id, x.ids⟩ := by
  unfold Automaton.deleteState
  by_cases hid : id = x.program.stop
  · rw [if_pos hid]
    exact h
  · rw [if_neg hid]
    have hmem {i : String} (hi : i ∈ stateIds x.program.states) (hne : i ≠ id) :
        i ∈ stateIds (x.program.states.filter fun s => s.id != id) := by
      obtain ⟨s, hs, rfl⟩ := mem_stateIds.mp hi
      exact id_mem_stateIds (List.mem_filter.mpr ⟨hs, bne_iff_ne.mpr hne⟩)
    refine h.trim List.filter_sublist (hmem h.intact.stop (Ne.symm hid)) (fun s hs => ?_) ?_
    · have hs' := (List.mem_filter.mp hs).1
      refine ⟨rfl, List.filter_sublist.map _, fun t ht => ?_, h.intact.detectors s hs'⟩
      obtain ⟨ht, htarget⟩ := List.mem_filter.mp ht
      exact ⟨hmem (h.intact.targets s hs' t ht) (bne_iff_ne.mp htarget), h.keyed s hs' t ht⟩
    · intro i hi
      by_cases hstart : x.program.start = some id
      · rw [if_pos hstart] at hi
        cases hi
      · rw [if_neg hstart] at hi
        obtain ⟨hne, hi'⟩ := h.intact.start i hi
        exact ⟨hne, hmem hi' fun e => hstart (e ▸ hi)⟩

theorem setStart {x : Draft} (h : x.Sound) (id : Option String) :
    Draft.Sound ⟨Automaton.kept x.program (x.program.setStart id), x.ids⟩ := by
  have hself : x.program.states.map (fun s => s) = x.program.states := List.map_id' _
  have hset {start : Option String}
      (hstart : ∀ i, start = some i → i ≠ x.program.stop ∧ i ∈ stateIds x.program.states) :
      Draft.Sound ⟨{ x.program with start }, x.ids⟩ := by
    have ht := h.trim (List.Sublist.refl _) h.intact.stop (fun s hs => h.trims_self hs) hstart
    rwa [hself] at ht
  refine h.kept fun a ha => ?_
  cases id with
  | none =>
    cases ha
    exact hset fun i hi => by cases hi
  | some i =>
    unfold Automaton.setStart at ha
    cases hs : x.program.require i with
    | error => simp only [hs, reduceCtorEq] at ha
    | ok s =>
      simp only [hs] at ha
      split at ha
      · cases ha
      · rename_i hstop
        cases ha
        refine hset fun j hj => ?_
        cases hj
        exact ⟨hstop, mem_of_require hs⟩

theorem deleteTransition {x : Draft} (h : x.Sound) (source id : String) :
    Draft.Sound ⟨Automaton.kept x.program (x.program.deleteTransition source id), x.ids⟩ := by
  refine h.change source fun s hs _ => ⟨rfl, List.filter_sublist.map _, fun t ht => ?_, ?_⟩
  · have ht' := (List.mem_filter.mp ht).1
    exact ⟨h.intact.targets s hs t ht', h.keyed s hs t ht'⟩
  · exact h.intact.detectors s hs

/-- A transition that is updated leads to the state that the update names, or to where it led. -/
theorem update {x : Draft} (h : x.Sound) {s : State} (hs : s ∈ x.program.states) {t : Transition}
    (ht : t ∈ s.transitions) {u : Update} {v : Unit}
    (htarget : x.program.requireTarget u.target = .ok v)
    (keyed : ∀ c, u.conditions = some c → c.Keyed) :
    (t.update u).target ∈ stateIds x.program.states ∧ (t.update u).conditions.Keyed := by
  constructor
  · cases hu : u.target with
    | none => simpa only [Transition.update, hu, Option.getD_none] using h.intact.targets s hs t ht
    | some i =>
      simpa only [Transition.update, hu, Option.getD_some] using mem_of_requireTarget (hu ▸ htarget)
  · cases hu : u.conditions with
    | none => simpa only [Transition.update, hu, Option.getD_none] using h.keyed s hs t ht
    | some c => simpa only [Transition.update, hu, Option.getD_some] using keyed c hu

theorem updateTransition {x : Draft} (h : x.Sound) (source id : String) {u : Update}
    (keyed : ∀ c, u.conditions = some c → c.Keyed) :
    Draft.Sound ⟨Automaton.kept x.program (x.program.updateTransition source id u), x.ids⟩ := by
  refine h.kept fun a ha => ?_
  unfold Automaton.updateTransition at ha
  cases htarget : x.program.requireTarget u.target with
  | error => simp only [htarget, reduceCtorEq] at ha
  | ok =>
    cases hsource : x.program.require source with
    | error => simp only [htarget, hsource, reduceCtorEq] at ha
    | ok s =>
      simp only [htarget, hsource] at ha
      split at ha
      · cases ha
        have hfound := state?_of_require hsource
        have hs := List.mem_of_find?_eq_some hfound
        refine h.mapState source fun s' hs' hid => ⟨rfl, ?_, fun t ht => ?_, ?_⟩
        · -- the state found is the one that is changed, since ids occur once
          have hss : s' = s := List.inj_on_of_nodup_map h.intact.states hs' hs
            (hid.trans (id_of_state? hfound).symm)
          have hids (t : Transition) : (if t.id = id then t.update u else t).id = t.id := by
            split <;> rfl
          rw [hss, State.transitionIds, State.transitionIds, List.map_map, Function.comp_def,
            List.map_congr_left fun t _ => hids t]
        · obtain ⟨t', ht', rfl⟩ := List.mem_map.mp ht
          split
          · exact h.update hs ht' htarget keyed
          · exact ⟨h.intact.targets s hs t' ht', h.keyed s hs t' ht'⟩
        · exact h.intact.detectors s' hs'
      · cases ha

/-! ### states and transitions added -/

theorem addState {x : Draft} (h : x.Sound) (name : String) (px py : Option Binary) :
    Draft.Sound ⟨(x.program.addState x.ids name px py).1,
      (x.program.addState x.ids name px py).2⟩ := by
  have hnew : (x.ids.draw "state").1 ∉ stateIds x.program.states := by
    intro hmem
    rcases h.drawnStates _ hmem with hstop | hgave
    · exact draw_ne_stopId _ _ hstop
    · exact Ids.not_gave_draw _ _ hgave
  have hdraw := h.draw "state"
  simp only [Automaton.addState]
  generalize hs : State.mk (x.ids.draw "state").1 name _ _ [] [] = s
  have hid : s.id = (x.ids.draw "state").1 := by rw [← hs]
  have hts : s.transitions = [] := by rw [← hs]
  have hds : s.detectors = [] := by rw [← hs]
  constructor
  case intact => exact h.intact.joined (hid ▸ hnew) hts hds
  case stopId => exact h.stopId
  case drawnStates =>
    rw [stateIds_append_singleton, List.forall_mem_append, List.forall_mem_singleton, hid]
    exact ⟨hdraw.drawnStates, .inr (Ids.gave_draw ..)⟩
  case drawnTransitions =>
    rw [transitionIds_append_singleton hts]
    exact hdraw.drawnTransitions
  case keyed =>
    rw [List.forall_mem_append, List.forall_mem_singleton, hts]
    exact ⟨h.keyed, List.forall_mem_nil _⟩

/-- One more transition from a state that is not the stop state to one that is there. -/
theorem append {x : Draft} (h : x.Sound) {source : String} (hsource : source ≠ x.program.stop)
    {t : Transition} (hid : t.id = (x.ids.draw "transition").1)
    (htarget : t.target ∈ stateIds x.program.states) (hkeyed : t.conditions.Keyed) :
    Draft.Sound ⟨x.program.mapState source fun s => { s with transitions := s.transitions ++ [t] },
      (x.ids.draw "transition").2⟩ := by
  have hdraw := h.draw "transition"
  have hnew : t.id ∉ transitionIds x.program.states :=
    fun hmem => Ids.not_gave_draw _ _ (hid ▸ h.drawnTransitions _ hmem)
  show Draft.Sound ⟨{ x.program with states := x.program.states.map (State.grown source t) }, _⟩
  constructor
  case intact => exact h.intact.grown hsource hnew htarget
  case stopId => exact h.stopId
  case drawnStates =>
    rw [stateIds_map_grown]
    exact hdraw.drawnStates
  case drawnTransitions =>
    intro i hi
    rcases mem_transitionIds_map_grown hi with hi | rfl
    · exact hdraw.drawnTransitions i hi
    · exact hid ▸ Ids.gave_draw ..
  case keyed =>
    rw [List.forall_mem_map]
    intro s hs u hu
    rcases State.mem_grown_transitions.mp hu with hu | ⟨-, rfl⟩
    · exact h.keyed s hs u hu
    · exact hkeyed

theorem addTransition {x : Draft} (h : x.Sound) (source target : String) {c : Conditions}
    (keyed : c.Keyed) (cs : List Command) :
    Draft.Sound
      ⟨Automaton.kept x.program (x.program.addTransition x.ids source target c cs).1,
        (x.program.addTransition x.ids source target c cs).2⟩ := by
  unfold Automaton.addTransition
  by_cases hsource : source = x.program.stop
  · rw [if_pos hsource]
    exact h
  · rw [if_neg hsource]
    cases htarget : x.program.require target with
    | error => exact h
    | ok =>
      -- the id is drawn whether or not there is a state to begin at
      refine Draft.Sound.kept (h.draw "transition") fun a ha => ?_
      rw [eq_of_change ha]
      exact h.append hsource rfl (mem_of_require htarget) keyed

/-! ### any operation -/

/-- **Every operation of an editor keeps a draft sound**, whether it is done or refused. -/
theorem edit {x : Draft} (h : x.Sound) (e : Edit) : (x.edit e).Sound := by
  have hkeep {s : State} (hs : s ∈ x.program.states) (name : String) (px py : Binary)
      {ds : List Detector} (hds : ds.Nodup) :
      Trims (stateIds x.program.states) s ⟨s.id, name, px, py, s.transitions, ds⟩ :=
    ⟨rfl, List.Sublist.refl _, (h.trims_self hs).targets, hds⟩
  cases e with
  | addState name px py => exact h.addState name px py
  | deleteState id => exact h.deleteState id
  | renameState id name =>
    exact h.change id fun s hs _ => hkeep hs name s.x s.y (h.intact.detectors s hs)
  | moveState id px py =>
    exact h.change id fun s hs _ => hkeep hs s.name px py (h.intact.detectors s hs)
  | setStart id => exact h.setStart id
  | setDetectors id ds =>
    exact h.change id fun s hs _ => hkeep hs s.name s.x s.y (nodup_eraseDups ds)
  | addTransition source target c keyed cs => exact h.addTransition source target keyed cs
  | updateTransition source id u keyed => exact h.updateTransition source id keyed
  | deleteTransition source id => exact h.deleteTransition source id

end Draft.Sound

/-- **After any operations on an empty program the draft is sound.** -/
theorem Draft.sound_edited (ids : Ids) (edits : List Edit) : (Draft.edited ids edits).Sound := by
  unfold Draft.edited
  generalize hx : (⟨Automaton.empty, ids⟩ : Draft) = x
  have hsound : x.Sound := hx ▸ .empty ids
  clear hx
  induction edits generalizing x with
  | nil => exact hsound
  | cons e edits ih => exact ih _ (hsound.edit e)

/-! ### runs that stay in the program -/

theorem Makes.target_mem {a : Automaton} (h : a.Aimed) {x y : World × String}
    {cs : List Command} (hm : Makes a x cs y) : y.2 ∈ stateIds a.states := by
  cases hm with
  | mk _ state first _ =>
    obtain ⟨_, before, after, e, _⟩ := first
    exact h _ (List.mem_of_find?_eq_some state) _
      (e ▸ List.mem_append_right _ List.mem_cons_self)

theorem Runs.mem_stateIds {a : Automaton} (h : a.Aimed) {n : Nat} {x y : World × String}
    {cs : List Command} (hr : Runs a n x cs y) (hx : x.2 ∈ stateIds a.states) :
    y.2 ∈ stateIds a.states := by
  induction hr with
  | nil => exact hx
  | cons first _ ih => exact ih (first.target_mem h)

/-- the faults of transitions, and of the limit -/
def runFaults : List FaultKind := [.limitExceeded, .stuckState, .blockedAction]

/-- A run that ends at a state that is there has no structural fault. -/
theorem Ending.kind_mem {a : Automaton} {full : Fault} {left : Nat} {u v : World} {c : String}
    {done rest : List Command} {fault : Option Fault} (hfull : full.kind = .limitExceeded)
    (hc : c ∈ stateIds a.states) (h : Ending a full left v c done rest fault u) :
    ∀ f, fault = some f → f.kind ∈ runFaults := by
  intro f hf
  obtain ⟨s, hs, hid⟩ := Automaton.mem_stateIds.mp hc
  cases h with
  | stopped => cases hf
  | spent =>
    cases hf
    rw [hfull]
    decide
  | lost _ _ unknown => exact absurd hid (unknown s hs)
  | stuck =>
    cases hf
    exact List.mem_cons_of_mem _ List.mem_cons_self
  | blocked =>
    cases hf
    exact List.mem_cons_of_mem _ (List.mem_cons_of_mem _ List.mem_cons_self)

/-- A run of an intact program stays in its states. -/
theorem Intact.run {a : Automaton} (h : a.Intact) {s : State} (hs : s ∈ a.states) (w : World)
    (m : Nat) :
    (∃ u ∈ a.states, (a.run w (some s.id) (some m)).state = some u.id) ∧
      ((a.run w (some s.id) (some m)).fault = none ↔
        (a.run w (some s.id) (some m)).state = some a.stop) ∧
      ∀ f, (a.run w (some s.id) (some m)).fault = some f → f.kind ∈ runFaults := by
  obtain ⟨n, cs, v, c, done, rest, hruns, -, -, hstate, hend⟩ :=
    runFrom_runs h.flawless ⟨some m, "steps", 0⟩ m 0 w s.id
  have hc : c ∈ stateIds a.states := hruns.mem_stateIds h.targets (id_mem_stateIds hs)
  obtain ⟨u, hu, rfl⟩ := mem_stateIds.mp hc
  refine ⟨⟨u, hu, hstate⟩, hend.fault_eq_none_iff.trans ?_, hend.kind_mem rfl hc⟩
  show _ ↔ (a.runFrom _ m 0 w s.id).state = _
  rw [hstate, Option.some.injEq]

/-- **Editing never breaks a program**: after any operations, done or refused, it is intact and can
be read, and a run of it from any of its states ends in one of them, without a fault just when that
is the stop state, and else with a fault of its transitions or of the limit. -/
theorem edited_intact (ids : Ids) (edits : List Edit) :
    (Draft.edited ids edits).program.Intact ∧
      (Draft.edited ids edits).program.flaw? = none ∧
      ∀ s ∈ (Draft.edited ids edits).program.states, ∀ (w : World) (m : Nat),
        let r := (Draft.edited ids edits).program.run w (some s.id) (some m)
        (∃ u ∈ (Draft.edited ids edits).program.states, r.state = some u.id) ∧
          (r.fault = none ↔ r.state = some (Draft.edited ids edits).program.stop) ∧
          ∀ f, r.fault = some f →
            f.kind ∈ [FaultKind.limitExceeded, .stuckState, .blockedAction] := by
  have h := (Draft.sound_edited ids edits).intact
  exact ⟨h, h.flawless, fun s hs w m => h.run hs w m⟩

/-- a state that walks and one that is deleted again, with a start state that is refused -/
def tour : List Edit :=
  [.addState "Walk" none none, .addState "Rest" none none, .setStart (some "state-1"),
   .addTransition "state-1" "state-2" [(.treeFront, some true)] (by decide) [.turnLeft],
   .addTransition "state-1" "state-1" [(.treeFront, some false), (.onLeaf, none)] (by decide)
     [.moveForward],
   .setStart (some "stop"), .addTransition "stop" "state-1" [] (by decide) [],
   .deleteState "state-2"]

def walkState : State where
  id := "state-1"
  name := "Walk"
  x := .ofInt 200
  y := .ofInt 120
  transitions :=
    [⟨"transition-2", "state-1", [(.treeFront, some false), (.onLeaf, none)], [.moveForward]⟩]

/-- The walk pushes the mushroom up to the tree and is blocked there. -/
theorem tour_intact :
    walkState ∈ (Draft.edited {} tour).program.states ∧
      ((Draft.edited {} tour).program.run lane (some walkState.id) (some 10)).steps = 3 ∧
      ((Draft.edited {} tour).program.run lane (some walkState.id) (some 10)).fault.map Fault.kind
        = some .blockedAction ∧
      let r := (Draft.edited {} tour).program.run lane (some walkState.id) (some 10)
      (∃ u ∈ (Draft.edited {} tour).program.states, r.state = some u.id) ∧
        (r.fault = none ↔ r.state = some (Draft.edited {} tour).program.stop) ∧
        ∀ f, r.fault = some f →
          f.kind ∈ [FaultKind.limitExceeded, .stuckState, .blockedAction] := by
  have hmem : walkState ∈ (Draft.edited {} tour).program.states := by decide +kernel
  exact ⟨hmem, by decide +kernel, by decide +kernel,
    (edited_intact {} tour).2.2 walkState hmem lane 10⟩

end Ladybug.Automaton

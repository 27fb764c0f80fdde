import Ladybug.Proofs.Exchange.StatesRead

/-!
# Automata that are read from XML

When all states have their ids, the transitions find them by name. What has been read hangs together
after every element, whatever the document names, repeats or leaves out.

* `Leaves`                 an element that is a transition of a state
* `Attached`               what has been read after some transitions
* `StateOf`, `ReadAs`      what a program says that is read from an element
* `automatonFrom`, `readAutomatonFrom`   reading with a source of ids that may be in use
* `exists_readAs`          every program that is read says that
* `read_automaton_linked`  every document with places that can be read gives a program that hangs
                           together, with the transitions in their order
-/

namespace Ladybug.Exchange

open Xml (Element)
open Automaton (State Transition stopId stopState stateIds transitionIds)

/-! ### one more transition -/

/-- the name of the state where a transition begins -/
def sourceName (e : Element) : String := (e.attribute? "from").getD ""

/-- the name of the state to which a transition leads -/
def targetName (e : Element) : String := (e.attribute? "to").getD ""

/-- The states between which an element is a transition, if it is one. -/
def ends? (ss : List State) (stop : Option String) (e : Element) : Option (String × String) :=
  match idOfName? ss (sourceName e), idOfName? ss (targetName e) with
  | some source, some target => if some source = stop then none else some (source, target)
  | _, _ => none

/-- An element is a transition of a state that is not the stop state if it begins at the name of the
state and leads to a name that is there. -/
def Leaves (ss : List State) (stop : Option String) (s : State) (e : Element) : Prop :=
  some s.id ≠ stop ∧ sourceName e = s.name ∧ targetName e ∈ ss.map State.name

instance (ss : List State) (stop : Option String) (s : State) (e : Element) :
    Decidable (Leaves ss stop s e) := inferInstanceAs (Decidable (_ ∧ _))

/-- the transition that is read, under an id -/
def transitionOf (id target : String) (e : Element) : Transition :=
  ⟨id, target, conditionsOf e, actionsOf e⟩

section
variable {ss : List State} {stop : Option String} {e : Element}

theorem addTransition_eq_self {ids : Ids} (h : ends? ss stop e = none) :
    addTransition stop (ss, ids) e = (ss, ids) := by
  unfold ends? at h
  simp only [addTransition, ← sourceName.eq_1, ← targetName.eq_1]
  split
  · rename_i hsource htarget
    simp only [hsource, htarget] at h
    split_ifs at h ⊢
    rfl
  · rfl

/-- A transition goes to the end of those of its source. -/
theorem addTransition_eq_grown {ids : Ids} {source target : String}
    (h : ends? ss stop e = some (source, target)) :
    addTransition stop (ss, ids) e
      = (ss.map (State.grown source (transitionOf (ids.draw "transition").1 target e)),
        (ids.draw "transition").2) := by
  unfold ends? at h
  split at h
  · rename_i hsource htarget
    split_ifs at h with hstop
    cases h
    simp only [sourceName, targetName] at hsource htarget
    simp only [addTransition, hsource, htarget, if_neg hstop]
    rfl
  · cases h

theorem idOfName?_eq_some_iff (h : (ss.map State.name).Nodup) {name id : String} :
    idOfName? ss name = some id ↔ ∃ s ∈ ss, s.name = name ∧ s.id = id := by
  rw [idOfName?, Option.map_eq_some_iff]
  constructor
  · rintro ⟨s, hs, hid⟩
    exact ⟨s, List.mem_of_find?_eq_some hs, by simpa using List.find?_some hs, hid⟩
  · rintro ⟨s, hs, rfl, hid⟩
    exact ⟨s, find?_of_nodup h hs, hid⟩

theorem mem_names_iff_idOfName? {name : String} :
    name ∈ ss.map State.name ↔ ∃ id, idOfName? ss name = some id := by
  rw [← Option.ne_none_iff_exists', ne_eq, idOfName?_eq_none_iff, not_not]

/-- An element is a transition of the state that is one of its ends, and of no other. -/
theorem leaves_iff (hnames : (ss.map State.name).Nodup) (hids : (stateIds ss).Nodup) {s : State}
    (hs : s ∈ ss) : Leaves ss stop s e ↔ ∃ target, ends? ss stop e = some (s.id, target) := by
  constructor
  · rintro ⟨hstop, hsource, htarget⟩
    obtain ⟨target, htarget⟩ := mem_names_iff_idOfName?.mp htarget
    have hfound := (idOfName?_eq_some_iff hnames).mpr ⟨s, hs, hsource.symm, rfl⟩
    exact ⟨target, by simp only [ends?, hfound, htarget, if_neg hstop]⟩
  · rintro ⟨target, h⟩
    unfold ends? at h
    split at h
    · rename_i source target' hsource htarget
      split_ifs at h with hstop
      obtain ⟨u, hu, hname, hid⟩ := (idOfName?_eq_some_iff hnames).mp hsource
      cases h
      obtain rfl := List.inj_on_of_nodup_map hids hu hs hid
      exact ⟨hstop, hname.symm, mem_names_iff_idOfName?.mpr ⟨_, htarget⟩⟩
    · cases h

theorem target_of_ends? {source target : String} (h : ends? ss stop e = some (source, target)) :
    idOfName? ss (targetName e) = some target := by
  unfold ends? at h
  split at h
  · rename_i htarget
    split_ifs at h
    cases h
    exact htarget
  · cases h

end

/-! ### all transitions -/

/-- A transition that has been read from an element, between some states. -/
structure TransitionRead (ss : List State) (e : Element) (t : Transition) : Prop where
  target : idOfName? ss (targetName e) = some t.target
  conditions : t.conditions = conditionsOf e
  actions : t.actions = actionsOf e

/-- A state with the transitions that some elements are, in their order. -/
structure Filled (ss : List State) (stop : Option String) (done : List Element) (s s' : State) :
    Prop where
  same : s' = { s with transitions := s'.transitions }
  transitions : List.Forall₂ (TransitionRead ss) (done.filter (Leaves ss stop s)) s'.transitions

/-- What has been read after some elements of transitions. -/
structure Attached (ss : List State) (stop : Option String) (done : List Element)
    (r : List State × Ids) : Prop where
  states : List.Forall₂ (Filled ss stop done) ss r.1
  ids : (transitionIds r.1).Nodup
  given : ∀ id ∈ transitionIds r.1, r.2.Gave id

section
variable {ss : List State} {stop : Option String} {done : List Element} {e : Element}

theorem Filled.skip {s s' : State} (h : Filled ss stop done s s') (he : ¬ Leaves ss stop s e) :
    Filled ss stop (done ++ [e]) s s' where
  same := h.same
  transitions := by
    rw [List.filter_append, List.filter_singleton, decide_eq_false he, cond_false,
      List.append_nil]
    exact h.transitions

theorem Filled.grown {s s' : State} (h : Filled ss stop done s s') (he : Leaves ss stop s e)
    {t : Transition} (ht : TransitionRead ss e t) :
    Filled ss stop (done ++ [e]) s (s'.grown s.id t) := by
  have hid : s'.id = s.id := by rw [h.same]
  constructor
  · rw [State.grown, if_pos hid]
    exact congrArg (fun u : State => { u with transitions := s'.transitions ++ [t] }) h.same
  · rw [State.grown_transitions, if_pos hid, List.filter_append, List.filter_singleton,
      decide_eq_true he]
    exact List.rel_append h.transitions (.cons ht .nil)

namespace Attached

variable {r : List State × Ids}

theorem stateIds_eq (h : Attached ss stop done r) : stateIds r.1 = stateIds ss :=
  (map_eq_of_forall₂ h.states fun _ _ hfilled => by rw [hfilled.same]).symm

theorem idOfName?_eq (h : Attached ss stop done r) (name : String) :
    idOfName? r.1 name = idOfName? ss name := by
  have hnamed : r.1.map (fun s => (s.name, s.id)) = ss.map fun s => (s.name, s.id) :=
    (map_eq_of_forall₂ h.states fun _ _ hfilled => by rw [hfilled.same]).symm
  rw [idOfName?_eq_find?_map, hnamed, ← idOfName?_eq_find?_map]

theorem nothing (hnone : ∀ s ∈ ss, s.transitions = []) (ids : Ids) :
    Attached ss stop [] (ss, ids) where
  states := List.forall₂_same.mpr fun s hs => ⟨rfl, by rw [hnone s hs]; exact .nil⟩
  ids := by
    rw [transitionIds, List.flatMap_eq_nil_iff.mpr fun s hs => ?_]
    · exact List.nodup_nil
    · rw [State.transitionIds, hnone s hs, List.map_nil]
  given := by
    intro id hi
    obtain ⟨s, hs, hi⟩ := List.mem_flatMap.mp hi
    rw [State.transitionIds, hnone s hs] at hi
    cases hi

/-- **One more element keeps it so**, whether it is a transition or not. -/
theorem addTransition (h : Attached ss stop done r) (hnames : (ss.map State.name).Nodup)
    (hids : (stateIds ss).Nodup) : Attached ss stop (done ++ [e]) (addTransition stop r e) := by
  obtain ⟨ts, ids⟩ := r
  have hends : ends? ts stop e = ends? ss stop e := by
    simp only [ends?, h.idOfName?_eq]
  have hstates := (List.forall₂_and_left _ _).mpr ⟨fun s hs => hs, h.states⟩
  cases hcase : ends? ss stop e with
  | none =>
    rw [addTransition_eq_self (hends.trans hcase)]
    refine ⟨hstates.imp fun s s' hfilled => hfilled.2.skip ?_, h.ids, h.given⟩
    rw [leaves_iff hnames hids hfilled.1, hcase]
    exact nofun
  | some p =>
    obtain ⟨source, target⟩ := p
    rw [addTransition_eq_grown (hends.trans hcase)]
    constructor
    · refine List.forall₂_map_right_iff.mpr (hstates.imp fun s s' hfilled => ?_)
      obtain ⟨hs, hfilled⟩ := hfilled
      by_cases hsource : s.id = source
      · subst hsource
        exact hfilled.grown ((leaves_iff hnames hids hs).mpr ⟨target, hcase⟩)
          ⟨target_of_ends? hcase, rfl, rfl⟩
      · have hid : s'.id ≠ source := by rwa [hfilled.same]
        rw [State.grown, if_neg hid]
        refine hfilled.skip fun hleaves => hsource ?_
        obtain ⟨_, hsome⟩ := (leaves_iff hnames hids hs).mp hleaves
        exact (Prod.mk.inj (Option.some.inj (hsome.symm.trans hcase))).1
    · refine Automaton.nodup_transitionIds_map_grown (h.stateIds_eq ▸ hids) h.ids fun hmem => ?_
      exact Ids.not_gave_draw ids "transition" (h.given _ hmem)
    · intro id hi
      rcases Automaton.mem_transitionIds_map_grown hi with hi | rfl
      · exact (h.given id hi).draw "transition"
      · exact Ids.gave_draw ids "transition"

/-- **So it is after all elements.** -/
theorem foldl (h : Attached ss stop done r) (hnames : (ss.map State.name).Nodup)
    (hids : (stateIds ss).Nodup) (es : List Element) :
    Attached ss stop (done ++ es) (es.foldl (Exchange.addTransition stop) r) := by
  induction es generalizing done r with
  | nil => rwa [List.append_nil]
  | cons e es ih =>
    have := ih (h.addTransition (e := e) hnames hids)
    rwa [List.append_assoc] at this

/-- The stop state gets no transition. -/
theorem bare (h : Attached ss stop done r) {s' : State} (hs : s' ∈ r.1) (hstop : some s'.id = stop) :
    s'.transitions = [] := by
  obtain ⟨s, -, hfilled⟩ := exists_of_mem_right h.states hs
  have hid : s.id = s'.id := by rw [hfilled.same]
  have hnone : done.filter (Leaves ss stop s) = [] :=
    List.filter_eq_nil_iff.mpr fun e _ => by simp [Leaves, hid, hstop]
  have htransitions := hfilled.transitions
  rwa [hnone, List.forall₂_nil_left_iff] at htransitions

/-- Every transition leads to a state that is there. -/
theorem target_mem (h : Attached ss stop done r) {s' : State} (hs : s' ∈ r.1) {t : Transition}
    (ht : t ∈ s'.transitions) : t.target ∈ stateIds ss := by
  obtain ⟨s, -, hfilled⟩ := exists_of_mem_right h.states hs
  obtain ⟨e, -, hread⟩ := exists_of_mem_right hfilled.transitions ht
  obtain ⟨u, hu, hid⟩ := Option.map_eq_some_iff.mp hread.target
  exact hid ▸ Automaton.id_mem_stateIds (List.mem_of_find?_eq_some hu)

end Attached

end

/-! ### the program -/

/-- the elements of states in a document, those that are kept -/
def keptStates (machine : Element) : List Element := firsts (machine.allNamed "XmlState")

/-- the element of the stop state, the first final one -/
def stopElement? (machine : Element) : Option Element := (keptStates machine).find? isFinal

/-- the elements that are transitions from a name to the name of some state -/
def departures (machine : Element) (name : String) : List Element :=
  (machine.allNamed "XmlTransition").filter fun e =>
    sourceName e = name ∧ targetName e ∈ (machine.allNamed "XmlState").map stateName

/-- A state of a program as its element says it. -/
structure StateOf (machine : Element) (a : Automaton) (e : Element) (s : State) : Prop where
  name : s.name = stateName e
  x : numberAttribute e "x" defaultPlace = .ok s.x
  y : numberAttribute e "y" defaultPlace = .ok s.y
  detectors : s.detectors = sensorsOf e
  stop : s.id = a.stop ↔ (stopElement? machine).map stateName = some s.name
  transitions : List.Forall₂ (TransitionRead a.states)
    (if s.id = a.stop then [] else departures machine s.name) s.transitions

/-- A program as an element says it. A stop state is added to one that has none. -/
structure ReadAs (machine : Element) (ss : List State) (a : Automaton) : Prop where
  read : List.Forall₂ (StateOf machine a) (keptStates machine) ss
  states : a.states = ss ++ if (stopElement? machine).isSome then [] else [stopState]
  start : a.start = idOfName? ss ((machine.attribute? "startState").getD "")
  stop : a.stop = stopId
  linked : a.Linked
  transitionIds : (transitionIds a.states).Nodup

/-- the states that have been read with the transitions of all elements -/
def filledStates (machine : Element) (r : StateReading) : List State :=
  ((machine.allNamed "XmlTransition").foldl (addTransition r.stop) (r.states.reverse, r.ids)).1

/-- the program that they make, with a stop state if it needs one -/
def programOf (machine : Element) (r : StateReading) : Automaton where
  states := filledStates machine r ++ if r.stop.isSome then [] else [stopState]
  start := r.start
  stop := r.stop.getD stopId

theorem automatonOfElement_eq {root machine : Element}
    (h : findElement root "XmlStateMachine" = some machine) :
    automatonOfElement root = do
      let r ← (machine.allNamed "XmlState").foldlM
        (addState ((machine.attribute? "startState").getD "")) {}
      return programOf machine r := by
  unfold automatonOfElement
  rw [h]
  refine congrArg (_ >>= ·) (funext fun r => ?_)
  unfold programOf filledStates
  cases r.stop with
  | none => rfl
  | some stop =>
    rw [Option.isSome_some, if_pos rfl, List.append_nil]
    rfl

/-- The program of a document, with ids from a source that may have given some before. -/
def automatonFrom (ids : Ids) (root : Element) : Except Fault Automaton :=
  match findElement root "XmlStateMachine" with
  | none => .error (.parse "Missing XmlStateMachine element in .kara file")
  | some machine => do
    let r ← (machine.allNamed "XmlState").foldlM
      (addState ((machine.attribute? "startState").getD "")) { ids }
    return programOf machine r

theorem automatonFrom_nothing (root : Element) :
    automatonFrom {} root = automatonOfElement root := by
  unfold automatonFrom
  cases hfind : findElement root "XmlStateMachine" with
  | none =>
    unfold automatonOfElement
    rw [hfind]
    rfl
  | some machine => exact (automatonOfElement_eq hfind).symm

/-- The places of the states are all that can be wrong with an element. -/
theorem exists_automatonOfElement {root machine : Element}
    (h : findElement root "XmlStateMachine" = some machine)
    (hplaces : ∀ e ∈ machine.allNamed "XmlState", HasPlace e) :
    ∃ a, automatonOfElement root = .ok a := by
  obtain ⟨r, hr⟩ := exists_foldlM_addState hplaces {}
  exact ⟨programOf machine r, by rw [automatonOfElement_eq h, hr]; rfl⟩

/-- States without a stop state hang together when they get one. -/
theorem linked_append_stopState {ss : List State} {start : Option String}
    (hids : (stateIds ss).Nodup) (hfresh : stopId ∉ stateIds ss)
    (htargets : ∀ s ∈ ss, ∀ t ∈ s.transitions, t.target ∈ stateIds ss)
    (hstart : ∀ id, start = some id → id ∈ stateIds ss) :
    Automaton.Linked ⟨ss ++ [stopState], start, stopId⟩ := by
  constructor
  case states =>
    rw [Automaton.stateIds_append_singleton]
    exact nodup_append_singleton.mpr ⟨hfresh, hids⟩
  case stop => exact Automaton.id_mem_stateIds (List.mem_append_right _ List.mem_cons_self)
  case bare =>
    rw [List.forall_mem_append, List.forall_mem_singleton]
    refine ⟨fun s hs (hid : s.id = stopId) => absurd ?_ hfresh, fun _ => rfl⟩
    exact hid ▸ Automaton.id_mem_stateIds hs
  case targets =>
    rw [List.forall_mem_append, List.forall_mem_singleton, Automaton.stateIds_append_singleton]
    exact ⟨fun s hs t ht => List.mem_append_left _ (htargets s hs t ht), List.forall_mem_nil _⟩
  case start =>
    rw [Automaton.stateIds_append_singleton]
    exact fun id hid => List.mem_append_left _ (hstart id hid)

namespace Gathered

variable {startName : String} {machine : Element} {r : StateReading}

theorem attached (h : Gathered startName (machine.allNamed "XmlState") r) :
    Attached r.states.reverse r.stop (machine.allNamed "XmlTransition")
      ((machine.allNamed "XmlTransition").foldl (addTransition r.stop)
        (r.states.reverse, r.ids)) := by
  refine (Attached.nothing (fun s hs => ?_) r.ids).foldl h.nodup_names h.ids _
  obtain ⟨e, -, hread⟩ := exists_of_mem_right h.states hs
  exact hread.transitions

theorem stop_eq (h : Gathered startName (machine.allNamed "XmlState") r) :
    r.stop = (stopElement? machine).map fun _ => stopId := h.stop

theorem programOf_stop (h : Gathered startName (machine.allNamed "XmlState") r) :
    (programOf machine r).stop = stopId := by
  show r.stop.getD stopId = stopId
  rw [h.stop_eq]
  cases stopElement? machine <;> rfl

/-- Whether or not a stop state has been added, the program hangs together. -/
theorem linked (h : Gathered startName (machine.allNamed "XmlState") r) :
    (programOf machine r).Linked := by
  have hids : stateIds (filledStates machine r) = stateIds r.states.reverse :=
    h.attached.stateIds_eq
  have hnodup : (stateIds (filledStates machine r)).Nodup := hids ▸ h.ids
  have htargets : ∀ s ∈ filledStates machine r, ∀ t ∈ s.transitions,
      t.target ∈ stateIds (filledStates machine r) :=
    fun s hs t ht => hids ▸ h.attached.target_mem hs ht
  have hstart : ∀ id, r.start = some id → id ∈ stateIds (filledStates machine r) := by
    intro id hid
    rw [h.start] at hid
    obtain ⟨s, hs, rfl⟩ := Option.map_eq_some_iff.mp hid
    exact hids ▸ Automaton.id_mem_stateIds (List.mem_of_find?_eq_some hs)
  cases hfirst : stopElement? machine with
  | some e =>
    have hstop : r.stop = some stopId := by rw [h.stop_eq, hfirst, Option.map_some]
    have heq : programOf machine r = ⟨filledStates machine r, r.start, stopId⟩ := by
      simp only [programOf, hstop, Option.isSome_some, ↓reduceIte, List.append_nil, Option.getD_some]
    rw [heq]
    exact
      { states := hnodup
        stop := hids ▸ h.stopId_mem_iff.mpr hstop
        bare := fun s hs hid => h.attached.bare hs (by rw [hid, hstop])
        targets := htargets
        start := hstart }
  | none =>
    have hstop : r.stop = none := by rw [h.stop_eq, hfirst, Option.map_none]
    have heq : programOf machine r = ⟨filledStates machine r ++ [stopState], r.start, stopId⟩ := by
      simp only [programOf, hstop, Option.isSome_none, Bool.false_eq_true, ↓reduceIte,
        Option.getD_none]
    have hfresh : stopId ∉ stateIds (filledStates machine r) := by
      rw [hids, h.stopId_mem_iff, hstop]
      exact nofun
    rw [heq]
    exact linked_append_stopState hnodup hfresh htargets hstart

theorem nodup_transitionIds (h : Gathered startName (machine.allNamed "XmlState") r) :
    (transitionIds (programOf machine r).states).Nodup := by
  have hids : (transitionIds (filledStates machine r)).Nodup := h.attached.ids
  rw [programOf]
  split
  · rwa [List.append_nil]
  · rwa [Automaton.transitionIds_append_singleton rfl]

/-- The elements of the transitions of a state are those that leave it, none for the stop state. -/
theorem filter_leaves (h : Gathered startName (machine.allNamed "XmlState") r) {s : State}
    (hs : s ∈ r.states.reverse) :
    (machine.allNamed "XmlTransition").filter (Leaves r.states.reverse r.stop s)
      = if s.id = stopId then [] else departures machine s.name := by
  by_cases hid : s.id = stopId
  · have hstop : r.stop = some stopId :=
      h.stopId_mem_iff.mp (hid ▸ Automaton.id_mem_stateIds hs)
    rw [if_pos hid, List.filter_eq_nil_iff]
    exact fun e _ hleaves => (of_decide_eq_true hleaves).1 (by rw [hid, hstop])
  · have hgoing : some s.id ≠ r.stop := by
      rw [h.stop_eq]
      cases stopElement? machine with
      | none => exact nofun
      | some e => exact fun e => hid (Option.some.inj e)
    rw [if_neg hid]
    refine List.filter_congr fun e _ => decide_eq_decide.mpr ?_
    rw [Leaves, h.names, mem_names_firsts, and_iff_right hgoing]

theorem transitionRead (h : Gathered startName (machine.allNamed "XmlState") r) {e : Element}
    {t : Transition} (ht : TransitionRead r.states.reverse e t) :
    TransitionRead (programOf machine r).states e t := by
  refine ⟨?_, ht.conditions, ht.actions⟩
  have hfound := (h.attached.idOfName?_eq (targetName e)).trans ht.target
  obtain ⟨s, hs, hid⟩ := Option.map_eq_some_iff.mp hfound
  rw [idOfName?, programOf, List.find?_append, filledStates, hs, Option.some_or, Option.map_some,
    hid]

/-- **What has been read is what the element says.** -/
theorem readAs
    (h : Gathered ((machine.attribute? "startState").getD "") (machine.allNamed "XmlState") r) :
    ReadAs machine (filledStates machine r) (programOf machine r) := by
  constructor
  case read =>
    have hfilled := (List.forall₂_and_left _ _).mpr ⟨fun s hs => hs, h.attached.states⟩
    refine (forall₂_comp h.states hfilled).imp fun e s' hread => ?_
    obtain ⟨s, hread, hs, hfilled⟩ := hread
    have hid : s'.id = s.id := by rw [hfilled.same]
    have hname : s'.name = s.name := by rw [hfilled.same]
    constructor
    case name => exact hname.trans hread.name
    case x => rw [hfilled.same]; exact hread.x
    case y => rw [hfilled.same]; exact hread.y
    case detectors => rw [hfilled.same]; exact hread.detectors
    case stop => rw [h.programOf_stop, hid, hname]; exact h.final s hs
    case transitions =>
      rw [h.programOf_stop, hid, hname, ← h.filter_leaves hs]
      exact hfilled.transitions.imp fun _ _ => h.transitionRead
  case states =>
    rw [programOf, h.stop_eq, Option.isSome_map]
  case start =>
    show r.start = _
    rw [h.start]
    exact (h.attached.idOfName?_eq _).symm
  case stop => exact h.programOf_stop
  case linked => exact h.linked
  case transitionIds => exact h.nodup_transitionIds

end Gathered

/-- Every program that is read is made of the states that have been read. -/
theorem exists_programOf {ids : Ids} {root : Element} {a : Automaton}
    (h : automatonFrom ids root = .ok a) :
    ∃ machine r, findElement root "XmlStateMachine" = some machine ∧
      (machine.allNamed "XmlState").foldlM
        (addState ((machine.attribute? "startState").getD "")) { ids } = .ok r ∧
      a = programOf machine r := by
  unfold automatonFrom at h
  cases hfind : findElement root "XmlStateMachine" with
  | none =>
    rw [hfind] at h
    cases h
  | some machine =>
    rw [hfind] at h
    obtain ⟨r, hr, ⟨⟩⟩ := bind_eq_ok_iff.mp h
    exact ⟨machine, r, rfl, hr, rfl⟩

/-- **Every program that is read is what some element says.** -/
theorem exists_readAs {root : Element} {a : Automaton} (h : automatonOfElement root = .ok a) :
    ∃ machine ss, findElement root "XmlStateMachine" = some machine ∧ ReadAs machine ss a := by
  rw [← automatonFrom_nothing] at h
  obtain ⟨machine, r, hfind, hr, rfl⟩ := exists_programOf h
  exact ⟨machine, _, hfind, ((Gathered.nothing {}).foldlM hr).readAs⟩

/-! ### any document -/

/-- The program of a text, with ids from a source that may have given some before. -/
def readAutomatonFrom (ids : Ids) (content : String) : Except Refusal Automaton :=
  match parseXml ".kara" content with
  | .error r => .error r
  | .ok root => orRefusal (automatonFrom ids root)

theorem readAutomatonFrom_nothing (content : String) :
    readAutomatonFrom {} content = readAutomatonXml content := by
  unfold readAutomatonFrom readAutomatonXml
  cases parseXml ".kara" content with
  | error r => rfl
  | ok root => exact congrArg orRefusal (automatonFrom_nothing root)

theorem readAutomatonFrom_eq_ok_iff {ids : Ids} {content : String} {a : Automaton} :
    readAutomatonFrom ids content = .ok a ↔
      ∃ root, parseXml ".kara" content = .ok root ∧ automatonFrom ids root = .ok a := by
  unfold readAutomatonFrom
  cases parseXml ".kara" content with
  | error r => simp
  | ok root => cases h : automatonFrom ids root <;> simp [h, orRefusal, Except.mapError]

theorem readAutomatonXml_eq_ok_iff {content : String} {a : Automaton} :
    readAutomatonXml content = .ok a ↔
      ∃ root, parseXml ".kara" content = .ok root ∧ automatonOfElement root = .ok a := by
  simp only [← readAutomatonFrom_nothing, ← automatonFrom_nothing]
  exact readAutomatonFrom_eq_ok_iff

/-- the element of the automaton in a document, if it is a document and has one -/
def machine? (content : String) : Option Element :=
  match parseXml ".kara" content with
  | .ok root => findElement root "XmlStateMachine"
  | .error _ => none

theorem machine?_eq_some_iff {content : String} {machine : Element} :
    machine? content = some machine ↔
      ∃ root, parseXml ".kara" content = .ok root ∧
        findElement root "XmlStateMachine" = some machine := by
  unfold machine?
  cases parseXml ".kara" content <;> simp

/-- Every program that is read is what the element says. -/
theorem exists_readAs_of_readAutomatonXml {content : String} {a : Automaton}
    (h : readAutomatonXml content = .ok a) :
    ∃ machine ss, machine? content = some machine ∧ ReadAs machine ss a := by
  obtain ⟨root, hparse, hroot⟩ := readAutomatonXml_eq_ok_iff.mp h
  obtain ⟨machine, ss, hfind, hread⟩ := exists_readAs hroot
  exact ⟨machine, ss, machine?_eq_some_iff.mpr ⟨root, hparse, hfind⟩, hread⟩

/-- The transitions of a state that a run goes on from are those that leave it. -/
theorem ReadAs.departures {machine : Element} {ss : List State} {a : Automaton}
    (h : ReadAs machine ss a) {s : State} (hs : s ∈ a.states) (hne : s.id ≠ a.stop) :
    List.Forall₂ (TransitionRead a.states) (departures machine s.name) s.transitions := by
  rw [h.states] at hs
  rcases List.mem_append.mp hs with hs | hs
  · obtain ⟨e, -, hread⟩ := exists_of_mem_right h.read hs
    have htransitions := hread.transitions
    rwa [if_neg hne] at htransitions
  · split at hs
    · cases hs
    · obtain rfl := List.mem_singleton.mp hs
      exact absurd h.stop.symm hne

/-- Every transition is the one that some element says. -/
theorem ReadAs.exists_departure {machine : Element} {ss : List State} {a : Automaton}
    (h : ReadAs machine ss a) {s : State} (hs : s ∈ a.states) {t : Transition}
    (ht : t ∈ s.transitions) :
    ∃ e ∈ Exchange.departures machine s.name, TransitionRead a.states e t := by
  have hne : s.id ≠ a.stop := by
    intro hid
    rw [h.linked.bare s hs hid] at ht
    cases ht
  exact exists_of_mem_right (h.departures hs hne) ht

/-- **A document with an automaton is read whatever it names, repeats or leaves out**, as long as
its places can be read: its ids occur once, its stop state is there and has no transitions, no
reference leads out of it, and the transitions of each state are in the order of the document. -/
theorem read_automaton_linked {content : String} {machine : Element}
    (h : machine? content = some machine)
    (hplaces : ∀ e ∈ machine.allNamed "XmlState", HasPlace e) :
    ∃ a, readAutomatonXml content = .ok a ∧ a.flaw? = none ∧ a.Linked ∧
      (transitionIds a.states).Nodup ∧ ∀ s ∈ a.states, s.id ≠ a.stop →
        List.Forall₂ (TransitionRead a.states) (departures machine s.name) s.transitions := by
  obtain ⟨root, hparse, hfind⟩ := machine?_eq_some_iff.mp h
  obtain ⟨a, ha⟩ := exists_automatonOfElement hfind hplaces
  have hread := readAutomatonXml_eq_ok_iff.mpr ⟨root, hparse, ha⟩
  obtain ⟨machine', ss, h', hsays⟩ := exists_readAs_of_readAutomatonXml hread
  obtain rfl := Option.some.inj (h.symm.trans h')
  exact ⟨a, hread, hsays.linked.flawless, hsays.linked, hsays.transitionIds,
    fun s hs hne => hsays.departures hs hne⟩

instance (e : Element) (name : String) : Decidable (HasNumber e name) :=
  decidable_of_iff ((e.attribute? name).all fun value => (Decimal.number? value).isSome) <| by
    unfold HasNumber
    cases e.attribute? name <;> simp

instance (e : Element) : Decidable (HasPlace e) := inferInstanceAs (Decidable (_ ∧ _))

/-- a transition before the states, one state inside another one, names twice or not at all, two
final states, transitions from the stop state and to nowhere -/
def muddleText : String :=
  "<Kara><XmlStateMachine startState='Go'>
    <XmlTransition from='Go' to='End'/>
    <XmlState name='Go' x=' 1e3 '><XmlState finalstate='true' name='End'/></XmlState>
    <XmlState/><XmlState name='' y='nan'/><XmlState name='Go' finalstate='true'/>
    <XmlState name='Over' finalstate='true'/>
    <XmlTransition from='End' to='Go'/><XmlTransition from='Go'/>
    <XmlTransition from='Go' to='Unnamed'><XmlSensorValue name='onLeaf' value='2'/>
      <XmlCommand name='dance'/><XmlCommand name='move'/></XmlTransition>
  </XmlStateMachine></Kara>"

set_option maxRecDepth 4000 in
theorem muddle_linked :
    ∃ machine, machine? muddleText = some machine ∧
      (∀ e ∈ machine.allNamed "XmlState", HasPlace e) ∧
      ∃ a, readAutomatonXml muddleText = .ok a ∧ a.flaw? = none ∧ a.Linked ∧
        (transitionIds a.states).Nodup ∧ ∀ s ∈ a.states, s.id ≠ a.stop →
          List.Forall₂ (TransitionRead a.states) (departures machine s.name) s.transitions := by
  have hplaced : ∃ machine ∈ machine? muddleText,
      ∀ e ∈ machine.allNamed "XmlState", HasPlace e := by
    rw [machine?, show parseXml ".kara" muddleText = _ from parseXml_ofList _ _]
    decide +kernel
  obtain ⟨machine, hmachine, hplaces⟩ := hplaced
  rw [Option.mem_def] at hmachine
  exact ⟨machine, hmachine, hplaces, read_automaton_linked hmachine hplaces⟩

end Ladybug.Exchange

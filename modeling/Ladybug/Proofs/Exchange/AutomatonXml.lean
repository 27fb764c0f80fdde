import Ladybug.Proofs.Automaton.Renamed
import Ladybug.Proofs.Exchange.AutomatonElement
import Ladybug.Proofs.Exchange.AutomatonRead
import Mathlib.Data.List.Forall2

/-!
# Automata that are saved and loaded

* `Savable`                    what a program needs to be saved
* `keptStates_machineElement`, `departures_machineElement`   the states of its document, and the
                               transitions that leave one of them
* `Matches`, `Resolved`        a state that has been read for one of a program, and all of them
* `exists_resolved_of_readAs`   what is loaded is the program that was saved with other ids
* `saved_program_is_renamed`   so its runs are the same
-/

namespace Ladybug.Exchange

open Automaton (State Transition Conditions stopId stateIds transitionIds)

variable {a : Automaton}

/-! ### what a document says -/

/-- What a program needs to be saved: different names that a document can hold. -/
structure Savable (a : Automaton) : Prop where
  names : (a.states.map State.name).Nodup
  named : ∀ s ∈ a.states, s.name ≠ ""
  text : ∀ s ∈ a.states, IsText s.name

theorem stateName_stateElement {s : State} (h : s.name ≠ "") :
    stateName (stateElement a s) = s.name := by
  have hname : (stateElement a s).attribute? "name" = some s.name := by
    simp [stateElement]
  unfold stateName
  rw [hname]
  split
  · rename_i heq
    cases heq
  · rename_i heq
    exact absurd (Option.some.inj heq) h
  · rename_i heq
    exact (Option.some.inj heq).symm

theorem hasPlace_stateElement (s : State) : HasPlace (stateElement a s) := by
  constructor
  · intro value hvalue
    obtain ⟨x, hx⟩ := Decimal.number?_oneDecimal s.x
    obtain rfl : Decimal.oneDecimal s.x = value := by simpa [stateElement] using hvalue
    rw [hx, Option.isSome_some]
  · intro value hvalue
    obtain ⟨y, hy⟩ := Decimal.number?_oneDecimal s.y
    obtain rfl : Decimal.oneDecimal s.y = value := by simpa [stateElement] using hvalue
    rw [hy, Option.isSome_some]

theorem isFinal_stateElement (s : State) : isFinal (stateElement a s) = decide (s.id = a.stop) := by
  by_cases hs : s.id = a.stop <;> simp [isFinal, stateElement, hs]

theorem map_stateName_stateElement (hs : Savable a) :
    (a.states.map (stateElement a)).map stateName = a.states.map State.name := by
  rw [List.map_map]
  exact List.map_congr_left fun s hm => stateName_stateElement (hs.named s hm)

/-- All states are kept. -/
theorem keptStates_machineElement (hs : Savable a) :
    keptStates (machineElement a) = a.states.map (stateElement a) := by
  rw [keptStates, machine_states]
  refine firsts_of_nodup ?_
  rw [map_stateName_stateElement hs]
  exact hs.names

/-- The stop state is the one that is final. -/
theorem stopElement?_machineElement (ha : a.Linked) (hs : Savable a) {s : State}
    (hm : s ∈ a.states) :
    (stopElement? (machineElement a)).map stateName = some s.name ↔ s.id = a.stop := by
  obtain ⟨u, hu, hid⟩ := Automaton.mem_stateIds.mp ha.stop
  have hfind : stopElement? (machineElement a) = some (stateElement a u) := by
    have hfinal : (isFinal ∘ stateElement a) = fun v : State => v.id == u.id :=
      funext fun v => by rw [Function.comp_apply, isFinal_stateElement, hid]; rfl
    rw [stopElement?, keptStates_machineElement hs, List.find?_map, hfinal,
      find?_of_nodup ha.states hu, Option.map_some]
  rw [hfind, Option.map_some, stateName_stateElement (hs.named u hu), Option.some_inj, ← hid]
  exact ⟨fun e => congrArg State.id (List.inj_on_of_nodup_map hs.names hu hm e).symm,
    fun e => congrArg State.name (List.inj_on_of_nodup_map ha.states hm hu e).symm⟩

/-- Of the lists that belong to the items of a list, only that of one item counts. -/
theorem flatMap_eq_of_nodup {β : Type} {ss : List State} (h : (stateIds ss).Nodup) {s : State}
    (hs : s ∈ ss) {F : State → List β} (hF : ∀ u ∈ ss, u.id ≠ s.id → F u = []) :
    ss.flatMap F = F s := by
  induction ss with
  | nil => cases hs
  | cons u ss ih =>
    rw [stateIds, List.map_cons, List.nodup_cons] at h
    rw [List.forall_mem_cons] at hF
    rw [List.flatMap_cons]
    rcases List.mem_cons.mp hs with rfl | hs
    · have hne : ∀ v ∈ ss, v.id ≠ s.id := fun v hv (e : v.id = s.id) =>
        h.1 (e ▸ List.mem_map_of_mem hv)
      rw [List.flatMap_eq_nil_iff.mpr fun v hv => hF.2 v hv (hne v hv), List.append_nil]
    · have hne : u.id ≠ s.id := fun e => h.1 (e ▸ List.mem_map_of_mem hs)
      rw [hF.1 hne, List.nil_append, ih h.2 hs hF.2]

/-- the name of the state to which a transition leads -/
def aim (a : Automaton) (t : Transition) : String := ((a.state? t.target).map State.name).getD ""

theorem exists_aim (ha : a.Linked) {s : State} (hs : s ∈ a.states) {t : Transition}
    (ht : t ∈ s.transitions) : ∃ u ∈ a.states, a.state? t.target = some u := by
  obtain ⟨u, hu, hid⟩ := Automaton.mem_stateIds.mp (ha.targets s hs t ht)
  exact ⟨u, hu, hid ▸ Automaton.state?_of_mem ha.states hu⟩

theorem sourceName_transitionElement (source target : String) (t : Transition) :
    sourceName (transitionElement source target t) = source := by
  simp [sourceName, transitionElement]

theorem targetName_transitionElement (source target : String) (t : Transition) :
    targetName (transitionElement source target t) = target := by
  simp [targetName, transitionElement]

/-- The transitions that leave a state are those that were written for it. -/
theorem departures_machineElement (ha : a.Linked) (hs : Savable a) {s : State}
    (hm : s ∈ a.states) :
    departures (machineElement a) s.name
      = s.transitions.map fun t => transitionElement s.name (aim a t) t := by
  have hwritten : ∀ u ∈ a.states, u.transitions.filterMap (transitionElement? a u)
      = u.transitions.map fun t => transitionElement u.name (aim a t) t := by
    intro u hu
    rw [← List.filterMap_eq_map]
    refine List.filterMap_congr fun t ht => ?_
    obtain ⟨v, -, hv⟩ := exists_aim ha hu ht
    rw [transitionElement?_eq hv, Function.comp_apply, aim, hv]
    rfl
  rw [departures, machine_transitions, machine_states, List.filter_flatMap,
    flatMap_eq_of_nodup ha.states hm, hwritten s hm, List.filter_eq_self]
  · refine List.forall_mem_map.mpr fun t ht => decide_eq_true ⟨?_, ?_⟩
    · exact sourceName_transitionElement ..
    · obtain ⟨v, hv, hfound⟩ := exists_aim ha hm ht
      rw [targetName_transitionElement, map_stateName_stateElement hs, aim, hfound]
      exact List.mem_map_of_mem hv
  · intro u hu hne
    rw [hwritten u hu, List.filter_eq_nil_iff]
    refine List.forall_mem_map.mpr fun t _ hleaves => hne ?_
    have hname := (of_decide_eq_true hleaves).1
    rw [sourceName_transitionElement] at hname
    rw [List.inj_on_of_nodup_map hs.names hu hm hname]

/-! ### what is read of it -/

/-- The states that have been read have the names of the program, under other ids. -/
def Names (a : Automaton) (f : String → String) (ss : List State) : Prop :=
  ss.map (fun s => (s.name, s.id)) = a.states.map fun s => (s.name, f s.id)

section
variable {f g : String → String} {ss : List State}

theorem Names.idOfName?_eq (h : Names a f ss) (hnames : (a.states.map State.name).Nodup)
    {s : State} (hs : s ∈ a.states) : idOfName? ss s.name = some (f s.id) := by
  have hfound := find?_of_nodup hnames hs
  rw [idOfName?_eq_find?_map, h, List.find?_map, Option.map_map]
  show (a.states.find? fun u => u.name == s.name).map _ = _
  rw [hfound]
  rfl

/-- The start state is found by its name, and nothing where there is none. -/
theorem Names.idOfName?_startName (h : Names a f ss) (ha : a.Linked) (hs : Savable a) :
    idOfName? ss (startName a) = a.start.map f := by
  unfold startName
  cases hstart : a.start with
  | none =>
    have hnames : ss.map State.name = a.states.map State.name := by
      have := congrArg (List.map Prod.fst) h
      rwa [List.map_map, List.map_map] at this
    rw [Option.map_none, idOfName?_eq_none_iff, hnames]
    intro hmem
    obtain ⟨s, hm, hname⟩ := List.mem_map.mp hmem
    exact hs.named s hm hname
  | some i =>
    obtain ⟨s, hm, rfl⟩ := Automaton.mem_stateIds.mp (ha.start i hstart)
    rw [Option.bind_some, Automaton.state?_of_mem ha.states hm]
    exact h.idOfName?_eq hs.names hm

/-- A state that has been read for one of a program, with its transitions. -/
structure Matches (f : String → String) (s s' : State) : Prop where
  id : s'.id = f s.id
  name : s'.name = s.name
  detectors : s'.detectors = stateSensors s
  transitions : List.Forall₂ (fun t t' => t' = Transition.renamed f (fun _ => t'.id) t)
    s.transitions s'.transitions

/-- Every transition leads to the same state as before, under its new id. -/
structure Resolved (f : String → String) (a b : Automaton) : Prop where
  states : List.Forall₂ (Matches f) a.states b.states
  stateIds : ∀ i ∈ stateIds a.states, ∀ j ∈ Automaton.stateIds a.states, f i = f j → i = j
  stop : b.stop = f a.stop
  start : b.start = a.start.map f

/-- The detectors that are asked follow those of the state, each at its first use. -/
theorem stateSensors_eq (s : State) :
    stateSensors s
      = s.detectors ++ (s.asked.filter fun d => !s.detectors.contains d).eraseDups := by
  show s.asked.foldl _ s.detectors = _
  generalize s.detectors = ds
  induction s.asked generalizing ds with
  | nil => exact (List.append_nil ds).symm
  | cons d l ih =>
    rw [List.foldl_cons, ih, List.filter_cons]
    by_cases hd : ds.contains d
    · simp only [hd, ↓reduceIte, Bool.not_true, Bool.false_eq_true]
    · have hsplit : l.filter (fun e => !(ds ++ [d]).contains e)
          = (l.filter fun e => !ds.contains e).filter fun e => !e == d := by
        rw [List.filter_filter]
        refine List.filter_congr fun e _ => ?_
        rw [Bool.eq_iff_iff]
        simp [and_comm]
      simp only [hd, Bool.false_eq_true, ↓reduceIte, Bool.not_false, List.eraseDups_cons, hsplit,
        List.append_assoc, List.singleton_append]

/-- Some function gives each of some texts another one from a list. -/
theorem exists_map_eq {l l' : List String} (h : l.Nodup) (hl : l.length = l'.length) :
    ∃ f : String → String, l.map f = l' := by
  induction l generalizing l' with
  | nil => exact ⟨id, (List.length_eq_zero_iff.mp hl.symm).symm⟩
  | cons i l ih =>
    cases l' with
    | nil => cases hl
    | cons j l' =>
      rw [List.nodup_cons] at h
      obtain ⟨f, hf⟩ := ih h.2 (Nat.succ.inj hl)
      refine ⟨fun k => if k = i then j else f k, ?_⟩
      rw [List.map_cons, if_pos rfl, ← hf]
      refine congrArg (j :: ·) (List.map_congr_left fun k hk => ?_)
      exact if_neg fun e : k = i => h.1 (e ▸ hk)

/-- Items that belong together have in common what their lists have. -/
theorem forall₂_of_map_eq {α β γ : Type} {R : α → β → Prop} {F : α → γ} {G : β → γ} {as : List α}
    {bs : List β} (h : List.Forall₂ R as bs) (hmap : as.map F = bs.map G) :
    List.Forall₂ (fun a b => R a b ∧ F a = G b) as bs := by
  induction h with
  | nil => exact .nil
  | cons first _ ih =>
    obtain ⟨hhead, htail⟩ := List.cons.inj hmap
    exact .cons ⟨first, hhead⟩ (ih htail)

theorem length_transitionIds {ts : List State} (h : List.Forall₂ (Matches f) ss ts) :
    (transitionIds ss).length = (transitionIds ts).length := by
  have hlengths := map_eq_of_forall₂ (f := fun s => s.transitionIds.length)
    (g := fun s : State => s.transitionIds.length) h fun s s' first => by
      rw [State.transitionIds, State.transitionIds, List.length_map, List.length_map,
        first.transitions.length_eq]
  rw [transitionIds, transitionIds, List.length_flatMap, List.length_flatMap, hlengths]

/-- States under the ids that they and their transitions have. -/
theorem renamed_of_matches {ts : List State} (h : List.Forall₂ (Matches f) ss ts)
    (hg : (transitionIds ss).map g = transitionIds ts) :
    List.Forall₂ (State.Renamed f g) ss ts := by
  induction h with
  | nil => exact .nil
  | @cons s s' ss ts first rest ih =>
    rw [transitionIds, transitionIds, List.flatMap_cons, List.flatMap_cons, List.map_append] at hg
    have hlength : (s.transitionIds.map g).length = s'.transitionIds.length := by
      rw [List.length_map, State.transitionIds, State.transitionIds, List.length_map,
        List.length_map, first.transitions.length_eq]
    obtain ⟨hids, hg⟩ := List.append_inj hg hlength
    refine .cons ⟨first.id, first.name, ?_, first.detectors.trans (stateSensors_eq s)⟩ (ih hg)
    rw [State.transitionIds, List.map_map] at hids
    have hsame := map_eq_of_forall₂ (f := Transition.renamed f g) (g := id)
      (forall₂_of_map_eq first.transitions hids) fun t t' ht => by
        rw [id, ht.1, Transition.renamed, Transition.renamed]
        exact congrArg (fun i => (⟨i, _, _, _⟩ : Transition)) ht.2
    rw [hsame, List.map_id]

end

section
variable {b : Automaton} (ha : a.Linked) (hs : Savable a)
include ha hs

/-- Each state is read for the one that was written in its place, and no stop state is added, for
one is written. -/
theorem stateOf_of_readAs {ss : List State} (hread : ReadAs (machineElement a) ss b) :
    b.states = ss ∧
      List.Forall₂ (fun s s' => StateOf (machineElement a) b (stateElement a s) s') a.states ss := by
  constructor
  · obtain ⟨s, hm, hid⟩ := Automaton.mem_stateIds.mp ha.stop
    obtain ⟨e, he, -⟩ := Option.map_eq_some_iff.mp ((stopElement?_machineElement ha hs hm).mpr hid)
    rw [hread.states, he, Option.isSome_some, if_pos rfl, List.append_nil]
  · rw [← List.forall₂_map_left_iff, ← keptStates_machineElement hs]
    exact hread.read

theorem isStop_iff_of_stateOf {s s' : State} (hm : s ∈ a.states)
    (hstate : StateOf (machineElement a) b (stateElement a s) s') :
    s'.id = b.stop ↔ s.id = a.stop := by
  rw [hstate.stop, hstate.name, stateName_stateElement (hs.named s hm),
    stopElement?_machineElement ha hs hm]

/-- A state is read as it was written, under other ids. -/
theorem matches_of_stateOf (hkeyed : ∀ s ∈ a.states, ∀ t ∈ s.transitions, t.conditions.Keyed)
    {f : String → String} (hnames : Names a f b.states) {s s' : State} (hm : s ∈ a.states)
    (hstate : StateOf (machineElement a) b (stateElement a s) s') (hid : f s.id = s'.id) :
    Matches f s s' := by
  have hname : s'.name = s.name := hstate.name.trans (stateName_stateElement (hs.named s hm))
  refine ⟨hid.symm, hname, hstate.detectors.trans (sensorsOf_stateElement s), ?_⟩
  have htransitions := hstate.transitions
  by_cases hstop : s.id = a.stop
  · rw [if_pos ((isStop_iff_of_stateOf ha hs hm hstate).mpr hstop),
      List.forall₂_nil_left_iff] at htransitions
    rw [htransitions, ha.bare s hm hstop]
    exact .nil
  · rw [if_neg fun h => hstop ((isStop_iff_of_stateOf ha hs hm hstate).mp h), hname,
      departures_machineElement ha hs hm, List.forall₂_map_left_iff] at htransitions
    refine ((List.forall₂_and_left _ _).mpr ⟨fun t ht => ht, htransitions⟩).imp fun t t' ht => ?_
    obtain ⟨ht, hsame⟩ := ht
    obtain ⟨u, hu, hfound⟩ := exists_aim ha hm ht
    have htarget := hsame.target
    rw [targetName_transitionElement, aim, hfound, Option.map_some, Option.getD_some,
      hnames.idOfName?_eq hs.names hu, Automaton.id_of_state? hfound] at htarget
    have hconditions := hsame.conditions
    rw [conditionsOf_transitionElement _ _ (hkeyed s hm t ht)] at hconditions
    have hactions := hsame.actions
    rw [actionsOf_transitionElement] at hactions
    obtain ⟨i, target, conditions, actions⟩ := t'
    rw [Transition.renamed, ← hconditions, ← hactions, Option.some.inj htarget]

/-- What is read of the document of a program is the program under other ids of states. -/
theorem exists_resolved_of_readAs
    (hkeyed : ∀ s ∈ a.states, ∀ t ∈ s.transitions, t.conditions.Keyed) {ss : List State}
    (hread : ReadAs (machineElement a) ss b) : ∃ f, Resolved f a b := by
  obtain ⟨rfl, hstates⟩ := stateOf_of_readAs ha hs hread
  have hlength : (stateIds a.states).length = (stateIds b.states).length := by
    rw [stateIds, stateIds, List.length_map, List.length_map, hstates.length_eq]
  obtain ⟨f, hf⟩ := exists_map_eq ha.states hlength
  have hpaired := forall₂_of_map_eq (F := f ∘ State.id) (G := State.id) hstates (by
    rw [← List.map_map]
    exact hf)
  have hpaired := (List.forall₂_and_left _ _).mpr ⟨fun s hm => hm, hpaired⟩
  have hnames : Names a f b.states := by
    refine (map_eq_of_forall₂ hpaired ?_).symm
    rintro s s' ⟨hm, hstate, hid⟩
    exact Prod.ext ((hstate.name.trans (stateName_stateElement (hs.named s hm))).symm) hid
  refine ⟨f, ?_⟩
  constructor
  case states =>
    refine hpaired.imp ?_
    rintro s s' ⟨hm, hstate, hid⟩
    exact matches_of_stateOf ha hs hkeyed hnames hm hstate hid
  case stateIds => exact fun i hi j hj => List.inj_on_of_nodup_map (hf ▸ hread.linked.states) hi hj
  case stop =>
    obtain ⟨s, hm, hid⟩ := Automaton.mem_stateIds.mp ha.stop
    obtain ⟨s', -, -, hstate, hid'⟩ := exists_of_mem_right hpaired.flip hm
    rw [← hid]
    exact ((isStop_iff_of_stateOf ha hs hm hstate).mpr hid).symm.trans hid'.symm
  case start =>
    rw [hread.start, machine_start, Option.getD_some]
    exact hnames.idOfName?_startName ha hs

end

/-- What a program that has been written is read as. -/
theorem exists_readAs_automatonElement (a : Automaton) :
    ∃ b ss, automatonOfElement (automatonElement a) = .ok b ∧ ReadAs (machineElement a) ss b := by
  have hfind := findElement_automatonElement a
  have hplaces : ∀ e ∈ (machineElement a).allNamed "XmlState", HasPlace e := by
    rw [machine_states]
    exact List.forall_mem_map.mpr fun s _ => hasPlace_stateElement s
  obtain ⟨b, hb⟩ := exists_automatonOfElement hfind hplaces
  obtain ⟨machine, ss, hfind', hread⟩ := exists_readAs hb
  obtain rfl := Option.some.inj (hfind.symm.trans hfind')
  exact ⟨b, ss, hb, hread⟩

/-- Different ids of transitions are given different ids again. -/
theorem Resolved.exists_renamed {b : Automaton} {f : String → String} (h : Resolved f a b)
    (ha : (transitionIds a.states).Nodup) (hb : (transitionIds b.states).Nodup) :
    ∃ g, Automaton.Renamed f g a b := by
  obtain ⟨g, hg⟩ := exists_map_eq ha (length_transitionIds h.states)
  exact ⟨g, renamed_of_matches h.states hg, h.stateIds,
    fun i hi j hj => List.inj_on_of_nodup_map (hg ▸ hb) hi hj, h.stop, h.start⟩

/-- **A program that has been written is read with other ids.** -/
theorem exists_renamed (ha : a.Intact) (hs : Savable a)
    (hkeyed : ∀ s ∈ a.states, ∀ t ∈ s.transitions, t.conditions.Keyed) :
    ∃ b f g, automatonOfElement (automatonElement a) = .ok b ∧ Automaton.Renamed f g a b := by
  obtain ⟨b, ss, hb, hread⟩ := exists_readAs_automatonElement a
  obtain ⟨f, hresolved⟩ := exists_resolved_of_readAs ha.linked hs hkeyed hread
  obtain ⟨g, hrenamed⟩ := hresolved.exists_renamed ha.transitions hread.transitionIds
  exact ⟨b, f, g, hb, hrenamed⟩

/-- **A program that has been edited is saved and loaded with other ids**: the same names in the
same order, the same transitions with what they require, and the detectors that a state offers with
those it asks for. Its runs leave the same worlds after as many steps, with the same messages. -/
theorem saved_program_is_renamed (ids : Ids) (edits : List Automaton.Edit)
    (hs : Savable (Automaton.Draft.edited ids edits).program) :
    ∃ b f g,
      readAutomatonXml (writeAutomatonXml (Automaton.Draft.edited ids edits).program) = .ok b ∧
        Automaton.Renamed f g (Automaton.Draft.edited ids edits).program b ∧
        ∀ s ∈ (Automaton.Draft.edited ids edits).program.states,
          ∀ (w : World) (limit : Option Nat),
            b.run w (some (f s.id)) limit
              = ((Automaton.Draft.edited ids edits).program.run w (some s.id) limit).renamed f := by
  have hsound := Automaton.Draft.sound_edited ids edits
  obtain ⟨b, f, g, hread, hrenamed⟩ := exists_renamed hsound.intact hs hsound.keyed
  refine ⟨b, f, g, ?_, hrenamed, fun s hm w limit => hrenamed.run hsound.intact hm w limit⟩
  rw [readAutomatonXml, writeAutomatonXml, parseXml_document (writable_automatonElement hs.text)]
  simp only [hread]
  rfl

/-- two states that go to each other, one of which has a name with characters of markup -/
def errand : List Automaton.Edit :=
  [.addState "To & fro" none none, .addState "<Turn>" (some .nan) none,
   .setDetectors "state-1" [.onLeaf], .setStart (some "state-2"),
   .addTransition "state-2" "state-1" [(.treeFront, none)] (by decide) [.turnLeft, .turnLeft],
   .addTransition "state-1" "state-2" [(.treeFront, some true), (.onLeaf, none)] (by decide) [],
   .addTransition "state-1" "state-1" [(.mushroomFront, some false)] (by decide) [.moveForward],
   .addTransition "state-1" "stop" [(.onLeaf, some true)] (by decide) [.pickClover]]

theorem errand_is_renamed :
    Savable (Automaton.Draft.edited {} errand).program ∧
      (Automaton.Draft.edited {} errand).program.start = some "state-2" ∧
      ∃ b f g,
        readAutomatonXml (writeAutomatonXml (Automaton.Draft.edited {} errand).program) = .ok b ∧
          Automaton.Renamed f g (Automaton.Draft.edited {} errand).program b ∧
          ∀ s ∈ (Automaton.Draft.edited {} errand).program.states,
            ∀ (w : World) (limit : Option Nat),
              b.run w (some (f s.id)) limit
                = ((Automaton.Draft.edited {} errand).program.run w (some s.id) limit).renamed
                  f := by
  have hs : Savable (Automaton.Draft.edited {} errand).program :=
    ⟨by decide +kernel, by decide +kernel, by decide +kernel⟩
  exact ⟨hs, by decide +kernel, saved_program_is_renamed {} errand hs⟩

end Ladybug.Exchange

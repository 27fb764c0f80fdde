import Ladybug.Proofs.Automaton.Rewired
import Ladybug.Proofs.Exchange.AutomatonXml
import Ladybug.Proofs.Xml.Values

/-!
# The names of a program that is read from XML

Names that a document repeats are read once, but the name of a stop state that is added may be there
already. Then the program cannot be saved as it is: a transition to its stop state goes to the other
state of that name when it is loaded again.

* `ReadAs.names`               the names of a program that is read
* `nodup_names_iff`            when each of them is there once
* `ReadAs.target_ne_stop`      no transition leads to a stop state that is added
* `read_automaton_names`       what becomes of a program that is read, edited, saved and loaded
* `twoStops_redirected`        a program whose transition goes elsewhere
-/

namespace Ladybug.Exchange

open Xml (Element)
open Automaton (State Transition Edit Draft Rewired stopId stopName stopState)

variable {a b : Automaton} {machine : Element} {ss : List State}

/-! ### names can be written -/

theorem sound_machine {content : String} (h : machine? content = some machine) :
    machine.Sound := by
  obtain ⟨root, hparse, hfind⟩ := machine?_eq_some_iff.mp h
  have hroot := Xml.sound_read (parseXml_eq_ok_iff.mp hparse).2
  exact hroot.within machine (List.mem_of_find?_eq_some hfind)

theorem stateName_ne_empty (e : Element) : stateName e ≠ "" := by
  unfold stateName
  split
  · decide
  · decide
  · assumption

theorem isText_stateName {e : Element} (h : e.Sound) : IsText (stateName e) := by
  unfold stateName
  split
  · decide
  · decide
  · exact h.attribute? ‹_›

/-! ### the names of a program -/

/-- The names of a document, each of them once, and that of a stop state that is added. -/
theorem ReadAs.names (h : ReadAs machine ss a) :
    a.states.map State.name = (keptStates machine).map stateName
      ++ if (stopElement? machine).isSome then [] else [stopName] := by
  rw [h.states, List.map_append, map_eq_of_forall₂ h.read fun _ _ hstate => hstate.name.symm]
  split <;> rfl

theorem ReadAs.named (h : ReadAs machine ss a) (hsound : machine.Sound) :
    ∀ name ∈ a.states.map State.name, name ≠ "" ∧ IsText name := by
  have hkept : ∀ e ∈ keptStates machine, e.Sound := fun e he =>
    hsound.within e (List.mem_filter.mp (mem_of_mem_firsts he)).1
  rw [h.names, List.forall_mem_append, List.forall_mem_map]
  refine ⟨fun e he => ⟨stateName_ne_empty e, isText_stateName (hkept e he)⟩, ?_⟩
  split
  · exact List.forall_mem_nil _
  · exact List.forall_mem_singleton.mpr (by decide)

/-- **Each name is there once, unless no state is final and one has the name of the stop state that
is added.** -/
theorem nodup_names_iff (h : ReadAs machine ss a) :
    (a.states.map State.name).Nodup ↔
      (∃ e ∈ keptStates machine, isFinal e = true) ∨
        stopName ∉ (machine.allNamed "XmlState").map stateName := by
  rw [h.names, ← List.find?_isSome, ← stopElement?.eq_1, ← mem_names_firsts, ← keptStates.eq_1]
  have hnodup : ((keptStates machine).map stateName).Nodup := nodup_firsts _
  cases stopElement? machine with
  | some e => simpa using hnodup
  | none => simp [nodup_append_singleton, hnodup]

/-! ### a program that is saved again -/

/-- No transition leads to a stop state that is added. -/
theorem ReadAs.target_ne_stop (h : ReadAs machine ss a) (hnone : stopElement? machine = none) :
    ∀ s ∈ a.states, ∀ t ∈ s.transitions, t.target ≠ a.stop := by
  intro s hs t ht
  obtain ⟨e, he, hread⟩ := h.exists_departure hs ht
  -- the name is that of a state of the document, so that one is found first
  have hname : targetName e ∈ ss.map State.name := by
    rw [← map_eq_of_forall₂ h.read fun _ _ hstate => hstate.name.symm]
    exact mem_names_firsts.mpr (of_decide_eq_true (List.mem_filter.mp he).2).2
  obtain ⟨id, hid⟩ := mem_names_iff_idOfName?.mp hname
  obtain ⟨u, hu, rfl⟩ := Option.map_eq_some_iff.mp hid
  have htarget : u.id = t.target := by
    have hfound := hread.target
    rw [h.states, idOfName?, List.find?_append, hu, Option.some_or, Option.map_some] at hfound
    exact Option.some.inj hfound
  obtain ⟨f, -, hstate⟩ := exists_of_mem_right h.read (List.mem_of_find?_eq_some hu)
  rw [← htarget]
  intro hstop
  have := hstate.stop.mp hstop
  rw [hnone] at this
  cases this

/-- A condition that is there already gets another value in its place. -/
theorem map_fst_setCondition {cs : Automaton.Conditions} {d : Detector}
    (h : d ∈ cs.map Prod.fst) (v : Bool) :
    (conditionsOf.setCondition cs d v).map Prod.fst = cs.map Prod.fst := by
  induction cs with
  | nil => cases h
  | cons c cs ih =>
    rw [conditionsOf.setCondition]
    split
    · rename_i hc
      rw [List.map_cons, List.map_cons, hc]
    · rename_i hc
      rw [List.map_cons, List.mem_cons] at h
      rw [List.map_cons, List.map_cons, ih (h.resolve_left (Ne.symm hc))]

theorem keyed_setCondition {cs : Automaton.Conditions} (h : cs.Keyed) (d : Detector) (v : Bool) :
    (conditionsOf.setCondition cs d v).Keyed := by
  unfold Automaton.Conditions.Keyed
  by_cases hd : d ∈ cs.map Prod.fst
  · rw [map_fst_setCondition hd]
    exact h
  · rw [setCondition_eq_append hd, List.map_append, List.map_singleton]
    exact nodup_append_singleton.mpr ⟨hd, h⟩

/-- However often a document asks for a detector, there is one condition on it. -/
theorem keyed_conditionsOf (e : Element) : (conditionsOf e).Keyed := by
  unfold conditionsOf
  refine List.foldlRecOn _ _ (motive := Automaton.Conditions.Keyed) List.nodup_nil
    fun cs h v _ => ?_
  split
  · split
    · exact keyed_setCondition h _ _
    · exact h
  · exact h

/-- A program that is read is one with its own states. -/
theorem ReadAs.rewired (h : ReadAs machine ss a) : Rewired a a where
  states := rfl
  stop := rfl
  linked := h.linked
  keyed := by
    intro s hs t ht
    obtain ⟨e, -, hread⟩ := h.exists_departure hs ht
    rw [hread.conditions]
    exact keyed_conditionsOf e

/-- A program is read as its document says, when its names can be written. -/
theorem exists_readAs_written (htext : ∀ s ∈ b.states, IsText s.name) :
    ∃ c ss, readAutomatonXml (writeAutomatonXml b) = .ok c ∧ ReadAs (machineElement b) ss c := by
  obtain ⟨c, ss, hc, hread⟩ := exists_readAs_automatonElement b
  refine ⟨c, ss, ?_, hread⟩
  rw [readAutomatonXml, writeAutomatonXml, parseXml_document (writable_automatonElement htext)]
  simp only [hc]
  rfl

/-- The stop state is not kept where its name is there before. -/
theorem stopElement?_eq_none {bs : List State} {u : State} (hb : b.Linked)
    (hstates : b.states = bs ++ [u]) (hstop : u.id = b.stop) (hnamed : ∀ s ∈ b.states, s.name ≠ "")
    (hname : u.name ∈ bs.map State.name) : stopElement? (machineElement b) = none := by
  rw [hstates, List.forall_mem_append, List.forall_mem_singleton] at hnamed
  have hids := hb.states
  rw [hstates, Automaton.stateIds_append_singleton, nodup_append_singleton] at hids
  have hnames : (bs.map (stateElement b)).map stateName = bs.map State.name := by
    rw [List.map_map]
    exact List.map_congr_left fun s hs => stateName_stateElement (hnamed.1 s hs)
  have hkept : keptStates (machineElement b) = firsts (bs.map (stateElement b)) := by
    rw [keptStates, machine_states, hstates, List.map_append, List.map_singleton, firsts_concat,
      keepFirst, if_pos]
    rw [stateName_stateElement hnamed.2, mem_names_firsts, hnames]
    exact hname
  rw [stopElement?, hkept, List.find?_eq_none]
  intro e he
  obtain ⟨s, hs, rfl⟩ := List.mem_map.mp (mem_of_mem_firsts he)
  rw [isFinal_stateElement, decide_eq_true_eq, ← hstop]
  exact fun hid => hids.1 (hid ▸ Automaton.id_mem_stateIds hs)

/-- A program with different names goes on as before when it is saved and loaded, whatever
transitions have been edited into it. -/
theorem exists_resolved (hb : Rewired a b) (hnamed : ∀ name ∈ a.states.map State.name,
      name ≠ "" ∧ IsText name) (hnames : (a.states.map State.name).Nodup) :
    ∃ c f, readAutomatonXml (writeAutomatonXml b) = .ok c ∧ Resolved f b c := by
  rw [← hb.names] at hnamed hnames
  rw [List.forall_mem_map] at hnamed
  have htext : ∀ s ∈ b.states, IsText s.name := fun s hs => (hnamed s hs).2
  obtain ⟨c, ss, hc, hread⟩ := exists_readAs_written htext
  obtain ⟨f, hf⟩ := exists_resolved_of_readAs hb.linked
    ⟨hnames, fun s hs => (hnamed s hs).1, htext⟩ hb.keyed hread
  exact ⟨c, f, hc, hf⟩

/-- A program that has two states with the name of the stop state loses its way to the end. -/
theorem exists_redirected (h : ReadAs machine ss a) (hb : Rewired a b)
    (hnamed : ∀ name ∈ a.states.map State.name, name ≠ "" ∧ IsText name)
    (hnames : ¬ (a.states.map State.name).Nodup) :
    ∃ c, readAutomatonXml (writeAutomatonXml b) = .ok c ∧
      ∀ s ∈ c.states, ∀ t ∈ s.transitions, t.target ≠ c.stop := by
  rw [nodup_names_iff h, not_or, not_not, ← mem_names_firsts] at hnames
  obtain ⟨hfinal, hstop⟩ := hnames
  have hnone : stopElement? machine = none :=
    List.find?_eq_none.mpr fun e he hfin => hfinal ⟨e, he, hfin⟩
  -- so the stop state has been added, and comes last in the edited program too
  have hstates : b.states.map (fun s => (s.id, s.name))
      = ss.map (fun s => (s.id, s.name)) ++ [(stopId, stopName)] := by
    rw [hb.states, h.states, hnone]
    exact List.map_append
  obtain ⟨bs, us, hsplit, hbs, hus⟩ := List.map_eq_append_iff.mp hstates
  obtain ⟨u, rfl, hu⟩ := List.map_eq_singleton_iff.mp hus
  obtain ⟨hid, hname⟩ := Prod.mk.inj hu
  have hkept : u.name ∈ bs.map State.name := by
    have hnames := congrArg (List.map Prod.snd) hbs
    rw [List.map_map, List.map_map] at hnames
    have hread := map_eq_of_forall₂ h.read fun _ _ hstate => hstate.name.symm
    rw [hname]
    exact hnames.trans hread.symm ▸ hstop
  rw [← hb.names, List.forall_mem_map] at hnamed
  obtain ⟨c, ss', hc, hread⟩ := exists_readAs_written fun s hs => (hnamed s hs).2
  refine ⟨c, hc, hread.target_ne_stop ?_⟩
  exact stopElement?_eq_none hb.linked hsplit (hid.trans (hb.stop.trans h.stop).symm)
    (fun s hs => (hnamed s hs).1) hkept

/-- **What becomes of a program that is read**: its names are different if a state is final or none
has the name of the stop state. Then whatever transitions are edited into it lead to the same states
when it is saved and loaded again; and if they are not, none leads to the stop state any more. -/
theorem read_automaton_names {content : String} (h : readAutomatonXml content = .ok a) :
    ∃ machine, machine? content = some machine ∧
      ((a.states.map State.name).Nodup ↔
        (∃ e ∈ firsts (machine.allNamed "XmlState"), isFinal e = true) ∨
          stopName ∉ (machine.allNamed "XmlState").map stateName) ∧
      ∀ (ids : Ids) (edits : List Edit), (∀ e ∈ edits, e.onStates = false) →
        ∃ c, readAutomatonXml (writeAutomatonXml (edits.foldl Draft.edit ⟨a, ids⟩).program) = .ok c ∧
          ((a.states.map State.name).Nodup →
            ∃ f, Resolved f (edits.foldl Draft.edit ⟨a, ids⟩).program c) ∧
          (¬ (a.states.map State.name).Nodup →
            ∀ s ∈ c.states, ∀ t ∈ s.transitions, t.target ≠ c.stop) := by
  obtain ⟨machine, ss, hmachine, hread⟩ := exists_readAs_of_readAutomatonXml h
  have hnamed := hread.named (sound_machine hmachine)
  refine ⟨machine, hmachine, nodup_names_iff hread, fun ids edits hedits => ?_⟩
  have hb : Rewired a (edits.foldl Draft.edit ⟨a, ids⟩).program :=
    Rewired.edited (x := ⟨a, ids⟩) hread.rewired hedits
  by_cases hnames : (a.states.map State.name).Nodup
  · obtain ⟨c, f, hc, hf⟩ := exists_resolved hb hnamed hnames
    exact ⟨c, hc, fun _ => ⟨f, hf⟩, fun hnot => absurd hnames hnot⟩
  · obtain ⟨c, hc, hlost⟩ := exists_redirected hread hb hnamed hnames
    exact ⟨c, hc, fun hnodup => absurd hnodup hnames, fun _ => hlost⟩

/-- two states, one of them final, and an edit that leads to it -/
def homewardText : String :=
  "<XmlStateMachine><XmlState name='Go'/><XmlState name='Home' finalstate='true'/></XmlStateMachine>"

def homeward : Automaton where
  states := [{ id := "state-go-1", name := "Go", x := .ofInt 100, y := .ofInt 100 },
    { id := "stop", name := "Home", x := .ofInt 100, y := .ofInt 100 }]

theorem homeward_names :
    readAutomatonXml homewardText = .ok homeward ∧
      ∃ machine, machine? homewardText = some machine ∧
        ((homeward.states.map State.name).Nodup ↔
          (∃ e ∈ firsts (machine.allNamed "XmlState"), isFinal e = true) ∨
            stopName ∉ (machine.allNamed "XmlState").map stateName) ∧
        ∀ (ids : Ids) (edits : List Edit), (∀ e ∈ edits, e.onStates = false) →
          ∃ c, readAutomatonXml
              (writeAutomatonXml (edits.foldl Draft.edit ⟨homeward, ids⟩).program) = .ok c ∧
            ((homeward.states.map State.name).Nodup →
              ∃ f, Resolved f (edits.foldl Draft.edit ⟨homeward, ids⟩).program c) ∧
            (¬ (homeward.states.map State.name).Nodup →
              ∀ s ∈ c.states, ∀ t ∈ s.transitions, t.target ≠ c.stop) := by
  have hread : readAutomatonXml homewardText = .ok homeward := by
    rw [readAutomatonXml, show parseXml ".kara" homewardText = _ from parseXml_ofList _ _]
    decide +kernel
  exact ⟨hread, read_automaton_names hread⟩

/-- a state with the name of the stop state, and none that is final -/
def twoStopsText : String :=
  "<XmlStateMachine startState='Go'><XmlState name='Go'/><XmlState name='Stop'/></XmlStateMachine>"

def twoStops : Automaton where
  states := [{ id := "state-go-1", name := "Go", x := .ofInt 100, y := .ofInt 100 },
    { id := "state-stop-1", name := "Stop", x := .ofInt 100, y := .ofInt 100 },
    stopState]
  start := some "state-go-1"

/-- a transition from its start state to its stop state -/
def ending : Edit := .addTransition "state-go-1" "stop" [] List.nodup_nil [.moveForward]

/-- the stop state of a program, and where its transitions lead -/
def aims (a : Automaton) : String × List String :=
  (a.stop, a.states.flatMap fun s => s.transitions.map Transition.target)

/-- Two states have one name, and the transition that leads to the one leads to the other when the
program is saved and loaded again. -/
theorem twoStops_redirected :
    readAutomatonXml twoStopsText = .ok twoStops ∧ ¬ (twoStops.states.map State.name).Nodup ∧
      aims (Draft.edit ⟨twoStops, {}⟩ ending).program = ("stop", ["stop"]) ∧
      (readAutomatonXml (writeAutomatonXml (Draft.edit ⟨twoStops, {}⟩ ending).program)).map aims
        = .ok ("stop", ["state-stop-1"]) := by
  refine ⟨?_, by decide, by decide +kernel, ?_⟩
  · rw [readAutomatonXml, show parseXml ".kara" twoStopsText = _ from parseXml_ofList _ _]
    decide +kernel
  · rw [readAutomatonXml, writeAutomatonXml,
      parseXml_document (writable_automatonElement (by decide +kernel))]
    decide +kernel

end Ladybug.Exchange

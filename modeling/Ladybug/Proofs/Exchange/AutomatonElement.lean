import Ladybug.Proofs.Automaton.Edited
import Ladybug.Proofs.Decimal
import Ladybug.Proofs.Exchange.Documents

/-!
# The document of an automaton

* `writable_automatonElement`   it can be written when the names of the states can
* `machine_states`, `machine_transitions`   the states in it, and the transitions of all of them
* `sensorsOf_stateElement`, `conditionsOf_transitionElement`, `actionsOf_transitionElement`   what
  is read of a state and of a transition
-/

namespace Ladybug.Exchange

open Xml (Element isName)
open Automaton (State Transition Conditions)

variable {a : Automaton}

/-! ### the elements -/

/-- the name of the start state, empty without one -/
def startName (a : Automaton) : String :=
  ((a.start.bind a.state?).map Automaton.State.name).getD ""

/-- the element of the automaton itself -/
def machineElement (a : Automaton) : Element :=
  .plain "XmlStateMachine" [("actor", actorName), ("startState", startName a)]
    (a.states.map (stateElement a)
      ++ a.states.flatMap fun s => s.transitions.filterMap (transitionElement? a s))

theorem automatonElement_eq (a : Automaton) :
    automatonElement a = .plain "XmlStateMachines" [("version", formatVersion)]
      (machineElement a :: Detector.all.map definitionElement) := rfl

/-- the element of a transition between two states with some names -/
def transitionElement (source target : String) (t : Transition) : Element :=
  .plain "XmlTransition" [("from", source), ("to", target)]
    [.plain "XmlSensorValues" [] (t.conditions.required.map conditionElement),
     .plain "XmlCommands" []
      (t.actions.map fun c => .plain "XmlCommand" [("name", commandTag c)] [])]

theorem transitionElement?_eq {t : Transition} {u : State} (h : a.state? t.target = some u)
    (s : State) : transitionElement? a s t = some (transitionElement s.name u.name t) := by
  rw [transitionElement?, h]
  rfl

theorem exists_of_transitionElement? {s : State} {t : Transition} {e : Element}
    (h : transitionElement? a s t = some e) :
    ∃ u ∈ a.states, e = transitionElement s.name u.name t := by
  obtain ⟨u, hu, rfl⟩ := Option.map_eq_some_iff.mp h
  exact ⟨u, List.mem_of_find?_eq_some hu, rfl⟩

/-- What stands for the transitions of all states. -/
theorem exists_of_mem_transitionElements {e : Element}
    (h : e ∈ a.states.flatMap fun s => s.transitions.filterMap (transitionElement? a s)) :
    ∃ s ∈ a.states, ∃ u ∈ a.states, ∃ t, e = transitionElement s.name u.name t := by
  obtain ⟨s, hs, h⟩ := List.mem_flatMap.mp h
  obtain ⟨t, -, ht⟩ := List.mem_filterMap.mp h
  obtain ⟨u, hu, rfl⟩ := exists_of_transitionElement? ht
  exact ⟨s, hs, u, hu, t, rfl⟩

/-! ### they can be written -/

theorem isText_oneDecimal (x : Binary) : IsText (Decimal.oneDecimal x) := by
  have hchars : ∀ c ∈ Decimal.numberChars, Xml.isChar c = true :=
    List.all_eq_true.mp (by decide)
  cases x with
  | nan => exact (by decide : IsText "nan")
  | infinite negative => cases negative <;> decide
  | finite negative m e =>
    obtain ⟨k, l, h⟩ := Decimal.toList_oneDecimal negative m e
    rw [IsText, h, List.forall_mem_append]
    exact ⟨fun c hc => hchars c (Decimal.mem_sign c hc),
      fun c hc => hchars c (Decimal.mem_pointed c hc)⟩

theorem writable_named {name value : String} (hname : isName name = true) (hvalue : IsText value) :
    (Element.plain name [("name", value)] []).Writable :=
  writable_plain hname (by simp only [List.map_cons, List.map_nil]; decide)
    (by simpa using hvalue) (by simp)

theorem writable_stateElement {s : State} (h : IsText s.name) : (stateElement a s).Writable := by
  have hfinal : IsText (if s.id = a.stop then "true" else "false") := by split <;> decide
  refine writable_plain (by decide) (by simp only [List.map_cons, List.map_nil]; decide) ?_ ?_
  · simp only [List.forall_mem_cons]
    exact ⟨hfinal, h, isText_oneDecimal _, isText_oneDecimal _, by simp⟩
  · rw [List.forall_mem_singleton]
    refine writable_plain (by decide) (by decide) (by simp) ?_
    rw [List.forall_mem_map]
    intro d _
    exact writable_named (by decide) (by cases d <;> decide)

theorem writable_conditionElement (c : Detector × Bool) : (conditionElement c).Writable := by
  have hvalue : IsText (if c.2 then yes else no) := by split <;> decide
  refine writable_plain (by decide) (by simp only [List.map_cons, List.map_nil]; decide) ?_
    (by simp)
  simp only [List.forall_mem_cons]
  exact ⟨by cases c.1 <;> decide, hvalue, by simp⟩

theorem writable_transitionElement {source target : String} (hs : IsText source)
    (ht : IsText target) (t : Transition) : (transitionElement source target t).Writable := by
  refine writable_plain (by decide) (by simp only [List.map_cons, List.map_nil]; decide) ?_ ?_
  · simp only [List.forall_mem_cons]
    exact ⟨hs, ht, by simp⟩
  · simp only [List.forall_mem_cons]
    refine ⟨writable_plain (by decide) (by decide) (by simp) ?_,
      writable_plain (by decide) (by decide) (by simp) ?_, by simp⟩
    · rw [List.forall_mem_map]
      exact fun c _ => writable_conditionElement c
    · rw [List.forall_mem_map]
      exact fun c _ => writable_named (by decide) (by cases c <;> decide)

theorem writable_definitionElement (d : Detector) : (definitionElement d).Writable := by
  refine writable_plain (by decide) (by simp only [List.map_cons, List.map_nil]; decide) ?_
    (by simp)
  simp only [List.forall_mem_cons]
  exact ⟨by cases d <;> decide, by cases d <;> decide, by cases d <;> decide, by simp⟩

/-- **A program with names that can be written can be written.** -/
theorem writable_automatonElement (h : ∀ s ∈ a.states, IsText s.name) :
    (automatonElement a).Writable := by
  have hstart : IsText (startName a) := by
    unfold startName
    cases hs : a.start.bind a.state? with
    | none => decide
    | some s =>
      obtain ⟨i, -, hi⟩ := Option.bind_eq_some_iff.mp hs
      exact h s (List.mem_of_find?_eq_some hi)
  have hmachine : (machineElement a).Writable := by
    refine writable_plain (by decide) (by simp only [List.map_cons, List.map_nil]; decide) ?_ ?_
    · simp only [List.forall_mem_cons]
      exact ⟨by decide, hstart, by simp⟩
    · simp only [List.forall_mem_append, List.forall_mem_map]
      refine ⟨fun s hs => writable_stateElement (h s hs), fun e he => ?_⟩
      obtain ⟨s, hs, u, hu, t, rfl⟩ := exists_of_mem_transitionElements he
      exact writable_transitionElement (h s hs) (h u hu) t
  rw [automatonElement_eq]
  refine writable_plain (by decide) (by decide) (by decide) ?_
  rw [List.forall_mem_cons, List.forall_mem_map]
  exact ⟨hmachine, fun d _ => writable_definitionElement d⟩

/-! ### what they hold -/

theorem machine_start (a : Automaton) :
    (machineElement a).attribute? "startState" = some (startName a) := by
  simp [machineElement]

theorem findElement_automatonElement (a : Automaton) :
    findElement (automatonElement a) "XmlStateMachine" = some (machineElement a) := by
  have hroot : (automatonElement a).isNamed "XmlStateMachine" = false := rfl
  have hmachine : (machineElement a).isNamed "XmlStateMachine" = true := rfl
  have hwithin : (automatonElement a).within
      = automatonElement a :: machineElement a
        :: (Element.withinAll (machineElement a).children
          ++ Element.withinAll (Detector.all.map definitionElement)) := rfl
  simp only [findElement, hwithin, List.find?_cons, hroot, hmachine]

theorem allNamed_transitionElement {source target n : String} (t : Transition)
    (h : n = "XmlState" ∨ n = "XmlTransition") :
    (transitionElement source target t).allNamed n
      = if n = "XmlTransition" then [transitionElement source target t] else [] := by
  have hconditions : (t.conditions.required.map conditionElement).flatMap
      (fun e => e.allNamed n) = [] := by
    refine flatMap_allNamed_eq_nil (List.forall_mem_map.mpr fun c _ => ?_)
    rcases h with rfl | rfl <;> simp [conditionElement]
  rw [transitionElement, allNamed_plain]
  rcases h with rfl | rfl <;> simp [hconditions]

/-- The states, whichever other elements are inside. -/
theorem machine_states (a : Automaton) :
    (machineElement a).allNamed "XmlState" = a.states.map (stateElement a) := by
  have hstate : ∀ s, (stateElement a s).allNamed "XmlState" = [stateElement a s] := by
    intro s
    simp [stateElement]
  have htransition : ∀ e ∈ a.states.flatMap fun s => s.transitions.filterMap
      (transitionElement? a s), e.allNamed "XmlState" = [] := by
    intro e he
    obtain ⟨s, -, u, -, t, rfl⟩ := exists_of_mem_transitionElements he
    rw [allNamed_transitionElement t (.inl rfl), if_neg (by decide)]
  rw [machineElement, allNamed_plain, if_neg (by decide), List.nil_append, List.flatMap_append,
    flatMap_allNamed_eq_nil htransition, List.append_nil, flatMap_allNamed_map hstate]

/-- The transitions of all states, each of them between states that exist. -/
theorem machine_transitions (a : Automaton) :
    (machineElement a).allNamed "XmlTransition"
      = a.states.flatMap fun s => s.transitions.filterMap (transitionElement? a s) := by
  have hstate : ∀ e ∈ a.states.map (stateElement a), e.allNamed "XmlTransition" = [] := by
    refine List.forall_mem_map.mpr fun s _ => ?_
    simp [stateElement]
  have htransition : ∀ e ∈ a.states.flatMap fun s => s.transitions.filterMap
      (transitionElement? a s), e.allNamed "XmlTransition" = [e] := by
    intro e he
    obtain ⟨s, -, u, -, t, rfl⟩ := exists_of_mem_transitionElements he
    rw [allNamed_transitionElement t (.inr rfl), if_pos rfl]
  rw [machineElement, allNamed_plain, if_neg (by decide), List.nil_append, List.flatMap_append,
    flatMap_allNamed_eq_nil hstate, List.nil_append]
  generalize (a.states.flatMap fun s => s.transitions.filterMap (transitionElement? a s)) = es
    at htransition ⊢
  rw [List.flatMap_congr htransition]
  exact List.flatMap_singleton' es

/-! ### what is read of a state and of a transition -/

@[simp] theorem ofName?_name (d : Detector) : Detector.ofName? d.name = some d := by
  cases d <;> rfl

@[simp] theorem commandOfTag?_commandTag (c : Command) : commandOfTag? (commandTag c) = some c := by
  cases c <;> rfl

theorem sensorsOf_stateElement (s : State) : sensorsOf (stateElement a s) = stateSensors s := by
  have hsensors : (stateElement a s).allNamed "XmlSensor"
      = (stateSensors s).map fun d => .plain "XmlSensor" [("name", d.name)] [] := by
    simp only [stateElement, allNamed_plain, List.flatMap_cons, List.flatMap_nil]
    rw [flatMap_allNamed_map (by simp)]
    simp
  rw [sensorsOf, hsensors, List.filterMap_map]
  simp

theorem actionsOf_transitionElement (source target : String) (t : Transition) :
    actionsOf (transitionElement source target t) = t.actions := by
  have hcommands : (transitionElement source target t).allNamed "XmlCommand"
      = t.actions.map fun c => .plain "XmlCommand" [("name", commandTag c)] [] := by
    have hconditions : (t.conditions.required.map conditionElement).flatMap
        (fun e => e.allNamed "XmlCommand") = [] :=
      flatMap_allNamed_eq_nil (List.forall_mem_map.mpr fun c _ => by simp [conditionElement])
    simp only [transitionElement, allNamed_plain, List.flatMap_cons, List.flatMap_nil]
    rw [hconditions, flatMap_allNamed_map (by simp)]
    simp
  rw [actionsOf, hcommands, List.filterMap_map]
  simp

/-- A condition on a detector that has none yet goes to the end. -/
theorem setCondition_eq_append {cs : Conditions} {d : Detector} (h : d ∉ cs.map Prod.fst)
    (b : Bool) : conditionsOf.setCondition cs d b = cs ++ [(d, some b)] := by
  induction cs with
  | nil => rfl
  | cons c cs ih =>
    rw [List.map_cons, List.mem_cons, not_or] at h
    rw [conditionsOf.setCondition, if_neg (Ne.symm h.1), ih h.2, List.cons_append]

/-- Conditions on detectors that have none yet go to the end one after the other. -/
theorem foldl_setCondition {l : List (Detector × Bool)} {cs : Conditions}
    (h : (cs.map Prod.fst ++ l.map Prod.fst).Nodup) :
    l.foldl (fun cs c => conditionsOf.setCondition cs c.1 c.2) cs
      = cs ++ l.map fun c => (c.1, some c.2) := by
  induction l generalizing cs with
  | nil => rw [List.foldl_nil, List.map_nil, List.append_nil]
  | cons c l ih =>
    have hnew : c.1 ∉ cs.map Prod.fst := fun hc =>
      (List.nodup_append.mp h).2.2 c.1 hc c.1 List.mem_cons_self rfl
    rw [List.foldl_cons, setCondition_eq_append hnew, ih, List.append_assoc]
    · rfl
    · rwa [List.map_append, List.append_assoc]

theorem nodup_required {cs : Conditions} (h : cs.Keyed) : (cs.required.map Prod.fst).Nodup := by
  refine h.sublist ?_
  clear h
  induction cs with
  | nil => exact List.Sublist.refl _
  | cons c cs ih =>
    obtain ⟨d, o⟩ := c
    cases o with
    | none => exact ih.cons d
    | some b => exact ih.cons_cons d

/-- The conditions that ask for something, in their order. -/
theorem conditionsOf_transitionElement (source target : String) {t : Transition}
    (h : t.conditions.Keyed) :
    conditionsOf (transitionElement source target t)
      = t.conditions.required.map fun c => (c.1, some c.2) := by
  have hvalues : (transitionElement source target t).allNamed "XmlSensorValue"
      = t.conditions.required.map conditionElement := by
    have hcommands : (t.actions.map fun c => Element.plain "XmlCommand" [("name", commandTag c)]
        []).flatMap (fun e => e.allNamed "XmlSensorValue") = [] :=
      flatMap_allNamed_eq_nil (List.forall_mem_map.mpr fun c _ => by simp)
    simp only [transitionElement, allNamed_plain, List.flatMap_cons, List.flatMap_nil]
    rw [hcommands, flatMap_allNamed_map (by simp [conditionElement])]
    simp
  rw [conditionsOf, hvalues, List.foldl_map]
  refine Eq.trans (congrArg (fun F => List.foldl F [] t.conditions.required) ?_)
    (foldl_setCondition (nodup_required h))
  funext cs c
  obtain ⟨d, b⟩ := c
  cases b <;> simp [conditionElement, yes, no]

end Ladybug.Exchange

import Ladybug.Proofs.Exchange.WorldJson
import Ladybug.Proofs.Intake.Automaton
import Ladybug.Proofs.Json.Floats
import Ladybug.Proofs.Json.Texts

/-!
# Automata that are written as JSON and read back

A coordinate that is not finite is written as nothing, and nothing is no coordinate; all else is
written so that it is read back.

* `Automaton.Proper`             what a program may hold
* `Automaton.Placed`             every state has a place in the drawing
* `read_writeAutomaton`          the text of a program is read as its data
* `placed_of_automaton`          the data of a program without all its places are refused
* `automaton_json_round_trip`    a program whose states have places is read back
-/

namespace Ladybug

namespace Automaton

/-- The texts are rows of code points, and each detector has one entry. -/
structure Transition.Proper (t : Transition) : Prop where
  id : Text.Sound t.id.toList
  target : Text.Sound t.target.toList
  conditions : (t.conditions.map Prod.fst).Nodup

/-- The coordinates are numbers of the format, perhaps infinite or not numbers at all. -/
structure State.Proper (s : State) : Prop where
  id : Text.Sound s.id.toList
  name : Text.Sound s.name.toList
  x : s.x.Representable
  y : s.y.Representable
  transitions : ∀ t ∈ s.transitions, t.Proper

/-- A program as documents give it: what its parts may hold, and no flaw. -/
structure Proper (a : Automaton) : Prop where
  states : ∀ s ∈ a.states, s.Proper
  start : ∀ id ∈ a.start, Text.Sound id.toList
  stop : Text.Sound a.stop.toList
  flawless : a.flaw? = none

/-- The coordinates are finite. -/
def State.Placed (s : State) : Prop := s.x.isFinite = true ∧ s.y.isFinite = true

/-- Every state has a place in the drawing. -/
def Placed (a : Automaton) : Prop := ∀ s ∈ a.states, s.Placed

end Automaton

namespace Exchange

open Intake (field_of_find? fieldOr_of_find? list_map_of_forall condition_eq_ok_iff
  transition_eq_ok_iff state_eq_ok_iff automaton_eq_ok_iff field_found_iff fieldOr_found_iff
  list_eq_ok_iff)
open Json (readsText_of_all readsText_of_sound writes_text writes_word writes_float)

/-! ### what is written -/

/-- what is read in the place of a coordinate -/
def coordinateDatum (x : Binary) : Datum := if x.isFinite then .float x else .null

def savedState (s : Automaton.State) : Datum :=
  .map
    [("id", .text s.id),
     ("name", .text s.name),
     ("x", coordinateDatum s.x),
     ("y", coordinateDatum s.y),
     ("transitions", .list (s.transitions.map transitionDatum)),
     ("activeDetectors", .list (s.detectors.map fun d => .text d.name))]

/-- The datum of a program as its text says it. -/
def savedDatum (a : Automaton) : Datum :=
  .map
    [("states", .list (a.states.map savedState)),
     ("startStateId", optionalText a.start),
     ("stopStateId", .text a.stop)]

theorem lines_coordinate (level : Nat) (x : Binary) :
    Json.unicode.lines level (coordinateDatum x) = Json.unicode.lines level (.float x) := by
  cases hx : x.isFinite with
  | true => rw [coordinateDatum, hx, if_pos rfl]
  | false =>
    have hnull : Decimal.saved.show x = "null" := Json.saved_of_not_finite hx
    rw [coordinateDatum, hx, if_neg Bool.false_ne_true]
    show "null".toList = (Decimal.saved.show x).toList
    rw [hnull]

theorem lines_savedState (level : Nat) (s : Automaton.State) :
    Json.unicode.lines level (savedState s) = Json.unicode.lines level (stateDatum s) := by
  simp only [savedState, stateDatum, Json.Form.lines, Json.Form.entryLines, lines_coordinate]

theorem lines_map_congr {α : Type} {f : Json.Form} {g g' : α → Datum}
    (h : ∀ level a, f.lines level (g a) = f.lines level (g' a)) (level : Nat) (as : List α) :
    f.lines level (.list (as.map g)) = f.lines level (.list (as.map g')) := by
  cases as with
  | nil => rfl
  | cons a as =>
    simp only [List.map_cons, Json.Form.lines, Json.Form.itemLines_eq, List.flatMap_map, h]

theorem writeAutomaton_eq (a : Automaton) :
    writeAutomaton a = Json.indented Json.unicode (savedDatum a) := by
  have hstates := lines_map_congr lines_savedState 1 a.states
  simp only [writeAutomaton, Json.indented, automatonDatum, savedDatum, Json.Form.lines,
    Json.Form.entryLines, Nat.zero_add, hstates]

/-! ### the text is read as the data -/

theorem Detector.name_injective : Function.Injective Detector.name := by
  intro d e h
  cases d <;> cases e <;> first | rfl | exact absurd h (by decide)

theorem readable_triState (v : Option Bool) : Json.unicode.Readable (triState v) := by
  rcases v with _ | _ | _
  · exact Json.unicode.readable_null
  · exact Json.unicode.readable_bool false
  · exact Json.unicode.readable_bool true

theorem readable_conditions {c : Automaton.Conditions} (h : (c.map Prod.fst).Nodup) :
    Json.unicode.Readable (.map (c.map fun e => (e.1.name, triState e.2))) := by
  constructor
  · have hnames := h.map Detector.name_injective
    rwa [List.map_map] at hnames ⊢
  · clear h
    induction c with
    | nil => trivial
    | cons e c ih =>
      have hname : Json.unicode.ReadsText e.1.name :=
        readsText_of_all (by cases e.1 <;> decide)
      exact ⟨hname, readable_triState e.2, ih⟩

theorem readable_text {s : String} (h : Text.Sound s.toList) : Json.unicode.Readable (.text s) :=
  writes_text (readsText_of_sound h)

theorem readable_action (c : Command) :
    Json.unicode.Readable (.map [("type", .text c.actionName)]) := by
  have htype : Json.unicode.ReadsText "type" := readsText_of_all (by decide)
  have hname : Json.unicode.ReadsText c.actionName := readsText_of_all (by cases c <;> decide)
  exact ⟨List.pairwise_singleton _ _, htype, writes_text hname, trivial⟩

theorem readable_transition {t : Automaton.Transition} (h : t.Proper) :
    Json.unicode.Readable (transitionDatum t) :=
  ⟨by simp, readsText_of_all (by decide), readable_text h.id,
    readsText_of_all (by decide), readable_text h.target,
    readsText_of_all (by decide), readable_conditions h.conditions,
    readsText_of_all (by decide), Json.unicode.readable_list fun c _ => readable_action c, trivial⟩

theorem readable_coordinate {x : Binary} (h : x.Representable) :
    Json.unicode.Readable (coordinateDatum x) := by
  cases x with
  | finite negative m e => exact writes_float Decimal.saved h
  | infinite negative => exact readable_triState none
  | nan => exact readable_triState none

theorem readable_detector (d : Detector) : Json.unicode.Readable (.text d.name) := by
  have hname : Json.unicode.ReadsText d.name := readsText_of_all (by cases d <;> decide)
  exact writes_text hname

theorem readable_savedState {s : Automaton.State} (h : s.Proper) :
    Json.unicode.Readable (savedState s) :=
  ⟨by simp, readsText_of_all (by decide), readable_text h.id,
    readsText_of_all (by decide), readable_text h.name,
    readsText_of_all (by decide), readable_coordinate h.x,
    readsText_of_all (by decide), readable_coordinate h.y,
    readsText_of_all (by decide),
    Json.unicode.readable_list fun t ht => readable_transition (h.transitions t ht),
    readsText_of_all (by decide), Json.unicode.readable_list fun d _ => readable_detector d, trivial⟩

theorem readable_optionalText {s : Option String} (h : ∀ t ∈ s, Text.Sound t.toList) :
    Json.unicode.Readable (optionalText s) := by
  cases s with
  | none => exact readable_triState none
  | some t => exact readable_text (h t rfl)

theorem readable_savedDatum {a : Automaton} (h : a.Proper) :
    Json.unicode.Readable (savedDatum a) :=
  ⟨by simp, readsText_of_all (by decide),
    Json.unicode.readable_list fun s hs => readable_savedState (h.states s hs),
    readsText_of_all (by decide), readable_optionalText h.start,
    readsText_of_all (by decide), readable_text h.stop, trivial⟩

/-- **The text of a program is read as its data**, the coordinates that are not finite missing. -/
theorem read_writeAutomaton {a : Automaton} (h : a.Proper) :
    Json.read (writeAutomaton a) = .ok (savedDatum a) :=
  writeAutomaton_eq a ▸ Json.read_indented (readable_savedDatum h)

/-! ### the data are read as the program -/

theorem text_text (s : String) : Intake.text (.text s) = .ok s := rfl

theorem detector_name (d : Detector) : Intake.detector (.text d.name) = .ok d := by
  cases d <;> rfl

theorem action_written (c : Command) :
    Intake.action (.map [("type", .text c.actionName)]) = .ok c := by
  cases c <;> rfl

theorem conditions_written (c : Automaton.Conditions) :
    Intake.conditions (.map (c.map fun e => (e.1.name, triState e.2))) = .ok c := by
  have hvalue (v : Option Bool) : Intake.optional Intake.bool (triState v) = .ok v := by
    rcases v with _ | _ | _ <;> rfl
  exact mapM_map_of_forall fun e _ =>
    condition_eq_ok_iff.mpr ⟨detector_name e.1, hvalue e.2⟩

theorem transition_written (t : Automaton.Transition) :
    Intake.transition (transitionDatum t) = .ok t := by
  refine transition_eq_ok_iff.mpr ⟨_, rfl, ?_⟩
  constructor
  case id => exact field_of_find? rfl (text_text t.id)
  case target => exact field_of_find? rfl (text_text t.target)
  case conditions => exact fieldOr_of_find? rfl (conditions_written t.conditions)
  case actions => exact fieldOr_of_find? rfl (list_map_of_forall fun c _ => action_written c)

theorem float_coordinate_iff {x y : Binary} :
    Intake.float (coordinateDatum x) = .ok y ↔ x.isFinite = true ∧ y = x := by
  unfold coordinateDatum
  cases hx : x.isFinite with
  | true =>
    rw [if_pos rfl, Intake.float, Except.ok.injEq, eq_comm]
    exact (and_iff_right rfl).symm
  | false =>
    rw [if_neg Bool.false_ne_true]
    exact ⟨nofun, fun h => absurd h.1 Bool.false_ne_true⟩

theorem state_written {s : Automaton.State} (h : s.Placed) :
    Intake.state (savedState s) = .ok s := by
  refine state_eq_ok_iff.mpr ⟨_, rfl, ?_⟩
  constructor
  case id => exact field_of_find? rfl (text_text s.id)
  case name => exact field_of_find? rfl (text_text s.name)
  case x => exact fieldOr_of_find? rfl (float_coordinate_iff.mpr ⟨h.1, rfl⟩)
  case y => exact fieldOr_of_find? rfl (float_coordinate_iff.mpr ⟨h.2, rfl⟩)
  case transitions =>
    exact fieldOr_of_find? rfl (list_map_of_forall fun t _ => transition_written t)
  case detectors => exact fieldOr_of_find? rfl (list_map_of_forall fun d _ => detector_name d)

/-- A state whose data are read has a place in the drawing. -/
theorem placed_of_state {s t : Automaton.State} (h : Intake.state (savedState s) = .ok t) :
    s.Placed := by
  obtain ⟨es, hes, hfields⟩ := state_eq_ok_iff.mp h
  obtain rfl := Option.some.inj hes
  have hx := (fieldOr_found_iff rfl).mp hfields.x
  have hy := (fieldOr_found_iff rfl).mp hfields.y
  exact ⟨(float_coordinate_iff.mp hx).1, (float_coordinate_iff.mp hy).1⟩

theorem start_written (s : Option String) :
    Intake.optional Intake.text (optionalText s) = .ok s := by
  cases s <;> rfl

theorem automaton_written {a : Automaton} (h : a.Proper) (hplaced : a.Placed) :
    Intake.automaton (savedDatum a) = .ok a := by
  refine automaton_eq_ok_iff.mpr ⟨⟨_, rfl, ?_⟩, h.flawless⟩
  constructor
  case states =>
    exact field_of_find? rfl (list_map_of_forall fun s hs => state_written (hplaced s hs))
  case start => exact fieldOr_of_find? rfl (start_written a.start)
  case stop => exact fieldOr_of_find? rfl (text_text a.stop)

theorem placed_of_automaton {a b : Automaton} (h : Intake.automaton (savedDatum a) = .ok b) :
    a.Placed := by
  obtain ⟨⟨es, hes, hfields⟩, -⟩ := automaton_eq_ok_iff.mp h
  obtain rfl := Option.some.inj hes
  have hstates := list_eq_ok_iff.mp ((field_found_iff rfl).mp hfields.states)
  intro s hs
  obtain ⟨t, -, ht⟩ := exists_of_mem_right (List.forall₂_map_left_iff.mp hstates).flip hs
  exact placed_of_state ht

/-! ### whole documents -/

theorem readAutomaton_of_read {content : String} {d : Datum} (h : Json.read content = .ok d) :
    readAutomaton content = orRefusal (automatonOfDatum d)
      ∧ readAnyAutomaton content = readAutomaton content := by
  have hjson : parseJson "FSM program" content = .ok d := by rw [parseJson, h]
  rw [readAnyAutomaton, looksLikeXml_of_read h, readAutomaton, hjson]
  exact ⟨rfl, rfl⟩

/-- A document is taken as a program just if its datum is. -/
theorem readAutomaton_eq_ok_iff {content : String} {a : Automaton} :
    readAutomaton content = .ok a ↔
      ∃ d, Json.read content = .ok d ∧ Intake.automaton d = .ok a := by
  constructor
  · intro h
    cases hread : Json.read content with
    | error m =>
      obtain ⟨cause, line⟩ := m
      rw [readAutomaton, parseJson, hread] at h
      cases cause <;> cases h
    | ok d =>
      rw [(readAutomaton_of_read hread).1, automatonOfDatum] at h
      cases htaken : Intake.automaton d with
      | error i =>
        rw [htaken] at h
        cases h
      | ok b =>
        rw [htaken] at h
        cases h
        exact ⟨d, rfl, htaken⟩
  · rintro ⟨d, hread, htaken⟩
    rw [(readAutomaton_of_read hread).1, automatonOfDatum, htaken]
    rfl

/-- **A program whose states have places is read back from JSON.** -/
theorem automaton_json_round_trip {a : Automaton} (h : a.Proper) (hplaced : a.Placed) :
    readAutomaton (writeAutomaton a) = .ok a ∧ readAnyAutomaton (writeAutomaton a) = .ok a := by
  have hread := read_writeAutomaton h
  obtain ⟨-, hany⟩ := readAutomaton_of_read hread
  have hback : readAutomaton (writeAutomaton a) = .ok a :=
    readAutomaton_eq_ok_iff.mpr ⟨_, hread, automaton_written h hplaced⟩
  exact ⟨hback, hany.trans hback⟩

/-- two states of one id, with names that must be escaped or are not of ASCII, and a transition that
leads nowhere and asks for nothing expressly -/
def sketch : Automaton where
  states :=
    [{ id := "walk", name := "Käfer\t🐞",
       x := .finite false 7205759403792794 (-56), y := .finite true 0 (-1074),
       transitions :=
         [{ id := "t1", target := "nowhere",
            conditions := [(.onLeaf, none), (.treeFront, some true)],
            actions := [.moveForward, .turnLeft] }],
       detectors := [.treeFront, .onLeaf] },
     { id := "walk", name := "\"Wald\"" },
     Automaton.stopState]
  start := some "elsewhere"

theorem sketch_read :
    sketch.Proper ∧ sketch.Placed ∧ readAutomaton (writeAutomaton sketch) = .ok sketch ∧
      readAnyAutomaton (writeAutomaton sketch) = .ok sketch := by
  have hplain {s : String} (h : Text.mark ∉ s.toList) : Text.Sound s.toList :=
    Text.sound_of_not_mem h
  have hstop : Automaton.stopState.Proper :=
    ⟨hplain (by decide), hplain (by decide), by decide +kernel, by decide +kernel,
      List.forall_mem_nil _⟩
  have hproper : sketch.Proper := by
    constructor
    case states =>
      simp only [sketch, List.forall_mem_cons]
      refine ⟨?_, ?_, hstop, List.forall_mem_nil _⟩
      · refine ⟨hplain (by decide), hplain (by decide), by decide, by decide, ?_⟩
        rw [List.forall_mem_singleton]
        exact ⟨hplain (by decide), hplain (by decide), by decide⟩
      · exact ⟨hplain (by decide), hplain (by decide), by decide, by decide, List.forall_mem_nil _⟩
    case start =>
      rintro _ ⟨⟩
      exact hplain (by decide)
    case stop => exact hplain (by decide)
    case flawless => decide +kernel
  have hplaced : sketch.Placed := by
    simp only [Automaton.Placed, sketch, List.forall_mem_cons]
    refine ⟨⟨rfl, rfl⟩, ⟨rfl, rfl⟩, ⟨by decide +kernel, by decide +kernel⟩, List.forall_mem_nil _⟩
  exact ⟨hproper, hplaced, automaton_json_round_trip hproper hplaced⟩

end Exchange

end Ladybug

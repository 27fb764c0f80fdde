import Ladybug.Proofs.Exchange.AutomatonJson
import Ladybug.Proofs.Intake.Given

/-!
# Programs that are loaded from JSON and saved again

Whatever a document says, a program that is taken from it holds numbers of the format, rows of code
points, and one entry for each detector. So its text is read as its data, and the data are refused
only for a coordinate that is not finite.

* `Intake.proper_automaton`   what is taken from JSON is a proper program
* `loaded_program_saved`      when a program that was loaded can be saved and loaded again
* `nowhere_lost`              a program that is taken, and whose text is not
-/

namespace Ladybug

namespace Intake

/-- A detector is named in one way. -/
theorem eq_of_detector {s : String} (hs : Text.Sound s.toList) {d : Detector}
    (h : detector (.text s) = .ok d) : s = String.ofList (Text.taken d.name.toList) := by
  obtain ⟨cs, hwriting, hread⟩ := written_eq_ok h
  have hplain : Text.plain? s.toList = some cs := by
    rw [writing?] at hwriting
    cases hcs : Text.plain? s.toList with
    | none =>
      rw [hcs] at hwriting
      cases hwriting
    | some xs =>
      rw [hcs] at hwriting
      cases hwriting
      rfl
  have hname : d.name = String.ofList cs := by
    cases hfind : Detector.all.find? fun d : Detector => d.name == String.ofList cs with
    | none =>
      rw [hfind] at hread
      cases hread
    | some d' =>
      rw [hfind] at hread
      cases hread
      have hfound := List.find?_some (p := fun d : Detector => d.name == String.ofList cs) hfind
      exact beq_iff_eq.mp hfound
  rw [hname, String.toList_ofList, ← hs.eq_taken hplain, String.ofList_toList]

theorem nodup_conditions : Yields conditions fun c => (c.map Prod.fst).Nodup := by
  intro d c hd h
  unfold conditions at h
  cases hes : entries? d with
  | none =>
    rw [hes] at h
    cases h
  | some es =>
    rw [hes] at h
    cases given_of_entries? hd hes with
    | map names codes values =>
      -- the detectors tell the names of their entries
      have hread := (List.forall₂_and_left _ _).mpr ⟨codes, mapM_eq_ok_iff.mp h⟩
      have hnames : List.Forall₂ Eq (es.map Prod.fst)
          ((c.map Prod.fst).map fun d => String.ofList (Text.taken d.name.toList)) := by
        rw [List.map_map, List.forall₂_map_left_iff, List.forall₂_map_right_iff]
        exact hread.imp fun e c he => eq_of_detector he.1 (condition_eq_ok_iff.mp he.2).1
      rw [List.forall₂_eq_eq_eq] at hnames
      exact .of_map _ (hnames ▸ names)

theorem proper_transition : Yields transition Automaton.Transition.Proper := by
  intro d t hd h
  obtain ⟨es, hes, hfields⟩ := transition_eq_ok_iff.mp h
  have hgiven := given_of_entries? hd hes
  constructor
  case id => exact sound_text.field hgiven hfields.id
  case target => exact sound_text.field hgiven hfields.target
  case conditions =>
    have hnone : (([] : Automaton.Conditions).map Prod.fst).Nodup := List.nodup_nil
    exact nodup_conditions.fieldOr hgiven hnone hfields.conditions

theorem proper_state : Yields state Automaton.State.Proper := by
  intro d s hd h
  obtain ⟨es, hes, hfields⟩ := state_eq_ok_iff.mp h
  have hgiven := given_of_entries? hd hes
  have hzero : Binary.zero.Representable := by decide
  constructor
  case id => exact sound_text.field hgiven hfields.id
  case name => exact sound_text.field hgiven hfields.name
  case x => exact representable_float.fieldOr hgiven hzero hfields.x
  case y => exact representable_float.fieldOr hgiven hzero hfields.y
  case transitions =>
    exact proper_transition.list.fieldOr hgiven (List.forall_mem_nil _) hfields.transitions

/-- **What is taken from JSON is a proper program.** -/
theorem proper_automaton : Yields automaton Automaton.Proper := by
  intro d a hd h
  obtain ⟨⟨es, hes, hfields⟩, hflaw⟩ := automaton_eq_ok_iff.mp h
  have hgiven := given_of_entries? hd hes
  have hstop : Text.Sound Automaton.stopId.toList := Text.sound_of_not_mem (by decide)
  constructor
  case states => exact proper_state.list.field hgiven hfields.states
  case start =>
    have hnone : ∀ t ∈ (none : Option String), Text.Sound t.toList := by rintro t ⟨⟩
    exact sound_text.optional.fieldOr hgiven hnone hfields.start
  case stop => exact sound_text.fieldOr hgiven hstop hfields.stop
  case flawless => exact hflaw

end Intake

namespace Exchange

/-- **A program that was loaded from JSON can be saved and loaded again just if each of its states
has a place**, and then it is the same program. -/
theorem loaded_program_saved {content : String} (hcontent : Text.Sound content.toList)
    {a : Automaton} (h : readAutomaton content = .ok a) :
    ((∃ b, readAutomaton (writeAutomaton a) = .ok b) ↔ a.Placed) ∧
      ∀ b, readAutomaton (writeAutomaton a) = .ok b → b = a := by
  obtain ⟨d, hread, htaken⟩ := readAutomaton_eq_ok_iff.mp h
  have hproper : a.Proper := Intake.proper_automaton (Json.given_of_read hcontent hread) htaken
  have hplaced {b : Automaton} (hb : readAutomaton (writeAutomaton a) = .ok b) : a.Placed := by
    obtain ⟨d, hsaved, htaken⟩ := readAutomaton_eq_ok_iff.mp hb
    rw [read_writeAutomaton hproper] at hsaved
    cases hsaved
    exact placed_of_automaton htaken
  have hback (hp : a.Placed) : readAutomaton (writeAutomaton a) = .ok a :=
    (automaton_json_round_trip hproper hp).1
  refine ⟨⟨fun ⟨b, hb⟩ => hplaced hb, fun hp => ⟨a, hback hp⟩⟩, fun b hb => ?_⟩
  rw [hback (hplaced hb)] at hb
  cases hb
  rfl

/-- a program of nothing but the stop state, its coordinates given by a text and a truth value -/
def stopText : String :=
  "\x7b\"states\": [\x7b\"id\": \"stop\", \"name\": \"Stop\", \"x\": \"1e2\", \"y\": true\x7d]\x7d"

def stopOnly : Automaton where
  states := [{ id := "stop", name := "Stop", x := .ofInt 100, y := .ofInt 1 }]

theorem stopText_saved :
    Text.Sound stopText.toList ∧ readAutomaton stopText = .ok stopOnly ∧ stopOnly.Placed ∧
      readAutomaton (writeAutomaton stopOnly) = .ok stopOnly := by
  have hsound : Text.Sound stopText.toList := Text.sound_of_not_mem (by decide)
  have hread : readAutomaton stopText = .ok stopOnly := by decide +kernel
  have hplaced : stopOnly.Placed := by
    refine List.forall_mem_singleton.mpr ⟨?_, ?_⟩ <;> decide +kernel
  obtain ⟨hiff, hsame⟩ := loaded_program_saved hsound hread
  obtain ⟨b, hb⟩ := hiff.mpr hplaced
  obtain rfl := hsame b hb
  exact ⟨hsound, hread, hplaced, hb⟩

/-- the same with a coordinate that is no number -/
def nowhereText : String :=
  "\x7b\"states\": [\x7b\"id\": \"stop\", \"name\": \"Stop\", \"x\": NaN\x7d]\x7d"

def nowhere : Automaton where
  states := [{ id := "stop", name := "Stop", x := .nan }]

/-- A program that is taken, and whose text is not. -/
theorem nowhere_lost :
    Text.Sound nowhereText.toList ∧ readAutomaton nowhereText = .ok nowhere ∧
      readAutomaton (writeAutomaton nowhere) = .error (.fault
        (.parse "Invalid FSM program: states.0.x: Input should be a valid number")) := by
  have hsound : Text.Sound nowhereText.toList := Text.sound_of_not_mem (by decide)
  have hread : readAutomaton nowhereText = .ok nowhere := by decide +kernel
  obtain ⟨d, hd, htaken⟩ := readAutomaton_eq_ok_iff.mp hread
  have hproper : nowhere.Proper := Intake.proper_automaton (Json.given_of_read hsound hd) htaken
  refine ⟨hsound, hread, ?_⟩
  rw [readAutomaton, parseJson, read_writeAutomaton hproper]
  decide +kernel

end Exchange

end Ladybug

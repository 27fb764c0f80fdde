import Ladybug.Proofs.Exchange.AutomatonRead
import Ladybug.Proofs.Ident.Slug

/-!
# The ids of states that are read from XML

A state that is read has the reserved id if it is the final one, and else an id that is drawn for
its name. Such an id has two dashes at least, so it is none that an editor draws for a state,
whether or not the editor and the reader draw from one source.

* `DrawnFor`               an id that is drawn for a name
* `Labelled`               a state that has its id from its name, or the reserved one
* `Adds.labelled`          one more element gives one more such state, or none
* `labelled_programOf`     so a program that is read has no others
* `Identified`             which of the two it is
* `ids_kept_apart`         no id is drawn twice, a name goes into an id in one form, and no state
                           that is read has an id that an editor draws
-/

namespace Ladybug.Exchange

open Xml (Element)
open Automaton (State stopId stopState stateIds)

/-- An id that is drawn for a state with a name. -/
def DrawnFor (name id : String) : Prop :=
  ∃ n, 0 < n ∧ id = Ids.idOf ("state-" ++ slug name) n

theorem drawnFor_draw (ids : Ids) (name : String) :
    DrawnFor name (ids.draw ("state-" ++ slug name)).1 :=
  ⟨ids.count ("state-" ++ slug name) + 1, Nat.succ_pos _, rfl⟩

/-- The number comes after the last dash, and before it there is more than the stem of an editor. -/
theorem DrawnFor.ne_idOf {name id : String} (h : DrawnFor name id) (n : Nat) :
    id ≠ Ids.idOf "state" n := by
  obtain ⟨m, -, rfl⟩ := h
  intro heq
  obtain ⟨hstem, -⟩ := Ids.idOf_inj heq
  have hlength := congrArg String.length hstem
  rw [String.length_append] at hlength
  have hlong : "state-".length = 6 := rfl
  have hshort : "state".length = 5 := rfl
  omega

theorem stopId_ne_idOf (stem : String) (n : Nat) : stopId ≠ Ids.idOf stem n :=
  Ids.ne_idOf_of_dash_not_mem (by decide) stem n

/-! ### states as they are read -/

/-- A state with the reserved id, or one that is drawn for its name. -/
def Labelled (s : State) : Prop := s.id = stopId ∨ DrawnFor s.name s.id

theorem Labelled.ne_idOf {s : State} (h : Labelled s) (n : Nat) : s.id ≠ Ids.idOf "state" n := by
  rcases h with hstop | hdrawn
  · rw [hstop]
    exact stopId_ne_idOf "state" n
  · exact hdrawn.ne_idOf n

section
variable {startName : String} {r r' : StateReading} {e : Element} {es : List Element}

/-- **One more element gives one more state of this kind, or none.** -/
theorem Adds.labelled (hadds : Adds startName r e r') (h : ∀ s ∈ r.states, Labelled s) :
    ∀ s ∈ r'.states, Labelled s := by
  cases hadds with
  | passed => exact h
  | final new read final first id => exact List.forall_mem_cons.mpr ⟨.inl id, h⟩
  | @other s new read other id =>
    refine List.forall_mem_cons.mpr ⟨.inr ?_, h⟩
    rw [id]
    exact drawnFor_draw r.ids s.name

/-- **So all states are, whatever the elements say and wherever the ids come from.** -/
theorem labelled_foldlM (hread : es.foldlM (addState startName) r = .ok r')
    (h : ∀ s ∈ r.states, Labelled s) : ∀ s ∈ r'.states, Labelled s := by
  induction es generalizing r with
  | nil =>
    cases hread
    exact h
  | cons e es ih =>
    rw [List.foldlM_cons, bind_eq_ok_iff] at hread
    obtain ⟨r₁, hr₁, hread⟩ := hread
    exact ih hread ((adds_of_addState hr₁).labelled h)

end

/-- Neither the transitions nor a stop state that is added change that. -/
theorem labelled_programOf {startName : String} {machine : Element} {r : StateReading}
    (hgathered : Gathered startName (machine.allNamed "XmlState") r)
    (h : ∀ s ∈ r.states, Labelled s) : ∀ s ∈ (programOf machine r).states, Labelled s := by
  show ∀ s ∈ filledStates machine r ++ (if r.stop.isSome then [] else [stopState]), Labelled s
  rw [List.forall_mem_append]
  constructor
  · intro s' hs'
    obtain ⟨s, hs, hfilled⟩ := exists_of_mem_right hgathered.attached.states hs'
    have hid : s'.id = s.id := by rw [hfilled.same]
    have hname : s'.name = s.name := by rw [hfilled.same]
    have hs : Labelled s := h s (List.mem_reverse.mp hs)
    unfold Labelled at hs ⊢
    rwa [hid, hname]
  · split
    · exact List.forall_mem_nil _
    · exact List.forall_mem_singleton.mpr (.inl rfl)

/-! ### programs -/

/-- The id of a state that is read from an element: the reserved one for the final state, and
another one, drawn for its name, for any other. -/
structure Identified (machine : Element) (e : Element) (s : State) : Prop where
  name : s.name = stateName e
  final : stopElement? machine = some e → s.id = stopId
  other : stopElement? machine ≠ some e → s.id ≠ stopId ∧ DrawnFor s.name s.id

theorem identified {machine e : Element} {ss : List State} {a : Automaton} {s : State}
    (h : ReadAs machine ss a) (hread : StateOf machine a e s) (he : e ∈ keptStates machine)
    (hs : Labelled s) : Identified machine e s := by
  have hstop : s.id = stopId ↔ (stopElement? machine).map stateName = some (stateName e) := by
    rw [← h.stop, ← hread.name]
    exact hread.stop
  constructor
  case name => exact hread.name
  case final =>
    intro hfinal
    rw [hstop, hfinal]
    rfl
  case other =>
    intro hother
    have hne : s.id ≠ stopId := by
      rw [ne_eq, hstop]
      intro hname
      -- of the elements that are kept only one has the name
      obtain ⟨d, hd, hde⟩ := Option.map_eq_some_iff.mp hname
      have hkept := List.mem_of_find?_eq_some hd
      have heq : d = e := List.inj_on_of_nodup_map (nodup_firsts _) hkept he hde
      exact hother (heq ▸ hd)
    exact ⟨hne, hs.resolve_left hne⟩

/-- **Every state that is read has the id that its element asks for.** -/
theorem exists_identified {ids : Ids} {content : String} {a : Automaton}
    (h : readAutomatonFrom ids content = .ok a) :
    (∃ machine ss, machine? content = some machine ∧
      a.states = ss ++ (if (stopElement? machine).isSome then [] else [stopState]) ∧
      List.Forall₂ (Identified machine) (keptStates machine) ss) ∧
    ∀ s ∈ a.states, Labelled s := by
  obtain ⟨root, hparse, hroot⟩ := readAutomatonFrom_eq_ok_iff.mp h
  obtain ⟨machine, r, hfind, hr, rfl⟩ := exists_programOf hroot
  have hgathered := (Gathered.nothing ids).foldlM hr
  have hread := hgathered.readAs
  have hlabelled := labelled_programOf hgathered (labelled_foldlM hr fun _ hs => nomatch hs)
  refine ⟨⟨machine, _, machine?_eq_some_iff.mpr ⟨root, hparse, hfind⟩, hread.states, ?_⟩, hlabelled⟩
  rw [hread.states, List.forall_mem_append] at hlabelled
  have hkept := (List.forall₂_and_left _ _).mpr ⟨fun e he => he, hread.read⟩
  have hboth := (List.forall₂_and_left _ _).mpr ⟨hlabelled.1, hkept.flip⟩
  exact hboth.flip.imp fun e s ⟨hs, he, hstate⟩ => identified hread hstate he hs

/-- **Ids are kept apart.** A source gives no id twice, whatever the stems are and whatever it has
given before; a name goes into a stem as a slug, and a slug as it is. So the reserved id is that of
the final state alone, or of the stop state that is added where no state is final: any other state
that is read has an id that is drawn for its name. And whatever source an editor draws from, a
state that it adds to any program has an id that no state that is read has. -/
theorem ids_kept_apart :
    (∀ (ids : Ids) (stems : List String),
      (ids.drawAll stems).length = stems.length ∧ (ids.drawAll stems).Nodup) ∧
    (∀ name, IsSlug (slug name) ∧ slug (slug name) = slug name) ∧
    (∀ content, readAutomatonXml content = readAutomatonFrom {} content) ∧
    ∀ (ids : Ids) (content : String) (a : Automaton), readAutomatonFrom ids content = .ok a →
      (∃ machine ss, machine? content = some machine ∧
        a.states = ss ++ (if (stopElement? machine).isSome then [] else [stopState]) ∧
        List.Forall₂ (Identified machine) (keptStates machine) ss) ∧
      ∀ (b : Automaton) (others : Ids) (name : String) (x y : Option Binary),
        ∃ s, (b.addState others name x y).1.states = b.states ++ [s] ∧
          s.id = Ids.idOf "state" (others.count "state" + 1) ∧
          s.id ≠ stopId ∧ s.id ∉ stateIds a.states := by
  refine ⟨fun ids stems => ⟨Ids.length_drawAll ids stems, Ids.nodup_drawAll ids stems⟩,
    fun name => ⟨isSlug_slug name, slug_slug name⟩,
    fun content => (readAutomatonFrom_nothing content).symm, ?_⟩
  intro ids content a h
  obtain ⟨hidentified, hlabelled⟩ := exists_identified h
  refine ⟨hidentified, fun b others name x y => ⟨_, rfl, rfl, ?_, ?_⟩⟩
  · exact Ne.symm (stopId_ne_idOf "state" _)
  · intro hmem
    obtain ⟨s, hs, hid⟩ := Automaton.mem_stateIds.mp hmem
    exact (hlabelled s hs).ne_idOf _ hid

/-- names that look like the end of an id or like nothing, two that go into ids alike, and the final
state -/
def musterText : String :=
  "<XmlStateMachine startState='1'><XmlState name='1'/><XmlState name='?!'/>
    <XmlState name='State 1'/><XmlState name='state'/><XmlState finalstate='true' name='Stop'/>
  </XmlStateMachine>"

/-- a source that has given an id for the first of these names -/
def musterIds : Ids := (Ids.draw {} "state-1").2

def muster : Automaton where
  states := [{ id := "state-1-2", name := "1", x := .ofInt 100, y := .ofInt 100 },
    { id := "state-state-1", name := "?!", x := .ofInt 100, y := .ofInt 100 },
    { id := "state-state-1-1", name := "State 1", x := .ofInt 100, y := .ofInt 100 },
    { id := "state-state-2", name := "state", x := .ofInt 100, y := .ofInt 100 },
    { id := "stop", name := "Stop", x := .ofInt 100, y := .ofInt 100 }]
  start := some "state-1-2"

set_option maxRecDepth 4000 in
theorem muster_kept_apart :
    (Ids.drawAll {} ["state-a", "state-a-1", "state-a", "state"]).Nodup ∧
    IsSlug (slug "Größe 2") ∧ slug (slug "Größe 2") = slug "Größe 2" ∧
    readAutomatonFrom musterIds musterText = .ok muster ∧
      (∃ machine ss, machine? musterText = some machine ∧
        muster.states = ss ++ (if (stopElement? machine).isSome then [] else [stopState]) ∧
        List.Forall₂ (Identified machine) (keptStates machine) ss) ∧
      ∀ (b : Automaton) (others : Ids) (name : String) (x y : Option Binary),
        ∃ s, (b.addState others name x y).1.states = b.states ++ [s] ∧
          s.id = Ids.idOf "state" (others.count "state" + 1) ∧
          s.id ≠ stopId ∧ s.id ∉ stateIds muster.states := by
  obtain ⟨hnodup, hslug, -, hread⟩ := ids_kept_apart
  have hmuster : readAutomatonFrom musterIds musterText = .ok muster := by
    rw [readAutomatonFrom, show parseXml ".kara" musterText = _ from parseXml_ofList _ _]
    decide +kernel
  exact ⟨(hnodup {} _).2, (hslug _).1, (hslug _).2, hmuster,
    hread musterIds musterText muster hmuster⟩

end Ladybug.Exchange

import Ladybug.Exchange.AutomatonXml
import Ladybug.Proofs.Automaton.Edited
import Ladybug.Proofs.Exchange.Documents
import Ladybug.Proofs.Intake
import Mathlib.Data.List.Induction

/-!
# States that are read from XML

The states of a document are read one after the other. A name that is there already is passed over,
the first final state is the stop state, and any other one gets an id that is drawn for it.

* `firsts`              the elements whose states are kept, the first of each name
* `HasPlace`            an element whose place can be read, which is all that can be wrong
* `Adds`                what one more element comes to
* `Gathered`            what has been read after some elements
* `Gathered.foldlM`     it stays so, whatever the elements say
-/

namespace Ladybug.Exchange

open Xml (Element)
open Automaton (State stopId stateIds)

/-- Lists that belong together item by item have in common what their items have. -/
theorem map_eq_of_forall₂ {α β γ : Type} {R : α → β → Prop} {f : α → γ} {g : β → γ} {as : List α}
    {bs : List β} (h : List.Forall₂ R as bs) (hR : ∀ a b, R a b → f a = g b) :
    as.map f = bs.map g := by
  rw [← List.forall₂_eq_eq_eq, List.forall₂_map_left_iff, List.forall₂_map_right_iff]
  exact h.imp hR

/-- What belongs together through a third list. -/
theorem forall₂_comp {α β γ : Type} {R : α → β → Prop} {S : β → γ → Prop} {as : List α}
    {bs : List β} {cs : List γ} (h : List.Forall₂ R as bs) (h' : List.Forall₂ S bs cs) :
    List.Forall₂ (fun a c => ∃ b, R a b ∧ S b c) as cs := by
  induction h generalizing cs with
  | nil =>
    cases h'
    exact .nil
  | cons first _ ih =>
    cases h' with
    | cons first' rest => exact .cons ⟨_, first, first'⟩ (ih rest)

/-! ### elements that are kept -/

/-- One more element, unless one with the same name is there. -/
def keepFirst (es : List Element) (e : Element) : List Element :=
  if stateName e ∈ es.map stateName then es else es ++ [e]

/-- The first element of each name. -/
def firsts (es : List Element) : List Element := es.foldl keepFirst []

theorem firsts_concat (es : List Element) (e : Element) :
    firsts (es ++ [e]) = keepFirst (firsts es) e := by
  rw [firsts, List.foldl_append]
  rfl

theorem mem_of_mem_firsts {es : List Element} {e : Element} (h : e ∈ firsts es) : e ∈ es := by
  induction es using List.reverseRecOn with
  | nil => cases h
  | append_singleton es d ih =>
    rw [firsts_concat, keepFirst] at h
    rw [List.mem_append]
    split at h
    · exact .inl (ih h)
    · exact (List.mem_append.mp h).imp_left ih

/-- No name is lost. -/
theorem mem_names_firsts {es : List Element} {name : String} :
    name ∈ (firsts es).map stateName ↔ name ∈ es.map stateName := by
  induction es using List.reverseRecOn with
  | nil => rfl
  | append_singleton es e ih =>
    rw [firsts_concat, List.map_append, List.mem_append, List.map_singleton, List.mem_singleton,
      ← ih, keepFirst]
    split
    · rename_i hmem
      exact ⟨.inl, Or.rec id fun h => h ▸ hmem⟩
    · rw [List.map_append, List.mem_append, List.map_singleton, List.mem_singleton]

theorem nodup_firsts (es : List Element) : ((firsts es).map stateName).Nodup := by
  induction es using List.reverseRecOn with
  | nil => exact List.nodup_nil
  | append_singleton es e ih =>
    rw [firsts_concat, keepFirst]
    split
    · exact ih
    · rename_i hnew
      rw [List.map_append, List.map_singleton]
      exact nodup_append_singleton.mpr ⟨hnew, ih⟩

/-- All elements are kept where no name is there twice. -/
theorem firsts_of_nodup {es : List Element} (h : (es.map stateName).Nodup) : firsts es = es := by
  induction es using List.reverseRecOn with
  | nil => rfl
  | append_singleton es e ih =>
    rw [List.map_append, List.map_singleton, nodup_append_singleton] at h
    rw [firsts_concat, ih h.2, keepFirst, if_neg h.1]

/-! ### one more state -/

def isFinal (e : Element) : Bool := e.attribute? "finalstate" == some "true"

/-- An attribute that is not there, or a number. -/
def HasNumber (e : Element) (name : String) : Prop :=
  ∀ value, e.attribute? name = some value → (Decimal.number? value).isSome = true

/-- an element of a state whose place can be read -/
def HasPlace (e : Element) : Prop := HasNumber e "x" ∧ HasNumber e "y"

theorem exists_numberAttribute {e : Element} {name : String} (h : HasNumber e name)
    (default : Binary) : ∃ x, numberAttribute e name default = .ok x := by
  unfold numberAttribute
  cases hvalue : e.attribute? name with
  | none => exact ⟨default, rfl⟩
  | some value =>
    obtain ⟨x, hx⟩ := Option.isSome_iff_exists.mp (h value hvalue)
    exact ⟨x, by simp only [hx]⟩

/-- A state that has been read from an element. Its transitions follow later. -/
structure StateRead (e : Element) (s : State) : Prop where
  name : s.name = stateName e
  x : numberAttribute e "x" defaultPlace = .ok s.x
  y : numberAttribute e "y" defaultPlace = .ok s.y
  transitions : s.transitions = []
  detectors : s.detectors = sensorsOf e

/-- What has been read with one more state. -/
def StateReading.push (r : StateReading) (startName : String) (s : State) (stop : Option String)
    (ids : Ids) : StateReading where
  states := s :: r.states
  stop := stop
  start := if s.name == startName then some s.id else r.start
  ids := ids

/-- What one more element comes to: nothing where its name is there, the stop state where it is
the first final one, and else a state under an id that is drawn. -/
inductive Adds (startName : String) (r : StateReading) (e : Element) : StateReading → Prop where
  | passed (known : stateName e ∈ r.states.map State.name) : Adds startName r e r
  | final {s : State} (new : stateName e ∉ r.states.map State.name) (read : StateRead e s)
      (final : isFinal e = true) (first : r.stop = none) (id : s.id = stopId) :
      Adds startName r e (r.push startName s (some stopId) r.ids)
  | other {s : State} (new : stateName e ∉ r.states.map State.name) (read : StateRead e s)
      (other : isFinal e = true → r.stop ≠ none)
      (id : s.id = (r.ids.draw ("state-" ++ slug s.name)).1) :
      Adds startName r e
        (r.push startName s r.stop (r.ids.draw ("state-" ++ slug s.name)).2)

section
variable {startName : String} {r r' : StateReading} {e : Element} {es : List Element}

theorem any_name_iff {ss : List State} {name : String} :
    (ss.any fun s => s.name == name) = true ↔ name ∈ ss.map State.name := by
  simp [List.any_eq_true, List.mem_map]

theorem adds_of_addState (h : addState startName r e = .ok r') : Adds startName r e r' := by
  unfold addState at h
  by_cases hknown : (r.states.any fun s => s.name == stateName e) = true
  · rw [if_pos hknown] at h
    cases h
    exact .passed (any_name_iff.mp hknown)
  · rw [if_neg hknown] at h
    have hnew := fun hmem => hknown (any_name_iff.mpr hmem)
    by_cases hfinal : (isFinal e && r.stop.isNone) = true
    · obtain ⟨hfin, hstop⟩ := Bool.and_eq_true_iff.mp hfinal
      simp only [isFinal] at hfinal
      simp only [hfinal, ↓reduceIte, bind_eq_ok_iff] at h
      obtain ⟨x, hx, y, hy, ⟨⟩⟩ := h
      exact .final hnew ⟨rfl, hx, hy, rfl, rfl⟩ hfin (Option.isNone_iff_eq_none.mp hstop) rfl
    · have hother : isFinal e = true → r.stop ≠ none := fun hfin hnone =>
        hfinal (by rw [hfin, hnone]; rfl)
      simp only [isFinal] at hfinal
      simp only [hfinal, bind_eq_ok_iff] at h
      obtain ⟨x, hx, y, hy, ⟨⟩⟩ := h
      exact .other hnew ⟨rfl, hx, hy, rfl, rfl⟩ hother rfl

theorem exists_addState (h : HasPlace e) : ∃ r', addState startName r e = .ok r' := by
  obtain ⟨x, hx⟩ := exists_numberAttribute h.1 defaultPlace
  obtain ⟨y, hy⟩ := exists_numberAttribute h.2 defaultPlace
  unfold addState
  by_cases hknown : (r.states.any fun s => s.name == stateName e) = true
  · exact ⟨r, if_pos hknown⟩
  · rw [if_neg hknown]
    simp only [hx, hy]
    exact ⟨_, rfl⟩

/-- All states are read where all places can be. -/
theorem exists_foldlM_addState (h : ∀ e ∈ es, HasPlace e) (r : StateReading) :
    ∃ r', es.foldlM (addState startName) r = .ok r' := by
  induction es generalizing r with
  | nil => exact ⟨r, rfl⟩
  | cons e es ih =>
    rw [List.forall_mem_cons] at h
    obtain ⟨r₁, hr₁⟩ : ∃ r₁, addState startName r e = .ok r₁ := exists_addState h.1
    obtain ⟨r', hr'⟩ := ih h.2 r₁
    exact ⟨r', by rw [List.foldlM_cons, hr₁]; exact hr'⟩

end

/-! ### all states -/

/-- The names and the ids of states are all that finding an id takes. -/
theorem idOfName?_eq_find?_map (ss : List State) (name : String) :
    idOfName? ss name
      = ((ss.map fun s => (s.name, s.id)).find? fun p => p.1 == name).map Prod.snd := by
  rw [List.find?_map, Option.map_map]
  rfl

theorem idOfName?_concat (ss : List State) (s : State) (name : String) :
    idOfName? (ss ++ [s]) name
      = (idOfName? ss name).or (if s.name == name then some s.id else none) := by
  unfold idOfName?
  rw [List.find?_append]
  cases ss.find? fun s => s.name == name with
  | some u => rfl
  | none =>
    by_cases h : s.name == name
    · simp [h]
    · simp [h]

theorem idOfName?_eq_none_iff {ss : List State} {name : String} :
    idOfName? ss name = none ↔ name ∉ ss.map State.name := by
  rw [idOfName?, Option.map_eq_none_iff, List.find?_eq_none, List.mem_map]
  simp only [beq_iff_eq, not_exists, not_and]

/-- What has been read after some elements. The first final one is that of the stop state. -/
structure Gathered (startName : String) (done : List Element) (r : StateReading) : Prop where
  states : List.Forall₂ StateRead (firsts done) r.states.reverse
  ids : (stateIds r.states.reverse).Nodup
  given : ∀ id ∈ stateIds r.states.reverse, id = stopId ∨ r.ids.Gave id
  stop : r.stop = ((firsts done).find? isFinal).map fun _ => stopId
  final : ∀ s ∈ r.states.reverse,
    s.id = stopId ↔ ((firsts done).find? isFinal).map stateName = some s.name
  start : r.start = idOfName? r.states.reverse startName

namespace Gathered

variable {startName : String} {done es : List Element} {r r' : StateReading} {e : Element}

theorem nothing (ids : Ids) : Gathered startName [] { ids } where
  states := .nil
  ids := List.nodup_nil
  given := fun _ hi => nomatch hi
  stop := rfl
  final := fun _ hs => nomatch hs
  start := rfl

theorem names (h : Gathered startName done r) :
    r.states.reverse.map State.name = (firsts done).map stateName :=
  (map_eq_of_forall₂ h.states fun _ _ hread => hread.name.symm).symm

theorem mem_names (h : Gathered startName done r) {name : String} :
    name ∈ r.states.map State.name ↔ name ∈ (firsts done).map stateName := by
  rw [← h.names, List.map_reverse, List.mem_reverse]

/-- Names that are there twice do not get this far. -/
theorem nodup_names (h : Gathered startName done r) :
    (r.states.reverse.map State.name).Nodup := by
  rw [h.names]
  exact nodup_firsts done

/-- The stop state is there as soon as one is final. -/
theorem stopId_mem_iff (h : Gathered startName done r) :
    stopId ∈ stateIds r.states.reverse ↔ r.stop = some stopId := by
  rw [h.stop]
  constructor
  · intro hmem
    obtain ⟨s, hs, hid⟩ := Automaton.mem_stateIds.mp hmem
    obtain ⟨e, he, -⟩ := Option.map_eq_some_iff.mp ((h.final s hs).mp hid)
    rw [he]
    rfl
  · intro hstop
    obtain ⟨e, he, -⟩ := Option.map_eq_some_iff.mp hstop
    have hname : stateName e ∈ r.states.reverse.map State.name := by
      rw [h.names]
      exact List.mem_map_of_mem (List.mem_of_find?_eq_some he)
    obtain ⟨s, hs, hse⟩ := List.mem_map.mp hname
    refine Automaton.mem_stateIds.mpr ⟨s, hs, (h.final s hs).mpr ?_⟩
    rw [he, Option.map_some, hse]

theorem draw_not_mem (h : Gathered startName done r) (stem : String) :
    (r.ids.draw stem).1 ≠ stopId ∧ (r.ids.draw stem).1 ∉ stateIds r.states.reverse := by
  have hne := Automaton.draw_ne_stopId r.ids stem
  refine ⟨hne, fun hmem => ?_⟩
  rcases h.given _ hmem with e | hg
  · exact hne e
  · exact Ids.not_gave_draw r.ids stem hg

/-- One more state, with an id that no state so far has. -/
theorem push (h : Gathered startName done r) {s : State} {stop : Option String} {ids : Ids}
    (hnew : stateName e ∉ r.states.map State.name) (hread : StateRead e s)
    (hid : s.id ∉ stateIds r.states.reverse) (hids : ∀ id, r.ids.Gave id → ids.Gave id)
    (hgiven : s.id = stopId ∨ ids.Gave s.id)
    (hstop : stop = ((firsts done ++ [e]).find? isFinal).map fun _ => stopId)
    (hfinal : ∀ u ∈ r.states.reverse ++ [s],
      u.id = stopId ↔ ((firsts done ++ [e]).find? isFinal).map stateName = some u.name) :
    Gathered startName (done ++ [e]) (r.push startName s stop ids) := by
  have hfirsts : firsts (done ++ [e]) = firsts done ++ [e] := by
    rw [firsts_concat, keepFirst, if_neg fun hmem => hnew (h.mem_names.mpr hmem)]
  have hstates : (r.push startName s stop ids).states.reverse = r.states.reverse ++ [s] :=
    List.reverse_cons
  constructor
  case states =>
    rw [hfirsts, hstates]
    exact List.rel_append h.states (.cons hread .nil)
  case ids =>
    rw [hstates, Automaton.stateIds_append_singleton]
    exact nodup_append_singleton.mpr ⟨hid, h.ids⟩
  case given =>
    rw [hstates, Automaton.stateIds_append_singleton]
    intro id hi
    rcases List.mem_append.mp hi with hi | hi
    · exact (h.given id hi).imp_right (hids id)
    · exact List.mem_singleton.mp hi ▸ hgiven
  case stop => rw [hfirsts]; exact hstop
  case final => rw [hfirsts, hstates]; exact hfinal
  case start =>
    rw [hstates, idOfName?_concat, ← h.start]
    show (if s.name == startName then some s.id else r.start) = _
    by_cases hs : s.name = startName
    · have hnone : r.start = none := by
        rw [h.start, idOfName?_eq_none_iff, List.map_reverse, List.mem_reverse, ← hs, hread.name]
        exact hnew
      simp only [hs, hnone, beq_self_eq_true, ↓reduceIte, Option.none_or]
    · have hs' : (s.name == startName) = false := beq_eq_false_iff_ne.mpr hs
      simp only [hs', Bool.false_eq_true, ↓reduceIte, Option.or_none]

/-- **What one more element comes to keeps it so.** -/
theorem adds (h : Gathered startName done r) (hadds : Adds startName r e r') :
    Gathered startName (done ++ [e]) r' := by
  cases hadds with
  | passed known =>
    have hfirsts : firsts (done ++ [e]) = firsts done := by
      rw [firsts_concat, keepFirst, if_pos (h.mem_names.mp known)]
    exact { h with states := hfirsts ▸ h.states, stop := hfirsts ▸ h.stop, final := hfirsts ▸ h.final }
  | @final s new read final first id =>
    -- no element so far is final, so this is the first one
    have hnone : (firsts done).find? isFinal = none := by
      rw [h.stop, Option.map_eq_none_iff] at first
      exact first
    have hfind : (firsts done ++ [e]).find? isFinal = some e := by
      rw [List.find?_append, hnone, Option.none_or, List.find?_cons_of_pos final]
    have hfresh : stopId ∉ stateIds r.states.reverse := by
      rw [h.stopId_mem_iff, first]
      exact nofun
    refine h.push new read (id ▸ hfresh) (fun _ hg => hg) (.inl id) ?_ ?_
    · rw [hfind, Option.map_some]
    · rw [hfind, Option.map_some, List.forall_mem_append, List.forall_mem_singleton]
      refine ⟨fun u hu => iff_of_false ?_ ?_, iff_of_true id (by rw [read.name])⟩
      · exact fun hstop => hfresh (Automaton.mem_stateIds.mpr ⟨u, hu, hstop⟩)
      · intro hname
        refine new (List.mem_map.mpr ⟨u, List.mem_reverse.mp hu, ?_⟩)
        exact (Option.some.inj hname).symm
  | @other s new read other id =>
    obtain ⟨hne, hfresh⟩ := h.draw_not_mem ("state-" ++ slug s.name)
    have hfind : (firsts done ++ [e]).find? isFinal = (firsts done).find? isFinal := by
      rw [List.find?_append]
      cases hfirst : (firsts done).find? isFinal with
      | some f => rfl
      | none =>
        rw [Option.none_or, List.find?_cons_of_neg, List.find?_nil]
        intro hfin
        refine other hfin ?_
        rw [h.stop, hfirst]
        rfl
    refine h.push new read (id ▸ hfresh) (fun _ hg => hg.draw _) (.inr (id ▸ Ids.gave_draw ..)) ?_ ?_
    · rw [hfind]
      exact h.stop
    · rw [hfind, List.forall_mem_append, List.forall_mem_singleton]
      refine ⟨h.final, iff_of_false (id ▸ hne) fun hname => ?_⟩
      obtain ⟨f, hf, hfe⟩ := Option.map_eq_some_iff.mp hname
      refine new (h.mem_names.mpr ?_)
      rw [← read.name, ← hfe]
      exact List.mem_map_of_mem (List.mem_of_find?_eq_some hf)

/-- **So it is after all elements.** -/
theorem foldlM (h : Gathered startName done r)
    (hread : es.foldlM (addState startName) r = .ok r') : Gathered startName (done ++ es) r' := by
  induction es generalizing done r with
  | nil =>
    cases hread
    rwa [List.append_nil]
  | cons e es ih =>
    rw [List.foldlM_cons, bind_eq_ok_iff] at hread
    obtain ⟨r₁, hr₁, hread⟩ := hread
    have := ih (h.adds (adds_of_addState hr₁)) hread
    rwa [List.append_assoc] at this

end Gathered

end Ladybug.Exchange

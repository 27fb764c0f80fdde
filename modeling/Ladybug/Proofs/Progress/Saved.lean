import Ladybug.Proofs.Files
import Ladybug.Proofs.Progress.Record

/-!
# Stores that keep what is saved

A file that could be written once can be written again, and what is written is read back, so a store
in a file keeps its records as one in memory does. Only the order differs.

* `Store.Placing`       a way to put a record in the place of another of its scenario
* `Store.Keeps`         a store that keeps some records
* `Keeps.save`          a record that is saved is put in its place
* `Keeps.clear`         nothing is left
* `keeps_file`          a file that can be read and written
-/

namespace Ladybug.Store

/-! ### one record in the place of another -/

/-- A way to put a record in the place of another of its scenario. -/
structure Placing (place : Progress → List Progress → List Progress) : Prop where
  found : ∀ p records scenario, ofScenario? (place p records) scenario
    = if p.scenario = scenario then some p else ofScenario? records scenario
  scenarios : ∀ p records, (records.map Progress.scenario).Nodup →
    ((place p records).map Progress.scenario).Nodup
  mem : ∀ p records, ∀ q ∈ place p records, q = p ∨ q ∈ records

/-- What holds of a record and of those before it holds of all of them after it took its place. -/
theorem Placing.forall_mem {place : Progress → List Progress → List Progress} (h : Placing place)
    {P : Progress → Prop} {p : Progress} (hp : P p) {records : List Progress}
    (hrecords : ∀ q ∈ records, P q) : ∀ q ∈ place p records, P q := by
  intro q hq
  rcases h.mem p records q hq with rfl | hq
  · exact hp
  · exact hrecords q hq

theorem mem_put {p q : Progress} {records : List Progress} (h : q ∈ put p records) :
    q = p ∨ q ∈ records := by
  induction records with
  | nil => exact .inl (List.mem_singleton.mp h)
  | cons r rs ih =>
    unfold put at h
    split_ifs at h
    · rcases List.mem_cons.mp h with rfl | h
      · exact .inl rfl
      · exact .inr (List.mem_cons_of_mem r h)
    · rcases List.mem_cons.mp h with rfl | h
      · exact .inr List.mem_cons_self
      · exact (ih h).imp id (List.mem_cons_of_mem r)

theorem ofScenario?_put (p : Progress) (records : List Progress) (scenario : String) :
    ofScenario? (put p records) scenario
      = if p.scenario = scenario then some p else ofScenario? records scenario := by
  induction records with
  | nil => simp [ofScenario?, put]
  | cons r rs ih =>
    unfold put
    by_cases hr : r.scenario = p.scenario
    · rw [if_pos (beq_iff_eq.mpr hr)]
      by_cases hp : p.scenario = scenario
      · simp [ofScenario?, hp]
      · simp [ofScenario?, hr, hp]
    · rw [if_neg (by simpa using hr)]
      by_cases hrs : r.scenario = scenario
      · have hp : p.scenario ≠ scenario := fun hp => hr (hrs.trans hp.symm)
        simp [ofScenario?, hrs, hp]
      · simpa [ofScenario?, hrs] using ih

/-- A scenario that is there keeps its place. -/
theorem scenarios_put (p : Progress) (records : List Progress) :
    (put p records).map Progress.scenario
      = if p.scenario ∈ records.map Progress.scenario then records.map Progress.scenario
        else records.map Progress.scenario ++ [p.scenario] := by
  induction records with
  | nil => simp [put]
  | cons r rs ih =>
    unfold put
    by_cases hr : r.scenario = p.scenario
    · simp [hr]
    · have hr' : p.scenario ≠ r.scenario := Ne.symm hr
      rw [if_neg (by simpa using hr), List.map_cons, ih, List.map_cons]
      by_cases hmem : p.scenario ∈ rs.map Progress.scenario
      · rw [if_pos hmem, if_pos (List.mem_cons_of_mem _ hmem)]
      · rw [if_neg hmem, if_neg (by simp [hr', hmem]), List.cons_append]

theorem placing_put : Placing put where
  found := ofScenario?_put
  scenarios p records h := by
    rw [scenarios_put]
    split_ifs with hmem
    · exact h
    · exact nodup_append_singleton.mpr ⟨hmem, h⟩
  mem _ _ _ := mem_put

theorem placing_putLast : Placing putLast where
  found p records scenario := by
    by_cases hp : p.scenario = scenario
    · have hnone : (records.filter fun q => q.scenario != p.scenario).find?
          (fun q => q.scenario == scenario) = none := by
        simp [hp]
      simp only [ofScenario?, putLast, List.find?_append, hnone]
      simp [hp]
    · have hkept := find?_others Progress.scenario (Ne.symm hp) records
      simp only [ofScenario?, putLast, List.find?_append, hkept]
      simp [hp]
  scenarios p records h := by
    rw [putLast, List.map_append, List.map_singleton]
    refine nodup_append_singleton.mpr
      ⟨fun hmem => ?_, h.sublist (List.filter_sublist.map _)⟩
    obtain ⟨q, hq, hname⟩ := List.mem_map.mp hmem
    have hne := (List.mem_filter.mp hq).2
    rw [hname, bne_self_eq_false] at hne
    cases hne
  mem p records q h := by
    rcases List.mem_append.mp h with h | h
    · exact .inr (List.mem_of_mem_filter h)
    · exact .inl (List.mem_singleton.mp h)

/-- Records of different scenarios are found under their scenarios. -/
theorem mem_iff_ofScenario? {records : List Progress}
    (h : (records.map Progress.scenario).Nodup) {p : Progress} :
    p ∈ records ↔ ofScenario? records p.scenario = some p :=
  ⟨find?_of_nodup h, List.mem_of_find?_eq_some⟩

/-! ### stores -/

theorem get_of_load {s : Store} {r : Except StoreError (List Progress)} (h : s.load = r)
    (scenario : String) : s.get scenario = r.map fun records => ofScenario? records scenario := by
  rw [get, h]

/-- A store that keeps records, putting a new one in its place in one way. A file, once the
directories on its way are made, takes what is written; and it is read as the records. -/
inductive Keeps : (Progress → List Progress → List Progress) → Store → List Progress → Prop where
  | memory (records : List Progress) : Keeps put (.memory records) records
  | file {files made : Files} {path : Path} {records : List Progress}
      (named : path.name.isEmpty = false) (noNull : path.hasNull = false)
      (way : files.makeDirectories path.parent = (made, true))
      (takes : made.Takes (temporary path) path) (kept : read files path = .ok records) :
      Keeps putLast (.file files path) records

section
variable {place : Progress → List Progress → List Progress} {s : Store} {records : List Progress}

theorem Keeps.placing (h : Keeps place s records) : Placing place := by
  cases h with
  | memory => exact placing_put
  | file => exact placing_putLast

theorem Keeps.load (h : Keeps place s records) : s.load = .ok records := by
  cases h with
  | memory => rfl
  | file _ _ _ _ kept => exact kept

/-- A file that is written is read as its records. -/
theorem readText_of_entry? {files : Files} {path : Path} {records : List Progress}
    (hnull : path.hasNull = false)
    (h : files.entry? path = some (.file (Text.encode (fileText records).toList))) :
    files.readText path = .ok (fileText records) := by
  have hwritten : ∀ c ∈ (fileText records).toList, Json.Written c :=
    Json.written_indented (fileDatum records)
  have hascii : ∀ c ∈ (fileText records).toList, c.toNat < 0x80 := by
    intro c hc
    rcases hwritten c hc with rfl | ⟨-, hlt⟩
    · decide
    · exact hlt
  have hreturn : '\r' ∉ (fileText records).toList := fun hm => absurd (hwritten _ hm) (by decide)
  rw [Files.readText, hnull, if_neg Bool.false_ne_true, h]
  exact Files.textOf_encode hascii hreturn

theorem parent_hasNull {path : Path} (h : path.hasNull = false) : path.parent.hasNull = false := by
  rw [Path.hasNull, List.any_eq_false] at h ⊢
  exact fun name hname => h name (List.mem_of_mem_dropLast hname)

/-- **Records that are written are kept.** -/
theorem keeps_writeFile {files made : Files} {path : Path} (named : path.name.isEmpty = false)
    (noNull : path.hasNull = false) (way : files.makeDirectories path.parent = (made, true))
    (takes : made.Takes (temporary path) path) (hlegible : ∀ p ∈ records, p.Legible) :
    ∃ s', writeFile files path records = (s', .ok ()) ∧ Keeps putLast s' records := by
  obtain ⟨written, renamed, hwrite, hrename, hfound, hagain⟩ :=
    takes.rename_write (Text.encode (fileText records).toList)
  refine ⟨.file renamed path, ?_, ?_⟩
  · simp only [writeFile, named, parent_hasNull noNull, noNull, write, way, hwrite, hrename,
      Bool.false_eq_true, ↓reduceIte, Bool.not_true]
  · have hread : read renamed path = .ok records := by
      rw [read, readText_of_entry? noNull hfound]
      exact readRecords_fileText hlegible path
    exact .file named noNull hagain.way.makeFrom hagain hread

/-- **A record that is saved is put in its place.** -/
theorem Keeps.save (h : Keeps place s records) {p : Progress}
    (hlegible : ∀ q ∈ place p records, q.Legible) :
    ∃ s', s.save p = (s', .ok ()) ∧ Keeps place s' (place p records) := by
  cases h with
  | memory => exact ⟨_, rfl, .memory _⟩
  | file named noNull way takes kept =>
    obtain ⟨s', hsaved, hkeeps⟩ := keeps_writeFile named noNull way takes hlegible
    refine ⟨s', ?_, hkeeps⟩
    simp only [save, kept, hsaved]

/-- **Nothing is left of a store that is cleared.** -/
theorem Keeps.clear (h : Keeps place s records) :
    ∃ s', s.clear = (s', .ok ()) ∧ Keeps place s' [] := by
  cases h with
  | memory => exact ⟨_, rfl, .memory []⟩
  | file named noNull way takes kept =>
    exact keeps_writeFile named noNull way takes (List.forall_mem_nil _)

theorem Keeps.get (h : Keeps place s records) (scenario : String) :
    s.get scenario = .ok (ofScenario? records scenario) :=
  get_of_load h.load scenario

end

/-- Where records have been written once, the next ones can be written. -/
theorem takes_of_write {files renamed : Files} {path : Path} {records : List Progress}
    (h : write files path records = (renamed, true)) : ∃ made,
      files.makeDirectories path.parent = (made, true) ∧ made.Takes (temporary path) path := by
  unfold write at h
  rcases hmade : files.makeDirectories path.parent with ⟨made, ok⟩
  simp only [hmade] at h
  cases ok with
  | false => cases h
  | true =>
    rcases hwritten : made.write (temporary path) (Text.encode (fileText records).toList)
      with ⟨written, ok⟩
    simp only [hwritten] at h
    cases ok with
    | false => cases h
    | true => exact ⟨made, rfl, Files.takes_of_rename_write hmade hwritten h⟩

/-- A file that could be cleared keeps what it is read as. -/
theorem keeps_file {files : Files} {path : Path} {records : List Progress}
    (hload : (Store.file files path).load = .ok records)
    (hclear : (Store.file files path).clear.2 = .ok ()) :
    Keeps putLast (.file files path) records := by
  have hclear : (writeFile files path []).2 = .ok () := hclear
  unfold writeFile at hclear
  split_ifs at hclear with hname hparent hnull
  · split at hclear <;> cases hclear
  · split at hclear
    case h_2 => cases hclear
    case h_1 hwrite =>
      obtain ⟨made, hmade, htakes⟩ := takes_of_write hwrite
      exact .file (Bool.eq_false_iff.mpr hname) (Bool.eq_false_iff.mpr hnull) hmade htakes hload

end Ladybug.Store

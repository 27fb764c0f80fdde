import Ladybug.Proofs.Intake.Progress
import Ladybug.Proofs.Progress.Saved

/-!
# What a file of progress held before

A file may hold anything. If it is an object whose progress is a list, the entries that are records
are read, and each of them can be written again; so whatever stands beside them, the file is from
then on a map from scenarios to records. Any other text is reported as corrupt and stays.

* `HoldsProgress`     a text that is such an object
* `legible_of_load`   what is loaded from a file can be saved
* `Overwrites`        a record takes its place in a map, the others staying
* `ActsAsMap`         a store whose records are loaded, saved and cleared as in a map
* `Keeps.overwrites`, `Keeps.actsAsMap_afterSaves`   one record that is saved, and any number
* `any_file_keeps`    whatever the file held
-/

namespace Ladybug

theorem Files.sound_readText {files : Files} {path : Path} {text : String}
    (h : files.readText path = .ok text) : Text.Sound text.toList := by
  unfold readText at h
  split_ifs at h
  split at h
  · unfold textOf at h
    split at h
    · cases h
      rw [String.toList_ofList]
      exact Text.sound_taken _
    · cases h
  · cases h
  · cases h

namespace Store

/-! ### texts -/

/-- A text that is an object whose progress is a list, if it has any. -/
def HoldsProgress (text : String) : Prop :=
  ∃ es, Json.read text = .ok (.map es) ∧
    ∀ d, Datum.find? es "progress" = some d → ∃ ds, d = .list ds

theorem recordsOf?_eq_some_iff {d : Datum} {records : List Progress} :
    recordsOf? d = some records ↔ ∃ es ds, d = .map es ∧
      (Datum.find? es "progress").getD (.list []) = .list ds ∧
        ds.filterMap (fun d => (Intake.progress d).toOption) = records := by
  unfold recordsOf?
  constructor
  · intro h
    split at h
    · split at h
      · cases h
        exact ⟨_, _, rfl, ‹_›, rfl⟩
      · cases h
    · cases h
  · rintro ⟨es, ds, rfl, hds, rfl⟩
    simp only [hds]

/-- **The records of data that JSON gives can be saved.** -/
theorem legible_of_recordsOf? {d : Datum} (hd : Json.Given d) {records : List Progress}
    (h : recordsOf? d = some records) : ∀ p ∈ records, p.Legible := by
  obtain ⟨es, ds, rfl, hds, rfl⟩ := recordsOf?_eq_some_iff.mp h
  intro p hp
  obtain ⟨e, he, hep⟩ := List.mem_filterMap.mp hp
  refine Intake.legible_progress ?_ (toOption_eq_some_iff.mp hep)
  cases hfind : Datum.find? es "progress" with
  | none =>
    rw [hfind] at hds
    cases hds
    cases he
  | some d =>
    rw [hfind] at hds
    cases hds
    cases Intake.given_of_find? hd hfind with
    | list items => exact items e he

section
variable {path : Path} {text : String}

theorem readRecords_eq_ok_iff {records : List Progress} : readRecords path text = .ok records ↔
    ∃ d, Json.read text = .ok d ∧ recordsOf? d = some records := by
  unfold readRecords
  constructor
  · intro h
    split at h
    · cases h
    · cases h
    · split at h
      · cases h
        exact ⟨_, ‹_›, ‹_›⟩
      · cases h
  · rintro ⟨d, hread, hrecords⟩
    simp only [hread, hrecords]

theorem holdsProgress_iff :
    HoldsProgress text ↔ ∃ records, readRecords path text = .ok records := by
  simp only [readRecords_eq_ok_iff, recordsOf?_eq_some_iff]
  constructor
  · rintro ⟨es, hread, hlist⟩
    cases hfind : Datum.find? es "progress" with
    | none => exact ⟨_, .map es, hread, es, [], rfl, by rw [hfind]; rfl, rfl⟩
    | some d =>
      obtain ⟨ds, rfl⟩ := hlist d hfind
      exact ⟨_, .map es, hread, es, ds, rfl, by rw [hfind]; rfl, rfl⟩
  · rintro ⟨_, _, hread, es, ds, rfl, hds, -⟩
    refine ⟨es, hread, fun d hd => ⟨ds, ?_⟩⟩
    rwa [hd] at hds

/-- Another text is corrupt, unless a number in it is too long. -/
theorem readRecords_of_not_holds (h : ¬ HoldsProgress text)
    (hshort : ∀ digits line, Json.read text ≠ .error ⟨.tooLong digits, line⟩) :
    ∃ f, f.kind = .storage ∧ f.reason = some "corrupt" ∧
      readRecords path text = .error (.fault f) := by
  cases hrecords : readRecords path text with
  | ok records => exact absurd (holdsProgress_iff.mpr ⟨records, hrecords⟩) h
  | error e =>
    unfold readRecords at hrecords
    split at hrecords
    case h_1 digits line hread => exact absurd hread (hshort digits line)
    case h_2 =>
      cases hrecords
      exact ⟨_, rfl, rfl, rfl⟩
    case h_3 =>
      split at hrecords
      · cases hrecords
      · cases hrecords
        exact ⟨_, rfl, rfl, rfl⟩

end

/-! ### files -/

section
variable {files : Files} {path : Path}

/-- **What is loaded from a file can be saved.** -/
theorem legible_of_load {records : List Progress} (h : (file files path).load = .ok records) :
    ∀ p ∈ records, p.Legible := by
  have h : read files path = .ok records := h
  unfold read at h
  split at h
  case h_1 | h_2 =>
    cases h
    exact List.forall_mem_nil _
  case h_3 | h_4 => cases h
  case h_5 text htext =>
    obtain ⟨d, hread, hrecords⟩ := readRecords_eq_ok_iff.mp h
    exact legible_of_recordsOf? (Json.given_of_read (Files.sound_readText htext) hread) hrecords

theorem read_of_readText {text : String} (h : files.readText path = .ok text) :
    read files path = readRecords path text := by
  simp only [read, h]

end

/-! ### stores as maps -/

/-- A record takes its place as in a map: it is found, what is found for another scenario stays, and
it comes after the others. -/
structure Overwrites (s s' : Store) (p : Progress) : Prop where
  found : s'.get p.scenario = .ok (some p)
  others : ∀ scenario, scenario ≠ p.scenario → s'.get scenario = s.get scenario
  last : s'.load =
    s.load.map fun records => records.filter (fun q => q.scenario != p.scenario) ++ [p]

/-- A store of records by their scenarios: they are loaded, saved and cleared. -/
structure ActsAsMap (s : Store) : Prop where
  loads : ∃ records, s.load = .ok records
  saves : ∀ p : Progress, p.Legible → ∃ s', s.save p = (s', .ok ()) ∧ s.Overwrites s' p
  clears : ∃ s', s.clear = (s', .ok ()) ∧ s'.load = .ok [] ∧
    ∀ scenario, s'.get scenario = .ok none

/-- the store after some records have been saved -/
def afterSaves (s : Store) (ps : List Progress) : Store := ps.foldl (fun s p => (s.save p).1) s

section
variable {s : Store} {records : List Progress} (h : Keeps putLast s records)
  (hrecords : ∀ q ∈ records, q.Legible)
include h hrecords

theorem Keeps.overwrites {p : Progress} (hp : p.Legible) :
    ∃ s', s.save p = (s', .ok ()) ∧ s.Overwrites s' p := by
  obtain ⟨s', hsaved, hkept⟩ := h.save (h.placing.forall_mem hp hrecords)
  refine ⟨s', hsaved, ?_, fun scenario hne => ?_, ?_⟩
  · rw [hkept.get, h.placing.found, if_pos rfl]
  · rw [hkept.get, h.get, h.placing.found, if_neg (Ne.symm hne)]
  · rw [hkept.load, h.load]
    rfl

theorem Keeps.actsAsMap : s.ActsAsMap := by
  obtain ⟨s', hcleared, hempty⟩ := h.clear
  exact ⟨⟨records, h.load⟩, fun p hp => h.overwrites hrecords hp, s', hcleared, hempty.load,
    fun scenario => hempty.get scenario⟩

/-- **Saving any number of records keeps a store a map.** -/
theorem Keeps.actsAsMap_afterSaves {ps : List Progress} (hps : ∀ p ∈ ps, p.Legible) :
    (s.afterSaves ps).ActsAsMap := by
  induction ps generalizing s records with
  | nil => exact h.actsAsMap hrecords
  | cons p ps ih =>
    rw [List.forall_mem_cons] at hps
    have hlegible := h.placing.forall_mem hps.1 hrecords
    obtain ⟨s', hsaved, hkept⟩ := h.save hlegible
    have hnext : s.afterSaves (p :: ps) = s'.afterSaves ps := by
      rw [afterSaves, List.foldl_cons, hsaved, afterSaves]
    rw [hnext]
    exact ih hkept hlegible hps.2

end

/-- **Whatever a file held, it is a map from then on, or is reported and stays.** If it is missing, or
an object whose progress is a list, and nothing keeps it from being written, as clearing shows, then
after any number of records the next one is saved in its place, and nothing is left when the file is
cleared. Another text is corrupt: nothing is loaded, found or saved. Texts with integers that are too
long to be read are left out here. -/
theorem any_file_keeps (files : Files) (path : Path) :
    let s := file files path
    ((files.readText path = .error .missing ∨
        ∃ text, files.readText path = .ok text ∧ HoldsProgress text) →
      s.clear.2 = .ok () →
        ∀ before : List Progress, (∀ p ∈ before, p.Legible) → (s.afterSaves before).ActsAsMap) ∧
    ∀ text, files.readText path = .ok text → ¬ HoldsProgress text →
      (∀ digits line, Json.read text ≠ .error ⟨.tooLong digits, line⟩) →
        ∃ f, f.kind = .storage ∧ f.reason = some "corrupt" ∧ s.load = .error (.fault f) ∧
          (∀ scenario, s.get scenario = .error (.fault f)) ∧
          ∀ p, s.save p = (s, .error (.fault f)) := by
  intro s
  constructor
  · intro hheld hclear before hbefore
    have hload : ∃ records, s.load = .ok records := by
      rcases hheld with hmissing | ⟨text, htext, hholds⟩
      · exact ⟨[], show read files path = _ by simp only [read, hmissing]⟩
      · obtain ⟨records, hrecords⟩ := holdsProgress_iff.mp hholds
        exact ⟨records, (read_of_readText htext).trans hrecords⟩
    obtain ⟨records, hrecords⟩ := hload
    have hkeeps : Keeps putLast s records := keeps_file hrecords hclear
    exact hkeeps.actsAsMap_afterSaves (legible_of_load hrecords) hbefore
  · intro text htext hother hshort
    obtain ⟨f, hkind, hreason, hread⟩ := readRecords_of_not_holds hother hshort
    have hload : read files path = .error (.fault f) := (read_of_readText htext).trans hread
    refine ⟨f, hkind, hreason, hload, get_of_load (s := s) hload, fun p => ?_⟩
    simp only [s, save, hload]

/-- a file of the working directory -/
def bookOf (bytes : List UInt8) : Files := ⟨[(["progress.json"], .file bytes)]⟩

def book (text : String) : Files := bookOf (Text.encode text.toList)

theorem readText_book {text : String} (hascii : ∀ c ∈ text.toList, c.toNat < 0x80)
    (hreturn : '\r' ∉ text.toList) :
    (book text).readText (Path.ofText "progress.json") = .ok text := by
  have hentry : Files.entry? (book text) (Path.ofText "progress.json")
      = some (.file (Text.encode text.toList)) := rfl
  have hnull : (Path.ofText "progress.json").hasNull = false := by decide
  rw [Files.readText, hnull, if_neg Bool.false_ne_true, hentry]
  exact Files.textOf_encode hascii hreturn

/-- two records of one scenario, an entry that is none, and one of another scenario -/
def pondText : String :=
  "\x7b\"progress\": [\x7b\"scenario_id\": \"pond\", \"stars\": 2\x7d, "
    ++ "\x7b\"scenario_id\": \"pond\"\x7d, 7, \x7b\"scenario_id\": \"hedge\"\x7d]\x7d"

/-- The better record takes the place of both, and a list that is no object stays. -/
theorem pond_overwritten :
    let path := Path.ofText "progress.json"
    let p : Progress := { scenario := "pond", done := true, stars := 3, best := some 4 }
    (book pondText).readText path = .ok pondText ∧ HoldsProgress pondText ∧
      (file (book pondText) path).clear.2 = .ok () ∧ p.Legible ∧
      (∃ s', (file (book pondText) path).save p = (s', .ok ()) ∧
        s'.load = .ok [{ scenario := "hedge" }, p]) ∧
      (book "[]").readText path = .ok "[]" ∧ ¬ HoldsProgress "[]" ∧
      ∃ f : Fault, f.reason = some "corrupt" ∧
        (file (book "[]") path).save p = (file (book "[]") path, .error (.fault f)) := by
  intro path p
  have hread : readRecords path pondText = .ok
      [{ scenario := "pond", stars := 2 }, { scenario := "pond" }, { scenario := "hedge" }] := by
    decide +kernel
  have hholds : HoldsProgress pondText := holdsProgress_iff.mpr ⟨_, hread⟩
  have htext : (book pondText).readText path = .ok pondText :=
    readText_book (forall_of_all (by decide)) (by decide)
  have hclear : (file (book pondText) path).clear.2 = .ok () := by decide +kernel
  have hlegible : p.Legible :=
    { whole := Text.whole_of_not_mem (by decide)
      named := by decide
      stars_le := by decide
      best_short := by
        rintro _ ⟨⟩
        exact Json.not_isLong (by decide)
      time_proper := by rintro _ ⟨⟩ }
  have hmap := (any_file_keeps (book pondText) path).1 (.inr ⟨_, htext, hholds⟩) hclear [] nofun
  obtain ⟨s', hsaved, hover⟩ := hmap.saves p hlegible
  have hload : (file (book pondText) path).load = .ok _ := (read_of_readText htext).trans hread
  have hlist : readRecords path "[]" = .error (.fault (misshapen path)) := by decide +kernel
  have hother : ¬ HoldsProgress "[]" := by
    intro h
    obtain ⟨records, hrecords⟩ := holdsProgress_iff.mp h
    rw [hlist] at hrecords
    cases hrecords
  have hempty : (book "[]").readText path = .ok "[]" :=
    readText_book (forall_of_all (by decide)) (by decide)
  have hshort : ∀ digits line, Json.read "[]" ≠ .error ⟨.tooLong digits, line⟩ := by
    intro digits line h
    simp only [readRecords, h] at hlist
    cases hlist
  obtain ⟨f, -, hreason, -, -, hkept⟩ := (any_file_keeps (book "[]") path).2 _ hempty hother hshort
  refine ⟨htext, hholds, hclear, hlegible, ⟨s', hsaved, ?_⟩, hempty, hother, f, hreason, hkept p⟩
  rw [hover.last]
  show (file (book pondText) path).load.map _ = _
  rw [hload]
  rfl

end Store

end Ladybug

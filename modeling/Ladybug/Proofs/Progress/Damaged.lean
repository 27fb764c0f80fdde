import Ladybug.Proofs.Progress.Attempts
import Ladybug.Proofs.Progress.Held

/-!
# Files of progress with any bytes

What a file holds may be damaged in any way. Whatever cannot be done with it leaves it alone, and is
reported as a fault of storage, but for two kinds of damage that are passed on as errors of their
own: bytes that are no text, and an integer with too many digits.

* `unreported?`       the error of its own that a file of some bytes gives
* `read_of_unreported`, `read_of_reported`   reading by it
* `Reported`          a result, or a fault of storage
* `keeps_or_unwritable`   a file that is there keeps records, or is not written
* `overwrites_or_reported`, `completed_or_reported`   a record that is saved, and a solution
* `damage_reported`   every operation on a file of any bytes
* `undecodable_unreported`   bytes that are no text
-/

namespace Ladybug.Store

/-- The error of its own that a file of some bytes gives. -/
def unreported? (bytes : List UInt8) : Option StoreError :=
  match Files.textOf bytes with
  | .error _ => some .notText
  | .ok text =>
    match Json.read text with
    | .error ⟨.tooLong digits, _⟩ => some (.tooLong digits)
    | _ => none

/-- A result, or a fault of storage. -/
def Reported {α : Type} (r : Except StoreError α) : Prop :=
  (∃ a, r = .ok a) ∨ ∃ f : Fault, f.kind = .storage ∧ r = .error (.fault f)

theorem Reported.map {α β : Type} {r : Except StoreError α} (h : Reported r) (f : α → β) :
    Reported (r.map f) := by
  rcases h with ⟨a, rfl⟩ | ⟨fault, hkind, rfl⟩
  · exact .inl ⟨f a, rfl⟩
  · exact .inr ⟨fault, hkind, rfl⟩

theorem textOf_eq_error {bytes : List UInt8} {e : Files.ReadError}
    (h : Files.textOf bytes = .error e) : e = .notText := by
  unfold Files.textOf at h
  split at h <;> cases h
  rfl

/-! ### reading -/

section
variable {files : Files} {path : Path} {bytes : List UInt8} (hnull : path.hasNull = false)
  (hfile : files.entry? path = some (.file bytes))
include hnull hfile

theorem readText_of_file : files.readText path = Files.textOf bytes := by
  rw [Files.readText, hnull, if_neg Bool.false_ne_true, hfile]

theorem read_of_unreported {e : StoreError} (h : unreported? bytes = some e) :
    read files path = .error e := by
  unfold unreported? at h
  unfold read
  rw [readText_of_file hnull hfile]
  split at h
  case h_1 flaw htext =>
    cases h
    rw [htext, textOf_eq_error htext]
  case h_2 text htext =>
    rw [htext]
    split at h
    case h_1 digits line hread =>
      cases h
      simp only [readRecords, hread]
    case h_2 => cases h

theorem read_of_reported (h : unreported? bytes = none) : Reported (read files path) := by
  unfold unreported? at h
  split at h
  case h_1 => cases h
  case h_2 text htext =>
    have hload : files.readText path = .ok text := (readText_of_file hnull hfile).trans htext
    rw [read_of_readText hload]
    split at h
    case h_1 => cases h
    case h_2 hshort =>
      by_cases hholds : HoldsProgress text
      · exact .inl (holdsProgress_iff.mp hholds)
      · obtain ⟨f, hkind, -, hread⟩ := readRecords_of_not_holds hholds hshort
        exact .inr ⟨f, hkind, hread⟩

end

/-! ### changes -/

section
variable {files : Files} {path : Path} {bytes : List UInt8} (hnamed : path.name.isEmpty = false)
  (hnull : path.hasNull = false) (hfile : files.entry? path = some (.file bytes))
include hnamed hnull hfile

/-- A file that is there can be written, as often as one likes, or its records are not written. -/
theorem keeps_or_unwritable {records : List Progress} (hread : read files path = .ok records) :
    Keeps putLast (file files path) records ∨ ∀ records',
      writeFile files path records' = (file files path, .error (.fault (unwritable path))) := by
  have hparts : path.parts ≠ [] := by
    intro h
    rw [Path.name, h] at hnamed
    cases hnamed
  obtain ⟨hleads, htakes⟩ := Files.takes_or_write (temporary path) hparts hfile
  have hmade : files.makeDirectories path.parent = (files, true) := hleads.makeFrom
  rcases htakes with htakes | hwrite
  · exact .inl (.file hnamed hnull hmade htakes hread)
  · right
    intro records'
    simp only [writeFile, hnamed, parent_hasNull hnull, hnull, write, hmade, hwrite,
      Bool.false_eq_true, ↓reduceIte, Bool.not_true, Bool.not_false]

/-- **A record is saved in its place, or a fault of storage is reported and the file stays.** -/
theorem overwrites_or_reported (h : Reported (read files path)) {p : Progress} (hp : p.Legible) :
    (∃ s', (file files path).save p = (s', .ok ()) ∧ (file files path).Overwrites s' p) ∨
      ∃ f : Fault, f.kind = .storage ∧
        (file files path).save p = (file files path, .error (.fault f)) := by
  rcases h with ⟨records, hread⟩ | ⟨f, hkind, hread⟩
  · rcases keeps_or_unwritable hnamed hnull hfile hread with hkeeps | hunwritable
    · exact .inl (hkeeps.overwrites (legible_of_load hread) hp)
    · exact .inr ⟨unwritable path, rfl, by simp only [save, hread, hunwritable]⟩
  · exact .inr ⟨f, hkind, by simp only [save, hread]⟩

/-- **The same for a solution that is recorded.** -/
theorem completed_or_reported (h : Reported (read files path)) {a : Attempt} (ha : a.Legible)
    (hcounts : a.Counts) :
    (∃ s' p, (file files path).complete a.scenario a.commands a.time = (s', .ok p) ∧
        s'.get a.scenario = .ok (some p)) ∨
      ∃ f : Fault, f.kind = .storage ∧
        (file files path).complete a.scenario a.commands a.time
          = (file files path, .error (.fault f)) := by
  cases hread : read files path with
  | error e =>
    obtain ⟨f, hkind, heq⟩ := h.resolve_left fun ⟨records, hok⟩ => by
      rw [hread] at hok
      cases hok
    have hget : (file files path).get a.scenario = .error (.fault f) :=
      get_of_load (s := file files path) heq a.scenario
    exact .inr ⟨f, hkind, by rw [complete_of_counts hcounts, hget]⟩
  | ok records =>
    obtain ⟨hlegible, hcomplete⟩ := complete_of_load (s := file files path) hread
      (legible_of_load hread) ha hcounts
    rcases overwrites_or_reported hnamed hnull hfile h hlegible with
      ⟨s', hsaved, hover⟩ | ⟨f, hkind, hsaved⟩
    · exact .inl ⟨s', _, by rw [hcomplete, hsaved]; rfl, hover.found⟩
    · exact .inr ⟨f, hkind, by rw [hcomplete, hsaved]; rfl⟩

end

/-- **Damage is reported as a fault of storage and left alone**, but for bytes that are no text and
integers that are too long, which are left alone too. Whatever bytes a file has, either each
operation gives the one error of its own that they have; or it succeeds, or a fault of storage is
reported. Where it does not succeed, all files are as before. -/
theorem damage_reported {files : Files} {path : Path} {bytes : List UInt8}
    (hnamed : path.name.isEmpty = false) (hnull : path.hasNull = false)
    (hfile : files.entry? path = some (.file bytes)) :
    let s := file files path
    (∀ e, unreported? bytes = some e →
      s.load = .error e ∧ (∀ scenario, s.get scenario = .error e) ∧
        (∀ p, s.save p = (s, .error e)) ∧
        ∀ a : Attempt, a.Counts → s.complete a.scenario a.commands a.time = (s, .error e)) ∧
    (unreported? bytes = none →
      Reported s.load ∧ (∀ scenario, Reported (s.get scenario)) ∧
        (∀ p : Progress, p.Legible →
          (∃ s', s.save p = (s', .ok ()) ∧ s.Overwrites s' p) ∨
            ∃ f : Fault, f.kind = .storage ∧ s.save p = (s, .error (.fault f))) ∧
        ∀ a : Attempt, a.Legible → a.Counts →
          (∃ s' p, s.complete a.scenario a.commands a.time = (s', .ok p) ∧
              s'.get a.scenario = .ok (some p)) ∨
            ∃ f : Fault, f.kind = .storage ∧
              s.complete a.scenario a.commands a.time = (s, .error (.fault f))) := by
  intro s
  constructor
  · intro e he
    have hread : read files path = .error e := read_of_unreported hnull hfile he
    have hget (scenario : String) : s.get scenario = .error e := get_of_load (s := s) hread scenario
    refine ⟨hread, hget, fun p => ?_, fun a hcounts => ?_⟩
    · simp only [s, save, hread]
    · rw [complete_of_counts hcounts, hget]
  · intro hnone
    have hread : Reported (read files path) := read_of_reported hnull hfile hnone
    exact ⟨hread, fun scenario => hread.map _,
      fun p hp => overwrites_or_reported hnamed hnull hfile hread hp,
      fun a ha hcounts => completed_or_reported hnamed hnull hfile hread ha hcounts⟩

/-- A list that breaks off is reported, and two bytes that are no text are not. -/
theorem torn_reported :
    let path := Path.ofText "progress.json"
    path.name.isEmpty = false ∧ path.hasNull = false ∧
      (∀ bytes, Files.entry? (bookOf bytes) path = some (.file bytes)) ∧
      unreported? [0x5B] = none ∧ Reported (file (bookOf [0x5B]) path).load ∧
      unreported? [0xFF, 0xFE] = some .notText ∧
      (file (bookOf [0xFF, 0xFE]) path).load = .error .notText := by
  intro path
  have hnamed : path.name.isEmpty = false := by decide
  have hnull : path.hasNull = false := by decide
  have hfile (bytes : List UInt8) : Files.entry? (bookOf bytes) path = some (.file bytes) := rfl
  have htorn : unreported? [0x5B] = none := by decide +kernel
  have hbytes : unreported? [0xFF, 0xFE] = some .notText := by decide +kernel
  exact ⟨hnamed, hnull, hfile, htorn, ((damage_reported hnamed hnull (hfile _)).2 htorn).1,
    hbytes, ((damage_reported hnamed hnull (hfile _)).1 _ hbytes).1⟩

/-- With bytes that are no text nothing is done, and no fault of storage is reported. -/
theorem undecodable_unreported :
    let s := file (bookOf [0xFF, 0xFE]) (Path.ofText "progress.json")
    s.load = .error .notText ∧ s.get "pond" = .error .notText ∧
      s.save { scenario := "pond" } = (s, .error .notText) ∧
      s.complete "pond" 4 (noon 1) = (s, .error .notText) ∧ ¬ Reported s.load := by
  intro s
  have hload : s.load = .error .notText := by decide +kernel
  have hread : read (bookOf [0xFF, 0xFE]) (Path.ofText "progress.json") = .error .notText := hload
  have hget : s.get "pond" = .error .notText := get_of_load hload "pond"
  refine ⟨hload, hget, by simp only [s, save, hread], ?_, ?_⟩
  · have hcounts : Attempt.Counts ⟨"pond", 4, noon 1⟩ := by decide
    rw [complete_of_counts hcounts, hget]
  · rw [hload]
    rintro (⟨records, ⟨⟩⟩ | ⟨f, -, ⟨⟩⟩)

end Ladybug.Store

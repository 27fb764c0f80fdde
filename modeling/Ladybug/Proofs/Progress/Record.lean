import Ladybug.Progress.Store
import Ladybug.Proofs.Instant
import Ladybug.Proofs.Json.Ascii
import Ladybug.Proofs.Json.Written

/-!
# Records of progress that are saved and read back

* `Progress.Legible`      a record that can be saved: its name is a text without halves, its count
                          has not too many digits, its time is one of the calendar
* `Legible.read_datum`    its data are read as the record
* `Legible.readable`      what is written for them is read as the data
* `readRecords_fileText`  a whole file
-/

namespace Ladybug

open Intake (field_of_find? fieldOr_of_find? nat_ofNat)
open Json (readsText_of_all readsText_ascii writes_text writes_int not_isLong)

/-- A text that is saved in ASCII as it is. -/
structure Text.Whole (s : String) : Prop where
  sound : Sound s.toList
  noHalf : hasHalf s = false

theorem Text.whole_of_not_mem {s : String} (h : mark ∉ s.toList) : Whole s :=
  ⟨sound_of_not_mem h, not_hasHalf h⟩

theorem Text.Whole.readable {s : String} (h : Whole s) : Json.ascii.Readable (.text s) :=
  writes_text (readsText_ascii h.sound h.noHalf)

theorem Intake.someText_of {s : String} (hnamed : s.isEmpty = false)
    (hhalf : Text.hasHalf s = false) : someText (.text s) = .ok s := by
  rw [someText, text, ok_bind, hhalf, hnamed]
  rfl

namespace Progress

/-- A record that can be saved. -/
structure Legible (p : Progress) : Prop where
  whole : Text.Whole p.scenario
  named : p.scenario.isEmpty = false
  stars_le : p.stars ≤ mostStars
  best_short : ∀ n ∈ p.best, Decimal.isLong n = false
  time_proper : ∀ i ∈ p.completedAt, i.Proper

section
variable {p : Progress} (h : p.Legible)
include h

theorem Legible.read_stars : Intake.stars (.int p.stars) = .ok p.stars := by
  have hmost : ¬ (mostStars : Int) < p.stars := by
    have hle := h.stars_le
    omega
  have hleast : ¬ (p.stars : Int) < 0 := by omega
  rw [Intake.stars, Intake.int, ok_bind, Intake.atMost, if_neg hmost, ok_bind, Intake.atLeast,
    if_neg hleast, ok_bind]
  rfl

theorem Legible.read_time : Intake.optional Intake.instant
    (p.completedAt.elim .null fun i => .text i.text) = .ok p.completedAt := by
  cases hat : p.completedAt with
  | none => rfl
  | some i =>
    show (Intake.instant (.text i.text)).map some = _
    rw [(h.time_proper i hat).instant_text]
    rfl

/-- **The data of a record are read as the record.** -/
theorem Legible.read_datum : Intake.progress p.datum = .ok p := by
  have hbest : Intake.optional Intake.nat (p.best.elim .null fun n => .int n) = .ok p.best := by
    cases p.best with
    | none => rfl
    | some n =>
      show (Intake.nat (.int n)).map some = _
      rw [nat_ofNat]
      rfl
  have hdone : Intake.bool (.bool p.done) = .ok p.done := rfl
  rw [Intake.progress, show Intake.record "ScenarioProgress" p.datum = .ok _ from rfl, ok_bind,
    field_of_find? rfl (Intake.someText_of h.named h.whole.noHalf), ok_bind,
    fieldOr_of_find? rfl hdone, ok_bind,
    fieldOr_of_find? rfl h.read_stars, ok_bind,
    fieldOr_of_find? rfl hbest, ok_bind,
    fieldOr_of_find? rfl h.read_time, ok_bind]
  rfl

theorem Legible.readable : Json.ascii.Readable p.datum := by
  have hstars : Decimal.isLong p.stars = false :=
    not_isLong (Nat.lt_of_le_of_lt h.stars_le (by decide))
  have hbest : Json.ascii.Readable (p.best.elim .null fun n => .int n) := by
    cases hbest : p.best with
    | none => exact Json.ascii.readable_null
    | some n => exact writes_int (h.best_short n hbest)
  have htime : Json.ascii.Readable (p.completedAt.elim .null fun i => .text i.text) := by
    cases p.completedAt with
    | none => exact Json.ascii.readable_null
    | some i => exact (Text.whole_of_not_mem i.mark_not_mem_text).readable
  exact ⟨by simp, readsText_of_all (by decide), h.whole.readable,
    readsText_of_all (by decide), Json.ascii.readable_bool p.done,
    readsText_of_all (by decide), writes_int hstars,
    readsText_of_all (by decide), hbest,
    readsText_of_all (by decide), htime, trivial⟩

end

end Progress

namespace Store

variable {records : List Progress} (h : ∀ p ∈ records, p.Legible)
include h

theorem readable_fileDatum : Json.ascii.Readable (fileDatum records) := by
  have hversion : Decimal.isLong version = false := not_isLong (by decide)
  exact ⟨by simp, readsText_of_all (by decide), writes_int hversion,
    readsText_of_all (by decide), Json.ascii.readable_list fun p hp => (h p hp).readable, trivial⟩

theorem recordsOf?_fileDatum : recordsOf? (fileDatum records) = some records := by
  have hread : (records.map Progress.datum).filterMap (fun d => (Intake.progress d).toOption)
      = records := by
    have hsome : ∀ p ∈ records, (Intake.progress p.datum).toOption = some p := fun p hp => by
      rw [(h p hp).read_datum]
      rfl
    rw [List.filterMap_map]
    exact (List.filterMap_congr hsome).trans List.filterMap_some
  exact congrArg some hread

/-- **The text of a file is read as its records.** -/
theorem readRecords_fileText (path : Path) : readRecords path (fileText records) = .ok records := by
  have hread := Json.read_indented (readable_fileDatum h)
  rw [readRecords, fileText, hread]
  simp only [recordsOf?_fileDatum h]

end Store

end Ladybug

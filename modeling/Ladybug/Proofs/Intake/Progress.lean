import Ladybug.Proofs.Intake.Given
import Ladybug.Proofs.Intake.Instant
import Ladybug.Proofs.Progress.Record

/-!
# Records of progress that are taken from JSON

Whatever an entry says, a record that is taken from it can be saved: its name is a text without
halves, its stars are no more than there are, its count has not too many digits, and its time is one
of the calendar.

* `Intake.someText_eq_ok_iff`   a text that is there
* `Intake.stars_le`             no more stars than there are
* `Intake.legible_progress`     records
-/

namespace Ladybug.Intake

theorem someText_eq_ok_iff {d : Datum} {s : String} : someText d = .ok s ↔
    text d = .ok s ∧ Text.hasHalf s = false ∧ s.isEmpty = false := by
  unfold someText
  rw [bind_eq_ok_iff]
  constructor
  · rintro ⟨t, ht, hs⟩
    split_ifs at hs with hhalf hempty
    · cases hs
    · cases hs
    · cases hs
      exact ⟨ht, Bool.eq_false_iff.mpr hhalf, Bool.eq_false_iff.mpr hempty⟩
  · rintro ⟨hs, hhalf, hempty⟩
    refine ⟨s, hs, ?_⟩
    rw [hhalf, hempty]
    rfl

theorem stars_le : Yields stars (· ≤ mostStars) := by
  intro d n _ h
  unfold stars at h
  simp only [bind_eq_ok_iff, atMost_eq_ok_iff, atLeast_eq_ok_iff] at h
  obtain ⟨i, -, _, ⟨hmost, rfl⟩, _, ⟨-, rfl⟩, h⟩ := h
  cases h
  exact Int.toNat_le.mpr hmost

/-- **A record that is taken from JSON can be saved.** -/
theorem legible_progress : Yields progress Progress.Legible := by
  intro d p hd h
  unfold progress at h
  simp only [bind_eq_ok_iff, record_eq_ok_iff] at h
  obtain ⟨es, hes, scenario, hscenario, done, -, stars, hstars, best, hbest, time, htime, h⟩ := h
  cases h
  have hgiven := given_of_entries? hd hes
  have hname : Yields someText fun s => Text.Whole s ∧ s.isEmpty = false := by
    intro d s hd h
    obtain ⟨htext, hhalf, hempty⟩ := someText_eq_ok_iff.mp h
    exact ⟨⟨sound_text hd htext, hhalf⟩, hempty⟩
  have hnone {α : Type} {P : α → Prop} : ∀ a ∈ (none : Option α), P a := by rintro a ⟨⟩
  have hinstant : Yields instant Instant.Proper := fun _ _ _ h => proper_instant h
  obtain ⟨hwhole, hnamed⟩ := hname.field hgiven hscenario
  exact {
    whole := hwhole
    named := hnamed
    stars_le := stars_le.fieldOr hgiven (Nat.zero_le _) hstars
    best_short := short_nat.optional.fieldOr hgiven hnone hbest
    time_proper := hinstant.optional.fieldOr hgiven hnone htime }

end Ladybug.Intake

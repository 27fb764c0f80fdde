import Ladybug.Ident

/-!
# Ids that have been given

* `Ids.idOf`         the id of a stem with a number; the stem and the number can be read off it
* `Ids.Gave`         an id that a source of ids has given, or counts as given
* `Ids.not_gave_draw`   a source gives no id twice, whatever the stems are
* `Ids.nodup_drawAll`   so a row of ids has each of them once
-/

namespace Ladybug.Ids

/-- the id of a stem with a number -/
def idOf (stem : String) (n : Nat) : String := stem ++ "-" ++ toString n

/-- An id that a source has given. -/
def Gave (ids : Ids) (id : String) : Prop := ∃ stem n, id = idOf stem n ∧ n ≤ ids.count stem

theorem dash_not_mem_toDigits (n : Nat) : '-' ∉ Nat.toDigits 10 n := by
  intro h
  have hd := Nat.isDigit_of_mem_toDigits (by decide) (by decide) h
  revert hd
  decide

theorem toDigits_injective {m n : Nat} (h : Nat.toDigits 10 m = Nat.toDigits 10 n) : m = n := by
  rw [← Nat.ofDigitChars_ten_toDigits (n := m), h, Nat.ofDigitChars_ten_toDigits]

/-- What follows the last dash of a text can be read off it, and what is before it too. -/
theorem append_dash_inj {a b d e : List Char} (hd : '-' ∉ d) (he : '-' ∉ e)
    (h : a ++ '-' :: d = b ++ '-' :: e) : a = b ∧ d = e := by
  rcases List.append_eq_append_iff.mp h with ⟨cs, rfl, hcs⟩ | ⟨cs, rfl, hcs⟩
  · cases cs with
    | nil =>
      cases hcs
      exact ⟨(List.append_nil a).symm, rfl⟩
    | cons c cs =>
      cases hcs
      exact absurd (List.mem_append_right cs List.mem_cons_self) hd
  · cases cs with
    | nil =>
      cases hcs
      exact ⟨List.append_nil b, rfl⟩
    | cons c cs =>
      cases hcs
      exact absurd (List.mem_append_right cs List.mem_cons_self) he

theorem toList_idOf (stem : String) (n : Nat) :
    (idOf stem n).toList = stem.toList ++ '-' :: Nat.toDigits 10 n := by
  simp only [idOf, String.toList_append, Nat.toString_eq_repr, Nat.toList_repr, List.append_assoc]
  rfl

/-- **An id determines its stem and its number**, even where the stem looks like an id. -/
theorem idOf_inj {s t : String} {m n : Nat} (h : idOf s m = idOf t n) : s = t ∧ m = n := by
  have hl := congrArg String.toList h
  rw [toList_idOf, toList_idOf] at hl
  obtain ⟨hst, hmn⟩ := append_dash_inj (dash_not_mem_toDigits m) (dash_not_mem_toDigits n) hl
  exact ⟨String.toList_inj.mp hst, toDigits_injective hmn⟩

theorem count_draw (ids : Ids) (stem s : String) :
    (ids.draw stem).2.count s = if s = stem then ids.count stem + 1 else ids.count s := by
  simp only [draw, count, List.find?_cons]
  by_cases h : s = stem
  · simp only [h, ↓reduceIte, beq_self_eq_true, Option.map_some, Option.getD_some]
  · have h' : (stem == s) = false := beq_eq_false_iff_ne.mpr (Ne.symm h)
    simp only [h, h', ↓reduceIte]

theorem Gave.draw {ids : Ids} {id : String} (h : ids.Gave id) (stem : String) :
    (ids.draw stem).2.Gave id := by
  obtain ⟨s, n, rfl, hn⟩ := h
  refine ⟨s, n, rfl, ?_⟩
  rw [count_draw]
  split
  · rename_i hs
    exact hs ▸ Nat.le_succ_of_le hn
  · exact hn

theorem gave_draw (ids : Ids) (stem : String) : (ids.draw stem).2.Gave (ids.draw stem).1 := by
  refine ⟨stem, ids.count stem + 1, rfl, Nat.le_of_eq ?_⟩
  rw [count_draw, if_pos rfl]

/-- **An id that is drawn has not been given before.** -/
theorem not_gave_draw (ids : Ids) (stem : String) : ¬ ids.Gave (ids.draw stem).1 := by
  rintro ⟨s, n, h, hn⟩
  obtain ⟨rfl, rfl⟩ := idOf_inj h
  omega

/-- A text without a dash is the id of no stem. -/
theorem ne_idOf_of_dash_not_mem {id : String} (h : '-' ∉ id.toList) (stem : String) (n : Nat) :
    id ≠ idOf stem n := by
  rintro rfl
  rw [toList_idOf] at h
  exact h (List.mem_append_right _ List.mem_cons_self)

theorem not_gave_of_dash_not_mem {id : String} (h : '-' ∉ id.toList) (ids : Ids) :
    ¬ ids.Gave id := by
  rintro ⟨s, n, hid, -⟩
  exact ne_idOf_of_dash_not_mem h s n hid

theorem length_drawAll (ids : Ids) (stems : List String) :
    (ids.drawAll stems).length = stems.length := by
  induction stems generalizing ids with
  | nil => rfl
  | cons stem stems ih => exact congrArg (· + 1) (ih _)

theorem not_gave_of_mem_drawAll {ids : Ids} {stems : List String} {id : String}
    (h : id ∈ ids.drawAll stems) : ¬ ids.Gave id := by
  induction stems generalizing ids with
  | nil => cases h
  | cons stem stems ih =>
    rcases List.mem_cons.mp h with rfl | h
    · exact not_gave_draw ids stem
    · exact fun hg => ih h (hg.draw stem)

theorem nodup_drawAll (ids : Ids) (stems : List String) : (ids.drawAll stems).Nodup := by
  induction stems generalizing ids with
  | nil => exact List.nodup_nil
  | cons stem stems ih =>
    exact List.nodup_cons.mpr
      ⟨fun h => not_gave_of_mem_drawAll h (gave_draw ids stem), ih _⟩

end Ladybug.Ids

import Ladybug.Ident
import Ladybug.Proofs.Text
import Mathlib.Data.List.Chain

/-!
# Names as parts of ids

A name goes into an id as small letters, digits and single dashes, whatever it is written with, and
a name that looks like that already goes into it as it is.

* `IsSlug`               what such a text looks like
* `SlugTail`             what may follow a character of it, read from the left
* `isSlug_iff`           the two say the same
* `slugTail_dashed`      the runs of a text with a dash between two of them look like that
* `SlugTail.dashed_eq`   and nothing changes in a text that does
* `slug_eq_self`         a name that looks like that is left alone
* `slug_slug`            so a name is changed once at most
-/

namespace Ladybug

/-- Small letters, digits and dashes, with no dash first, none last and no two in a row. -/
structure IsSlug (s : String) : Prop where
  nonempty : s ≠ ""
  chars : ∀ c ∈ s.toList, isSlugChar c = true ∨ c = '-'
  first : s.toList.head? ≠ some '-'
  last : s.toList.getLast? ≠ some '-'
  single : s.toList.IsChain fun c d => c = '-' → d ≠ '-'

instance (s : String) : Decidable (IsSlug s) :=
  decidable_of_iff
    (s ≠ "" ∧ (s.toList.all fun c => isSlugChar c || c == '-') = true ∧ s.toList.head? ≠ some '-' ∧
      s.toList.getLast? ≠ some '-' ∧ s.toList.IsChain fun c d => c = '-' → d ≠ '-') <| by
    simp only [List.all_eq_true, Bool.or_eq_true, beq_iff_eq]
    exact ⟨fun ⟨nonempty, chars, first, last, single⟩ => ⟨nonempty, chars, first, last, single⟩,
      fun h => ⟨h.nonempty, h.chars, h.first, h.last, h.single⟩⟩

/-- What may follow a letter or a digit: more of them, each after a dash or right away. -/
inductive SlugTail : List Char → Prop where
  | nil : SlugTail []
  | char {c : Char} {cs : List Char} (hc : isSlugChar c = true) (rest : SlugTail cs) :
      SlugTail (c :: cs)
  | dash {c : Char} {cs : List Char} (hc : isSlugChar c = true) (rest : SlugTail cs) :
      SlugTail ('-' :: c :: cs)

theorem ne_dash {c : Char} (h : isSlugChar c = true) : c ≠ '-' := by
  intro hc
  rw [hc] at h
  exact absurd h (by decide)

/-! ### the form from the left -/

namespace SlugTail

variable {c : Char} {cs : List Char}

theorem chars (h : SlugTail cs) : ∀ c ∈ cs, isSlugChar c = true ∨ c = '-' := by
  induction h with
  | nil => exact List.forall_mem_nil _
  | char hc _ ih => exact List.forall_mem_cons.mpr ⟨.inl hc, ih⟩
  | dash hc _ ih =>
    rw [List.forall_mem_cons, List.forall_mem_cons]
    exact ⟨.inr rfl, .inl hc, ih⟩

theorem last (h : SlugTail cs) (hc : isSlugChar c = true) : (c :: cs).getLast? ≠ some '-' := by
  induction h generalizing c with
  | nil =>
    rw [List.getLast?_singleton]
    exact fun hd => ne_dash hc (Option.some.inj hd)
  | char hd _ ih =>
    rw [List.getLast?_cons_cons]
    exact ih hd
  | dash hd _ ih =>
    rw [List.getLast?_cons_cons, List.getLast?_cons_cons]
    exact ih hd

theorem single (h : SlugTail cs) (hc : isSlugChar c = true) :
    (c :: cs).IsChain fun c d => c = '-' → d ≠ '-' := by
  induction h generalizing c with
  | nil => exact .singleton c
  | char hd _ ih =>
    rw [List.isChain_cons_cons]
    exact ⟨fun hdash => absurd hdash (ne_dash hc), ih hd⟩
  | dash hd _ ih =>
    rw [List.isChain_cons_cons, List.isChain_cons_cons]
    exact ⟨fun hdash => absurd hdash (ne_dash hc), fun _ => ne_dash hd, ih hd⟩

end SlugTail

theorem getLast?_of_cons {c : Char} {cs : List Char} (h : (c :: cs).getLast? ≠ some '-') :
    cs.getLast? ≠ some '-' := by
  intro hlast
  apply h
  rw [List.getLast?_cons, hlast]
  rfl

/-- A text of letters, digits and dashes is read from the left, a dash with what comes after it. -/
theorem slugTail_of_chars : ∀ {cs : List Char}, (∀ c ∈ cs, isSlugChar c = true ∨ c = '-') →
    cs.getLast? ≠ some '-' → cs.IsChain (fun c d => c = '-' → d ≠ '-') → SlugTail cs
  | [], _, _, _ => .nil
  | [c], hchars, hlast, _ => by
    have hc : isSlugChar c = true :=
      (hchars c List.mem_cons_self).resolve_right fun hdash => hlast (congrArg some hdash)
    exact .char hc .nil
  | c :: d :: ds, hchars, hlast, hsingle => by
    rw [List.forall_mem_cons] at hchars
    rw [List.isChain_cons_cons] at hsingle
    have hrest := getLast?_of_cons hlast
    rcases hchars.1 with hc | hdash
    · exact .char hc (slugTail_of_chars hchars.2 hrest hsingle.2)
    · -- the character after a dash is none
      have htail := List.forall_mem_cons.mp hchars.2
      have hd : isSlugChar d = true := htail.1.resolve_right (hsingle.1 hdash)
      rw [hdash]
      exact .dash hd (slugTail_of_chars htail.2 (getLast?_of_cons hrest) hsingle.2.tail)

theorem isSlug_iff {s : String} :
    IsSlug s ↔ ∃ c cs, s.toList = c :: cs ∧ isSlugChar c = true ∧ SlugTail cs := by
  constructor
  · intro h
    cases hs : s.toList with
    | nil => exact absurd (String.toList_eq_nil_iff.mp hs) h.nonempty
    | cons c cs =>
      have hchars := h.chars
      have hfirst := h.first
      have hlast := h.last
      have hsingle := h.single
      rw [hs] at hchars hfirst hlast hsingle
      rw [List.forall_mem_cons] at hchars
      have hc := hchars.1.resolve_right fun hdash => hfirst (congrArg some hdash)
      exact ⟨c, cs, rfl, hc,
        slugTail_of_chars hchars.2 (getLast?_of_cons hlast) hsingle.tail⟩
  · rintro ⟨c, cs, hs, hc, htail⟩
    constructor
    case nonempty =>
      intro hempty
      rw [hempty] at hs
      cases hs
    case chars =>
      rw [hs]
      exact List.forall_mem_cons.mpr ⟨.inl hc, htail.chars⟩
    case first =>
      rw [hs]
      exact fun hdash => ne_dash hc (Option.some.inj hdash)
    case last =>
      rw [hs]
      exact htail.last hc
    case single =>
      rw [hs]
      exact htail.single hc

/-! ### runs with dashes between them -/

theorem slugTail_dashed (gap : Bool) (cs : List Char) : SlugTail (dashed gap cs) := by
  induction cs generalizing gap with
  | nil => exact .nil
  | cons c cs ih =>
    rw [dashed]
    by_cases hc : isSlugChar c = true
    · rw [if_pos hc]
      cases gap with
      | false => exact .char hc (ih false)
      | true => exact .dash hc (ih false)
    · rw [if_neg hc]
      split
      · exact .nil
      · exact ih true

theorem dashed_char {c : Char} (h : isSlugChar c = true) (cs : List Char) :
    dashed false (c :: cs) = c :: dashed false cs := by
  rw [dashed, if_pos h]
  rfl

theorem dropWhile_char {c : Char} (h : isSlugChar c = true) (cs : List Char) :
    (c :: cs).dropWhile (fun c => !isSlugChar c) = c :: cs :=
  List.dropWhile_cons_of_neg (by simp [h])

theorem dashed_dash {c : Char} (h : isSlugChar c = true) (cs : List Char) :
    dashed false ('-' :: c :: cs) = '-' :: c :: dashed false cs := by
  rw [dashed, if_neg (by decide), dropWhile_char h]
  show dashed true (c :: cs) = _
  rw [dashed, if_pos h]
  rfl

theorem SlugTail.dashed_eq {cs : List Char} (h : SlugTail cs) : dashed false cs = cs := by
  induction h with
  | nil => rfl
  | char hc _ ih => rw [dashed_char hc, ih]
  | dash hc _ ih => rw [dashed_dash hc, ih]

/-! ### small letters stay as they are -/

/-- The capitals of ASCII come first, and all others are far from its characters. -/
theorem lowerChar_eq_self {c : Char} (h : c.toNat < 65 ∨ 90 < c.toNat ∧ c.toNat < 192) :
    Text.lowerChar c = c := by
  have hrows : ∀ row ∈ Text.capitalRows, (65 ≤ row.1 ∧ row.2.1 ≤ 90) ∨ 192 ≤ row.1 :=
    forall_of_all (by decide)
  unfold Text.lowerChar
  dsimp only
  split
  · rename_i first last step shift hfind
    have hfar : 65 ≤ first ∧ last ≤ 90 ∨ 192 ≤ first := hrows _ (List.mem_of_find?_eq_some hfind)
    have hrow := List.find?_some hfind
    simp only [Bool.and_eq_true, decide_eq_true_eq] at hrow
    omega
  · rfl

theorem toNat_of_isSlugChar {c : Char} (h : isSlugChar c = true ∨ c = '-') :
    c.toNat < 65 ∨ 90 < c.toNat ∧ c.toNat < 192 := by
  rcases h with h | rfl
  · simp only [isSlugChar, Bool.or_eq_true, Bool.and_eq_true, decide_eq_true_eq, Char.le_def,
      UInt32.le_iff_toNat_le] at h
    show c.val.toNat < 65 ∨ 90 < c.val.toNat ∧ c.val.toNat < 192
    have ha : ('a' : Char).val.toNat = 97 := rfl
    have hz : ('z' : Char).val.toNat = 122 := rfl
    have h9 : ('9' : Char).val.toNat = 57 := rfl
    omega
  · decide

theorem lowerChars_eq_self {cs : List Char} (h : ∀ c ∈ cs, isSlugChar c = true ∨ c = '-')
    (inWord : Bool) : Text.lowerChars inWord cs = cs := by
  induction cs generalizing inWord with
  | nil => rfl
  | cons c cs ih =>
    rw [List.forall_mem_cons] at h
    have hc := toNat_of_isSlugChar h.1
    have hsigma : (c == '\u03A3') = false := by
      rw [beq_eq_false_iff_ne]
      rintro rfl
      exact absurd hc (by decide)
    have hdotted : (c == '\u0130') = false := by
      rw [beq_eq_false_iff_ne]
      rintro rfl
      exact absurd hc (by decide)
    rw [Text.lowerChars, ih h.2]
    simp only [hsigma, hdotted, Bool.false_and, Bool.false_eq_true, ↓reduceIte,
      lowerChar_eq_self hc, List.singleton_append]

/-! ### names -/

/-- **Whatever a name is written with, what goes into an id is a slug.** -/
theorem isSlug_slug (name : String) : IsSlug (slug name) := by
  unfold slug
  generalize hds : (Text.lower name).toList.dropWhile (fun c => !isSlugChar c) = ds
  cases ds with
  | nil =>
    show IsSlug "state"
    decide
  | cons c cs =>
    have hc : isSlugChar c = true := by
      have := List.head?_dropWhile_not (fun c => !isSlugChar c) (Text.lower name).toList
      rw [hds] at this
      simpa using this
    rw [dashed_char hc]
    show IsSlug (String.ofList (c :: dashed false cs))
    rw [isSlug_iff, String.toList_ofList]
    exact ⟨c, _, rfl, hc, slugTail_dashed false cs⟩

example : slug "  Look Around: Grüße 2! " = "look-around-gr-e-2" := by decide +kernel

theorem slug_eq_self {s : String} (h : IsSlug s) : slug s = s := by
  obtain ⟨c, cs, hs, hc, htail⟩ := isSlug_iff.mp h
  have hlower : (Text.lower s).toList = c :: cs := by
    rw [Text.lower, lowerChars_eq_self h.chars, String.ofList_toList, hs]
  unfold slug
  rw [hlower, dropWhile_char hc, dashed_char hc, htail.dashed_eq]
  show String.ofList (c :: cs) = s
  rw [← hs, String.ofList_toList]

theorem slug_slug (name : String) : slug (slug name) = slug name :=
  slug_eq_self (isSlug_slug name)

end Ladybug

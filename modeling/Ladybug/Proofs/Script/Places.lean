import Ladybug.Proofs.Script.Cut

/-!
# Where tokens stand

The place of a token is the one to which the pieces before it lead. There the script has the text of
the token, when its code points are split at line feeds.

* `placeAt`            the place after some code points
* `exists_row`         what stands at that place
* `Token.StandsIn`     a token has its text on its line, from its column on
* `stand_place`        the tokens of some pieces do, one after the other
* `scan_places`        the tokens of a script do
-/

namespace Ladybug.Script

open Text (Sound codes)

/-! ### places -/

/-- the code point at which lines part -/
def feed : Nat := '\n'.toNat

def placeAt (ns : List Nat) : Place := ns.foldl Place.next {}

/-- A place is not behind another. -/
def Place.Before (p q : Place) : Prop := p.line < q.line ∨ p.line = q.line ∧ p.column ≤ q.column

theorem next_feed (p : Place) : p.next feed = ⟨p.line + 1, 0⟩ := rfl

theorem next_of_ne {n : Nat} (h : n ≠ feed) (p : Place) : p.next n = ⟨p.line, p.column + 1⟩ :=
  if_neg fun e => h (beq_iff_eq.mp e)

theorem before_foldl (p : Place) (ns : List Nat) : p.Before (ns.foldl Place.next p) := by
  induction ns generalizing p with
  | nil => exact .inr ⟨rfl, Nat.le_refl _⟩
  | cons n ns ih =>
    have hrest := ih (p.next n)
    rw [List.foldl_cons]
    unfold Place.Before at hrest ⊢
    by_cases hn : n = feed
    · rw [hn, next_feed] at hrest ⊢
      dsimp only at hrest
      omega
    · rw [next_of_ne hn] at hrest ⊢
      dsimp only at hrest
      omega

/-- Code points that stay on their line. -/
theorem foldl_inline {ns : List Nat} (h : feed ∉ ns) (p : Place) :
    ns.foldl Place.next p = ⟨p.line, p.column + ns.length⟩ := by
  induction ns generalizing p with
  | nil => rfl
  | cons n ns ih =>
    rw [List.mem_cons, not_or] at h
    rw [List.foldl_cons, next_of_ne (Ne.symm h.1), ih h.2, List.length_cons, Nat.add_assoc,
      Nat.add_comm 1]

/-- A line that has begun is the first of the lines. -/
theorem exists_first {row : List Nat} (h : feed ∉ row) (rest : List Nat) :
    ∃ after, ((row ++ rest).splitOn feed)[0]? = some (row ++ after) := by
  by_cases hrest : feed ∈ rest
  · obtain ⟨after, others, rfl, hafter⟩ := List.eq_append_cons_of_mem hrest
    have hnot : feed ∉ row ++ after := by simp [h, hafter]
    refine ⟨after, ?_⟩
    rw [← List.append_assoc, List.splitOn_append_cons_self_of_not_mem hnot]
    rfl
  · refine ⟨rest, ?_⟩
    rw [List.splitOn_eq_singleton (by simp [h, hrest])]
    rfl

/-- **What stands at the place to which code points lead** from a place in a row that has begun. -/
theorem exists_row (ns : List Nat) {text : List Nat} (htext : feed ∉ text) (rest : List Nat) {row : List Nat}
    (hrow : feed ∉ row) (p : Place) (hp : p.column = row.length) :
    ∃ before after, ((row ++ (ns ++ (text ++ rest))).splitOn feed)[
        (ns.foldl Place.next p).line - p.line]? = some (before ++ text ++ after) ∧
      (ns.foldl Place.next p).column = before.length := by
  induction ns generalizing row p with
  | nil =>
    have hnot : feed ∉ row ++ text := by simp [hrow, htext]
    obtain ⟨after, hfirst⟩ := exists_first hnot rest
    refine ⟨row, after, ?_, hp⟩
    rw [List.foldl_nil, Nat.sub_self, List.nil_append, ← List.append_assoc, hfirst]
  | cons n ns ih =>
    rw [List.foldl_cons]
    by_cases hn : n = feed
    · subst hn
      obtain ⟨before, after, hat, hcolumn⟩ := ih List.not_mem_nil ⟨p.line + 1, 0⟩ rfl
      refine ⟨before, after, ?_, hcolumn⟩
      have hline := before_foldl ⟨p.line + 1, 0⟩ ns
      have hshift : (ns.foldl Place.next ⟨p.line + 1, 0⟩).line - p.line
          = (ns.foldl Place.next ⟨p.line + 1, 0⟩).line - (p.line + 1) + 1 := by
        unfold Place.Before at hline
        simp only at hline
        omega
      rw [next_feed, hshift, List.cons_append, List.splitOn_append_cons_self_of_not_mem hrow,
        List.getElem?_cons_succ]
      exact hat
    · rw [next_of_ne hn]
      have hnot : feed ∉ row ++ [n] := by simp [hrow, Ne.symm hn]
      obtain ⟨before, after, hat, hcolumn⟩ := ih hnot ⟨p.line, p.column + 1⟩ (by simp [hp])
      refine ⟨before, after, ?_, hcolumn⟩
      rw [List.append_assoc, List.singleton_append] at hat
      exact hat

/-! ### tokens -/

/-- A token has its text on its line, from its column on. -/
structure Token.StandsIn (lines : List (List Nat)) (t : Token) : Prop where
  line_pos : 1 ≤ t.line
  text : ∃ before after, lines[t.line - 1]? = some (before ++ codes t.text.toList ++ after) ∧
    t.column = before.length
  ne_nil : codes t.text.toList ≠ []

/-- A token ends before another one begins. -/
def Token.Before (t u : Token) : Prop :=
  t.line < u.line ∨ t.line = u.line ∧ t.column + (codes t.text.toList).length ≤ u.column

/-- the token that a piece is at a place, if it is one -/
def Piece.token? (p : Place) (piece : Piece) : Option Token :=
  piece.kind.map fun k => ⟨k, String.ofList piece.text, p.line, p.column⟩

/-- the kind and the text of a piece, if it is a token -/
def Piece.face? (piece : Piece) : Option Face :=
  piece.kind.map fun k => (k, String.ofList piece.text)

theorem place_cons (p : Place) (piece : Piece) (ps : List Piece) :
    place p (piece :: ps) [] = (piece.token? p).toList ++ place (p.after piece.text) ps [] := by
  obtain ⟨kind, text⟩ := piece
  cases kind with
  | none => rfl
  | some k =>
    show place (p.after text) ps [_] = _
    rw [place_append]
    rfl

theorem Place.Before.trans {p q r : Place} (h₁ : p.Before q) (h₂ : q.Before r) : p.Before r := by
  unfold Place.Before at h₁ h₂ ⊢
  omega

theorem Piece.Proper.feed_not_mem {piece : Piece} (h : piece.Proper) (hkind : piece.kind.isSome) :
    feed ∉ codes piece.text :=
  fun hm => h.inline hkind (h.sound.mem_of_mem_codes (by decide) hm)

theorem Piece.Proper.codes_ne_nil {piece : Piece} (h : piece.Proper) : codes piece.text ≠ [] := by
  intro hnil
  have htext := h.sound.codes_ofCode
  rw [hnil] at htext
  exact h.ne_nil htext.symm

/-- What holds of the tokens of pieces that come after some code points. -/
structure Stand (lines : List (List Nat)) (p : Place) (ps : List Piece) (ts : List Token) :
    Prop where
  stands : ∀ t ∈ ts, t.StandsIn lines
  ordered : ts.Pairwise Token.Before
  later : ∀ t ∈ ts, p.Before ⟨t.line, t.column⟩
  faces : ts.map Token.face = ps.filterMap Piece.face?

/-- A token stands where the code points before it lead to. -/
theorem standsIn_placeAt {ns rest : List Nat} {k : Kind} {text : List Char}
    (h : Piece.Proper ⟨some k, text⟩) :
    Token.StandsIn ((ns ++ (codes text ++ rest)).splitOn feed)
      ⟨k, String.ofList text, (placeAt ns).line, (placeAt ns).column⟩ := by
  obtain ⟨before, after, hat, hcolumn⟩ :=
    exists_row ns (h.feed_not_mem rfl) rest List.not_mem_nil {} rfl
  have hline := before_foldl {} ns
  unfold Place.Before at hline
  constructor
  case line_pos =>
    show 1 ≤ (ns.foldl Place.next {}).line
    dsimp only at hline
    omega
  case text =>
    simp only [String.toList_ofList]
    exact ⟨before, after, hat, hcolumn⟩
  case ne_nil =>
    simp only [String.toList_ofList]
    exact h.codes_ne_nil

theorem stand_place {ps : List Piece} (h : ∀ p ∈ ps, p.Proper) (ns : List Nat) :
    Stand ((ns ++ codes (textOf ps)).splitOn feed) (placeAt ns) ps (place (placeAt ns) ps []) := by
  induction ps generalizing ns with
  | nil => exact ⟨nofun, .nil, nofun, rfl⟩
  | cons piece ps ih =>
    obtain ⟨hpiece, hps⟩ := List.forall_mem_cons.mp h
    have hcodes : codes (textOf (piece :: ps)) = codes piece.text ++ codes (textOf ps) := by
      rw [textOf_cons, hpiece.sound.codes_append]
    have hafter : (placeAt ns).after piece.text = placeAt (ns ++ codes piece.text) := by
      rw [placeAt, placeAt, List.foldl_append]
      rfl
    have hbehind : (placeAt ns).Before (placeAt (ns ++ codes piece.text)) := by
      rw [← hafter]
      exact before_foldl _ _
    have hrest := ih hps (ns ++ codes piece.text)
    rw [List.append_assoc] at hrest
    rw [place_cons, hcodes, hafter]
    obtain ⟨kind, text⟩ := piece
    cases kind with
    | none =>
      exact ⟨hrest.stands, hrest.ordered, fun t ht => hbehind.trans (hrest.later t ht), hrest.faces⟩
    | some k =>
      -- a token stays on its line, so what comes after it begins on that line or on a later one
      have hend : placeAt (ns ++ codes text)
          = ⟨(placeAt ns).line, (placeAt ns).column + (codes text).length⟩ := by
        rw [← hafter]
        exact foldl_inline (hpiece.feed_not_mem rfl) _
      constructor
      case stands => exact List.forall_mem_cons.mpr ⟨standsIn_placeAt hpiece, hrest.stands⟩
      case ordered =>
        refine List.pairwise_cons.mpr ⟨fun t ht => ?_, hrest.ordered⟩
        have hlater := hrest.later t ht
        rw [hend] at hlater
        unfold Token.Before
        simp only [String.toList_ofList]
        exact hlater
      case later =>
        refine List.forall_mem_cons.mpr ⟨.inr ⟨rfl, Nat.le_refl _⟩, fun t ht => ?_⟩
        exact hbehind.trans (hrest.later t ht)
      case faces => exact congrArg _ hrest.faces

/-- **Tokens stand where they say**, one after the other. They are the pieces of the text that are
tokens, and together with the gaps between them they are the text. -/
theorem scan_places (d : Dialect) {source : String} (h : Sound source.toList) :
    (∀ t ∈ scan d source, t.StandsIn ((codes source.toList).splitOn feed)) ∧
      (scan d source).Pairwise Token.Before ∧
      (scan d source).map Token.face = (pieces d source.toList).filterMap Piece.face? ∧
      textOf (pieces d source.toList) = source.toList := by
  obtain ⟨htext, hproper⟩ := pieces_proper d h
  have hstand := stand_place hproper []
  rw [htext] at hstand
  exact ⟨hstand.stands, hstand.ordered, hstand.faces, htext⟩

/-- a comment over lines, a tab, a carriage return, and a character without meaning -/
def ragged : String := "/* a\n b */\tkara .\x0b move\r\n  ( \"\\\"\" )"

/-- Columns count from the line feed before them, whatever stands between. -/
theorem ragged_places : Sound ragged.toList ∧
    ((scan .braced ragged).map fun t => (t.text, t.line, t.column))
      = [("kara", 2, 6), (".", 2, 11), ("move", 2, 14), ("(", 3, 2), ("\"\\\"\"", 3, 4), (")", 3, 9)] ∧
    ∀ t ∈ scan .braced ragged, t.StandsIn ((codes ragged.toList).splitOn feed) := by
  have hsound : Sound ragged.toList := Text.sound_of_not_mem (by decide)
  exact ⟨hsound, by cbv, (scan_places .braced hsound).1⟩

end Ladybug.Script

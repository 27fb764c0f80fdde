import Ladybug.Proofs.Script.Printed
import Ladybug.Proofs.Text

/-!
# Scanning rows

A row of a text is cut into the tokens that it was written from, and each token has the line of its
row; the first one has the column of the row.

* `Face.Clean`       a name, or a sign that scripts use
* `Separate`         pieces that a text is cut into again
* `Placed`           the tokens of rows, from some line on
* `scan_rows`        the tokens of a text made of rows
-/

namespace Ladybug.Script

/-! ### clean tokens -/

def signs : List String := ["(", ")", "\x7b", "\x7d", ";", ".", ":", "?", "!", "&&", "||"]

def signChars : List Char := ['(', ')', '\x7b', '\x7d', ';', '.', ':', '?', '!', '&', '|']

/-- a name, or a sign that scripts use -/
def Face.Clean (f : Face) : Prop :=
  match f.1 with
  | .name => ∃ c cs, f.2.toList = c :: cs ∧ isNameStart c = true ∧ ∀ x ∈ cs, isNameChar x = true
  | .op => f.2 ∈ signs
  | _ => False

theorem toList_sign {s : String} (h : s ∈ signs) :
    ∃ c ∈ signChars, s.toList = [c] ∨ s.toList = [c, c] ∧ (c, c) ∈ longOps := by
  have hany : ∀ s ∈ signs, (signChars.any fun c =>
      decide (s.toList = [c] ∨ s.toList = [c, c] ∧ (c, c) ∈ longOps)) = true :=
    forall_of_all (by decide)
  obtain ⟨c, hc, hs⟩ := List.any_eq_true.mp (hany s h)
  exact ⟨c, hc, of_decide_eq_true hs⟩

theorem ne_of_isNameStart {c x : Char} (h : isNameStart c = true) (hx : isNameStart x = false) :
    c ≠ x := by
  rintro rfl
  rw [h] at hx
  exact Bool.noConfusion hx

theorem isGap_of_isNameStart {c : Char} (h : isNameStart c = true) : isGap c = false := by
  have hne : ∀ x, isNameStart x = false → (c == x) = false := fun x hx =>
    beq_eq_false_iff_ne.mpr (ne_of_isNameStart h hx)
  rw [isGap, hne ' ' (by decide), hne '\t' (by decide), hne '\r' (by decide),
    hne '\x0c' (by decide)]
  rfl

/-- what begins a comment or a string in some dialect -/
def openers : List Char := ['/', '#', '"', '\'', '=']

theorem isPrefixOf_eq_false {x c : Char} {xs rest : List Char} (h : c ≠ x) :
    (x :: xs).isPrefixOf (c :: rest) = false := by
  rw [List.isPrefixOf, beq_eq_false_iff_ne.mpr (Ne.symm h), Bool.false_and]

theorem between?_eq_none {x c : Char} {xs last rest : List Char} (h : c ≠ x) :
    between? (x :: xs) last (c :: rest) = none := by
  rw [between?, isPrefixOf_eq_false h]
  rfl

theorem comment?_eq_none {d : Dialect} {lineStart : Bool} {c : Char} {rest : List Char}
    (h : c ∉ openers) : comment? d lineStart (c :: rest) = none := by
  have hne : ∀ x ∈ openers, c ≠ x := fun x hx e => h (e ▸ hx)
  have hslash : c ≠ '/' := hne '/' (by decide)
  have hhash : c ≠ '#' := hne '#' (by decide)
  cases d with
  | braced | functional =>
    rw [comment?, show "//".toList = ['/', '/'] by decide, isPrefixOf_eq_false hslash]
    exact between?_eq_none hslash
  | indented =>
    rw [comment?, isPrefixOf_eq_false hhash, if_neg Bool.false_ne_true,
      between?_eq_none (hne '"' (by decide))]
    exact between?_eq_none (hne '\'' (by decide))
  | ended =>
    have hblock : blockBegin.isPrefixOf (c :: rest) = false := by
      rw [show blockBegin = ['=', 'b', 'e', 'g', 'i', 'n'] by decide]
      exact isPrefixOf_eq_false (hne '=' (by decide))
    rw [comment?, isPrefixOf_eq_false hhash, hblock, Bool.and_false]
    rfl

/-! ### cutting one piece -/

theorem cut_gap {d : Dialect} {lineStart : Bool} {width : Nat} {rest : List Char}
    (hrest : ∀ c ∈ rest.head?, isGap c = false) :
    cut d lineStart ' ' (List.replicate width ' ' ++ rest) = (none, width) := by
  have hblank : ∀ c ∈ List.replicate width ' ', isGap c = true := by
    intro c hc
    rw [List.eq_of_mem_replicate hc]
    decide
  rw [cut, if_pos (by decide), Text.takeWhile_prefix hblank hrest, List.length_replicate]

theorem cut_lineFeed {d : Dialect} {lineStart : Bool} {rest : List Char} :
    cut d lineStart '\n' rest = (none, 0) := by
  rw [cut, if_neg (by decide), if_pos (by decide)]

theorem cut_name {d : Dialect} {lineStart : Bool} {c : Char} {cs rest : List Char}
    (hc : isNameStart c = true) (hcs : ∀ x ∈ cs, isNameChar x = true)
    (hrest : ∀ x ∈ rest.head?, isNameChar x = false) :
    cut d lineStart c (cs ++ rest) = (some .name, cs.length) := by
  have hgap : isGap c = false := isGap_of_isNameStart hc
  have hfeed : (c == '\n') = false := beq_eq_false_iff_ne.mpr (ne_of_isNameStart hc (by decide))
  have hopen : c ∉ openers := by
    intro h
    have : ∀ x ∈ openers, isNameStart x = false := forall_of_all (by decide)
    exact ne_of_isNameStart hc (this c h) rfl
  rw [cut, hgap, hfeed, comment?_eq_none hopen]
  simp [hc, Text.takeWhile_prefix hcs hrest]

theorem cut_sign {d : Dialect} {lineStart : Bool} {c : Char} {rest : List Char}
    (hc : c ∈ signChars) : cut d lineStart c rest = (some .op, opRest c rest) := by
  have : ∀ c ∈ signChars, isGap c = false ∧ (c == '\n') = false ∧ c ∉ openers ∧
      isNameStart c = false ∧ Text.isDigit c = false ∧ (c == '"' || c == '\'') = false ∧
      Text.isBlank c = false := forall_of_all (by decide)
  obtain ⟨hgap, hfeed, hopen, hname, hdigit, hquote, hblank⟩ := this c hc
  rw [cut, hgap, hfeed, comment?_eq_none hopen]
  simp [hname, hdigit, hquote, hblank]

/-! ### what may follow a piece -/

/-- a character that cannot belong to the token before it -/
def Face.Apart (f : Face) (x : Char) : Prop :=
  if f.1 = .name then isNameChar x = false
  else ∀ c, f.2.toList = [c] → (c, x) ∉ longOps

theorem Face.Clean.head {f : Face} (hf : Face.Clean f) :
    ∃ c cs, f.2.toList = c :: cs ∧ (isNameStart c = true ∧ f.1 = .name ∨ c ∈ signChars) := by
  obtain ⟨k, s⟩ := f
  cases k with
  | name =>
    obtain ⟨c, cs, hs, hc, _⟩ := hf
    exact ⟨c, cs, hs, .inl ⟨hc, rfl⟩⟩
  | op =>
    obtain ⟨c, hc, hs | ⟨hs, _⟩⟩ := toList_sign hf
    · exact ⟨c, [], hs, .inr hc⟩
    · exact ⟨c, [c], hs, .inr hc⟩
  | _ => exact hf.elim

theorem Face.Clean.head_not_gap {f : Face} (hf : Face.Clean f) :
    ∀ x ∈ f.2.toList.head?, isGap x = false := by
  obtain ⟨c, cs, hc, hstart⟩ := hf.head
  rw [hc]
  rintro x ⟨⟩
  rcases hstart with ⟨hstart, _⟩ | hsign
  · exact isGap_of_isNameStart hstart
  · have : ∀ x ∈ signChars, isGap x = false := forall_of_all (by decide)
    exact this c hsign

theorem Face.apart_blank {x : Char} (f : Face) (hx : x ∈ [' ', '\n']) : Face.Apart f x := by
  have hname : ∀ x ∈ [' ', '\n'], isNameChar x = false := forall_of_all (by decide)
  have hlong : ∀ p ∈ longOps, p.2 ∉ [' ', '\n'] := forall_of_all (by decide)
  rw [Face.Apart]
  split
  · exact hname x hx
  · exact fun c _ h => hlong (c, x) h hx

theorem Face.apart_of_not_runTogether {f g : Face} (hg : Face.Clean g)
    (h : runTogether f g = false) : ∀ x ∈ g.2.toList.head?, Face.Apart f x := by
  obtain ⟨x, xs, hx, hstart⟩ := hg.head
  rw [hx]
  rintro y ⟨⟩
  have hsigns : ∀ x ∈ signChars, isNameChar x = false := forall_of_all (by decide)
  rw [Face.Apart]
  rw [runTogether] at h
  split
  · rename_i hk
    rw [if_pos hk] at h
    rcases hstart with ⟨_, hname⟩ | hsign
    · rw [hname] at h
      exact Bool.noConfusion h
    · exact hsigns x hsign
  · rename_i hk
    rw [if_neg hk, List.any_eq_false] at h
    intro c hc hmem
    refine h (c, x) hmem ?_
    rw [hc, hx]
    simp

/-! ### cutting a text -/

/-- A piece is cut off a text that goes on with `rest`. -/
def Piece.Lexes (d : Dialect) (p : Piece) (rest : List Char) : Prop :=
  ∃ c cs, p.text = c :: cs ∧ ∀ lineStart, cut d lineStart c (cs ++ rest) = (p.kind, cs.length)

def Separate (d : Dialect) : List Piece → Prop
  | [] => True
  | p :: ps => p.Lexes d (textOf ps) ∧ Separate d ps

theorem textOf_cons (p : Piece) (ps : List Piece) : textOf (p :: ps) = p.text ++ textOf ps := rfl

theorem piecesFrom_textOf {d : Dialect} {ps : List Piece} (h : Separate d ps) (lineStart : Bool)
    (done : List Piece) : piecesFrom d lineStart (textOf ps) done = done.reverse ++ ps := by
  induction ps generalizing lineStart done with
  | nil =>
    rw [show textOf [] = [] from rfl, piecesFrom, List.append_nil]
  | cons p ps ih =>
    obtain ⟨⟨c, cs, hp, hcut⟩, hps⟩ := h
    rw [textOf_cons, hp, List.cons_append, piecesFrom, hcut lineStart]
    simp only [List.take_left, List.drop_left]
    rw [ih hps, List.reverse_cons, List.append_assoc, ← hp]
    rfl

theorem Face.Clean.lexes {d : Dialect} {f : Face} {rest : List Char} (hf : Face.Clean f)
    (hrest : ∀ x ∈ rest.head?, Face.Apart f x) : (Face.piece f).Lexes d rest := by
  obtain ⟨k, s⟩ := f
  cases k with
  | name =>
    obtain ⟨c, cs, hs, hc, hcs⟩ := hf
    exact ⟨c, cs, hs, fun _ => cut_name hc hcs hrest⟩
  | op =>
    obtain ⟨c, hc, hs | ⟨hs, hlong⟩⟩ := toList_sign hf
    · refine ⟨c, [], hs, fun _ => ?_⟩
      rw [List.nil_append, cut_sign hc]
      cases rest with
      | nil => rfl
      | cons x xs =>
        have hx : (c, x) ∉ longOps := hrest x rfl c hs
        have hmark : ∀ c ∈ signChars, c ≠ Text.mark := forall_of_all (by decide)
        simp [opRest, hmark c hc, hx, Face.piece]
    · refine ⟨c, [c], hs, fun _ => ?_⟩
      rw [cut_sign hc]
      simp [opRest, hlong, Face.piece]
  | _ => exact hf.elim

theorem gap_lexes {d : Dialect} {width : Nat} {rest : List Char}
    (hrest : ∀ c ∈ rest.head?, isGap c = false) : (gap (width + 1)).Lexes d rest :=
  ⟨' ', List.replicate width ' ', rfl, fun _ => by rw [cut_gap hrest, List.length_replicate]; rfl⟩

theorem lineFeed_lexes {d : Dialect} {rest : List Char} : lineFeed.Lexes d rest :=
  ⟨'\n', [], rfl, fun _ => cut_lineFeed⟩

/-! ### rows -/

/-- a row that is not empty, of clean tokens -/
def Row.Clean (r : Row) : Prop := r.faces ≠ [] ∧ ∀ f ∈ r.faces, Face.Clean f

theorem head_textOf_spread {g : Face} {fs : List Face} {ps : List Piece} (hg : Face.Clean g) :
    (textOf (spread (g :: fs) ++ ps)).head? = g.2.toList.head? := by
  obtain ⟨c, cs, hc, _⟩ := hg.head
  cases fs with
  | nil => simp [spread, textOf_cons, Face.piece, hc]
  | cons f fs => simp [spread, textOf_cons, Face.piece, hc]

theorem separate_spread {d : Dialect} {fs : List Face} {ps : List Piece}
    (hfs : ∀ f ∈ fs, Face.Clean f) (hps : Separate d ps)
    (hhead : ∀ x ∈ (textOf ps).head?, x ∈ [' ', '\n']) : Separate d (spread fs ++ ps) := by
  induction fs with
  | nil => exact hps
  | cons f fs ih =>
    have hf := hfs f List.mem_cons_self
    have hrest := ih fun g hg => hfs g (List.mem_cons_of_mem f hg)
    cases fs with
    | nil => exact ⟨hf.lexes fun x hx => f.apart_blank (hhead x hx), hps⟩
    | cons g fs =>
      have hg := hfs g (List.mem_cons_of_mem f List.mem_cons_self)
      rw [spread]
      cases hs : spaced f g with
      | true =>
        refine ⟨hf.lexes ?_, gap_lexes ?_, hrest⟩
        · rintro x ⟨⟩
          exact f.apart_blank List.mem_cons_self
        · show ∀ x ∈ (textOf (spread (g :: fs) ++ ps)).head?, _
          rw [head_textOf_spread hg]
          exact hg.head_not_gap
      | false =>
        refine ⟨hf.lexes ?_, hrest⟩
        show ∀ x ∈ (textOf (spread (g :: fs) ++ ps)).head?, _
        rw [head_textOf_spread hg]
        rw [spaced, Bool.or_eq_false_iff] at hs
        exact Face.apart_of_not_runTogether hg hs.1

theorem separate_row {d : Dialect} {r : Row} {ps : List Piece} (hr : r.Clean)
    (hps : Separate d ps) : Separate d (r.pieces ++ ps) := by
  have hfeed : Separate d (lineFeed :: ps) := ⟨lineFeed_lexes, hps⟩
  have hspread : Separate d (spread r.faces ++ lineFeed :: ps) := by
    refine separate_spread hr.2 hfeed ?_
    rintro x ⟨⟩
    exact List.mem_cons_of_mem _ List.mem_cons_self
  rw [Row.pieces]
  split
  · simpa using hspread
  · rename_i hlevel
    obtain ⟨g, fs, hg⟩ := List.exists_cons_of_ne_nil hr.1
    have hclean := hr.2 g (hg ▸ List.mem_cons_self)
    obtain ⟨width, hwidth⟩ : ∃ width, r.column = width + 1 := by
      refine ⟨r.column - 1, ?_⟩
      rw [Row.column, levelWidth]
      omega
    rw [List.append_assoc, List.append_assoc, hwidth]
    refine ⟨gap_lexes ?_, by simpa using hspread⟩
    show ∀ x ∈ (textOf (spread r.faces ++ lineFeed :: ps)).head?, _
    rw [hg, head_textOf_spread hclean]
    exact hclean.head_not_gap

theorem pieces_rows {d : Dialect} {rows : List Row} (h : ∀ r ∈ rows, r.Clean) :
    pieces d (textOf (rows.flatMap Row.pieces)) = rows.flatMap Row.pieces := by
  have hsep : Separate d (rows.flatMap Row.pieces) := by
    induction rows with
    | nil => trivial
    | cons r rows ih =>
      rw [List.flatMap_cons]
      exact separate_row (h r List.mem_cons_self)
        (ih fun r' hr' => h r' (List.mem_cons_of_mem r hr'))
  rw [pieces, piecesFrom_textOf hsep, List.reverse_nil, List.nil_append]

/-! ### places -/

/-- characters that stay on their line -/
def Inline (cs : List Char) : Prop := ∀ c ∈ cs, c ≠ Text.mark ∧ c ≠ '\n'

theorem after_inline {cs : List Char} (h : Inline cs) (p : Place) :
    p.after cs = ⟨p.line, p.column + cs.length⟩ := by
  induction cs generalizing p with
  | nil => rfl
  | cons c cs ih =>
    obtain ⟨hmark, hfeed⟩ := h c List.mem_cons_self
    have hcode : (c.toNat == '\n'.toNat) = false :=
      beq_eq_false_iff_ne.mpr fun e => hfeed (Char.toNat_inj.mp e)
    have hstep : p.after (c :: cs) = (p.next c.toNat).after cs := by
      rw [Place.after, Text.codes_cons hmark, List.foldl_cons]
      rfl
    rw [hstep, ih fun x hx => h x (List.mem_cons_of_mem c hx), Place.next, hcode,
      if_neg Bool.false_ne_true, List.length_cons, Nat.add_assoc, Nat.add_comm 1]

theorem Face.Clean.inline {f : Face} (hf : Face.Clean f) : Inline f.2.toList := by
  have hname : ∀ c, isNameChar c = true → c ≠ Text.mark ∧ c ≠ '\n' := by
    intro c hc
    constructor
    · rintro rfl
      exact absurd hc (by decide)
    · rintro rfl
      exact absurd hc (by decide)
  have hsign : ∀ c ∈ signChars, c ≠ Text.mark ∧ c ≠ '\n' := forall_of_all (by decide)
  obtain ⟨k, s⟩ := f
  cases k with
  | name =>
    obtain ⟨c, cs, hs, hc, hcs⟩ := hf
    intro x hx
    rw [hs] at hx
    rcases List.mem_cons.mp hx with rfl | hx
    · exact hname x (by rw [isNameChar, hc, Bool.true_or])
    · exact hname x (hcs x hx)
  | op =>
    obtain ⟨c, hc, hs | ⟨hs, _⟩⟩ := toList_sign hf
    · rw [Inline, hs]
      intro x hx
      rw [List.mem_singleton.mp hx]
      exact hsign c hc
    · rw [Inline, hs]
      intro x hx
      have hx : x = c := by simpa using hx
      rw [hx]
      exact hsign c hc
  | _ => exact hf.elim

theorem place_append (p : Place) (ps : List Piece) (done : List Token) :
    place p ps done = done.reverse ++ place p ps [] := by
  induction ps generalizing p done with
  | nil => rw [place, place, List.reverse_nil, List.append_nil]
  | cons piece ps ih =>
    obtain ⟨kind, text⟩ := piece
    cases kind with
    | none => exact ih (p.after text) done
    | some k =>
      show place (p.after text) ps (_ :: done) = done.reverse ++ place (p.after text) ps [_]
      rw [ih (p.after text) (_ :: done), ih (p.after text) [_]]
      simp

theorem place_gap {p : Place} {width : Nat} {ps : List Piece} :
    place p (gap width :: ps) [] = place ⟨p.line, p.column + width⟩ ps [] := by
  have hinline : Inline (List.replicate width ' ') := by
    intro c hc
    rw [List.eq_of_mem_replicate hc]
    decide
  show place (p.after (List.replicate width ' ')) ps [] = _
  rw [after_inline hinline, List.length_replicate]

theorem place_lineFeed {p : Place} {ps : List Piece} :
    place p (lineFeed :: ps) [] = place ⟨p.line + 1, 0⟩ ps [] := rfl

theorem place_face {p : Place} {f : Face} {ps : List Piece} (h : Inline f.2.toList) :
    place p (Face.piece f :: ps) [] =
      ⟨f.1, f.2, p.line, p.column⟩ :: place ⟨p.line, p.column + f.2.toList.length⟩ ps [] := by
  show place (p.after f.2.toList) ps [⟨f.1, String.ofList f.2.toList, p.line, p.column⟩] = _
  rw [place_append, after_inline h, String.ofList_toList]
  rfl

/-- Tokens that a list of faces has been read as, all of them on one line. -/
structure TokensAt (place : Place) (faces : List Face) (ts : List Token) : Prop where
  faces : ts.map Token.face = faces
  line : ∀ t ∈ ts, t.line = place.line
  column : ∀ t ∈ ts.head?, t.column = place.column

theorem place_spread {fs : List Face} (hfs : ∀ f ∈ fs, Face.Clean f) (p : Place) (ps : List Piece) :
    ∃ ts column, place p (spread fs ++ ps) [] = ts ++ place ⟨p.line, column⟩ ps [] ∧
      TokensAt p fs ts := by
  induction fs generalizing p with
  | nil => exact ⟨[], p.column, rfl, rfl, nofun, nofun⟩
  | cons f fs ih =>
    have hf := (hfs f List.mem_cons_self).inline
    cases fs with
    | nil =>
      refine ⟨[⟨f.1, f.2, p.line, p.column⟩], _, place_face hf, rfl, ?_, ?_⟩
      · simp
      · simp
    | cons g fs =>
      obtain ⟨between, hbetween⟩ :
          ∃ between, place p (spread (f :: g :: fs) ++ ps) [] =
            ⟨f.1, f.2, p.line, p.column⟩ ::
              place ⟨p.line, between⟩ (spread (g :: fs) ++ ps) [] := by
        rw [spread, List.append_assoc, List.cons_append, place_face hf]
        split
        · exact ⟨_, congrArg _ place_gap⟩
        · exact ⟨_, rfl⟩
      obtain ⟨ts, column, hts, hat⟩ := ih (fun g' hg' => hfs g' (List.mem_cons_of_mem f hg'))
        ⟨p.line, between⟩
      refine ⟨⟨f.1, f.2, p.line, p.column⟩ :: ts, column, ?_, ?_, ?_, ?_⟩
      · rw [hbetween, hts, List.cons_append]
      · rw [List.map_cons, hat.faces]
        rfl
      · intro t ht
        rcases List.mem_cons.mp ht with rfl | ht
        · rfl
        · exact hat.line t ht
      · rintro t ⟨⟩
        rfl

/-- The tokens of rows, the first of which is on a line of a text. -/
inductive Placed : (line : Nat) → List Row → List Token → Prop
  | nil {line : Nat} : Placed line [] []
  | cons {line : Nat} {r : Row} {rows : List Row} {ts more : List Token}
      (row : TokensAt ⟨line, r.column⟩ r.faces ts) (rest : Placed (line + 1) rows more) :
      Placed line (r :: rows) (ts ++ more)

theorem place_row {r : Row} (hr : r.Clean) (line : Nat) (ps : List Piece) :
    ∃ ts, place ⟨line, 0⟩ (r.pieces ++ ps) [] = ts ++ place ⟨line + 1, 0⟩ ps [] ∧
      TokensAt ⟨line, r.column⟩ r.faces ts := by
  have hindent : place ⟨line, 0⟩ (r.pieces ++ ps) [] =
      place ⟨line, r.column⟩ (spread r.faces ++ lineFeed :: ps) [] := by
    rw [Row.pieces, List.append_assoc, List.append_assoc, List.singleton_append]
    split
    · rename_i hlevel
      rw [Row.column, hlevel, Nat.mul_zero]
      rfl
    · rw [List.singleton_append, place_gap, Nat.zero_add]
  obtain ⟨ts, column, hts, hat⟩ := place_spread hr.2 ⟨line, r.column⟩ (lineFeed :: ps)
  exact ⟨ts, by rw [hindent, hts, place_lineFeed], hat⟩

theorem placed_rows {rows : List Row} (h : ∀ r ∈ rows, r.Clean) (line : Nat) :
    Placed line rows (place ⟨line, 0⟩ (rows.flatMap Row.pieces) []) := by
  induction rows generalizing line with
  | nil => exact .nil
  | cons r rows ih =>
    obtain ⟨ts, hts, hat⟩ := place_row (h r List.mem_cons_self) line (rows.flatMap Row.pieces)
    rw [List.flatMap_cons, hts]
    exact .cons hat (ih (fun r' hr' => h r' (List.mem_cons_of_mem r hr')) (line + 1))

/-- **The tokens of a text made of rows are those of the rows, on the lines of the rows.** -/
theorem scan_rows {d : Dialect} {rows : List Row} (h : ∀ r ∈ rows, r.Clean) :
    Placed 1 rows (scan d (String.ofList (textOf (rows.flatMap Row.pieces)))) := by
  rw [scan, String.toList_ofList, pieces_rows h]
  exact placed_rows h 1

end Ladybug.Script

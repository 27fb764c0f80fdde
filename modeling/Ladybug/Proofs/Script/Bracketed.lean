import Ladybug.Proofs.Script.Fitting
import Ladybug.Proofs.Script.Places

/-!
# Scripts whose blocks are well bracketed

The tokens of a script are its words, with line ends and with the beginnings and ends of blocks put
in where they fit.

* `scan_words`            the words of a script
* `Bracketed`, `Lined`    tokens with blocks, and tokens with line ends alone
* `tokenize_bracketed`    the tokens of every script are such tokens
-/

namespace Ladybug.Script

open Text (codes)

/-! ### the words of a script -/

theorem cut_kind (d : Dialect) (lineStart : Bool) (c : Char) (rest : List Char) :
    ∀ k ∈ (cut d lineStart c rest).1, k.isLayout = false := by
  have hword {k : Kind} (hk : k.isLayout = false) : ∀ k' ∈ some k, k'.isLayout = false := by
    rintro _ ⟨⟩
    exact hk
  unfold cut
  generalize (if c == '"' || c == '\'' then stringRest? c rest 0 else none) = string
  split
  case isTrue => exact nofun
  split
  case isTrue => exact nofun
  split
  case h_1 => exact nofun
  split
  case isTrue => exact hword rfl
  split
  case isTrue => exact hword rfl
  cases string with
  | some n => exact hword rfl
  | none =>
    dsimp only
    split
    · exact nofun
    · exact hword rfl

theorem piecesFrom_kind (d : Dialect) (lineStart : Bool) (s : List Char) (done : List Piece)
    (h : ∀ p ∈ done, ∀ k ∈ p.kind, k.isLayout = false) :
    ∀ p ∈ piecesFrom d lineStart s done, ∀ k ∈ p.kind, k.isLayout = false := by
  fun_induction piecesFrom d lineStart s done with
  | case1 => simpa using h
  | case2 lineStart done c rest kind n hcut text ih =>
    refine ih (List.forall_mem_cons.mpr ⟨?_, h⟩)
    have hkind := cut_kind d lineStart c rest
    rw [hcut] at hkind
    exact hkind

theorem place_words {ps : List Piece} (h : ∀ p ∈ ps, ∀ k ∈ p.kind, k.isLayout = false) {p : Place}
    (hp : 1 ≤ p.line) : ∀ t ∈ place p ps [], t.isLayout = false ∧ 1 ≤ t.line := by
  induction ps generalizing p with
  | nil => exact nofun
  | cons piece ps ih =>
    obtain ⟨hpiece, hps⟩ := List.forall_mem_cons.mp h
    have hafter : 1 ≤ (p.after piece.text).line := by
      have hbefore := before_foldl p (codes piece.text)
      unfold Place.Before at hbefore
      unfold Place.after
      omega
    rw [place_cons]
    refine List.forall_mem_append.mpr ⟨fun t ht => ?_, ih hps hafter⟩
    obtain ⟨k, hk, rfl⟩ := Option.map_eq_some_iff.mp (Option.mem_toList.mp ht)
    exact ⟨hpiece k hk, hp⟩

/-- The tokens of a script are words, and its lines are counted from one. -/
theorem scan_words (d : Dialect) (source : String) :
    ∀ t ∈ scan d source, t.isLayout = false ∧ 1 ≤ t.line :=
  place_words (piecesFrom_kind d true source.toList [] nofun) (Nat.le_refl 1)

/-! ### the tokens of a script -/

/-- The tokens of an indented script. Blocks end that have begun, and they begin after line ends.
Inside brackets nothing is put in before another word. Every line begins in the column of the
innermost block that is open there. -/
structure Bracketed (script out : List Token) : Prop where
  same : words out = script
  balanced : out.countP (fun t => t.kind == .dedent) = out.countP fun t => t.kind == .indent
  open_first : ∀ before, before <+: out →
    before.countP (fun t => t.kind == .dedent) ≤ before.countP fun t => t.kind == .indent
  indents : Throughout (fun before t => t.kind = .indent →
    before = [] ∨ ∃ u ∈ before.getLast?, u.kind = .newline) out
  joined : ∀ before t after, out = before ++ t :: after → t.isLayout = true →
    openBrackets before ≠ 0 → words after = []
  columns : Throughout (fun before t => t.isLayout = false → Begins before t →
    t.column = (openBlocks before).headD 0) out

/-- The tokens of a script whose blocks are not indented. Only line ends are put in, each of them
after a word. They stand between lines and at the end. -/
structure Lined (script out : List Token) : Prop where
  same : words out = script
  newlines : ∀ t ∈ out, t.isLayout = true → t.kind = .newline
  between : Throughout (fun before t => t.kind = .newline →
    ∃ u ∈ before.getLast?, u.isLayout = false) out
  begins : Throughout (fun before t => t.isLayout = false → before ≠ [] →
    ((∃ u ∈ before.getLast?, u.kind = .newline) ↔ Begins before t)) out
  last : ∀ u ∈ out.getLast?, u.kind = .newline

section
variable {indented : Bool} {ts out : List Token}

/-- What is put in where a bracket is open is put in at the end. -/
theorem words_of_open (h : Throughout (Fits indented) out) {before after : List Token} {t : Token}
    (hout : out = before ++ t :: after) (ht : t.isLayout = true) (hopen : openBrackets before ≠ 0) :
    words after = [] := by
  induction after generalizing before t with
  | nil => rfl
  | cons u after ih =>
    have hout' : out = before ++ [t] ++ u :: after := by
      rw [hout, List.append_assoc, List.singleton_append]
    have hopen' : openBrackets (before ++ [t]) ≠ 0 := by
      rwa [openBrackets_concat, depthAfter_of_layout ht]
    cases hu : u.isLayout with
    | true =>
      have hskip : words (u :: after) = words after := by
        rw [words, List.filter_cons_of_neg (by simp [hu]), words]
      rw [hskip]
      exact ih hout' hu hopen'
    | false =>
      obtain ⟨v, hv, hword⟩ := (h _ u after hout').within hu fun hbegins => hopen' hbegins.1
      rw [List.getLast?_concat] at hv
      cases hv
      rw [ht] at hword
      cases hword

theorem Laid.bracketed (h : Laid true ts out) : Bracketed ts out := by
  have hdedents : Throughout (fun before t => t.kind = .dedent → openBlocks before ≠ []) out :=
    fun before t after hout hkind => ((h.fits before t after hout).dedent hkind).2
  constructor
  case same => exact h.same
  case balanced =>
    have hcount := countP_dedent_add hdedents
    rwa [h.closed, List.length_nil, Nat.add_zero] at hcount
  case open_first =>
    intro before hbefore
    exact Nat.le.intro (countP_dedent_add (hdedents.of_prefix hbefore))
  case indents =>
    exact fun before t after hout hkind => ((h.fits before t after hout).indent hkind).2
  case joined => exact fun before t after => words_of_open h.fits
  case columns =>
    exact fun before t after hout hword hbegins =>
      (h.fits before t after hout).column hword hbegins rfl

theorem Laid.lined (h : Laid false ts out) : Lined ts out := by
  have hnewlines : ∀ t ∈ out, t.isLayout = true → t.kind = .newline := by
    intro t ht hlayout
    obtain ⟨before, after, hout⟩ := List.append_of_mem ht
    have hfits := h.fits before t after hout
    cases hkind : t.kind with
    | newline => rfl
    | indent => exact absurd (hfits.indent hkind).1 Bool.false_ne_true
    | dedent => exact absurd (hfits.dedent hkind).1 Bool.false_ne_true
    | _ =>
      rw [Token.isLayout, hkind] at hlayout
      cases hlayout
  constructor
  case same => exact h.same
  case newlines => exact hnewlines
  case between => exact fun before t after hout => (h.fits before t after hout).newline
  case begins =>
    intro before t after hout hword hne
    have hfits := h.fits before t after hout
    constructor
    case mp =>
      rintro ⟨u, hu, hkind⟩
      by_contra hnot
      obtain ⟨v, hv, hlast⟩ := hfits.within hword hnot
      cases Option.mem_unique hu hv
      rw [Token.isLayout, hkind] at hlast
      cases hlast
    case mpr =>
      intro hbegins
      have hu := List.getLast?_eq_some_getLast hne
      refine ⟨_, hu, hnewlines _ ?_ (hfits.begins hword hbegins _ hu)⟩
      rw [hout]
      exact List.mem_append_left _ (List.getLast_mem hne)
  case last => exact fun u hu => hnewlines u (List.mem_of_getLast? hu) (h.last u hu)

end

/-- **The tokens of a script are well bracketed** when it is indented, whenever it has tokens. When
its blocks end with words, it has tokens: its words, with line ends between its lines. -/
theorem tokenize_bracketed (source : String) :
    (∀ out, tokenize .indented source = .ok out → Bracketed (scan .indented source) out) ∧
      ∃ out, tokenize .ended source = .ok out ∧ Lined (scan .ended source) out := by
  constructor
  · intro out hout
    exact (withLines_laid (scan_words .indented source) hout).bracketed
  · obtain ⟨out, hout⟩ := exists_withLines_false (scan .ended source)
    exact ⟨out, hout, (withLines_laid (scan_words .ended source) hout).lined⟩

/-- blocks that end together, a closing bracket too many, and a bracket that stays open -/
def nested : String := "if (a\n  and b):\n    while c:\n      d)\ne(\n  f"

def nestedFaces : List Face :=
  [(.name, "if"), (.op, "("), (.name, "a"), (.name, "and"), (.name, "b"), (.op, ")"), (.op, ":"),
    (.newline, ""), (.indent, ""), (.name, "while"), (.name, "c"), (.op, ":"),
    (.newline, ""), (.indent, ""), (.name, "d"), (.op, ")"),
    (.newline, ""), (.dedent, ""), (.dedent, ""), (.name, "e"), (.op, "("), (.name, "f"),
    (.newline, "")]

theorem nested_bracketed : ∃ out, tokenize .indented nested = .ok out ∧
    out.map Token.face = nestedFaces ∧ Bracketed (scan .indented nested) out := by
  have hfaces : (tokenize .indented nested).map (List.map Token.face) = .ok nestedFaces := by cbv
  cases hout : tokenize .indented nested with
  | error m =>
    rw [hout] at hfaces
    cases hfaces
  | ok out =>
    rw [hout] at hfaces
    exact ⟨out, rfl, Except.ok.inj hfaces, (tokenize_bracketed nested).1 out hout⟩

end Ladybug.Script

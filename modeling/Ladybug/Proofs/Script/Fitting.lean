import Ladybug.Proofs.Intake
import Ladybug.Proofs.Script.LaidOut
import Mathlib.Data.List.Induction

/-!
# Where line ends and blocks are put in

What stands before a token tells whether it may be put in there. Line ends and blocks are put in at
the beginnings of lines, where no bracket is open; there the columns of the open blocks are those
that the state of laying out keeps.

* `Token.isLayout`, `words`   tokens that are put in, and the words of the script
* `openBrackets`, `openBlocks`   what is open after some tokens
* `Begins`                a word that begins a line
* `Fits`                  a token that may stand after others
* `Throughout`            what holds of each token and of those before it
* `countP_dedent_add`     the blocks that have begun
* `Lines.Stepped`         what a word comes to
* `Lines.Stands`          the invariant of laying out
* `Stands.step`, `Stands.run`   one word, and all of them
* `withLines_laid`        tokens that have been laid out
-/

namespace Ladybug.Script

/-! ### what stands before a token -/

/-- line ends, and the beginnings and ends of blocks -/
def Kind.isLayout : Kind → Bool
  | .newline | .indent | .dedent => true
  | .name | .number | .string | .op => false

def Token.isLayout (t : Token) : Bool := t.kind.isLayout

/-- the tokens that are words of the script -/
def words (ts : List Token) : List Token := ts.filter fun t => !t.isLayout

/-- the number of brackets that are open after some tokens -/
def openBrackets (ts : List Token) : Nat := ts.foldl Lines.depthAfter 0

def blocksAfter (columns : List Nat) (t : Token) : List Nat :=
  match t.kind with
  | .indent => t.column :: columns
  | .dedent => columns.tail
  | _ => columns

/-- the columns of the blocks that are open after some tokens, the innermost one first -/
def openBlocks (ts : List Token) : List Nat := ts.foldl blocksAfter []

/-- A word begins a line: no bracket is open, and the word before it, if there is one, stands on an
earlier line. -/
def Begins (before : List Token) (t : Token) : Prop :=
  openBrackets before = 0 ∧ ∀ u ∈ (words before).getLast?, u.line < t.line

/-- A token may stand after others. A line end stands after a word, the beginning of a block after a
line end, its end where a block is open. A word stands after a word, unless it begins a line; then
it stands after a token that is put in, and in the column of the innermost block. -/
structure Fits (indented : Bool) (before : List Token) (t : Token) : Prop where
  newline : t.kind = .newline → ∃ u ∈ before.getLast?, u.isLayout = false
  indent : t.kind = .indent →
    indented = true ∧ (before = [] ∨ ∃ u ∈ before.getLast?, u.kind = .newline)
  dedent : t.kind = .dedent → indented = true ∧ openBlocks before ≠ []
  within : t.isLayout = false → ¬ Begins before t → ∃ u ∈ before.getLast?, u.isLayout = false
  begins : t.isLayout = false → Begins before t → ∀ u ∈ before.getLast?, u.isLayout = true
  column : t.isLayout = false → Begins before t → indented = true →
    t.column = Lines.column (openBlocks before)

/-- Something holds of each token and of those before it. -/
def Throughout (P : List Token → Token → Prop) (ts : List Token) : Prop :=
  ∀ before t after, ts = before ++ t :: after → P before t

section
variable {P : List Token → Token → Prop} {ts : List Token} {t : Token}

theorem throughout_nil : Throughout P [] := by
  intro before t after h
  exact absurd h.symm (List.append_ne_nil_of_right_ne_nil before (List.cons_ne_nil t after))

theorem Throughout.concat (h : Throughout P ts) (ht : P ts t) : Throughout P (ts ++ [t]) := by
  intro before u after hsplit
  cases after using List.reverseRecOn with
  | nil =>
    obtain ⟨rfl, hlast⟩ := List.append_inj' hsplit rfl
    cases hlast
    exact ht
  | append_singleton more v =>
    have hlonger : ts ++ [t] = before ++ u :: more ++ [v] := by
      rw [hsplit, List.append_assoc, List.cons_append]
    exact h before u more (List.append_inj' hlonger rfl).1

theorem Throughout.of_prefix {before : List Token} (h : Throughout P ts) (hbefore : before <+: ts) :
    Throughout P before := by
  obtain ⟨rest, rfl⟩ := hbefore
  intro first u after hsplit
  refine h first u (after ++ rest) ?_
  rw [hsplit, List.append_assoc, List.cons_append]

theorem Throughout.last (h : Throughout P (ts ++ [t])) : P ts t := h ts t [] rfl

theorem openBlocks_concat (ts : List Token) (t : Token) :
    openBlocks (ts ++ [t]) = blocksAfter (openBlocks ts) t := List.foldl_concat ..

theorem openBrackets_concat (ts : List Token) (t : Token) :
    openBrackets (ts ++ [t]) = Lines.depthAfter (openBrackets ts) t := List.foldl_concat ..

theorem depthAfter_of_layout (h : t.isLayout = true) (depth : Nat) :
    Lines.depthAfter depth t = depth := by
  have hkind : (t.kind == .op) = false := by
    revert h
    unfold Token.isLayout Kind.isLayout
    cases t.kind <;> decide
  simp only [Lines.depthAfter, Lines.opens, Lines.closes, hkind, Bool.false_and,
    Bool.false_eq_true, ↓reduceIte]

theorem blocksAfter_of_word (h : t.isLayout = false) (columns : List Nat) :
    blocksAfter columns t = columns := by
  revert h
  unfold Token.isLayout Kind.isLayout blocksAfter
  cases t.kind <;> simp

/-- What is put in opens and closes no brackets. -/
theorem openBrackets_append_layout {layout : List Token} (h : ∀ t ∈ layout, t.isLayout = true) :
    openBrackets (ts ++ layout) = openBrackets ts := by
  induction layout using List.reverseRecOn with
  | nil => rw [List.append_nil]
  | append_singleton layout t ih =>
    obtain ⟨hlayout, ht⟩ := List.forall_mem_append.mp h
    rw [← List.append_assoc, openBrackets_concat, depthAfter_of_layout (ht t List.mem_cons_self),
      ih hlayout]

theorem words_append (ts more : List Token) : words (ts ++ more) = words ts ++ words more :=
  List.filter_append ts more

theorem words_layout {layout : List Token} (h : ∀ t ∈ layout, t.isLayout = true) :
    words layout = [] := by
  refine List.filter_eq_nil_iff.mpr fun t ht => ?_
  rw [h t ht]
  decide

theorem words_of_words (h : ∀ t ∈ ts, t.isLayout = false) : words ts = ts := by
  refine List.filter_eq_self.mpr fun t ht => ?_
  rw [h t ht]
  rfl

theorem begins_append_layout {layout : List Token} (h : ∀ t ∈ layout, t.isLayout = true) :
    Begins (ts ++ layout) t ↔ Begins ts t := by
  rw [Begins, openBrackets_append_layout h, words_append, words_layout h, List.append_nil, Begins]

/-! ### blocks -/

/-- The blocks that have begun are those that have ended and those that are open. -/
theorem countP_dedent_add
    (h : Throughout (fun before t => t.kind = .dedent → openBlocks before ≠ []) ts) :
    ts.countP (fun t => t.kind == .dedent) + (openBlocks ts).length
      = ts.countP fun t => t.kind == .indent := by
  induction ts using List.reverseRecOn with
  | nil => rfl
  | append_singleton ts t ih =>
    have hbefore := ih (h.of_prefix (List.prefix_append ts [t]))
    have hopen := h.last
    rw [openBlocks_concat, List.countP_append, List.countP_append, List.countP_singleton,
      List.countP_singleton]
    unfold blocksAfter
    cases hkind : t.kind with
    | indent =>
      simp only [beq_iff_eq, reduceCtorEq, ↓reduceIte, Nat.add_zero, List.length_cons, BEq.rfl]
      omega
    | dedent =>
      have hpos := List.length_pos_iff.mpr (hopen hkind)
      simp only [BEq.rfl, ↓reduceIte, List.length_tail, beq_iff_eq, reduceCtorEq, Nat.add_zero]
      omega
    | _ => simpa using hbefore

end

/-! ### what is put in before a line -/

namespace Lines

/-- What is put in before a line for the sake of blocks, and the blocks that are open then. -/
inductive Opening (columns : List Nat) (t : Token) :
    (indented : Bool) → List Token → List Nat → Prop
  | flat : Opening columns t false [] columns
  | deeper : Opening columns t true [⟨.indent, "", t.line, t.column⟩] (t.column :: columns)
  | back {n : Nat} (many : n ≤ columns.length) (same : t.column = column (columns.drop n)) :
      Opening columns t true (List.replicate n ⟨.dedent, "", t.line, t.column⟩) (columns.drop n)

theorem opening_of_indentation {columns columns' : List Nat} {t : Token} {blocks : List Token}
    (h : indentation columns t = .ok (blocks, columns')) :
    Opening columns t true blocks.reverse columns' := by
  unfold indentation at h
  split at h
  · cases h
    exact .deeper
  · rcases hleave : leave t.column columns with ⟨n, rest⟩
    obtain ⟨hmany, rfl⟩ := leave_eq_drop hleave
    simp only [hleave] at h
    split at h
    · cases h
      rw [List.reverse_replicate]
      exact .back hmany ‹_›
    · cases h

/-- the line end before the next line, if there is a line before it -/
def lineEnds (s : Lines) : List Token :=
  if s.done.isEmpty then [] else [⟨.newline, "", s.line, 0⟩]

theorem lineEnds_isLayout (s : Lines) : ∀ u ∈ s.lineEnds, u.isLayout = true := by
  unfold lineEnds
  split
  · exact List.forall_mem_nil _
  · intro u hu
    rw [List.mem_singleton.mp hu]
    rfl

/-- After the line end there is no word at the end. -/
theorem isLayout_of_getLast? (s : Lines) {more : List Token}
    (hmore : ∀ u ∈ more, u.isLayout = true) :
    ∀ u ∈ (s.done.reverse ++ (s.lineEnds ++ more)).getLast?, u.isLayout = true := by
  intro u hu
  rw [List.getLast?_append] at hu
  cases hlast : (s.lineEnds ++ more).getLast? with
  | some v =>
    rw [hlast] at hu
    cases hu
    exact List.forall_mem_append.mpr ⟨s.lineEnds_isLayout, hmore⟩ u (List.mem_of_getLast? hlast)
  | none =>
    -- where nothing is put in, nothing has been laid out before
    have hends := (List.append_eq_nil_iff.mp (List.getLast?_eq_none_iff.mp hlast)).1
    have hdone : s.done = [] := by
      unfold lineEnds at hends
      split at hends
      · exact List.isEmpty_iff.mp ‹_›
      · cases hends
    rw [hlast, hdone] at hu
    cases hu

/-- What a step comes to: a word goes on with its line, or it begins one. -/
inductive Stepped (indented : Bool) (s : Lines) (t : Token) : Lines → Prop
  | within (same : ¬ (s.depth = 0 ∧ s.line < t.line)) :
      Stepped indented s t ⟨t :: s.done, s.columns, depthAfter s.depth t, t.line⟩
  | begins {blocks : List Token} {columns : List Nat} (next : s.depth = 0 ∧ s.line < t.line)
      (opening : Opening s.columns t indented blocks columns) :
      Stepped indented s t
        ⟨t :: ((s.lineEnds ++ blocks).reverse ++ s.done), columns, depthAfter s.depth t, t.line⟩

theorem stepped_of_step {indented : Bool} {s s' : Lines} {t : Token}
    (h : step indented s t = .ok s') : Stepped indented s t s' := by
  have hends : s.lineEnds.reverse = s.lineEnds := by
    unfold lineEnds
    split <;> rfl
  unfold step at h
  split at h
  · rename_i hnext
    cases indented with
    | false =>
      cases h
      have hbegins : Stepped false s t _ := .begins hnext .flat
      rwa [List.append_nil, hends] at hbegins
    | true =>
      simp only [if_true] at h
      split at h
      · cases h
      · rename_i blocks columns hblocks
        cases h
        have hbegins : Stepped true s t _ := .begins hnext (opening_of_indentation hblocks)
        rwa [List.reverse_append, List.reverse_reverse, hends] at hbegins
  · cases h
    exact .within ‹_›

/-- Tokens that stand where they may, and the blocks that are open after them. -/
structure Grown (indented : Bool) (ts : List Token) (columns : List Nat) : Prop where
  fits : Throughout (Fits indented) ts
  blocks : openBlocks ts = columns
  flat : indented = false → columns = []

section
variable {indented : Bool} {ts : List Token} {columns : List Nat}

theorem Grown.newline (h : Grown indented ts columns) {t : Token} (ht : t.kind = .newline)
    (hlast : ∃ u ∈ ts.getLast?, u.isLayout = false) : Grown indented (ts ++ [t]) columns where
  fits := by
    have hlayout : t.isLayout = true := congrArg Kind.isLayout ht
    refine h.fits.concat ⟨fun _ => hlast, ?_, ?_, ?_, ?_, ?_⟩
    all_goals simp [ht, hlayout]
  blocks := by
    rw [openBlocks_concat, h.blocks]
    simp only [blocksAfter, ht]
  flat := h.flat

theorem Grown.indent (h : Grown true ts columns) {t : Token} (ht : t.kind = .indent)
    (hlast : ts = [] ∨ ∃ u ∈ ts.getLast?, u.kind = .newline) :
    Grown true (ts ++ [t]) (t.column :: columns) where
  fits := by
    have hlayout : t.isLayout = true := congrArg Kind.isLayout ht
    refine h.fits.concat ⟨?_, fun _ => ⟨rfl, hlast⟩, ?_, ?_, ?_, ?_⟩
    all_goals simp [ht, hlayout]
  blocks := by
    rw [openBlocks_concat, h.blocks]
    simp only [blocksAfter, ht]
  flat := nofun

/-- The ends of the innermost blocks. -/
theorem Grown.dedents (h : Grown true ts columns) {t : Token} (ht : t.kind = .dedent) {n : Nat}
    (hn : n ≤ columns.length) : Grown true (ts ++ List.replicate n t) (columns.drop n) := by
  induction n with
  | zero => rwa [List.replicate_zero, List.append_nil, List.drop_zero]
  | succ n ih =>
    have hbefore := ih (Nat.le_of_succ_le hn)
    have hopen : openBlocks (ts ++ List.replicate n t) ≠ [] := by
      rw [hbefore.blocks, ne_eq, List.drop_eq_nil_iff]
      exact Nat.not_le.mpr hn
    have hlayout : t.isLayout = true := congrArg Kind.isLayout ht
    rw [List.replicate_succ', ← List.append_assoc]
    constructor
    case fits =>
      refine hbefore.fits.concat ⟨?_, ?_, fun _ => ⟨rfl, hopen⟩, ?_, ?_, ?_⟩
      all_goals simp [ht, hlayout]
    case blocks =>
      rw [openBlocks_concat, hbefore.blocks]
      simp only [blocksAfter, ht, List.tail_drop]
    case flat => exact nofun

/-- The ends of all blocks. -/
theorem Grown.closed (h : Grown indented ts columns) {t : Token} (ht : t.kind = .dedent) :
    Grown indented (ts ++ List.replicate columns.length t) [] := by
  cases indented with
  | true =>
    have hclosed := h.dedents ht (Nat.le_refl columns.length)
    rwa [List.drop_length] at hclosed
  | false =>
    obtain rfl := h.flat rfl
    rwa [List.length_nil, List.replicate_zero, List.append_nil]

theorem Grown.word (h : Grown indented ts columns) {t : Token} (ht : t.isLayout = false)
    (hwithin : ¬ Begins ts t → ∃ u ∈ ts.getLast?, u.isLayout = false)
    (hbegins : Begins ts t → ∀ u ∈ ts.getLast?, u.isLayout = true)
    (hcolumn : Begins ts t → indented = true → t.column = column columns) :
    Grown indented (ts ++ [t]) columns where
  fits := by
    have hkind {k : Kind} (hk : k.isLayout = true) : t.kind ≠ k := by
      rintro rfl
      exact absurd (ht.symm.trans hk) Bool.false_ne_true
    refine h.fits.concat ⟨fun hk => absurd hk (hkind rfl), fun hk => absurd hk (hkind rfl),
      fun hk => absurd hk (hkind rfl), fun _ => hwithin, fun _ => hbegins, fun _ => ?_⟩
    rwa [h.blocks]
  blocks := by rw [openBlocks_concat, h.blocks, blocksAfter_of_word ht]
  flat := h.flat

/-- What is put in for the sake of blocks fits after a line end. -/
theorem Opening.grown {t : Token} {blocks : List Token} {columns' : List Nat}
    (h : Opening columns t indented blocks columns') (hts : Grown indented ts columns)
    (hlast : ts = [] ∨ ∃ u ∈ ts.getLast?, u.kind = .newline) :
    Grown indented (ts ++ blocks) columns' := by
  cases h with
  | flat => rwa [List.append_nil]
  | deeper => exact hts.indent rfl hlast
  | back many _ => exact hts.dedents rfl many

theorem Opening.isLayout {t : Token} {blocks : List Token} {columns' : List Nat}
    (h : Opening columns t indented blocks columns') : ∀ u ∈ blocks, u.isLayout = true := by
  cases h with
  | flat => exact List.forall_mem_nil _
  | deeper =>
    intro u hu
    rw [List.mem_singleton.mp hu]
    rfl
  | back =>
    intro u hu
    rw [List.eq_of_mem_replicate hu]
    rfl

theorem Opening.column {t : Token} {blocks : List Token} {columns' : List Nat}
    (h : Opening columns t indented blocks columns') (hindented : indented = true) :
    t.column = column columns' := by
  cases h with
  | flat => cases hindented
  | deeper => rfl
  | back _ same => exact same

end

/-! ### the invariant -/

/-- What has been laid out stands where it may, and the state says what is open after it. -/
structure Stands (indented : Bool) (s : Lines) : Prop where
  grown : Grown indented s.done.reverse s.columns
  brackets : openBrackets s.done.reverse = s.depth
  last : ∀ u rest, s.done = u :: rest → u.isLayout = false ∧ u.line = s.line
  fresh : s.done = [] → s.line = 0

theorem stands_nil (indented : Bool) : Stands indented {} where
  grown := ⟨throughout_nil, rfl, fun _ => rfl⟩
  brackets := rfl
  last := nofun
  fresh _ := rfl

section
variable {indented : Bool} {s s' : Lines} {t : Token} (h : Stands indented s)
include h

theorem Stands.last_word : (words s.done.reverse).getLast? = s.done.head? := by
  cases hdone : s.done with
  | nil => rfl
  | cons u rest =>
    have hu : ∀ v ∈ [u], v.isLayout = false := by
      intro v hv
      rw [List.mem_singleton.mp hv]
      exact (h.last u rest hdone).1
    rw [List.reverse_cons, words_append, words_of_words hu, List.getLast?_concat]
    rfl

/-- The state tells which words begin lines. -/
theorem Stands.begins_iff (ht : 1 ≤ t.line) :
    Begins s.done.reverse t ↔ s.depth = 0 ∧ s.line < t.line := by
  rw [Begins, h.brackets, h.last_word]
  refine and_congr_right fun _ => ?_
  cases hdone : s.done with
  | nil =>
    have hline := h.fresh hdone
    simp
    omega
  | cons u rest =>
    have hline := (h.last u rest hdone).2
    simp [hline]

theorem Stands.grown_lineEnds : Grown indented (s.done.reverse ++ s.lineEnds) s.columns ∧
    (s.done.reverse ++ s.lineEnds = [] ∨
      ∃ u ∈ (s.done.reverse ++ s.lineEnds).getLast?, u.kind = .newline) := by
  unfold lineEnds
  cases hdone : s.done with
  | nil =>
    have hgrown := h.grown
    rw [hdone] at hgrown
    exact ⟨hgrown, .inl rfl⟩
  | cons u rest =>
    have hlast : ∃ v ∈ s.done.reverse.getLast?, v.isLayout = false := by
      rw [List.getLast?_reverse, hdone]
      exact ⟨u, rfl, (h.last u rest hdone).1⟩
    have hgrown := h.grown.newline (t := ⟨.newline, "", s.line, 0⟩) rfl hlast
    rw [hdone] at hgrown
    refine ⟨hgrown, .inr ⟨⟨.newline, "", s.line, 0⟩, ?_, rfl⟩⟩
    exact List.getLast?_concat ..

/-- A word that goes on with its line comes after a word. -/
theorem Stands.exists_last (hline : 1 ≤ t.line) (hsame : ¬ (s.depth = 0 ∧ s.line < t.line)) :
    ∃ u ∈ s.done.reverse.getLast?, u.isLayout = false := by
  rw [List.getLast?_reverse]
  cases hdone : s.done with
  | nil =>
    have hdepth := h.brackets
    have hfresh := h.fresh hdone
    rw [hdone] at hdepth
    exact absurd ⟨hdepth.symm, by omega⟩ hsame
  | cons u rest => exact ⟨u, rfl, (h.last u rest hdone).1⟩

/-- **One word**: it goes on with its line, or it begins one. -/
theorem Stands.step (hword : t.isLayout = false) (hline : 1 ≤ t.line)
    (hstep : Lines.step indented s t = .ok s') :
    Stands indented s' ∧ words s'.done.reverse = words s.done.reverse ++ [t] := by
  have hwords : words [t] = [t] := words_of_words (by simpa using hword)
  have hlast (done : List Token) :
      ∀ u rest, t :: done = u :: rest → u.isLayout = false ∧ u.line = t.line := by
    rintro u rest ⟨⟩
    exact ⟨hword, rfl⟩
  cases stepped_of_step hstep with
  | within same =>
    have hnot : ¬ Begins s.done.reverse t := fun hb => same ((h.begins_iff hline).mp hb)
    have hgrown := h.grown.word hword (fun _ => h.exists_last hline same)
      (fun hb => absurd hb hnot) fun hb => absurd hb hnot
    refine ⟨⟨?_, ?_, hlast _, nofun⟩, ?_⟩
    · rwa [List.reverse_cons]
    · rw [List.reverse_cons, openBrackets_concat, h.brackets]
    · rw [List.reverse_cons, words_append, hwords]
  | @begins blocks columns next opening =>
    obtain ⟨hends, hafter⟩ := h.grown_lineEnds
    have hlayout : ∀ u ∈ s.lineEnds ++ blocks, u.isLayout = true :=
      List.forall_mem_append.mpr ⟨s.lineEnds_isLayout, opening.isLayout⟩
    have hbegins : Begins (s.done.reverse ++ (s.lineEnds ++ blocks)) t :=
      (begins_append_layout hlayout).mpr ((h.begins_iff hline).mpr next)
    have hgrown := opening.grown hends hafter
    rw [List.append_assoc] at hgrown
    have hgrown' := hgrown.word hword (fun hnot => absurd hbegins hnot)
      (fun _ => s.isLayout_of_getLast? opening.isLayout) fun _ => opening.column
    have hreverse : (t :: ((s.lineEnds ++ blocks).reverse ++ s.done)).reverse
        = s.done.reverse ++ (s.lineEnds ++ blocks) ++ [t] := by
      rw [List.reverse_cons, List.reverse_append, List.reverse_reverse]
    refine ⟨⟨?_, ?_, hlast _, nofun⟩, ?_⟩
    · rwa [hreverse]
    · rw [hreverse, openBrackets_concat, openBrackets_append_layout hlayout, h.brackets]
    · rw [hreverse, words_append, words_append, words_layout hlayout, List.append_nil, hwords]

end

/-- **All words.** -/
theorem Stands.run {indented : Bool} {ts : List Token} {s s' : Lines} (h : Stands indented s)
    (hts : ∀ t ∈ ts, t.isLayout = false ∧ 1 ≤ t.line) (hrun : Steps indented s ts s') :
    Stands indented s' ∧ words s'.done.reverse = words s.done.reverse ++ ts := by
  induction ts generalizing s with
  | nil =>
    cases hrun
    exact ⟨h, (List.append_nil _).symm⟩
  | cons t ts ih =>
    obtain ⟨⟨hword, hline⟩, hrest⟩ := List.forall_mem_cons.mp hts
    rw [Steps, List.foldlM_cons] at hrun
    obtain ⟨s₁, hstep, hrun⟩ := bind_eq_ok_iff.mp hrun
    obtain ⟨hstands, hwords⟩ := h.step hword hline hstep
    obtain ⟨hstands', hwords'⟩ := ih hstands hrest hrun
    refine ⟨hstands', ?_⟩
    rw [hwords', hwords, List.append_assoc, List.singleton_append]

end Lines

/-! ### tokens that have been laid out -/

/-- Tokens that have been laid out: each stands where it may, no block is open at the end, the words
are those of the script, and something is put in after the last of them. -/
structure Laid (indented : Bool) (ts out : List Token) : Prop where
  fits : Throughout (Fits indented) out
  closed : openBlocks out = []
  same : words out = ts
  last : ∀ u ∈ out.getLast?, u.isLayout = true

/-- The last line end and the ends of the blocks that are open fit too. -/
theorem Lines.Stands.laid {indented : Bool} {s : Lines} (h : s.Stands indented) :
    Laid indented (words s.done.reverse) s.finish := by
  let last := List.replicate s.columns.length (⟨.dedent, "", s.line + 1, 0⟩ : Token)
  have hlast : ∀ u ∈ last, u.isLayout = true := fun u hu => by
    rw [List.eq_of_mem_replicate hu]
    rfl
  have hfinish : s.finish = s.done.reverse ++ (s.lineEnds ++ last) := by
    unfold finish lineEnds
    cases hdone : s.done with
    | nil =>
      have hblocks := h.grown.blocks
      rw [hdone] at hblocks
      simp only [last, ← hblocks]
      rfl
    | cons u rest => simp [last]
  have hgrown := h.grown_lineEnds.1.closed (t := ⟨.dedent, "", s.line + 1, 0⟩) rfl
  rw [List.append_assoc, ← hfinish] at hgrown
  constructor
  case fits => exact hgrown.fits
  case closed => exact hgrown.blocks
  case same =>
    rw [hfinish, words_append, words_append, words_layout s.lineEnds_isLayout, words_layout hlast]
    exact List.append_nil _
  case last =>
    rw [hfinish]
    exact s.isLayout_of_getLast? hlast

/-- **Whatever is laid out**, from words that stand on lines. -/
theorem withLines_laid {indented : Bool} {ts out : List Token}
    (hts : ∀ t ∈ ts, t.isLayout = false ∧ 1 ≤ t.line) (h : withLines indented ts = .ok out) :
    Laid indented ts out := by
  unfold withLines at h
  split at h
  · cases h
  · rename_i s hrun
    cases h
    obtain ⟨hstands, hwords⟩ := (Lines.stands_nil indented).run hts hrun
    have hsame : words s.done.reverse = ts := hwords
    have hlaid := hstands.laid
    rwa [hsame] at hlaid

/-- Nothing is wrong with the columns of a script whose blocks need no indentation. -/
theorem exists_withLines_false (ts : List Token) : ∃ out, withLines false ts = .ok out := by
  have hrun (s : Lines) : ∃ s', ts.foldlM (Lines.step false) s = .ok s' := by
    induction ts generalizing s with
    | nil => exact ⟨s, rfl⟩
    | cons t ts ih =>
      have hstep : ∃ s₁, Lines.step false s t = .ok s₁ := by
        unfold Lines.step
        split <;> exact ⟨_, rfl⟩
      obtain ⟨s₁, hstep⟩ := hstep
      rw [List.foldlM_cons, hstep]
      exact ih s₁
  obtain ⟨s, hs⟩ := hrun {}
  refine ⟨s.finish, ?_⟩
  rw [withLines, hs]

end Ladybug.Script

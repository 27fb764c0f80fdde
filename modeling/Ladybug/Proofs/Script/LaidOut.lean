import Ladybug.Proofs.Script.Scanned

/-!
# Laying out an outline

The tokens of an outline, with the line ends and the beginnings and ends of indented blocks that
belong to them. Line ends and ends of blocks are put in when the next line begins, so what is still
missing before a line is part of the state.

* `laidOf`            the tokens that an outline should be laid out as
* `Lines.closed`      the tokens so far with the last line end
* `Lines.Enters`      what is put in before a line that begins in some column
* `Lines.Back`        blocks that end before a line in some column
* `tokenize_outlines`   the tokens of the text of an outline
-/

namespace Ladybug.Script

def newlineFace : Face := (.newline, "")
def indentFace : Face := (.indent, "")
def dedentFace : Face := (.dedent, "")

/-- the token at the end of a line -/
def lineEnd (d : Dialect) : List Face := if d.hasBraces then [] else [newlineFace]

/-- the tokens around those of an indented block -/
def indentedFaces (d : Dialect) (fs : List Face) : List Face :=
  if d = .indented then indentFace :: fs ++ [dedentFace] else fs

mutual

def Outline.laid (d : Dialect) : Outline → List Face
  | .line faces below =>
    faces ++ lineEnd d ++ if below.isEmpty then [] else indentedFaces d (laidOf d below)

def laidOf (d : Dialect) : List Outline → List Face
  | [] => []
  | o :: os => o.laid d ++ laidOf d os

end

/-- Brackets that are opened are closed again, so that a line ends where it should. -/
def Balanced (fs : List Face) : Prop :=
  ∀ depth, fs.foldl (fun n f => Lines.depthAfter n ⟨f.1, f.2, 0, 0⟩) depth = depth

/-- a line that can be scanned, and whose end can be seen -/
structure GoodLine (d : Dialect) (fs : List Face) : Prop where
  notEmpty : fs ≠ []
  clean : ∀ f ∈ fs, Face.Clean f
  balanced : d.hasBraces = false → Balanced fs

mutual

def Outline.Good (d : Dialect) : Outline → Prop
  | .line faces below => GoodLine d faces ∧ GoodAll d below

def GoodAll (d : Dialect) : List Outline → Prop
  | [] => True
  | o :: os => o.Good d ∧ GoodAll d os

end

/-! ### rows -/

theorem Placed.append {line : Nat} {rows rows' : List Row} {ts : List Token}
    (h : Placed line (rows ++ rows') ts) : ∃ ts₁ ts₂, ts = ts₁ ++ ts₂ ∧ Placed line rows ts₁ ∧
      Placed (line + rows.length) rows' ts₂ := by
  induction rows generalizing line ts with
  | nil => exact ⟨[], ts, rfl, .nil, h⟩
  | cons r rows ih =>
    cases h with
    | @cons _ _ _ ts more row rest =>
      obtain ⟨ts₁, ts₂, rfl, h₁, h₂⟩ := ih rest
      refine ⟨ts ++ ts₁, ts₂, (List.append_assoc ts ts₁ ts₂).symm, .cons row h₁, ?_⟩
      rw [List.length_cons, Nat.add_comm rows.length, ← Nat.add_assoc]
      exact h₂

theorem Placed.faces {line : Nat} {rows : List Row} {ts : List Token} (h : Placed line rows ts) :
    ts.map Token.face = rows.flatMap Row.faces := by
  induction h with
  | nil => rfl
  | cons row _ ih => rw [List.map_append, row.faces, ih, List.flatMap_cons]

mutual

theorem Outline.rows_clean {d : Dialect} : ∀ (o : Outline) (level : Nat), o.Good d →
    ∀ r ∈ o.rows level, r.Clean
  | .line faces below, level, h => by
    intro r hr
    rcases List.mem_cons.mp hr with rfl | hr
    · exact ⟨h.1.notEmpty, h.1.clean⟩
    · exact rowsOf_clean below (level + 1) h.2 r hr

theorem rowsOf_clean {d : Dialect} : ∀ (os : List Outline) (level : Nat), GoodAll d os →
    ∀ r ∈ rowsOf level os, r.Clean
  | [], _, _ => nofun
  | o :: os, level, h => by
    intro r hr
    rcases List.mem_append.mp hr with hr | hr
    · exact Outline.rows_clean o level h.1 r hr
    · exact rowsOf_clean os level h.2 r hr

end

mutual

/-- without indentation the tokens are those of the rows, with line ends -/
theorem Outline.laid_eq_rows {d : Dialect} (hd : d ≠ .indented) : ∀ (o : Outline) (level : Nat),
    o.laid d = (o.rows level).flatMap fun r => r.faces ++ lineEnd d
  | .line faces below, level => by
    rw [Outline.laid, Outline.rows, List.flatMap_cons, ← laidOf_eq_rows hd below (level + 1),
      indentedFaces, if_neg hd]
    cases below with
    | nil => rfl
    | cons o os => rfl

theorem laidOf_eq_rows {d : Dialect} (hd : d ≠ .indented) : ∀ (os : List Outline) (level : Nat),
    laidOf d os = (rowsOf level os).flatMap fun r => r.faces ++ lineEnd d
  | [], _ => rfl
  | o :: os, level => by
    rw [laidOf, rowsOf, List.flatMap_append, ← Outline.laid_eq_rows hd o level,
      ← laidOf_eq_rows hd os level]

end

/-! ### one line -/

namespace Lines

/-- the tokens so far with the last line end -/
def closed (s : Lines) : List Face :=
  s.done.reverse.map Token.face ++ if s.done.isEmpty then [] else [newlineFace]

/-- What is there when a line begins in some column, and the open blocks then. -/
inductive Enters (s : Lines) (column : Nat) : (indented : Bool) → List Face → List Nat → Prop
  | flat : Enters s column false s.closed s.columns
  | deeper (deeper : Lines.column s.columns < column) :
      Enters s column true (s.closed ++ [indentFace]) (column :: s.columns)
  | back {n : Nat} {columns : List Nat} (notDeeper : ¬ Lines.column s.columns < column)
      (leaves : leave column s.columns = (n, columns)) (same : Lines.column columns = column) :
      Enters s column true (s.closed ++ List.replicate n dedentFace) columns

theorem step_first {s : Lines} {t : Token} {indented : Bool} {fs : List Face} {columns : List Nat}
    (hdepth : s.depth = 0) (hline : s.line < t.line) (h : s.Enters t.column indented fs columns) :
    ∃ done, Lines.step indented s t = .ok ⟨t :: done, columns, depthAfter 0 t, t.line⟩ ∧
      done.reverse.map Token.face = fs := by
  have hnewline :
      (if s.done.isEmpty then [] else [⟨.newline, "", s.line, 0⟩] : List Token).reverse.map
        Token.face = if s.done.isEmpty then [] else [newlineFace] := by
    split <;> rfl
  rw [Lines.step]
  simp only [hdepth, hline, and_self, if_true]
  cases h with
  | flat =>
    refine ⟨_, rfl, ?_⟩
    rw [List.reverse_append, List.map_append, hnewline]
    rfl
  | deeper deeper =>
    rw [indentation, if_pos deeper]
    refine ⟨_, rfl, ?_⟩
    rw [List.append_assoc, List.reverse_append, List.reverse_append, List.map_append,
      List.map_append, hnewline]
    rfl
  | back notDeeper leaves same =>
    rw [indentation, if_neg notDeeper, leaves]
    simp only [same, if_true]
    refine ⟨_, rfl, ?_⟩
    rw [List.append_assoc, List.reverse_append, List.reverse_append, List.map_append,
      List.map_append, hnewline, List.reverse_replicate, List.map_replicate]
    rfl

/-- Some tokens lead from one state to another. -/
def Steps (indented : Bool) (s : Lines) (ts : List Token) (s' : Lines) : Prop :=
  ts.foldlM (Lines.step indented) s = .ok s'

theorem Steps.cons {indented : Bool} {s s' s'' : Lines} {t : Token} {ts : List Token}
    (h : Lines.step indented s t = .ok s') (h' : Steps indented s' ts s'') :
    Steps indented s (t :: ts) s'' := by
  rw [Steps, List.foldlM_cons, h]
  exact h'

theorem Steps.append {indented : Bool} {s s' s'' : Lines} {ts ts' : List Token}
    (h : Steps indented s ts s') (h' : Steps indented s' ts' s'') :
    Steps indented s (ts ++ ts') s'' := by
  rw [Steps, List.foldlM_append, h]
  exact h'

theorem steps_within {indented : Bool} {s : Lines} {ts : List Token}
    (h : ∀ t ∈ ts, t.line = s.line) :
    Steps indented s ts ⟨ts.reverse ++ s.done, s.columns, ts.foldl depthAfter s.depth, s.line⟩ := by
  induction ts generalizing s with
  | nil => rfl
  | cons t ts ih =>
    have ht : t.line = s.line := h t List.mem_cons_self
    have hstep : Lines.step indented s t =
        .ok ⟨t :: s.done, s.columns, depthAfter s.depth t, s.line⟩ := by
      rw [Lines.step, if_neg (by omega), ht]
      rfl
    have hrest := ih (s := ⟨t :: s.done, s.columns, depthAfter s.depth t, s.line⟩)
      fun t' ht' => h t' (List.mem_cons_of_mem t ht')
    rw [List.reverse_cons, List.append_assoc]
    exact .cons hstep hrest

theorem foldl_depthAfter {ts : List Token} {fs : List Face} (h : ts.map Token.face = fs)
    (hfs : Balanced fs) (depth : Nat) : ts.foldl depthAfter depth = depth := by
  have hdepth := hfs depth
  rw [← h, List.foldl_map] at hdepth
  exact hdepth

/-- Where a line begins, and what has been laid out before it. -/
structure At (s : Lines) (line column : Nat) (indented : Bool) (fs : List Face)
    (columns : List Nat) : Prop where
  depth : s.depth = 0
  line : s.line < line
  enters : s.Enters column indented fs columns

theorem At.steps {s : Lines} {line column : Nat} {indented : Bool} {fs faces : List Face}
    {columns : List Nat} {ts : List Token} (h : s.At line column indented fs columns)
    (hts : TokensAt ⟨line, column⟩ faces ts) (hne : faces ≠ []) (hbal : Balanced faces) :
    ∃ s', Steps indented s ts s' ∧ s'.depth = 0 ∧ s'.line = line ∧ s'.columns = columns ∧
      s'.closed = fs ++ faces ++ [newlineFace] := by
  cases ts with
  | nil => exact absurd hts.faces.symm hne
  | cons t ts =>
    have htline : t.line = line := hts.line t List.mem_cons_self
    have htcolumn : t.column = column := hts.column t rfl
    obtain ⟨done, hstep, hdone⟩ :=
      step_first h.depth (htline ▸ h.line) (htcolumn.symm ▸ h.enters)
    refine ⟨_, .cons hstep (steps_within fun t' ht' => ?_), ?_, htline, rfl, ?_⟩
    · rw [hts.line t' (List.mem_cons_of_mem t ht'), htline]
    · exact foldl_depthAfter hts.faces hbal 0
    · rw [closed, ← hdone, ← hts.faces]
      simp

/-! ### indented blocks -/

theorem leave_self {columns : List Nat} :
    leave (Lines.column columns) columns = (0, columns) := by
  cases columns with
  | nil => rfl
  | cons c cs => exact if_neg (Nat.lt_irrefl c)

/-- Between blocks: what is laid out before a line that begins in a column where a block is open. -/
structure Back (s : Lines) (line column : Nat) (fs : List Face) (columns : List Nat) : Prop where
  depth : s.depth = 0
  line : s.line < line
  same : Lines.column columns = column
  leaves : ∃ n, leave column s.columns = (n, columns) ∧
    fs = s.closed ++ List.replicate n dedentFace

theorem not_deeper_of_leave {column n : Nat} {columns rest : List Nat}
    (h : leave column columns = (n, rest)) (hsame : Lines.column rest = column) :
    ¬ Lines.column columns < column := by
  cases columns with
  | nil =>
    cases h
    exact hsame ▸ Nat.lt_irrefl _
  | cons c cs =>
    rw [leave] at h
    split at h
    · rename_i hlt
      exact Nat.not_lt.mpr (Nat.le_of_lt hlt)
    · cases h
      exact hsame ▸ Nat.lt_irrefl _

theorem Back.at {s : Lines} {line column : Nat} {fs : List Face} {columns : List Nat}
    (h : s.Back line column fs columns) : s.At line column true fs columns := by
  obtain ⟨n, hleave, rfl⟩ := h.leaves
  exact ⟨h.depth, h.line, .back (not_deeper_of_leave hleave h.same) hleave h.same⟩

/-- the end of one more block -/
theorem leave_succ {n inner outer : Nat} {columns rest : List Nat}
    (h : leave inner columns = (n, inner :: rest)) (hlt : outer < inner)
    (hsame : Lines.column rest = outer) : leave outer columns = (n + 1, rest) := by
  induction columns generalizing n with
  | nil => cases h
  | cons c cs ih =>
    rw [leave] at h
    split at h
    · rename_i hc
      injection h with hn hrest
      have hcs : leave inner cs = (n - 1, inner :: rest) := by
        rw [← hn, ← hrest]
        rfl
      rw [leave, if_pos (Nat.lt_trans hlt hc), ih hcs]
      simp only [Prod.mk.injEq, and_true]
      omega
    · injection h with hn hrest
      injection hrest with hc hcs
      subst hn hc hcs
      rw [leave, if_pos hlt, ← hsame, leave_self]

theorem Back.leave {s : Lines} {line inner outer : Nat} {fs : List Face} {columns : List Nat}
    (h : s.Back line inner fs (inner :: columns)) (hlt : outer < inner)
    (hsame : Lines.column columns = outer) : s.Back line outer (fs ++ [dedentFace]) columns := by
  obtain ⟨n, hleave, rfl⟩ := h.leaves
  refine ⟨h.depth, h.line, hsame, n + 1, leave_succ hleave hlt hsame, ?_⟩
  rw [List.append_assoc, List.replicate_succ']

end Lines

mutual

theorem Outline.steps : ∀ (o : Outline) {level line : Nat} {s : Lines} {ts : List Token}
    {fs : List Face} {columns : List Nat}, o.Good .indented → Placed line (o.rows level) ts →
    s.At line (levelWidth * level) true fs columns →
    Lines.column columns = levelWidth * level →
    ∃ s', s.Steps true ts s' ∧
      s'.Back (line + (o.rows level).length) (levelWidth * level) (fs ++ o.laid .indented) columns
  | .line faces below, level, line, s, ts, fs, columns, hgood, hplaced, hat, hsame => by
    rw [Outline.rows] at hplaced
    cases hplaced with
    | @cons _ _ _ ts more row rest =>
    obtain ⟨s₁, hsteps, hdepth, hline, hcolumns, hclosed⟩ :=
      hat.steps row hgood.1.notEmpty (hgood.1.balanced rfl)
    cases below with
    | nil =>
      cases rest
      refine ⟨s₁, by rwa [List.append_nil], hdepth, ?_, hsame, 0, ?_, ?_⟩
      · rw [hline]
        exact Nat.lt_succ_self line
      · rw [hcolumns, ← hsame, Lines.leave_self]
      · rw [hclosed]
        simp [Outline.laid, lineEnd, Dialect.hasBraces]
    | cons o os =>
      have hlt : levelWidth * level < levelWidth * (level + 1) := by
        rw [levelWidth]
        omega
      have hat' : s₁.At (line + 1) (levelWidth * (level + 1)) true (s₁.closed ++ [indentFace])
          (levelWidth * (level + 1) :: s₁.columns) := by
        refine ⟨hdepth, hline ▸ Nat.lt_succ_self line, .deeper ?_⟩
        rw [hcolumns, hsame]
        exact hlt
      obtain ⟨s₂, hsteps', hback⟩ :=
        outlines_steps (o :: os) (List.cons_ne_nil o os) hgood.2 rest hat' rfl
      -- the lines below end at their own column, so that one block more has to be left
      have hback' := hback.leave hlt (hcolumns.symm ▸ hsame)
      refine ⟨s₂, hsteps.append hsteps', ?_⟩
      rw [hcolumns, hclosed] at hback'
      rw [Outline.rows, List.length_cons, Nat.add_comm _ 1, ← Nat.add_assoc, Outline.laid]
      simpa [lineEnd, Dialect.hasBraces, indentedFaces] using hback'

theorem outlines_steps : ∀ (os : List Outline) {level line : Nat} {s : Lines} {ts : List Token}
    {fs : List Face} {columns : List Nat}, os ≠ [] → GoodAll .indented os →
    Placed line (rowsOf level os) ts →
    s.At line (levelWidth * level) true fs columns →
    Lines.column columns = levelWidth * level →
    ∃ s', s.Steps true ts s' ∧
      s'.Back (line + (rowsOf level os).length) (levelWidth * level) (fs ++ laidOf .indented os)
        columns
  | [], _, _, _, _, _, _, hne, _, _, _, _ => absurd rfl hne
  | o :: os, level, line, s, ts, fs, columns, _, hgood, hplaced, hat, hsame => by
    obtain ⟨ts₁, ts₂, rfl, h₁, h₂⟩ := hplaced.append
    obtain ⟨s₁, hsteps, hback⟩ := Outline.steps o hgood.1 h₁ hat hsame
    cases os with
    | nil =>
      cases h₂
      refine ⟨s₁, by rwa [List.append_nil], ?_⟩
      simpa [rowsOf, laidOf] using hback
    | cons o' os =>
      obtain ⟨s₂, hsteps', hback'⟩ :=
        outlines_steps (o' :: os) (List.cons_ne_nil o' os) hgood.2 h₂ hback.at hsame
      refine ⟨s₂, hsteps.append hsteps', ?_⟩
      rw [rowsOf, List.length_append, laidOf, ← Nat.add_assoc, ← List.append_assoc]
      exact hback'

end

/-! ### the whole text -/

theorem Lines.leave_eq_drop {column n : Nat} {columns rest : List Nat}
    (h : leave column columns = (n, rest)) : n ≤ columns.length ∧ rest = columns.drop n := by
  induction columns generalizing n with
  | nil =>
    cases h
    exact ⟨Nat.le_refl 0, rfl⟩
  | cons c cs ih =>
    rw [leave] at h
    split at h
    · cases h
      obtain ⟨hle, hrest⟩ := ih rfl
      exact ⟨Nat.succ_le_succ hle, hrest⟩
    · cases h
      exact ⟨Nat.zero_le _, rfl⟩

theorem Lines.leave_length {column n : Nat} {columns rest : List Nat}
    (h : leave column columns = (n, rest)) : n + rest.length = columns.length := by
  obtain ⟨hle, rfl⟩ := leave_eq_drop h
  rw [List.length_drop, Nat.add_sub_cancel' hle]

theorem Lines.finish_faces {s : Lines} (h : s.done ≠ []) :
    s.finish.map Token.face = s.closed ++ List.replicate s.columns.length dedentFace := by
  have hempty : s.done.isEmpty = false := by simpa using h
  rw [finish, closed, hempty]
  simp [newlineFace, dedentFace, Token.face]

/-- the rows of a script whose blocks need no indentation -/
theorem Lines.rows_steps {rows : List Row} {line : Nat} {s : Lines} {ts : List Token}
    (hrows : ∀ r ∈ rows, r.faces ≠ [] ∧ Balanced r.faces) (hplaced : Placed line rows ts)
    (hdepth : s.depth = 0) (hline : s.line < line) :
    ∃ s', s.Steps false ts s' ∧ s'.columns = s.columns ∧
      s'.closed = s.closed ++ rows.flatMap fun r => r.faces ++ [newlineFace] := by
  induction hplaced generalizing s with
  | nil => exact ⟨s, rfl, rfl, (List.append_nil _).symm⟩
  | @cons line r rows ts more row _ ih =>
    obtain ⟨hne, hbal⟩ := hrows r List.mem_cons_self
    obtain ⟨s₁, hsteps, hdepth₁, hline₁, hcolumns, hclosed⟩ :=
      At.steps ⟨hdepth, hline, .flat⟩ row hne hbal
    obtain ⟨s₂, hsteps', hcolumns', hclosed'⟩ :=
      ih (fun r' hr' => hrows r' (List.mem_cons_of_mem r hr')) hdepth₁ (by omega)
    refine ⟨s₂, hsteps.append hsteps', hcolumns'.trans hcolumns, ?_⟩
    rw [hclosed', hclosed, List.flatMap_cons]
    simp

theorem Lines.done_ne_nil {s : Lines} (h : s.closed ≠ []) : s.done ≠ [] := by
  intro hdone
  rw [closed, hdone] at h
  exact h rfl

mutual

theorem Outline.rows_balanced {d : Dialect} (hd : d.hasBraces = false) :
    ∀ (o : Outline) (level : Nat), o.Good d →
      ∀ r ∈ o.rows level, r.faces ≠ [] ∧ Balanced r.faces
  | .line faces below, level, h => by
    intro r hr
    rcases List.mem_cons.mp hr with rfl | hr
    · exact ⟨h.1.notEmpty, h.1.balanced hd⟩
    · exact rowsOf_balanced hd below (level + 1) h.2 r hr

theorem rowsOf_balanced {d : Dialect} (hd : d.hasBraces = false) :
    ∀ (os : List Outline) (level : Nat), GoodAll d os →
      ∀ r ∈ rowsOf level os, r.faces ≠ [] ∧ Balanced r.faces
  | [], _, _ => nofun
  | o :: os, level, h => by
    intro r hr
    rcases List.mem_append.mp hr with hr | hr
    · exact Outline.rows_balanced hd o level h.1 r hr
    · exact rowsOf_balanced hd os level h.2 r hr

end

theorem exists_clean_laidOf {d : Dialect} {os : List Outline} (hne : os ≠ [])
    (hgood : GoodAll d os) : ∃ f ∈ laidOf d os, Face.Clean f := by
  obtain ⟨⟨faces, below⟩, os, rfl⟩ := List.exists_cons_of_ne_nil hne
  obtain ⟨f, fs, rfl⟩ := List.exists_cons_of_ne_nil hgood.1.1.notEmpty
  exact ⟨f, by simp [laidOf, Outline.laid], hgood.1.1.clean f List.mem_cons_self⟩

theorem withLines_indented {os : List Outline} {ts : List Token} (hne : os ≠ [])
    (hgood : GoodAll .indented os) (hplaced : Placed 1 (rowsOf 0 os) ts) :
    ∃ ts', withLines true ts = .ok ts' ∧ ts'.map Token.face = laidOf .indented os := by
  have hat : Lines.At {} 1 (levelWidth * 0) true [] [] :=
    ⟨rfl, Nat.one_pos, .back (Nat.lt_irrefl 0) rfl rfl⟩
  obtain ⟨s, hsteps, hback⟩ := outlines_steps os hne hgood hplaced hat rfl
  obtain ⟨n, hleave, hclosed⟩ := hback.leaves
  have hlength := Lines.leave_length hleave
  rw [List.length_nil, Nat.add_zero] at hlength
  have hdone : s.done ≠ [] := by
    intro hdone
    obtain ⟨f, hf, hclean⟩ := exists_clean_laidOf hne hgood
    rw [← List.nil_append (laidOf _ os), hclosed, Lines.closed, hdone] at hf
    rw [List.eq_of_mem_replicate hf] at hclean
    exact hclean
  refine ⟨s.finish, ?_, ?_⟩
  · rw [withLines, show ts.foldlM (Lines.step true) {} = .ok s from hsteps]
  · rw [Lines.finish_faces hdone, ← hlength, ← hclosed, List.nil_append]

theorem withLines_flat {rows : List Row} {ts : List Token} (hne : rows ≠ [])
    (hrows : ∀ r ∈ rows, r.faces ≠ [] ∧ Balanced r.faces) (hplaced : Placed 1 rows ts) :
    ∃ ts', withLines false ts = .ok ts' ∧
      ts'.map Token.face = rows.flatMap fun r => r.faces ++ [newlineFace] := by
  obtain ⟨s, hsteps, hcolumns, hclosed⟩ := Lines.rows_steps (s := {}) hrows hplaced rfl Nat.one_pos
  have hdone : s.done ≠ [] := by
    refine Lines.done_ne_nil ?_
    rw [hclosed]
    cases rows with
    | nil => exact absurd rfl hne
    | cons r rows => simp [Lines.closed]
  refine ⟨s.finish, ?_, ?_⟩
  · rw [withLines, show ts.foldlM (Lines.step false) {} = .ok s from hsteps]
  · rw [Lines.finish_faces hdone, hcolumns, hclosed]
    simp [Lines.closed]

/-- **The text of an outline has the tokens that the outline should be laid out as.** -/
theorem tokenize_outlines {d : Dialect} {os : List Outline} (hne : os ≠ [])
    (hgood : GoodAll d os) :
    ∃ ts, tokenize d (outlineText os) = .ok ts ∧ ts.map Token.face = laidOf d os := by
  have hplaced : Placed 1 (rowsOf 0 os) (scan d (outlineText os)) :=
    scan_rows (rowsOf_clean os 0 hgood)
  cases d with
  | indented => exact withLines_indented hne hgood hplaced
  | ended =>
    rw [laidOf_eq_rows (by decide) os 0]
    refine withLines_flat ?_ (rowsOf_balanced rfl os 0 hgood) hplaced
    obtain ⟨⟨faces, below⟩, os, rfl⟩ := List.exists_cons_of_ne_nil hne
    simp [rowsOf, Outline.rows]
  | _ =>
    refine ⟨_, rfl, ?_⟩
    rw [hplaced.faces, laidOf_eq_rows (by decide) os 0]
    simp [lineEnd, Dialect.hasBraces]

end Ladybug.Script

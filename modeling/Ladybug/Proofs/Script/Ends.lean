import Ladybug.Proofs.Script.Statements

/-!
# Reading blocks that end with a word

A statement is read up to the end of its line, which the parser of a block skips.

* `Ends.bodyFaces`       a block below its line
* `Ends.separated_reads` a statement with the end of its line
* `Ends.tail_reads`      the branches after the first, down to the word at the end
* `Ends.reader`          how statements are read
* `Ends.entry_reads`     the body of the entry routine
-/

namespace Ladybug.Script.Ends

/-! ### what was written -/

theorem laid_bare (fs : List Face) : laidOf .ended [.bare fs] = fs ++ [newlineFace] := by
  rw [laidOf, laidOf, Outline.bare, Outline.laid]
  simp [lineEnd, Dialect.hasBraces]

theorem laid_part (head : List Face) (block : List Outline) :
    laidOf .ended (part .ended head block) = head ++ newlineFace :: laidOf .ended block := by
  rw [part, if_neg (by decide), laidOf, laidOf, Outline.laid]
  cases block with
  | nil => simp [lineEnd, Dialect.hasBraces, laidOf]
  | cons o os => simp [lineEnd, Dialect.hasBraces, indentedFaces]

theorem laid_end : laidOf .ended (endLines .ended) = [word "end", newlineFace] := laid_bare _

theorem filled_eq (block : List Outline) : filled .ended block = block :=
  if_neg fun h => Dialect.noConfusion h.1

/-- a block on the lines below, with the end of the line before it -/
def bodyFaces (body : List Stmt) : List Face :=
  newlineFace :: laidOf .ended (blockOutlines .ended body)

def branchFaces (b : Branch) : List Face := b.1.faces .ended ++ bodyFaces b.2

def elsifFaces (b : Branch) : List Face := word "elsif" :: branchFaces b

/-- the last block with the word before it, and the word at the end -/
def lastFaces (otherwise : List Stmt) : List Face :=
  (if otherwise.isEmpty then [] else word "else" :: bodyFaces otherwise) ++ [word "end"]

theorem laid_head (words : List String) (e : Expr) (body : List Stmt) :
    laidOf .ended (part .ended (headFaces .ended words (e.faces .ended))
      (filled .ended (blockOutlines .ended body))) = words.map word ++ branchFaces (e, body) := by
  rw [laid_part, filled_eq, headFaces, branchFaces, bodyFaces, List.append_assoc]

theorem laid_loop (e : Expr) (body : List Stmt) (line : Nat) :
    laidOf .ended ((Stmt.loop e body line).outlines .ended) =
      word "while" :: (branchFaces (e, body) ++ [word "end"]) ++ [newlineFace] := by
  rw [Stmt.outlines, laidOf_append, laid_head, laid_end]
  simp

theorem laid_branches (branches : List Branch) :
    laidOf .ended (branchOutlines .ended ["elsif"] branches) = branches.flatMap elsifFaces := by
  induction branches with
  | nil => rfl
  | cons b rest ih =>
    rw [branchOutlines, laidOf_append, laid_head, elseIfWords, ih, List.flatMap_cons]
    rfl

theorem laid_choice (b : Branch) (branches : List Branch) (otherwise : List Stmt) (line : Nat) :
    laidOf .ended ((Stmt.choice (b :: branches) otherwise line).outlines .ended) =
      word "if" :: (branchFaces b ++ tailFaces elsifFaces (lastFaces otherwise) branches) ++
        [newlineFace] := by
  rw [Stmt.outlines, laidOf_append, laidOf_append, branchOutlines, laidOf_append, laid_head,
    elseIfWords, laid_branches, laid_end, tailFaces, lastFaces]
  cases otherwise with
  | nil => simp [laidOf]
  | cons x rest =>
    rw [if_neg (by simp), if_neg (by simp), laid_part, filled_eq]
    simp [elseFaces, bodyFaces]

/-! ### how it is read -/

/-- no further line end comes next, which would belong to the statement before -/
def NoSeparator (rest : List Token) : Prop := ∀ t ∈ rest.head?, isSeparator t = false

/-- A line end comes next. -/
def AtLineEnd (rest : List Token) : Prop :=
  ∃ line column rest', rest = ⟨.newline, "", line, column⟩ :: rest'

/-- A word comes next that ends a block. -/
def Terminated (rest : List Token) : Prop :=
  ∃ w ∈ terminators, ∃ line column rest', rest = ⟨.name, w, line, column⟩ :: rest'

theorem expects (s : Setting) : Expects (more s) NoSeparator := by
  have hno : ∀ w ∈ starters, terminators.contains w = false := by decide
  intro w hw line column rest
  refine ⟨?_, ?_⟩
  · rw [more, Token.isNameIn]
    simp only [hno w hw]
    rfl
  · rintro t ⟨⟩
    simp [isSeparator, Token.isOp]

theorem skip_newline {rest : List Token} {x : String} {line column : Nat} (h : NoSeparator rest) :
    skip (⟨.newline, x, line, column⟩ :: rest) = rest := by
  rw [skip, List.dropWhile_cons_of_pos (by simp [isSeparator])]
  cases rest with
  | nil => rfl
  | cons t rest => rw [List.dropWhile_cons_of_neg (by simp [h t rfl])]

section

variable {s : Setting} {depth : Nat} {stmt : Parser (List Stmt)}

theorem Terminated.noSeparator {rest : List Token} (h : Terminated rest) : NoSeparator rest := by
  obtain ⟨w, _, line, column, rest', rfl⟩ := h
  rintro t ⟨⟩
  simp [isSeparator, Token.isOp]

theorem Terminated.more {rest : List Token} (h : Terminated rest) : more s rest = .ok false := by
  obtain ⟨w, hw, line, column, rest', rfl⟩ := h
  have hin : terminators.contains w = true := by simpa using hw
  rw [Ends.more, Token.isNameIn]
  simp only [hin]
  rfl

theorem separated_reads {fs : List Face} {good : List Stmt → Prop}
    (h : Reads stmt fs AtLineEnd good) :
    Reads (separated stmt) (fs ++ [newlineFace]) NoSeparator good := by
  intro ts rest hts hrest
  obtain ⟨ts₁, ts₂, rfl, hts₁, hts₂⟩ := faces_append hts
  obtain ⟨line, column, ts₃, rfl, hts₃⟩ := faces_cons hts₂
  obtain rfl := faces_nil hts₃
  obtain ⟨stmts, hstmts, hgood⟩ := h ts₁ (⟨.newline, "", line, column⟩ :: rest) hts₁ ⟨_, _, _, rfl⟩
  refine ⟨stmts, ?_, hgood⟩
  rw [List.append_assoc, List.singleton_append, separated, hstmts]
  simp only [skip_newline hrest]

theorem body_reads {body : List Stmt} (h : BlockReads .ended (separated stmt) NoSeparator body) :
    Reads (Ends.body s stmt) (bodyFaces body) Terminated (SameBlock body) := by
  intro ts rest hts hrest
  obtain ⟨line, column, ts', rfl, hts'⟩ := faces_cons hts
  have hnext := h.next_append (expects s) hts' hrest.noSeparator
  rw [List.cons_append, Ends.body, skip_newline hnext]
  exact h.repeated (expects s) ts' rest hts' ⟨hrest.noSeparator, hrest.more⟩

theorem block_reads {body : List Stmt} (h : BlockReads .ended (separated stmt) NoSeparator body) :
    Reads (block s stmt) (bodyFaces body ++ [word "end"]) Anywhere (SameBlock body) := by
  intro ts rest hts _
  obtain ⟨ts₁, ts₂, rfl, hts₁, hts₂⟩ := faces_append hts
  obtain ⟨line, column, ts₃, rfl, hts₃⟩ := faces_cons hts₂
  obtain rfl := faces_nil hts₃
  have hend : Terminated (⟨.name, "end", line, column⟩ :: rest) := ⟨"end", by decide, _, _, _, rfl⟩
  obtain ⟨body', hbody, hsame⟩ := body_reads (s := s) h ts₁ _ hts₁ hend
  refine ⟨body', ?_, hsame⟩
  rw [List.append_assoc, List.singleton_append, block, hbody]
  simp only [close, acceptName_name]

/-- a condition, before the end of its line -/
theorem test_reads {e : Expr} (hs : s.dialect = .ended)
    (he : Reads (condition s depth) (e.faces s.dialect) (Follow s) e.Same) (line : Nat) :
    Reads (test s depth false line) (e.faces .ended) AtLineEnd e.Same := by
  intro ts rest hts hrest
  obtain ⟨l, c, rest', rfl⟩ := hrest
  rw [hs] at he
  obtain ⟨e', he', hsame⟩ := he ts _ hts (follow_newline s l c rest')
  refine ⟨e', ?_, hsame⟩
  rw [test, he']
  rfl

theorem skipName_newline (w x : String) (line column : Nat) (rest : List Token) :
    skipName w (⟨.newline, x, line, column⟩ :: rest) = ⟨.newline, x, line, column⟩ :: rest := by
  rw [skipName, acceptName_eq_none (by rintro t ⟨⟩; rfl)]
  rfl

theorem branch_reads {b : Branch} (hs : s.dialect = .ended) (line : Nat)
    (he : Reads (condition s depth) (b.1.faces s.dialect) (Follow s) b.1.Same)
    (hb : BlockReads .ended (separated stmt) NoSeparator b.2) :
    Reads (branch s depth false line stmt) (branchFaces b) Terminated (SameBranch b) := by
  intro ts rest hts hrest
  obtain ⟨ts₁, ts₂, rfl, hts₁, hts₂⟩ := faces_append hts
  obtain ⟨l, c, ts₃, rfl, _⟩ := faces_cons hts₂
  obtain ⟨e', he', hsame⟩ := test_reads hs he line ts₁ _ hts₁ ⟨l, c, ts₃ ++ rest, rfl⟩
  obtain ⟨body', hbody, hsame'⟩ := body_reads (s := s) hb _ rest hts₂ hrest
  refine ⟨(e', body'), ?_, hsame, hsame'⟩
  rw [List.append_assoc, List.cons_append, branch, he']
  simp only [skipName_newline]
  rw [← List.cons_append, hbody]

/-- the branches after the first begin with a word that ends the block before -/
theorem tail_terminated {branches : List Branch} {otherwise : List Stmt} {ts : List Token}
    (hts : ts.map Token.face = tailFaces elsifFaces (lastFaces otherwise) branches)
    (rest : List Token) : Terminated (ts ++ rest) := by
  cases branches with
  | nil =>
    cases otherwise with
    | nil =>
      obtain ⟨l, c, ts', rfl, _⟩ := faces_cons hts
      exact ⟨"end", by decide, l, c, _, rfl⟩
    | cons x more =>
      obtain ⟨l, c, ts', rfl, _⟩ := faces_cons hts
      exact ⟨"else", by decide, l, c, _, rfl⟩
  | cons b branches =>
    obtain ⟨l, c, ts', rfl, _⟩ := faces_cons hts
    exact ⟨"elsif", by decide, l, c, _, rfl⟩

theorem last_reads {line : Nat} {otherwise : List Stmt}
    (h : BlockReads .ended (separated stmt) NoSeparator otherwise) {x : Token}
    {bound ts : List Token} (rest : List Token) (done : List Branch)
    (hts : ts.map Token.face = lastFaces otherwise) :
    ∃ otherwise', branches s depth stmt line (x :: bound) done (ts ++ rest) =
        .ok (.choice done.reverse otherwise' line, rest) ∧ SameBlock otherwise otherwise' := by
  cases otherwise with
  | nil =>
    obtain ⟨l, c, ts₁, rfl, hts₁⟩ := faces_cons hts
    obtain rfl := faces_nil hts₁
    have hno : ∀ w, "end" ≠ w → acceptName w (⟨.name, "end", l, c⟩ :: rest) = none := fun w hw =>
      acceptName_eq_none (by rintro t ⟨⟩; simp [Token.isName, hw])
    refine ⟨[], ?_, rfl⟩
    rw [List.singleton_append, branches, hno "elsif" (by decide), hno "else" (by decide)]
    simp only [close, acceptName_name]
  | cons y otherwise =>
    obtain ⟨l, c, ts₁, rfl, hts₁⟩ := faces_cons hts
    obtain ⟨otherwise', hread, hsame⟩ := block_reads (s := s) h ts₁ rest hts₁ trivial
    have helsif : acceptName "elsif" (⟨.name, "else", l, c⟩ :: (ts₁ ++ rest)) = none :=
      acceptName_eq_none (by rintro t ⟨⟩; simp [Token.isName])
    refine ⟨otherwise', ?_, hsame⟩
    rw [List.cons_append, branches, helsif, acceptName_name]
    simp only [hread]

theorem tail_reads (line : Nat) {bs : List Branch} {otherwise : List Stmt}
    (hbranches : ∀ b ∈ bs,
      Reads (branch s depth false line stmt) (branchFaces b) Terminated (SameBranch b))
    (hotherwise : BlockReads .ended (separated stmt) NoSeparator otherwise) :
    TailReads (branches s depth stmt line) elsifFaces (lastFaces otherwise) Anywhere bs
      otherwise line where
  branch := by
    intro b hb x bound ts ts' later rest done hts hts'
    obtain ⟨l, c, ts₁, rfl, hts₁⟩ := faces_cons hts
    obtain ⟨b', hb', hsame⟩ :=
      hbranches b hb ts₁ (ts' ++ rest) hts₁ (tail_terminated hts' rest)
    refine ⟨b', ?_, hsame⟩
    rw [List.cons_append, branches, acceptName_name]
    simp only [hb']
  last done hts _ := last_reads hotherwise _ done hts
  begins _ := List.cons_ne_nil _ _

theorem modifiers_newline {bound rest : List Token} {stmt : Stmt} {x : String} {line column : Nat} :
    modifiers s depth bound stmt (⟨.newline, x, line, column⟩ :: rest) =
      .ok (stmt, ⟨.newline, x, line, column⟩ :: rest) := by
  cases bound with
  | nil => rfl
  | cons b bound =>
    rw [modifiers, if_neg (by simp [Token.isNameIn])]

theorem statement_receiver {line column : Nat} {ts rest : List Token} {x : Stmt}
    (h : call s ts = .ok (x, rest)) (hrest : AtLineEnd rest) :
    statement s (depth + 1) (⟨.name, receiver, line, column⟩ :: ts) = .ok ([x], rest) := by
  obtain ⟨l, c, rest', rfl⟩ := hrest
  rw [statement]
  simp [Token.isName, receiver, h, modifiers_newline]

theorem statement_while (line column : Nat) (ts : List Token) :
    statement s (depth + 1) (⟨.name, "while", line, column⟩ :: ts) =
      loop s depth false (statement s depth) line ts := by
  rw [statement]
  simp [Token.isName]

theorem statement_if (line column : Nat) (ts : List Token) :
    statement s (depth + 1) (⟨.name, "if", line, column⟩ :: ts) =
      choice s depth false (statement s depth) line ts := by
  rw [statement]
  simp [Token.isName]

/-- a call at the end of its line -/
theorem simple_reads {x : Stmt} {fs : List Face}
    (h : Reads (call s) fs Calm fun x' => x'.unlined = x.unlined)
    (hlaid : laidOf .ended (x.outlines .ended) = word receiver :: fs ++ [newlineFace]) :
    StmtReads .ended (separated (statement s (depth + 1))) NoSeparator x := by
  refine ⟨?_, receiver, List.mem_cons_self, _, hlaid⟩
  rw [hlaid]
  refine separated_reads ?_
  intro ts rest hts hrest
  obtain ⟨line, column, ts₁, rfl, hts₁⟩ := faces_cons hts
  have hcalm : Calm rest := by
    obtain ⟨l, c, rest', rfl⟩ := hrest
    exact (follow_newline s l c rest').1.1
  obtain ⟨x', hx', hsame⟩ := h ts₁ rest hts₁ hcalm
  exact ⟨[x'], statement_receiver hx' hrest, sameBlock_one hsame⟩

theorem loop_reads {e : Expr} {body : List Stmt} {line : Nat} (hs : s.dialect = .ended)
    (he : Reads (condition s depth) (e.faces s.dialect) (Follow s) e.Same)
    (hbody : BlockReads .ended (separated (statement s depth)) NoSeparator body) :
    StmtReads .ended (separated (statement s (depth + 1))) NoSeparator (.loop e body line) := by
  refine ⟨?_, "while", by decide, _, laid_loop e body line⟩
  rw [laid_loop]
  refine separated_reads ?_
  intro ts rest hts _
  obtain ⟨l, c, ts₁, rfl, hts₁⟩ := faces_cons hts
  rw [branchFaces, List.append_assoc] at hts₁
  obtain ⟨ts₂, ts₃, rfl, hts₂, hts₃⟩ := faces_append hts₁
  obtain ⟨l', c', ts₄, rfl, _⟩ := faces_cons hts₃
  obtain ⟨e', he', hsame⟩ := test_reads hs he l ts₂ _ hts₂ ⟨l', c', ts₄ ++ rest, rfl⟩
  obtain ⟨body', hbody', hsame'⟩ := block_reads (s := s) hbody _ rest hts₃ trivial
  refine ⟨[.loop e' body' l], ?_, sameBlock_loop ⟨hsame, hsame'⟩⟩
  rw [List.cons_append, List.append_assoc, List.cons_append, statement_while, loop, he']
  simp only [skipName_newline]
  rw [← List.cons_append, hbody']

theorem choice_reads {branches : List Branch} {otherwise : List Stmt} {line : Nat}
    (hs : s.dialect = .ended) (hne : branches ≠ [])
    (hbranches : ∀ b ∈ branches,
      Reads (condition s depth) (b.1.faces s.dialect) (Follow s) b.1.Same ∧
        BlockReads .ended (separated (statement s depth)) NoSeparator b.2)
    (hotherwise : BlockReads .ended (separated (statement s depth)) NoSeparator otherwise) :
    StmtReads .ended (separated (statement s (depth + 1))) NoSeparator
      (.choice branches otherwise line) := by
  obtain ⟨b, branches, rfl⟩ := List.exists_cons_of_ne_nil hne
  refine ⟨?_, "if", by decide, _, laid_choice b branches otherwise line⟩
  rw [laid_choice]
  refine separated_reads ?_
  intro ts rest hts _
  obtain ⟨l, c, ts₁, rfl, hts₁⟩ := faces_cons hts
  have hreads := fun x hx => branch_reads hs l (hbranches x hx).1 (hbranches x hx).2
  have htail := tail_reads l (fun x hx => hreads x (List.mem_cons_of_mem b hx)) hotherwise
  obtain ⟨b', ts₂, x, hb', hx, hsame⟩ :=
    htail.choice (by simp [branchFaces, bodyFaces]) (hreads b List.mem_cons_self)
      (fun _ rest h => tail_terminated h rest) line hts₁ trivial
  refine ⟨[x], ?_, hsame⟩
  rw [List.cons_append, statement_if, choice, hb']
  simp only [hx]

theorem reader (hs : s.dialect = .ended) :
    Reader s (fun depth => separated (statement s depth)) NoSeparator where
  command := by
    intro depth c line
    have hcall := call_command s c
    rw [hs] at hcall ⊢
    exact simple_reads hcall (laid_bare _)
  ask := by
    intro depth x line line'
    have hcall := call_sensor s x
    rw [hs] at hcall ⊢
    exact simple_reads hcall (laid_bare _)
  loop _ he hbody := by
    rw [hs] at hbody ⊢
    exact loop_reads hs he hbody
  choice _ hne hbranches hotherwise := by
    rw [hs] at hotherwise ⊢
    exact choice_reads hs hne (fun b hb => ⟨(hbranches b hb).1, hs ▸ (hbranches b hb).2⟩) hotherwise

/-- the block of the entry routine with the word at its end -/
theorem entry_reads {body : List Stmt} (hs : s.dialect = .ended) (hp : ProperBlock body)
    (hheight : blockHeight body ≤ depth) :
    Reads (entry s depth) (bodyFaces body ++ [word "end"]) Anywhere (SameBlock body) := by
  have hblock := (reader hs).readsBlock body hp hheight
  rw [hs] at hblock
  exact block_reads hblock

end

end Ladybug.Script.Ends

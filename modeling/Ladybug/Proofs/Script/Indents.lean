import Ladybug.Proofs.Script.Statements

/-!
# Reading indented blocks

* `Indents.suiteFaces`      a block below its line; an empty one holds a word that does nothing
* `Indents.tail_reads`      the branches after the first, down to the last `else`
* `Indents.reader`          how statements are read
* `Indents.entry_reads`     the body of the entry routine
-/

namespace Ladybug.Script.Indents

/-! ### what was written -/

theorem laid_bare (fs : List Face) : laidOf .indented [.bare fs] = fs ++ [newlineFace] := by
  rw [laidOf, laidOf, Outline.bare, Outline.laid]
  simp [lineEnd, Dialect.hasBraces]

theorem laid_part (head : List Face) {block : List Outline} (hne : block ≠ []) :
    laidOf .indented (part .indented head block) =
      head ++ newlineFace :: indentFace :: laidOf .indented block ++ [dedentFace] := by
  obtain ⟨o, os, rfl⟩ := List.exists_cons_of_ne_nil hne
  rw [part, if_neg (by decide), laidOf, laidOf, Outline.laid]
  simp [lineEnd, Dialect.hasBraces, indentedFaces]

theorem filled_ne_nil (block : List Outline) : filled .indented block ≠ [] := by
  cases block with
  | nil => exact List.cons_ne_nil _ _
  | cons o os => exact List.cons_ne_nil _ _

/-- a block on the lines below, with the end of the line before it -/
def suiteFaces (body : List Stmt) : List Face :=
  newlineFace :: indentFace :: laidOf .indented (filled .indented (blockOutlines .indented body)) ++
    [dedentFace]

def branchFaces (b : Branch) : List Face := b.1.faces .indented ++ sign ":" :: suiteFaces b.2

def elifFaces (b : Branch) : List Face := word "elif" :: branchFaces b

/-- the last block with the word before it -/
def lastFaces (otherwise : List Stmt) : List Face :=
  if otherwise.isEmpty then [] else word "else" :: sign ":" :: suiteFaces otherwise

theorem laid_head (words : List String) (e : Expr) (body : List Stmt) :
    laidOf .indented (part .indented (headFaces .indented words (e.faces .indented))
      (filled .indented (blockOutlines .indented body))) =
        words.map word ++ branchFaces (e, body) := by
  rw [laid_part _ (filled_ne_nil _), headFaces, branchFaces, suiteFaces]
  simp

theorem laid_loop (e : Expr) (body : List Stmt) (line : Nat) :
    laidOf .indented ((Stmt.loop e body line).outlines .indented) =
      word "while" :: branchFaces (e, body) := by
  rw [Stmt.outlines, laidOf_append, laid_head]
  exact List.append_nil _

theorem laid_branches (branches : List Branch) :
    laidOf .indented (branchOutlines .indented ["elif"] branches) = branches.flatMap elifFaces := by
  induction branches with
  | nil => rfl
  | cons b rest ih =>
    rw [branchOutlines, laidOf_append, laid_head, elseIfWords, ih, List.flatMap_cons]
    rfl

theorem laid_choice (b : Branch) (branches : List Branch) (otherwise : List Stmt) (line : Nat) :
    laidOf .indented ((Stmt.choice (b :: branches) otherwise line).outlines .indented) =
      word "if" :: (branchFaces b ++ tailFaces elifFaces (lastFaces otherwise) branches) := by
  rw [Stmt.outlines, laidOf_append, laidOf_append, branchOutlines, laidOf_append, laid_head,
    elseIfWords, laid_branches, tailFaces, lastFaces]
  cases otherwise with
  | nil => simp [endLines, laidOf]
  | cons x rest =>
    rw [if_neg (by simp), if_neg (by simp), laid_part _ (filled_ne_nil _)]
    simp [elseFaces, endLines, laidOf, suiteFaces]

/-! ### how it is read -/

/-- no further branch comes next, which would belong to the statement before -/
def NoBranch (rest : List Token) : Prop :=
  ∀ t ∈ rest.head?, t.isName "elif" = false ∧ t.isName "else" = false

theorem expects : Expects more NoBranch := by
  have hne : ∀ w ∈ starters, w ≠ "elif" ∧ w ≠ "else" := by decide
  intro w hw line column rest
  refine ⟨rfl, ?_⟩
  rintro t ⟨⟩
  simp [Token.isName, hne w hw]

theorem isKind_same (k : Kind) (x : String) (line column : Nat) (ts : List Token) :
    isKind k (⟨k, x, line, column⟩ :: ts) = true := by
  simp [isKind]

section

variable {s : Setting} {depth : Nat} {stmt : Parser (List Stmt)}

/-- an empty block, which holds a word that does nothing -/
def PassReads (stmt : Parser (List Stmt)) : Prop :=
  Reads stmt [word "pass", newlineFace] NoBranch (SameBlock [])

theorem block_reads {body : List Stmt} (hpass : PassReads stmt)
    (h : BlockReads .indented stmt NoBranch body) :
    Reads (repeated more stmt) (laidOf .indented (filled .indented (blockOutlines .indented body)))
      (fun rest => NoBranch rest ∧ more rest = .ok false) (SameBlock body) := by
  cases body with
  | nil =>
    -- the word in an empty block is no statement, so the block itself is one item
    have hitem : ∀ i ∈ [(([word "pass", newlineFace], []) : Item)],
        ItemReads more stmt NoBranch i := by
      intro i hi
      obtain rfl := List.mem_singleton.mp hi
      exact ⟨hpass, Starts.begins ⟨"pass", by decide, _, rfl⟩ expects⟩
    have hreads := repeated_reads hitem fun i hi => by
      obtain rfl := List.mem_singleton.mp hi
      exact List.cons_ne_nil _ _
    have hlaid : laidOf .indented (filled .indented (blockOutlines .indented [])) =
        [word "pass", newlineFace] := laid_bare _
    rw [hlaid]
    exact hreads
  | cons x rest =>
    have hne : (blockOutlines .indented (x :: rest)).isEmpty = false := by
      obtain ⟨w, _, fs, hfs⟩ := (h x List.mem_cons_self).starts
      rw [List.isEmpty_eq_false_iff]
      intro hnil
      rw [blockOutlines, List.append_eq_nil_iff] at hnil
      rw [hnil.1] at hfs
      cases hfs
    rw [filled, if_neg (by simp [hne])]
    exact h.repeated expects

theorem suite_reads {body : List Stmt} (hpass : PassReads stmt)
    (h : BlockReads .indented stmt NoBranch body) :
    Reads (suite s stmt) (suiteFaces body) Anywhere (SameBlock body) := by
  intro ts rest hts _
  obtain ⟨l₁, c₁, ts₁, rfl, hts₁⟩ := faces_cons hts
  obtain ⟨l₂, c₂, ts₂, rfl, hts₂⟩ := faces_cons hts₁
  obtain ⟨ts₃, ts₄, rfl, hts₃, hts₄⟩ := faces_append hts₂
  obtain ⟨l₃, c₃, ts₅, rfl, hts₅⟩ := faces_cons hts₄
  obtain rfl := faces_nil hts₅
  have hnext : NoBranch (⟨.dedent, "", l₃, c₃⟩ :: rest) := by
    rintro t ⟨⟩
    exact ⟨rfl, rfl⟩
  obtain ⟨body', hbody, hsame⟩ := block_reads hpass h ts₃ _ hts₃ ⟨hnext, rfl⟩
  refine ⟨body', ?_, hsame⟩
  rw [List.cons_append, List.cons_append, List.append_assoc, List.singleton_append]
  simp only [suite, isKind_same, if_true, List.drop_succ_cons, List.drop_zero, hbody]

theorem branch_reads {b : Branch} (hs : s.dialect = .indented) (keyword : String)
    (he : Reads (condition s depth) (b.1.faces s.dialect) (Follow s) b.1.Same)
    (hpass : PassReads stmt) (hb : BlockReads .indented stmt NoBranch b.2) :
    Reads (branch s depth keyword stmt) (branchFaces b) Anywhere (SameBranch b) := by
  intro ts rest hts hrest
  rw [hs] at he
  obtain ⟨ts₁, ts₂, rfl, hts₁, hts₂⟩ := faces_append hts
  obtain ⟨l, c, ts₃, rfl, hts₃⟩ := faces_cons hts₂
  obtain ⟨e', he', hsame⟩ := he ts₁ _ hts₁ (follow_op s ":" (by decide) l c (ts₃ ++ rest))
  obtain ⟨body', hbody, hsame'⟩ := suite_reads (s := s) hpass hb ts₃ rest hts₃ hrest
  refine ⟨(e', body'), ?_, hsame, hsame'⟩
  rw [List.append_assoc, List.cons_append, branch, he']
  simp only [expect_op, hbody]

theorem last_reads {line : Nat} {otherwise : List Stmt} (hpass : PassReads stmt)
    (h : BlockReads .indented stmt NoBranch otherwise) {x : Token} {bound ts rest : List Token}
    (done : List Branch) (hts : ts.map Token.face = lastFaces otherwise) (hrest : NoBranch rest) :
    ∃ otherwise', branches s depth stmt line (x :: bound) done (ts ++ rest) =
        .ok (.choice done.reverse otherwise' line, rest) ∧ SameBlock otherwise otherwise' := by
  cases otherwise with
  | nil =>
    obtain rfl := faces_nil hts
    refine ⟨[], ?_, rfl⟩
    rw [List.nil_append, branches, acceptName_eq_none fun t ht => (hrest t ht).1,
      acceptName_eq_none fun t ht => (hrest t ht).2]
  | cons y otherwise =>
    obtain ⟨l, c, ts₁, rfl, hts₁⟩ := faces_cons hts
    obtain ⟨l', c', ts₂, rfl, hts₂⟩ := faces_cons hts₁
    obtain ⟨otherwise', hread, hsame⟩ := suite_reads (s := s) hpass h ts₂ rest hts₂ trivial
    have helif : acceptName "elif" (⟨.name, "else", l, c⟩ :: (⟨.op, ":", l', c'⟩ :: ts₂ ++ rest)) =
        none := acceptName_eq_none (by rintro t ⟨⟩; simp [Token.isName])
    refine ⟨otherwise', ?_, hsame⟩
    rw [List.cons_append, branches, helif, acceptName_name]
    simp only [List.cons_append, expect_op, hread]

theorem tail_reads (line : Nat) {bs : List Branch} {otherwise : List Stmt}
    (hbranches : ∀ b ∈ bs,
      Reads (branch s depth "elif" stmt) (branchFaces b) Anywhere (SameBranch b))
    (hpass : PassReads stmt) (hotherwise : BlockReads .indented stmt NoBranch otherwise) :
    TailReads (branches s depth stmt line) elifFaces (lastFaces otherwise) NoBranch bs otherwise
      line where
  branch := by
    intro b hb x bound ts ts' later rest done hts _
    obtain ⟨l, c, ts₁, rfl, hts₁⟩ := faces_cons hts
    obtain ⟨b', hb', hsame⟩ := hbranches b hb ts₁ (ts' ++ rest) hts₁ trivial
    refine ⟨b', ?_, hsame⟩
    rw [List.cons_append, branches, acceptName_name]
    simp only [hb']
  last done hts hrest := last_reads hpass hotherwise done hts hrest
  begins _ := List.cons_ne_nil _ _

/-- a simple statement at the end of its line -/
theorem simples_eq {ts rest : List Token} {stmts : List Stmt} {x : String} {line column : Nat}
    (h : simple s ts = .ok (stmts, ⟨.newline, x, line, column⟩ :: rest)) :
    simples s ts = .ok (stmts, rest) := by
  have hfrom : simplesFrom s ts stmts.reverse (⟨.newline, x, line, column⟩ :: rest) =
      .ok (stmts, ⟨.newline, x, line, column⟩ :: rest) := by
    have hop : acceptOp ";" (⟨.newline, x, line, column⟩ :: rest) = none :=
      acceptOp_eq_none (by rintro t ⟨⟩; rfl)
    cases ts with
    | nil => rw [simplesFrom, List.reverse_reverse]
    | cons t ts => rw [simplesFrom, hop, List.reverse_reverse]
  rw [simples, h]
  simp only [hfrom, isKind_same, if_true, List.drop_succ_cons, List.drop_zero]

theorem statement_simples {w : String} (hw : w ≠ "while" ∧ w ≠ "if") (line column : Nat)
    (ts : List Token) : statement s (depth + 1) (⟨.name, w, line, column⟩ :: ts) =
      simples s (⟨.name, w, line, column⟩ :: ts) := by
  rw [statement]
  simp [Token.isName, hw]

theorem pass_reads : PassReads (statement s (depth + 1)) := by
  intro ts rest hts _
  obtain ⟨l, c, ts₁, rfl, hts₁⟩ := faces_cons hts
  obtain ⟨l', c', ts₂, rfl, hts₂⟩ := faces_cons hts₁
  obtain rfl := faces_nil hts₂
  have hsimple : simple s (⟨.name, "pass", l, c⟩ :: ⟨.newline, "", l', c'⟩ :: rest) =
      .ok ([], ⟨.newline, "", l', c'⟩ :: rest) := by
    simp [simple, Token.isName]
  refine ⟨[], ?_, rfl⟩
  rw [List.cons_append, List.singleton_append, statement_simples (by decide)]
  exact simples_eq hsimple

/-- a call at the end of its line -/
theorem simple_reads {x : Stmt} {fs : List Face}
    (h : Reads (call s) fs Calm fun x' => x'.unlined = x.unlined)
    (hlaid : laidOf .indented (x.outlines .indented) = word receiver :: (fs ++ [newlineFace])) :
    StmtReads .indented (statement s (depth + 1)) NoBranch x := by
  refine ⟨?_, receiver, List.mem_cons_self, _, hlaid⟩
  intro ts rest hts _
  rw [hlaid] at hts
  obtain ⟨line, column, ts₁, rfl, hts₁⟩ := faces_cons hts
  obtain ⟨ts₂, ts₃, rfl, hts₂, hts₃⟩ := faces_append hts₁
  obtain ⟨l, c, ts₄, rfl, hts₄⟩ := faces_cons hts₃
  obtain rfl := faces_nil hts₄
  obtain ⟨x', hx', hsame⟩ := h ts₂ _ hts₂ (follow_newline s l c rest).1.1
  refine ⟨[x'], ?_, sameBlock_one hsame⟩
  have hsimple :
      simple s (⟨.name, receiver, line, column⟩ :: (ts₂ ++ ⟨.newline, "", l, c⟩ :: rest)) =
        .ok ([x'], ⟨.newline, "", l, c⟩ :: rest) := by
    rw [simple, if_neg (by simp [Token.isName, receiver]), if_pos (by simp [Token.isName]), hx']
  rw [List.cons_append, List.append_assoc, List.singleton_append, statement_simples (by decide)]
  exact simples_eq hsimple

theorem statement_while (line column : Nat) (ts : List Token) :
    statement s (depth + 1) (⟨.name, "while", line, column⟩ :: ts) =
      loop s depth (statement s depth) line ts := by
  rw [statement]
  simp [Token.isName]

theorem statement_if (line column : Nat) (ts : List Token) :
    statement s (depth + 1) (⟨.name, "if", line, column⟩ :: ts) =
      choice s depth (statement s depth) line ts := by
  rw [statement]
  simp [Token.isName]

theorem loop_reads {e : Expr} {body : List Stmt} {line : Nat} (hs : s.dialect = .indented)
    (hpass : PassReads (statement s depth))
    (he : Reads (condition s depth) (e.faces s.dialect) (Follow s) e.Same)
    (hbody : BlockReads .indented (statement s depth) NoBranch body) :
    StmtReads .indented (statement s (depth + 1)) NoBranch (.loop e body line) := by
  refine ⟨?_, "while", by decide, _, laid_loop e body line⟩
  intro ts rest hts _
  rw [laid_loop] at hts
  obtain ⟨l, c, ts₁, rfl, hts₁⟩ := faces_cons hts
  obtain ⟨⟨e', body'⟩, hread, hsame⟩ :=
    branch_reads hs "while" he hpass hbody ts₁ rest hts₁ trivial
  refine ⟨[.loop e' body' l], ?_, sameBlock_loop hsame⟩
  rw [List.cons_append, statement_while, loop, hread]

theorem choice_reads {branches : List Branch} {otherwise : List Stmt} {line : Nat}
    (hs : s.dialect = .indented) (hpass : PassReads (statement s depth)) (hne : branches ≠ [])
    (hbranches : ∀ b ∈ branches,
      Reads (condition s depth) (b.1.faces s.dialect) (Follow s) b.1.Same ∧
        BlockReads .indented (statement s depth) NoBranch b.2)
    (hotherwise : BlockReads .indented (statement s depth) NoBranch otherwise) :
    StmtReads .indented (statement s (depth + 1)) NoBranch (.choice branches otherwise line) := by
  obtain ⟨b, branches, rfl⟩ := List.exists_cons_of_ne_nil hne
  refine ⟨?_, "if", by decide, _, laid_choice b branches otherwise line⟩
  intro ts rest hts hrest
  have hreads := fun keyword x hx =>
    branch_reads hs keyword (hbranches x hx).1 hpass (hbranches x hx).2
  rw [laid_choice] at hts
  obtain ⟨l, c, ts₁, rfl, hts₁⟩ := faces_cons hts
  have htail :=
    tail_reads l (fun x hx => hreads "elif" x (List.mem_cons_of_mem b hx)) hpass hotherwise
  obtain ⟨b', ts₂, x, hb', hx, hsame⟩ :=
    htail.choice (by simp [branchFaces]) (hreads "if" b List.mem_cons_self) (fun _ _ _ => trivial)
      line hts₁ hrest
  refine ⟨[x], ?_, hsame⟩
  rw [List.cons_append, statement_if, choice, hb']
  simp only [hx]

theorem pass_of_pos (h : 0 < depth) : PassReads (statement s depth) := by
  obtain ⟨depth, rfl⟩ := Nat.exists_eq_succ_of_ne_zero (Nat.ne_of_gt h)
  exact pass_reads

theorem reader (hs : s.dialect = .indented) : Reader s (statement s) NoBranch where
  command := by
    intro depth c line
    have hcall := call_command s c
    rw [hs] at hcall ⊢
    exact simple_reads hcall (laid_bare _)
  ask := by
    intro depth x line line'
    have hcall := call_sensor s x
    rw [hs] at hcall ⊢
    exact simple_reads hcall (laid_bare _)
  loop hpos he hbody := by
    rw [hs] at hbody ⊢
    exact loop_reads hs (pass_of_pos hpos) he hbody
  choice hpos hne hbranches hotherwise := by
    rw [hs] at hotherwise ⊢
    exact choice_reads hs (pass_of_pos hpos) hne
      (fun b hb => ⟨(hbranches b hb).1, hs ▸ (hbranches b hb).2⟩) hotherwise

/-- the block of the entry routine, after its header up to the colon -/
theorem entry_reads {body : List Stmt} (hs : s.dialect = .indented) (hp : ProperBlock body)
    (hheight : blockHeight body ≤ depth) :
    Reads (entry s depth) (sign ":" :: suiteFaces body) Anywhere (SameBlock body) := by
  intro ts rest hts hrest
  obtain ⟨line, column, ts', rfl, hts'⟩ := faces_cons hts
  have hblock := (reader hs).readsBlock body hp hheight
  rw [hs] at hblock
  have hpass : PassReads (statement s depth) :=
    pass_of_pos (Nat.lt_of_lt_of_le (blockHeight_pos body) hheight)
  obtain ⟨body', hbody, hsame⟩ := suite_reads (s := s) hpass hblock ts' rest hts' hrest
  refine ⟨body', ?_, hsame⟩
  rw [List.cons_append, entry, expect_op]
  exact hbody

end

end Ladybug.Script.Indents

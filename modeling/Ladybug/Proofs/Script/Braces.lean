import Ladybug.Proofs.Script.Statements

/-!
# Reading blocks in braces

* `Braces.branchFaces`     a condition in parentheses and a block in braces
* `Braces.tail_reads`      the branches after the first, down to the last `else`
* `Braces.reader`          how statements are read
* `Braces.entry_reads`     the body of the entry routine
-/

namespace Ladybug.Script.Braces

/-! ### what was written -/

section

variable {d : Dialect} (hd : d.hasBraces = true)
include hd

theorem ne_indented : d ≠ .indented := by
  rintro rfl
  exact Bool.noConfusion hd

theorem ne_ended : d ≠ .ended := by
  rintro rfl
  exact Bool.noConfusion hd

theorem laid_bare (fs : List Face) : laidOf d [.bare fs] = fs := by
  rw [laidOf, laidOf, Outline.bare, Outline.laid, lineEnd, if_pos hd]
  simp

theorem laid_part (head : List Face) (block : List Outline) :
    laidOf d (part d head block) = head ++ laidOf d block ++ [sign "\x7d"] := by
  rw [part, if_pos hd, laidOf, laid_bare hd, Outline.laid, lineEnd, if_pos hd, indentedFaces,
    if_neg (ne_indented hd)]
  cases block with
  | nil => simp [laidOf]
  | cons o os => simp

theorem filled_eq (block : List Outline) : filled d block = block :=
  if_neg fun h => ne_indented hd h.1

theorem endLines_eq : endLines d = [] := if_neg (ne_ended hd)

theorem headFaces_eq (words : List String) (condition : List Face) :
    headFaces d words condition =
      words.map word ++ (sign "(" :: condition ++ [sign ")", sign "\x7b"]) := by
  cases d <;> first | rfl | exact Bool.noConfusion hd

end

/-- the faces of a block with its braces -/
def blockFaces (d : Dialect) (body : List Stmt) : List Face :=
  sign "\x7b" :: laidOf d (blockOutlines d body) ++ [sign "\x7d"]

/-- the faces of a condition with its parentheses -/
def testFaces (d : Dialect) (e : Expr) : List Face := sign "(" :: e.faces d ++ [sign ")"]

def branchFaces (d : Dialect) (b : Branch) : List Face := testFaces d b.1 ++ blockFaces d b.2

def elseIfFaces (d : Dialect) (b : Branch) : List Face :=
  word "else" :: word "if" :: branchFaces d b

/-- the last block with the word before it -/
def lastFaces (d : Dialect) (otherwise : List Stmt) : List Face :=
  if otherwise.isEmpty then [] else word "else" :: blockFaces d otherwise

section

variable {d : Dialect} (hd : d.hasBraces = true)
include hd

theorem laid_head (words : List String) (e : Expr) (body : List Stmt) :
    laidOf d (part d (headFaces d words (e.faces d)) (filled d (blockOutlines d body))) =
      words.map word ++ branchFaces d (e, body) := by
  rw [laid_part hd, headFaces_eq hd, filled_eq hd, branchFaces, testFaces, blockFaces]
  simp

theorem laid_loop (e : Expr) (body : List Stmt) (line : Nat) :
    laidOf d ((Stmt.loop e body line).outlines d) = word "while" :: branchFaces d (e, body) := by
  rw [Stmt.outlines, laidOf_append, laid_head hd, endLines_eq hd, laidOf, List.append_nil]
  rfl

theorem laid_branches (branches : List Branch) :
    laidOf d (branchOutlines d (elseIfWords d) branches) = branches.flatMap (elseIfFaces d) := by
  have hwords : (elseIfWords d).map word = [word "else", word "if"] := by
    cases d <;> first | rfl | exact Bool.noConfusion hd
  induction branches with
  | nil => rfl
  | cons b rest ih =>
    rw [branchOutlines, laidOf_append, laid_head hd, ih, hwords, List.flatMap_cons]
    rfl

theorem laid_choice (b : Branch) (branches : List Branch) (otherwise : List Stmt) (line : Nat) :
    laidOf d ((Stmt.choice (b :: branches) otherwise line).outlines d) =
      word "if" :: branchFaces d b ++
        tailFaces (elseIfFaces d) (lastFaces d otherwise) branches := by
  have helse : elseFaces d = [word "else", sign "\x7b"] := by
    cases d <;> first | rfl | exact Bool.noConfusion hd
  rw [Stmt.outlines, laidOf_append, laidOf_append, branchOutlines, laidOf_append, laid_head hd,
    laid_branches hd, endLines_eq hd, laidOf, List.append_nil, tailFaces, lastFaces,
    List.append_assoc]
  cases otherwise with
  | nil => rfl
  | cons x rest =>
    rw [if_neg (by simp), if_neg (by simp), laid_part hd, filled_eq hd, helse, blockFaces]
    simp

end

/-! ### how it is read -/

/-- no `else` comes next, which would belong to the statement before -/
def NoElse (rest : List Token) : Prop := ∀ t ∈ rest.head?, t.isName "else" = false

theorem expects (s : Setting) : Expects (more s) NoElse := by
  have hne : ∀ w ∈ starters, w ≠ "else" := by decide
  intro w hw line column rest
  refine ⟨rfl, ?_⟩
  rintro t ⟨⟩
  simp [Token.isName, hne w hw]

section

variable {s : Setting} {depth : Nat} {stmt : Parser (List Stmt)}

theorem blockRest_reads {body : List Stmt} (h : BlockReads s.dialect stmt NoElse body) :
    Reads (blockRest s stmt) (laidOf s.dialect (blockOutlines s.dialect body) ++ [sign "\x7d"])
      Anywhere (SameBlock body) := by
  intro ts rest hts _
  obtain ⟨ts₁, ts₂, rfl, hts₁, hts₂⟩ := faces_append hts
  obtain ⟨line, column, ts₃, rfl, hts₃⟩ := faces_cons hts₂
  obtain rfl := faces_nil hts₃
  have hnext : NoElse (⟨.op, "\x7d", line, column⟩ :: rest) := by
    rintro t ⟨⟩
    rfl
  have hmore : more s (⟨.op, "\x7d", line, column⟩ :: rest) = .ok false := by
    simp [more, Token.isOp]
  obtain ⟨body', hbody, hsame⟩ := h.repeated (expects s) ts₁ _ hts₁ ⟨hnext, hmore⟩
  refine ⟨body', ?_, hsame⟩
  rw [List.append_assoc, List.singleton_append, blockRest, hbody]
  rfl

theorem body_reads {body : List Stmt} (h : BlockReads s.dialect stmt NoElse body) :
    Reads (Braces.body s stmt) (blockFaces s.dialect body) Anywhere (SameBlock body) := by
  intro ts rest hts hrest
  obtain ⟨line, column, ts', rfl, hts'⟩ := faces_cons hts
  obtain ⟨body', hbody, hsame⟩ := blockRest_reads h ts' rest hts' hrest
  refine ⟨body', ?_, hsame⟩
  rw [List.cons_append, Braces.body, acceptOp_op]
  exact hbody

theorem test_reads {e : Expr} (keyword : String)
    (he : Reads (condition s depth) (e.faces s.dialect) (Follow s) e.Same) :
    Reads (test s depth keyword) (testFaces s.dialect e) Anywhere e.Same := by
  intro ts rest hts _
  obtain ⟨line, column, ts', rfl, hts'⟩ := faces_cons hts
  obtain ⟨ts₁, ts₂, rfl, hts₁, hts₂⟩ := faces_append hts'
  obtain ⟨line', column', ts₃, rfl, hts₃⟩ := faces_cons hts₂
  obtain rfl := faces_nil hts₃
  obtain ⟨e', he', hsame⟩ := he ts₁ _ hts₁ (follow_op s ")" (by decide) line' column' rest)
  refine ⟨e', ?_, hsame⟩
  rw [List.cons_append, List.append_assoc, List.singleton_append, test, expect_op]
  simp only [he', expect_op]

theorem branch_reads {b : Branch} (keyword : String)
    (he : Reads (condition s depth) (b.1.faces s.dialect) (Follow s) b.1.Same)
    (hb : BlockReads s.dialect stmt NoElse b.2) :
    Reads (branch s depth keyword stmt) (branchFaces s.dialect b) Anywhere (SameBranch b) := by
  intro ts rest hts hrest
  obtain ⟨ts₁, ts₂, rfl, hts₁, hts₂⟩ := faces_append hts
  obtain ⟨e', he', hsame⟩ := test_reads keyword he ts₁ (ts₂ ++ rest) hts₁ trivial
  obtain ⟨body', hbody, hsame'⟩ := body_reads hb ts₂ rest hts₂ hrest
  refine ⟨(e', body'), ?_, hsame, hsame'⟩
  rw [List.append_assoc, branch, he']
  simp only [hbody]

theorem last_reads {line : Nat} {otherwise : List Stmt}
    (h : BlockReads s.dialect stmt NoElse otherwise) {x : Token} {bound ts rest : List Token}
    (done : List Branch) (hts : ts.map Token.face = lastFaces s.dialect otherwise)
    (hrest : NoElse rest) :
    ∃ otherwise', branches s depth stmt line (x :: bound) done (ts ++ rest) =
        .ok (.choice done.reverse otherwise' line, rest) ∧ SameBlock otherwise otherwise' := by
  cases otherwise with
  | nil =>
    obtain rfl := faces_nil hts
    refine ⟨[], ?_, rfl⟩
    rw [List.nil_append, branches, acceptName_eq_none hrest]
  | cons y otherwise =>
    obtain ⟨l, c, ts₁, rfl, hts₁⟩ := faces_cons hts
    obtain ⟨otherwise', hread, hsame⟩ := body_reads h ts₁ rest hts₁ trivial
    obtain ⟨l', c', ts₂, rfl, _⟩ := faces_cons hts₁
    have hif : acceptName "if" (⟨.op, "\x7b", l', c'⟩ :: ts₂ ++ rest) = none :=
      acceptName_eq_none (by rintro t ⟨⟩; rfl)
    refine ⟨otherwise', ?_, hsame⟩
    rw [List.cons_append, branches, acceptName_name]
    simp only [hif, hread]

theorem tail_reads (line : Nat) {bs : List Branch} {otherwise : List Stmt}
    (hbranches : ∀ b ∈ bs,
      Reads (branch s depth "if" stmt) (branchFaces s.dialect b) Anywhere (SameBranch b))
    (hotherwise : BlockReads s.dialect stmt NoElse otherwise) :
    TailReads (branches s depth stmt line) (elseIfFaces s.dialect) (lastFaces s.dialect otherwise)
      NoElse bs otherwise line where
  branch := by
    intro b hb x bound ts ts' later rest done hts _
    obtain ⟨l, c, ts₁, rfl, hts₁⟩ := faces_cons hts
    obtain ⟨l', c', ts₂, rfl, hts₂⟩ := faces_cons hts₁
    obtain ⟨b', hb', hsame⟩ := hbranches b hb ts₂ (ts' ++ rest) hts₂ trivial
    refine ⟨b', ?_, hsame⟩
    rw [List.cons_append, List.cons_append, branches, acceptName_name]
    simp only [acceptName_name, hb']
  last done hts hrest := last_reads hotherwise done hts hrest
  begins _ := List.cons_ne_nil _ _

theorem statement_receiver {line column : Nat} {ts rest : List Token} {x : Stmt} {l c : Nat}
    (h : call s ts = .ok (x, ⟨.op, ";", l, c⟩ :: rest)) :
    statement s (depth + 1) (⟨.name, receiver, line, column⟩ :: ts) = .ok ([x], rest) := by
  rw [statement]
  simp [Token.isOp, Token.isName, receiver, h, skipOp]

theorem statement_while (line column : Nat) (ts : List Token) :
    statement s (depth + 1) (⟨.name, "while", line, column⟩ :: ts) =
      loop s depth (statement s depth) line ts := by
  rw [statement]
  simp [Token.isOp, Token.isName]

theorem statement_if (line column : Nat) (ts : List Token) :
    statement s (depth + 1) (⟨.name, "if", line, column⟩ :: ts) =
      choice s depth (statement s depth) line ts := by
  rw [statement]
  simp [Token.isOp, Token.isName]

/-- a call with the semicolon after it -/
theorem simple_reads {x : Stmt} {fs : List Face}
    (h : Reads (call s) fs Calm fun x' => x'.unlined = x.unlined)
    (hlaid : laidOf s.dialect (x.outlines s.dialect) = word receiver :: (fs ++ [sign ";"])) :
    StmtReads s.dialect (statement s (depth + 1)) NoElse x := by
  refine ⟨?_, receiver, List.mem_cons_self, _, hlaid⟩
  intro ts rest hts _
  rw [hlaid] at hts
  obtain ⟨line, column, ts₁, rfl, hts₁⟩ := faces_cons hts
  obtain ⟨ts₂, ts₃, rfl, hts₂, hts₃⟩ := faces_append hts₁
  obtain ⟨l, c, ts₄, rfl, hts₄⟩ := faces_cons hts₃
  obtain rfl := faces_nil hts₄
  have hcalm : Calm (⟨.op, ";", l, c⟩ :: rest) := by
    rintro t ⟨⟩
    simp [Token.isOp]
  obtain ⟨x', hx', hsame⟩ := h ts₂ _ hts₂ hcalm
  refine ⟨[x'], ?_, sameBlock_one hsame⟩
  rw [List.cons_append, List.append_assoc, List.singleton_append]
  exact statement_receiver hx'

theorem loop_reads {e : Expr} {body : List Stmt} {line : Nat} (hd : s.dialect.hasBraces = true)
    (he : Reads (condition s depth) (e.faces s.dialect) (Follow s) e.Same)
    (hbody : BlockReads s.dialect (statement s depth) NoElse body) :
    StmtReads s.dialect (statement s (depth + 1)) NoElse (.loop e body line) := by
  refine ⟨?_, "while", by decide, _, laid_loop hd e body line⟩
  intro ts rest hts _
  rw [laid_loop hd] at hts
  obtain ⟨l, c, ts₁, rfl, hts₁⟩ := faces_cons hts
  obtain ⟨⟨e', body'⟩, hread, hsame⟩ := branch_reads "while" he hbody ts₁ rest hts₁ trivial
  refine ⟨[.loop e' body' l], ?_, sameBlock_loop hsame⟩
  rw [List.cons_append, statement_while, loop, hread]

theorem choice_reads {branches : List Branch} {otherwise : List Stmt} {line : Nat}
    (hd : s.dialect.hasBraces = true) (hne : branches ≠ [])
    (hbranches : ∀ b ∈ branches,
      Reads (condition s depth) (b.1.faces s.dialect) (Follow s) b.1.Same ∧
        BlockReads s.dialect (statement s depth) NoElse b.2)
    (hotherwise : BlockReads s.dialect (statement s depth) NoElse otherwise) :
    StmtReads s.dialect (statement s (depth + 1)) NoElse (.choice branches otherwise line) := by
  obtain ⟨b, branches, rfl⟩ := List.exists_cons_of_ne_nil hne
  refine ⟨?_, "if", by decide, _, laid_choice hd b branches otherwise line⟩
  intro ts rest hts hrest
  have hreads := fun x hx => branch_reads "if" (hbranches x hx).1 (hbranches x hx).2
  rw [laid_choice hd] at hts
  obtain ⟨l, c, ts₁, rfl, hts₁⟩ := faces_cons hts
  have htail := tail_reads l (fun x hx => hreads x (List.mem_cons_of_mem b hx)) hotherwise
  obtain ⟨b', ts₂, x, hb', hx, hsame⟩ :=
    htail.choice (List.cons_ne_nil _ _) (hreads b List.mem_cons_self) (fun _ _ _ => trivial) line
      hts₁ hrest
  refine ⟨[x], ?_, hsame⟩
  rw [List.cons_append, statement_if, choice, hb']
  simp only [hx]

theorem reader (hd : s.dialect.hasBraces = true) : Reader s (statement s) NoElse where
  command := by
    refine simple_reads (call_command s _) ?_
    rw [Stmt.outlines, laid_bare hd, stopFaces, if_pos hd]
    rfl
  ask := by
    refine simple_reads (call_sensor s _) ?_
    rw [Stmt.outlines, laid_bare hd, stopFaces, if_pos hd]
    rfl
  loop _ he hbody := loop_reads hd he hbody
  choice _ hne hbranches hotherwise := choice_reads hd hne hbranches hotherwise

theorem entry_reads {body : List Stmt} (hd : s.dialect.hasBraces = true) (hp : ProperBlock body)
    (hheight : blockHeight body ≤ depth) :
    Reads (entry s depth) (blockFaces s.dialect body) Anywhere (SameBlock body) := by
  intro ts rest hts hrest
  obtain ⟨line, column, ts', rfl, hts'⟩ := faces_cons hts
  obtain ⟨body', hbody, hsame⟩ :=
    blockRest_reads ((reader hd).readsBlock body hp hheight) ts' rest hts' hrest
  refine ⟨body', ?_, hsame⟩
  rw [List.cons_append, entry, expect_op]
  exact hbody

end

end Ladybug.Script.Braces

import Ladybug.Script.Parse

/-!
# The pieces that readers are made of

Every reader gives a value or a mistake, goes by the next token, or reads on after another one; its
loops are bounded by tokens that were left at some time. What is to be shown of all readers is shown
of the pieces, and of each reader by what it is made of.

* `give`, `fail`, `take`   a value, a mistake, one token
* `ifTaken`, `ifNext`      by the next token, which is taken or left
* `andThen`, `iterate`     one reader after another, and a loop
* `own`, `after`           the bound of a loop: the tokens at its start, or those before that
-/

namespace Ladybug.Script

variable {α β : Type}

/-! ### the pieces -/

def give (a : α) : Parser α := fun ts => .ok (a, ts)

def fail (mistake : List Token → Mistake) : Parser α := fun ts => .error (mistake ts)

/-- a token that must come next -/
def take (test : Token → Bool) (mistake : List Token → Mistake) : Parser Token
  | t :: ts => if test t then .ok (t, ts) else .error (mistake (t :: ts))
  | [] => .error (mistake [])

/-- Reads on after a token that passes a test, and otherwise without it. -/
def ifTaken (test : Token → Bool) (yes : Token → Parser α) (no : Parser α) : Parser α
  | t :: ts => if test t then yes t ts else no (t :: ts)
  | [] => no []

/-- Looks at the next token, if there is one, and leaves it. -/
def ifNext (test : Option Token → Bool) (yes no : Parser α) : Parser α := fun ts =>
  if test ts.head? then yes ts else no ts

def andThen (p : Parser α) (f : α → Parser β) : Parser β := fun ts =>
  match p ts with
  | .error m => .error m
  | .ok (a, ts) => f a ts

/-- A loop that each step ends or goes on with; what it does without a bound is `last`. -/
def iterate (step : β → Parser (α ⊕ β)) (last : β → Parser α) : List Token → β → Parser α
  | [], b => last b
  | _ :: bound, b => andThen (step b) (Sum.elim give (iterate step last bound))

/-- Where no tokens are left, a loop without a bound does what a step does. -/
def Exhausts (step : β → Parser (α ⊕ β)) (last : β → Parser α) : Prop :=
  ∀ b, last b [] = andThen (step b) (Sum.elim give last) []

def own (p : List Token → Parser α) : Parser α := fun ts => p ts ts

def after (p : Parser α) (f : α → List Token → Parser β) : Parser β := fun ts =>
  andThen p (fun a => f a ts) ts

/-- A loop is unrolled if there are as many tokens in its bound as are left, and so many to spare. -/
theorem iterate_eq {step : β → Parser (α ⊕ β)} {last : β → Parser α} {spare : Nat}
    (h : spare = 0 → Exhausts step last) {bound ts : List Token}
    (hbound : ts.length + spare ≤ bound.length) (b : β) :
    iterate step last bound b ts =
      andThen (step b) (Sum.elim give (iterate step last bound.tail)) ts := by
  cases bound with
  | nil =>
    obtain ⟨hts, rfl⟩ := Nat.add_eq_zero_iff.mp (Nat.le_zero.mp hbound)
    obtain rfl := List.length_eq_zero_iff.mp hts
    exact h rfl b
  | cons t bound => rfl

theorem ifNext_kind (kind : Kind) (yes no : Parser α) (ts : List Token) :
    ifNext (·.any (·.kind == kind)) yes no ts = if Indents.isKind kind ts then yes ts else no ts := by
  cases ts <;> rfl

theorem ifTaken_op (x : String) (yes no : Parser α) (ts : List Token) :
    ifTaken (·.isOp x) (fun _ => yes) no ts =
      match acceptOp x ts with
      | some ts => yes ts
      | none => no ts := by
  cases ts with
  | nil => rfl
  | cons t ts => cases h : t.isOp x <;> simp [ifTaken, acceptOp, h]

theorem ifTaken_name (x : String) (yes no : Parser α) (ts : List Token) :
    ifTaken (·.isName x) (fun _ => yes) no ts =
      match acceptName x ts with
      | some ts => yes ts
      | none => no ts := by
  cases ts with
  | nil => rfl
  | cons t ts => cases h : t.isName x <;> simp [ifTaken, acceptName, h]

def skipping (test : Token → Bool) : Parser Unit := ifTaken test (fun _ => give ()) (give ())

theorem skipping_op (x : String) (ts : List Token) :
    skipping (·.isOp x) ts = .ok ((), skipOp x ts) := by
  rw [skipping, ifTaken_op, skipOp]
  cases acceptOp x ts <;> rfl

theorem skipping_name (x : String) (ts : List Token) :
    skipping (·.isName x) ts = .ok ((), skipName x ts) := by
  rw [skipping, ifTaken_name, skipName]
  cases acceptName x ts <;> rfl

section

variable {s : Setting} {depth line : Nat} {stmt : Parser (List Stmt)}

theorem expect_pieces (x context : String) : s.expect x context =
    andThen (take (·.isOp x) (s.wanted (.op x context))) fun _ => give () := by
  funext ts
  cases ts with
  | nil => rfl
  | cons t ts => cases h : t.isOp x <;> simp [Setting.expect, andThen, take, give, h, Setting.wanted]

/-! ### conditions -/

def parens (s : Setting) (name : String) : Parser Unit :=
  ifTaken (·.isOp "(") (fun _ => s.expect ")" ("to close the call to kara." ++ name))
    (if s.dialect = .ended then give () else fail (s.wanted (.call name)))

theorem callParens_eq (name : String) (ts : List Token) :
    callParens s name ts = (parens s name ts).map Prod.snd := by
  rw [callParens, parens, ifTaken_op]
  cases acceptOp "(" ts with
  | none => by_cases h : s.dialect = .ended <;> simp [h, give, fail, Except.map]
  | some ts =>
    dsimp only
    cases s.expect ")" ("to close the call to kara." ++ name) ts <;> rfl

def mark (s : Setting) : Parser Unit :=
  if s.dialect = .ended then skipping (·.isOp "?") else give ()

theorem mark_eq (ts : List Token) :
    mark s ts = .ok ((), if s.dialect = .ended then skipOp "?" ts else ts) := by
  rw [mark]
  split
  · exact skipping_op "?" ts
  · rfl

theorem member_pieces : member s =
    andThen (s.expect "." ("after '" ++ receiver ++ "'")) fun _ =>
      andThen (take (·.kind == .name) (s.wanted .memberName)) fun t =>
        andThen (mark s) fun _ => andThen (parens s t.text) fun _ => give t := by
  funext ts
  rw [member, andThen]
  cases s.expect "." ("after '" ++ receiver ++ "'") ts with
  | error m => rfl
  | ok out =>
    obtain ⟨_, _ | ⟨t, ts⟩⟩ := out
    · rfl
    · by_cases ht : t.kind = .name
      · simp only [ht, andThen, take, mark_eq, callParens_eq, BEq.rfl, if_true]
        cases parens s t.text (if s.dialect = .ended then skipOp "?" ts else ts) <;> rfl
      · simp [ht, andThen, take]

/-- the sensor of a name -/
def sensorOf (s : Setting) (t : Token) : Parser Expr :=
  match sensor? t.text with
  | some d => give (.sensor d t.line)
  | none => fail fun _ =>
    match command? t.text with
    | some _ => .commandAsCondition t.text t.line
    | none => .unknownMember t.text t.line s.dialect

theorem sensorCall_pieces : sensorCall s = andThen (member s) (sensorOf s) := by
  funext ts
  rw [sensorCall, andThen]
  rcases member s ts with _ | ⟨t, ts⟩
  · rfl
  · dsimp only
    rw [sensorOf]
    cases sensor? t.text <;> cases command? t.text <;> rfl

/-- the call of a name -/
def callOf (s : Setting) (t : Token) : Parser Stmt :=
  match command? t.text with
  | some c => give (.command c t.line)
  | none =>
    match sensor? t.text with
    | some d => give (.ask (.sensor d t.line) t.line)
    | none => fail fun _ => .unknownMember t.text t.line s.dialect

theorem call_pieces : call s = andThen (member s) (callOf s) := by
  funext ts
  rw [call, andThen]
  rcases member s ts with _ | ⟨t, ts⟩
  · rfl
  · dsimp only
    rw [callOf]
    cases command? t.text <;> cases sensor? t.text <;> rfl

def chainStep (sep : Token → Bool) (item : Parser α) (done : List α) :
    Parser (List α ⊕ List α) :=
  ifTaken sep (fun _ => andThen item fun a => give (.inr (a :: done)))
    (give (.inl done.reverse))

theorem chainFrom_pieces (sep : Token → Bool) (item : Parser α) (bound : List Token)
    (done : List α) : chainFrom sep item bound done =
      iterate (chainStep sep item) (fun done => give done.reverse) bound done := by
  funext ts
  induction bound generalizing done ts with
  | nil => rfl
  | cons b bound ih =>
    cases ts with
    | nil => rfl
    | cons t ts =>
      rw [chainFrom, iterate, andThen, chainStep, ifTaken]
      split
      · rw [andThen]
        rcases item ts with _ | ⟨a, ts⟩
        · rfl
        · exact ih (a :: done) ts
      · rfl

theorem chain_pieces (sep : Token → Bool) (item : Parser α) : chain sep item =
    andThen item fun a => own fun bound => chainFrom sep item bound [a] := by
  funext ts
  rw [chain, andThen]
  rcases item ts with _ | ⟨a, ts⟩ <;> rfl

theorem junction_pieces (sep : Token → Bool) (node : List Expr → Nat → Expr) (item : Parser Expr)
    (ts : List Token) : junction s sep node item ts =
      andThen (chain sep item) (fun es => give (joined node (s.lineOf ts) es)) ts := by
  rw [junction, andThen]
  rcases chain sep item ts with _ | ⟨es, ts⟩ <;> rfl

theorem unary_pieces : unary s (depth + 1) =
    (ifTaken (isNot s) (fun t => andThen (unary s depth) fun e => give (.not e t.line)) <|
    ifTaken (·.isOp "(") (fun _ => andThen (condition s depth) fun e =>
      andThen (s.expect ")" "to close the parenthesis") fun _ => give e) <|
    ifTaken (·.isName s.trueWord) (fun t => give (.literal true t.line)) <|
    ifTaken (·.isName s.falseWord) (fun t => give (.literal false t.line)) <|
    ifTaken (·.isName receiver) (fun _ => sensorCall s) <|
    fail (s.wanted .sensor)) := by
  funext ts
  cases ts with
  | nil => rfl
  | cons t ts =>
    simp only [unary, ifTaken, andThen, condition, give, fail, Setting.wanted]
    repeat' split
    all_goals simp_all

/-! ### statements -/

/-- whether statements go on -/
def peek (more : List Token → Except Mistake Bool) : Parser Bool := fun ts =>
  match more ts with
  | .error m => .error m
  | .ok go => .ok (go, ts)

def repeatStep (more : List Token → Except Mistake Bool) (item : Parser (List Stmt))
    (done : List Stmt) : Parser (List Stmt ⊕ List Stmt) :=
  andThen (peek more) fun go =>
    if go then andThen item fun stmts => give (.inr (stmts.reverse ++ done))
    else give (.inl done.reverse)

/-- statements after which no more may follow -/
def repeatEnd (more : List Token → Except Mistake Bool) (done : List Stmt) :
    Parser (List Stmt) :=
  andThen (peek more) fun _ => give done.reverse

theorem repeatedFrom_pieces (more : List Token → Except Mistake Bool) (item : Parser (List Stmt))
    (bound : List Token) (done : List Stmt) : repeatedFrom more item bound done =
      iterate (repeatStep more item) (repeatEnd more) bound done := by
  funext ts
  induction bound generalizing done ts with
  | nil =>
    unfold repeatedFrom
    rw [iterate, repeatEnd, andThen, peek]
    rcases more ts with _ | ⟨_ | _⟩ <;> rfl
  | cons b bound ih =>
    unfold repeatedFrom
    rw [iterate, andThen, repeatStep, andThen, peek]
    rcases more ts with _ | ⟨_ | _⟩
    · rfl
    · rfl
    · dsimp only
      rw [if_pos rfl, andThen]
      rcases item ts with _ | ⟨stmts, ts⟩
      · rfl
      · exact ih (stmts.reverse ++ done) ts

theorem repeated_pieces (more : List Token → Except Mistake Bool) (item : Parser (List Stmt)) :
    repeated more item = own fun bound => repeatedFrom more item bound [] := rfl

/-- the token at which a block ends, which is taken if there is one -/
def close : Parser Unit := fun ts => .ok ((), ts.drop 1)

namespace Braces

theorem blockRest_pieces : blockRest s stmt =
    andThen (repeated (more s) stmt) fun body => andThen close fun _ => give body := by
  funext ts
  rw [blockRest, andThen]
  rcases repeated (more s) stmt ts with _ | ⟨body, ts⟩ <;> rfl

theorem body_pieces : body s stmt =
    ifTaken (·.isOp "\x7b") (fun _ => blockRest s stmt) stmt := by
  funext ts
  cases h : acceptOp "\x7b" ts <;> simp only [body, ifTaken_op, h]

theorem test_pieces (keyword : String) : test s depth keyword =
    andThen (s.expect "(" ("after '" ++ keyword ++ "'")) fun _ =>
      andThen (condition s depth) fun e =>
        andThen (s.expect ")" ("to close the '" ++ keyword ++ "' condition")) fun _ => give e := by
  funext ts
  rw [test, andThen]
  rcases s.expect "(" ("after '" ++ keyword ++ "'") ts with _ | ⟨_, ts⟩
  · rfl
  dsimp only
  rw [andThen]
  rcases condition s depth ts with _ | ⟨e, ts⟩
  · rfl
  dsimp only
  rw [andThen]
  rcases s.expect ")" ("to close the '" ++ keyword ++ "' condition") ts with _ | ⟨_, ts⟩ <;> rfl

theorem branch_pieces (keyword : String) : branch s depth keyword stmt =
    andThen (test s depth keyword) fun e => andThen (body s stmt) fun b => give (e, b) := by
  funext ts
  grind [branch, andThen, give]

def branchStep (s : Setting) (depth : Nat) (stmt : Parser (List Stmt)) (line : Nat)
    (done : List Branch) : Parser (Stmt ⊕ List Branch) :=
  ifTaken (·.isName "else")
    (fun _ => ifTaken (·.isName "if")
      (fun _ => andThen (branch s depth "if" stmt) fun b => give (.inr (b :: done)))
      (andThen (body s stmt) fun otherwise =>
        give (.inl (.choice done.reverse otherwise line))))
    (give (.inl (.choice done.reverse [] line)))

theorem branches_pieces (bound : List Token) (done : List Branch) :
    branches s depth stmt line bound done = iterate (branchStep s depth stmt line)
      (fun done => give (.choice done.reverse [] line)) bound done := by
  funext ts
  induction bound generalizing done ts with
  | nil => rfl
  | cons b bound ih =>
    rw [branches, iterate, andThen, branchStep, ifTaken_name]
    cases acceptName "else" ts with
    | none => rfl
    | some ts =>
      dsimp only
      rw [ifTaken_name]
      cases acceptName "if" ts with
      | none =>
        dsimp only
        rw [andThen]
        rcases body s stmt ts with _ | ⟨otherwise, ts⟩ <;> rfl
      | some ts =>
        dsimp only
        rw [andThen]
        rcases branch s depth "if" stmt ts with _ | ⟨b, ts⟩
        · rfl
        · exact ih (b :: done) ts

theorem loop_pieces : loop s depth stmt line =
    andThen (branch s depth "while" stmt) fun b => give [.loop b.1 b.2 line] := by
  funext ts
  grind [loop, andThen, give]

theorem doLoop_pieces : doLoop s depth stmt line =
    andThen (body s stmt) fun b =>
      andThen (take (·.isName "while") (s.wanted .whileAfterDo)) fun _ =>
        andThen (test s depth "while") fun e =>
          andThen (skipping (·.isOp ";")) fun _ => give (b ++ [.loop e b line]) := by
  funext ts
  rw [doLoop, andThen]
  rcases body s stmt ts with _ | ⟨b, _ | ⟨t, ts⟩⟩
  · rfl
  · rfl
  · cases h : t.isName "while"
    · simp [andThen, take, acceptName, h]
    · simp only [andThen, take, acceptName, h, if_true, skipping_op]
      rcases test s depth "while" ts with _ | ⟨e, ts⟩ <;> rfl

theorem choice_pieces : choice s depth stmt line =
    after (branch s depth "if" stmt) fun b bound =>
      andThen (branches s depth stmt line bound [b]) fun c => give [c] := by
  funext ts
  grind [choice, after, andThen, give]

theorem statement_pieces : statement s (depth + 1) =
    (ifTaken (·.isOp ";") (fun _ => give []) <|
    ifTaken (·.isOp "\x7b") (fun _ => blockRest s (statement s depth)) <|
    ifTaken (·.isName "while") (fun t => loop s depth (statement s depth) t.line) <|
    ifTaken (·.isName "do") (fun t => doLoop s depth (statement s depth) t.line) <|
    ifTaken (·.isName "if") (fun t => choice s depth (statement s depth) t.line) <|
    ifTaken (·.isName receiver) (fun _ => andThen (call s) fun c =>
      andThen (skipping (·.isOp ";")) fun _ => give [c]) <|
    fail (s.wanted .statement)) := by
  funext ts
  cases ts with
  | nil => rfl
  | cons t ts =>
    simp only [statement, ifTaken, andThen, skipping_op, give, fail, Setting.wanted]
    repeat' split
    all_goals simp_all

theorem entry_pieces : entry s depth =
    andThen (s.expect "\x7b" "to open the main program") fun _ =>
      blockRest s (statement s depth) := by
  funext ts
  grind [entry, andThen]

end Braces

namespace Indents

theorem simple_pieces : simple s =
    (ifTaken (·.isName "pass") (fun _ => give []) <|
    ifTaken (·.isName receiver) (fun _ => andThen (call s) fun c => give [c]) <|
    fail (s.wanted .statement)) := by
  funext ts
  cases ts with
  | nil => rfl
  | cons t ts =>
    simp only [simple, ifTaken, andThen, give, fail, Setting.wanted]
    repeat' split
    all_goals simp_all

def simpleStep (s : Setting) (done : List Stmt) : Parser (List Stmt ⊕ List Stmt) :=
  ifTaken (·.isOp ";")
    (fun _ => ifNext (·.any (·.kind == .newline)) (give (.inl done.reverse))
      (andThen (simple s) fun stmts => give (.inr (stmts.reverse ++ done))))
    (give (.inl done.reverse))

theorem simplesFrom_pieces (bound : List Token) (done : List Stmt) :
    simplesFrom s bound done =
      iterate (simpleStep s) (fun done => give done.reverse) bound done := by
  funext ts
  induction bound generalizing done ts with
  | nil => rfl
  | cons b bound ih =>
    rw [simplesFrom, iterate, andThen, simpleStep, ifTaken_op]
    cases acceptOp ";" ts with
    | none => rfl
    | some ts =>
      dsimp only
      rw [ifNext_kind]
      split
      · rfl
      · rw [andThen]
        rcases simple s ts with _ | ⟨stmts, ts⟩
        · rfl
        · exact ih (stmts.reverse ++ done) ts

theorem simples_pieces : simples s =
    after (simple s) fun first bound =>
      andThen (simplesFrom s bound first.reverse) fun stmts =>
        andThen (take (·.kind == .newline) (s.wanted .lineEnd)) fun _ => give stmts := by
  funext ts
  rw [simples, after, andThen]
  rcases simple s ts with _ | ⟨first, rest⟩
  · rfl
  · dsimp only
    rw [andThen]
    rcases simplesFrom s ts first.reverse rest with _ | ⟨stmts, _ | ⟨t, rest⟩⟩
    · rfl
    · rfl
    · cases h : t.kind == .newline <;> simp [andThen, take, isKind, give, h]

theorem suite_pieces : suite s stmt =
    ifNext (·.any (·.kind == .newline))
      (andThen close fun _ => ifNext (·.any (·.kind == .indent))
        (andThen close fun _ => andThen (repeated more stmt) fun body =>
          andThen close fun _ => give body)
        (fail (s.wanted .indentedBlock)))
      (simples s) := by
  funext ts
  rw [suite, ifNext_kind]
  split
  · rw [andThen, close]
    dsimp only
    rw [ifNext_kind]
    split
    · rw [andThen, close]
      dsimp only
      rw [andThen]
      rcases repeated more stmt ((ts.drop 1).drop 1) with _ | ⟨body, ts⟩ <;> rfl
    · rfl
  · rfl

theorem branch_pieces (keyword : String) : branch s depth keyword stmt =
    andThen (condition s depth) fun e =>
      andThen (s.expect ":" ("after the '" ++ keyword ++ "' condition")) fun _ =>
        andThen (suite s stmt) fun b => give (e, b) := by
  funext ts
  rw [branch, andThen]
  rcases condition s depth ts with _ | ⟨e, ts⟩
  · rfl
  dsimp only
  rw [andThen]
  rcases s.expect ":" ("after the '" ++ keyword ++ "' condition") ts with _ | ⟨_, ts⟩
  · rfl
  dsimp only
  rw [andThen]
  rcases suite s stmt ts with _ | ⟨b, ts⟩ <;> rfl

def branchStep (s : Setting) (depth : Nat) (stmt : Parser (List Stmt)) (line : Nat)
    (done : List Branch) : Parser (Stmt ⊕ List Branch) :=
  ifTaken (·.isName "elif")
    (fun _ => andThen (branch s depth "elif" stmt) fun b => give (.inr (b :: done))) <|
  ifTaken (·.isName "else")
    (fun _ => andThen (s.expect ":" "after 'else'") fun _ => andThen (suite s stmt) fun otherwise =>
      give (.inl (.choice done.reverse otherwise line)))
    (give (.inl (.choice done.reverse [] line)))

theorem branches_pieces (bound : List Token) (done : List Branch) :
    branches s depth stmt line bound done = iterate (branchStep s depth stmt line)
      (fun done => give (.choice done.reverse [] line)) bound done := by
  funext ts
  induction bound generalizing done ts with
  | nil => rfl
  | cons b bound ih =>
    rw [branches, iterate, andThen, branchStep, ifTaken_name]
    cases acceptName "elif" ts with
    | none =>
      dsimp only
      rw [ifTaken_name]
      cases acceptName "else" ts with
      | none => rfl
      | some ts =>
        dsimp only
        rw [andThen]
        rcases s.expect ":" "after 'else'" ts with _ | ⟨_, ts⟩
        · rfl
        · dsimp only
          rw [andThen]
          rcases suite s stmt ts with _ | ⟨otherwise, ts⟩ <;> rfl
    | some ts =>
      dsimp only
      rw [andThen]
      rcases branch s depth "elif" stmt ts with _ | ⟨b, ts⟩
      · rfl
      · exact ih (b :: done) ts

theorem loop_pieces : loop s depth stmt line =
    andThen (branch s depth "while" stmt) fun b => give [.loop b.1 b.2 line] := by
  funext ts
  grind [loop, andThen, give]

theorem choice_pieces : choice s depth stmt line =
    after (branch s depth "if" stmt) fun b bound =>
      andThen (branches s depth stmt line bound [b]) fun c => give [c] := by
  funext ts
  grind [choice, after, andThen, give]

theorem statement_pieces : statement s (depth + 1) =
    (ifTaken (·.isName "while") (fun t => loop s depth (statement s depth) t.line) <|
    ifTaken (·.isName "if") (fun t => choice s depth (statement s depth) t.line) <|
    simples s) := by
  funext ts
  cases ts <;> rfl

theorem entry_pieces : entry s depth =
    andThen (s.expect ":" "after the method definition") fun _ =>
      suite s (statement s depth) := by
  funext ts
  grind [entry, andThen]

end Indents

namespace Ends

/-- separators, as many as there are -/
def skipped : Parser Unit := fun ts => .ok ((), skip ts)

theorem separated_pieces : separated stmt =
    andThen stmt fun stmts => andThen skipped fun _ => give stmts := by
  funext ts
  grind [separated, andThen, give, skipped]

theorem body_pieces : body s stmt =
    andThen skipped fun _ => repeated (more s) (separated stmt) := rfl

theorem block_pieces : block s stmt =
    andThen (body s stmt) fun b =>
      andThen (take (·.isName "end") (s.wanted .closingEnd)) fun _ => give b := by
  funext ts
  rw [block, andThen]
  rcases body s stmt ts with _ | ⟨b, _ | ⟨t, ts⟩⟩
  · rfl
  · rfl
  · cases h : t.isName "end" <;> simp [andThen, take, close, acceptName, give, h]

theorem test_pieces (negated : Bool) : test s depth negated line =
    andThen (condition s depth) fun e => give (if negated then .not e line else e) := by
  funext ts
  grind [test, andThen, give]

theorem branch_pieces (negated : Bool) : branch s depth negated line stmt =
    andThen (test s depth negated line) fun e => andThen (skipping (·.isName "then")) fun _ =>
      andThen (body s stmt) fun b => give (e, b) := by
  funext ts
  rw [branch, andThen]
  rcases test s depth negated line ts with _ | ⟨e, ts⟩
  · rfl
  dsimp only
  rw [andThen, skipping_name]
  dsimp only
  rw [andThen]
  rcases body s stmt (skipName "then" ts) with _ | ⟨b, ts⟩ <;> rfl

def branchStep (s : Setting) (depth : Nat) (stmt : Parser (List Stmt)) (line : Nat)
    (done : List Branch) : Parser (Stmt ⊕ List Branch) :=
  ifTaken (·.isName "elsif")
    (fun _ => andThen (branch s depth false line stmt) fun b => give (.inr (b :: done))) <|
  ifTaken (·.isName "else")
    (fun _ => andThen (block s stmt) fun otherwise =>
      give (.inl (.choice done.reverse otherwise line))) <|
  andThen (take (·.isName "end") (s.wanted .closingEnd)) fun _ =>
    give (.inl (.choice done.reverse [] line))

theorem branches_pieces (bound : List Token) (done : List Branch) :
    branches s depth stmt line bound done = iterate (branchStep s depth stmt line)
      (fun done => give (.choice done.reverse [] line)) bound done := by
  funext ts
  induction bound generalizing done ts with
  | nil => rfl
  | cons b bound ih =>
    rw [branches, iterate, andThen, branchStep, ifTaken_name]
    cases acceptName "elsif" ts with
    | some ts =>
      dsimp only
      rw [andThen]
      rcases branch s depth false line stmt ts with _ | ⟨b, ts⟩
      · rfl
      · exact ih (b :: done) ts
    | none =>
      dsimp only
      rw [ifTaken_name]
      cases acceptName "else" ts with
      | some ts =>
        dsimp only
        rw [andThen]
        rcases block s stmt ts with _ | ⟨otherwise, ts⟩ <;> rfl
      | none =>
        cases ts with
        | nil => rfl
        | cons t ts => cases h : t.isName "end" <;> simp [andThen, take, close, acceptName, give, h]

theorem loop_pieces (negated : Bool) : loop s depth negated stmt line =
    andThen (test s depth negated line) fun e => andThen (skipping (·.isName "do")) fun _ =>
      andThen (block s stmt) fun b => give [.loop e b line] := by
  funext ts
  rw [loop, andThen]
  rcases test s depth negated line ts with _ | ⟨e, ts⟩
  · rfl
  dsimp only
  rw [andThen, skipping_name]
  dsimp only
  rw [andThen]
  rcases block s stmt (skipName "do" ts) with _ | ⟨b, ts⟩ <;> rfl

theorem forever_pieces : forever s stmt line =
    andThen (take (·.isName "do") (s.wanted .doAfterLoop)) fun _ =>
      andThen (block s stmt) fun b => give [.loop (.literal true line) b line] := by
  funext ts
  cases ts with
  | nil => rfl
  | cons t ts =>
    cases h : t.isName "do"
    · simp [forever, andThen, take, acceptName, h, Setting.wanted]
    · simp only [forever, andThen, take, acceptName, h, if_true]
      rcases block s stmt ts with _ | ⟨b, ts⟩ <;> rfl

theorem choice_pieces (negated : Bool) : choice s depth negated stmt line =
    after (branch s depth negated line stmt) fun b bound =>
      andThen (branches s depth stmt line bound [b]) fun c => give [c] := by
  funext ts
  grind [choice, after, andThen, give]

def modifierStep (s : Setting) (depth : Nat) (x : Stmt) : Parser (Stmt ⊕ Stmt) :=
  ifTaken (·.isNameIn ["if", "unless", "while", "until"])
    (fun t => andThen (condition s depth) fun e => give (.inr (modified t e x)))
    (give (.inl x))

theorem modifiers_pieces (bound : List Token) (x : Stmt) :
    modifiers s depth bound x = iterate (modifierStep s depth) give bound x := by
  funext ts
  induction bound generalizing x ts with
  | nil => rfl
  | cons b bound ih =>
    cases ts with
    | nil => rfl
    | cons t ts =>
      rw [modifiers, iterate, andThen, modifierStep, ifTaken]
      split
      · rw [andThen]
        rcases condition s depth ts with _ | ⟨e, ts⟩
        · rfl
        · exact ih (modified t e x) ts
      · rfl

theorem statement_pieces : statement s (depth + 1) =
    (ifTaken (·.isName "while") (fun t => loop s depth false (statement s depth) t.line) <|
    ifTaken (·.isName "until") (fun t => loop s depth true (statement s depth) t.line) <|
    ifTaken (·.isName "loop") (fun t => forever s (statement s depth) t.line) <|
    ifTaken (·.isName "if") (fun t => choice s depth false (statement s depth) t.line) <|
    ifTaken (·.isName "unless") (fun t => choice s depth true (statement s depth) t.line) <|
    ifTaken (·.isName receiver) (fun _ => andThen (call s) fun c =>
      own fun bound => andThen (modifiers s depth bound c) fun c => give [c]) <|
    fail (s.wanted .statement)) := by
  funext ts
  cases ts with
  | nil => rfl
  | cons t ts =>
    simp only [statement, ifTaken, andThen, own, give, fail, Setting.wanted]
    repeat' split
    all_goals simp_all

theorem entry_pieces : entry s depth = block s (statement s depth) := rfl

end Ends

end

end Ladybug.Script

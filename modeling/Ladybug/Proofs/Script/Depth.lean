import Ladybug.Script.Parse

/-!
# Nesting is all that a depth counts

* `Upto`              an outcome at a depth, and the outcome at a greater one
* `Within`            a parser and one that goes deeper
* `parse_upto`        a text is nested too deeply, or is read as it is with a greater depth
-/

namespace Ladybug.Script

/-- an outcome, unless the nesting is too deep -/
def Upto {α : Type} (x y : Except Mistake α) : Prop := x = .error .tooDeep ∨ x = y

theorem Upto.refl {α : Type} (x : Except Mistake α) : Upto x x := .inr rfl

/-- what comes of both outcomes -/
@[elab_as_elim]
theorem Upto.elim {α : Type} {motive : Except Mistake α → Except Mistake α → Prop}
    {x y : Except Mistake α} (h : Upto x y) (deep : motive (.error .tooDeep) y)
    (error : ∀ m, motive (.error m) (.error m)) (ok : ∀ a, motive (.ok a) (.ok a)) :
    motive x y := by
  obtain rfl | rfl := h
  · exact deep
  · cases x with
    | error m => exact error m
    | ok a => exact ok a

/-- A parser gives up or does what another one does. -/
def Within {α : Type} (p q : Parser α) : Prop := ∀ ts, Upto (p ts) (q ts)

section

variable {α : Type} {item item' : Parser α} (h : Within item item')
include h

theorem Within.chainFrom (sep : Token → Bool) (bound : List Token) (done : List α) :
    Within (chainFrom sep item bound done) (chainFrom sep item' bound done) := by
  intro ts
  induction bound generalizing done ts with
  | nil => exact .refl _
  | cons b bound ih =>
    cases ts with
    | nil => exact .refl _
    | cons t ts =>
      rw [Script.chainFrom, Script.chainFrom]
      split
      · exact (h ts).elim (.inl rfl) (fun _ => .refl _) fun (a, ts) => ih (a :: done) ts
      · exact .refl _

theorem Within.chain (sep : Token → Bool) : Within (chain sep item) (chain sep item') := by
  intro ts
  rw [Script.chain, Script.chain]
  exact (h ts).elim (.inl rfl) (fun _ => .refl _) fun (a, rest) => h.chainFrom sep rest [a] rest

end

theorem Within.junction {item item' : Parser Expr} (h : Within item item') (s : Setting)
    (sep : Token → Bool) (node : List Expr → Nat → Expr) :
    Within (junction s sep node item) (junction s sep node item') := by
  intro ts
  rw [Script.junction, Script.junction]
  exact (h.chain sep ts).elim (.inl rfl) (fun _ => .refl _) fun _ => .refl _

theorem Within.conditionOf {item item' : Parser Expr} (h : Within item item') (s : Setting) :
    Within (conditionOf s item) (conditionOf s item') :=
  (h.junction s _ _).junction s _ _

theorem unary_within (s : Setting) {depth depth' : Nat} (hd : depth ≤ depth') :
    Within (unary s depth) (unary s depth') := by
  intro ts
  induction depth generalizing depth' ts with
  | zero => exact .inl (by rw [unary])
  | succ depth ih =>
    obtain ⟨deeper, rfl⟩ : ∃ deeper, depth' = deeper + 1 := ⟨depth' - 1, by omega⟩
    have hunary : Within (unary s depth) (unary s deeper) := fun ts => ih (by omega) ts
    cases ts with
    | nil => exact .inr (by rw [unary, unary])
    | cons t ts =>
      rw [unary, unary]
      split
      · exact (hunary ts).elim (.inl rfl) (fun _ => .refl _) fun _ => .refl _
      · split
        · exact (hunary.conditionOf s ts).elim (.inl rfl) (fun _ => .refl _) fun _ => .refl _
        · exact .refl _

theorem condition_within (s : Setting) {depth depth' : Nat} (hd : depth ≤ depth') :
    Within (condition s depth) (condition s depth') :=
  (unary_within s hd).conditionOf s

theorem Within.repeated {item item' : Parser (List Stmt)} (h : Within item item')
    (more : List Token → Except Mistake Bool) :
    Within (repeated more item) (repeated more item') := by
  have hfrom : ∀ bound done,
      Within (repeatedFrom more item bound done) (repeatedFrom more item' bound done) := by
    intro bound done ts
    induction bound generalizing done ts with
    | nil =>
      unfold repeatedFrom
      cases more ts with
      | error m => exact .refl _
      | ok go => cases go <;> exact .refl _
    | cons b bound ih =>
      unfold repeatedFrom
      cases more ts with
      | error m => exact .refl _
      | ok go =>
        cases go with
        | false => exact .refl _
        | true =>
          exact (h ts).elim (.inl rfl) (fun _ => .refl _)
            fun (stmts, ts) => ih (stmts.reverse ++ done) ts
  exact fun ts => hfrom ts [] ts

section

variable {s : Setting} {depth depth' : Nat} {stmt stmt' : Parser (List Stmt)}

/-! ### braces -/

namespace Braces

theorem blockRest_within (h : Within stmt stmt') :
    Within (blockRest s stmt) (blockRest s stmt') := by
  intro ts
  rw [blockRest, blockRest]
  exact (h.repeated (more s) ts).elim (.inl rfl) (fun _ => .refl _) fun _ => .refl _

theorem body_within (h : Within stmt stmt') : Within (body s stmt) (body s stmt') := by
  intro ts
  rw [body, body]
  split
  · exact blockRest_within h _
  · exact h ts

theorem test_within (hd : depth ≤ depth') (keyword : String) :
    Within (test s depth keyword) (test s depth' keyword) := by
  intro ts
  rw [test, test]
  split
  · exact .refl _
  · exact (condition_within s hd _).elim (.inl rfl) (fun _ => .refl _) fun _ => .refl _

theorem branch_within (hd : depth ≤ depth') (h : Within stmt stmt') (keyword : String) :
    Within (branch s depth keyword stmt) (branch s depth' keyword stmt') := by
  intro ts
  rw [branch, branch]
  refine (test_within hd keyword ts).elim (.inl rfl) (fun _ => .refl _) fun (e, ts) => ?_
  dsimp only
  exact (body_within h ts).elim (.inl rfl) (fun _ => .refl _) fun _ => .refl _

theorem branches_within (hd : depth ≤ depth') (h : Within stmt stmt') (line : Nat)
    (bound : List Token) (done : List Branch) :
    Within (branches s depth stmt line bound done) (branches s depth' stmt' line bound done) := by
  intro ts
  induction bound generalizing done ts with
  | nil => exact .refl _
  | cons b bound ih =>
    rw [branches, branches]
    split
    · exact .refl _
    · split
      · exact (branch_within hd h "if" _).elim (.inl rfl) (fun _ => .refl _)
          fun (b, ts) => ih (b :: done) ts
      · exact (body_within h _).elim (.inl rfl) (fun _ => .refl _) fun _ => .refl _

theorem loop_within (hd : depth ≤ depth') (h : Within stmt stmt') (line : Nat) :
    Within (loop s depth stmt line) (loop s depth' stmt' line) := by
  intro ts
  rw [loop, loop]
  exact (branch_within hd h "while" ts).elim (.inl rfl) (fun _ => .refl _) fun _ => .refl _

theorem doLoop_within (hd : depth ≤ depth') (h : Within stmt stmt') (line : Nat) :
    Within (doLoop s depth stmt line) (doLoop s depth' stmt' line) := by
  intro ts
  rw [doLoop, doLoop]
  refine (body_within h ts).elim (.inl rfl) (fun _ => .refl _) fun (b, ts) => ?_
  dsimp only
  split
  · exact .refl _
  · exact (test_within hd "while" _).elim (.inl rfl) (fun _ => .refl _) fun _ => .refl _

theorem choice_within (hd : depth ≤ depth') (h : Within stmt stmt') (line : Nat) :
    Within (choice s depth stmt line) (choice s depth' stmt' line) := by
  intro ts
  rw [choice, choice]
  refine (branch_within hd h "if" ts).elim (.inl rfl) (fun _ => .refl _) fun (b, rest) => ?_
  dsimp only
  exact (branches_within hd h line ts [b] rest).elim (.inl rfl) (fun _ => .refl _)
    fun _ => .refl _

theorem statement_within (hd : depth ≤ depth') :
    Within (statement s depth) (statement s depth') := by
  intro ts
  induction depth generalizing depth' ts with
  | zero => exact .inl (by rw [statement])
  | succ depth ih =>
    obtain ⟨deeper, rfl⟩ : ∃ deeper, depth' = deeper + 1 := ⟨depth' - 1, by omega⟩
    have hd : depth ≤ deeper := Nat.le_of_succ_le_succ hd
    have h : Within (statement s depth) (statement s deeper) := fun ts => ih hd ts
    cases ts with
    | nil => exact .inr (by rw [statement, statement])
    | cons t ts =>
      rw [statement, statement]
      split
      · exact .refl _
      · split
        · exact blockRest_within h ts
        · split
          · exact loop_within hd h t.line ts
          · split
            · exact doLoop_within hd h t.line ts
            · split
              · exact choice_within hd h t.line ts
              · exact .refl _

theorem entry_within (hd : depth ≤ depth') : Within (entry s depth) (entry s depth') := by
  intro ts
  rw [entry, entry]
  split
  · exact .refl _
  · exact blockRest_within (statement_within hd) _

end Braces

/-! ### indentation -/

namespace Indents

theorem suite_within (h : Within stmt stmt') : Within (suite s stmt) (suite s stmt') := by
  intro ts
  rw [suite, suite]
  dsimp only
  split
  · split
    · exact (h.repeated more _).elim (.inl rfl) (fun _ => .refl _) fun _ => .refl _
    · exact .refl _
  · exact .refl _

theorem branch_within (hd : depth ≤ depth') (h : Within stmt stmt') (keyword : String) :
    Within (branch s depth keyword stmt) (branch s depth' keyword stmt') := by
  intro ts
  rw [branch, branch]
  refine (condition_within s hd ts).elim (.inl rfl) (fun _ => .refl _) fun (e, ts) => ?_
  dsimp only
  split
  · exact .refl _
  · exact (suite_within h _).elim (.inl rfl) (fun _ => .refl _) fun _ => .refl _

theorem branches_within (hd : depth ≤ depth') (h : Within stmt stmt') (line : Nat)
    (bound : List Token) (done : List Branch) :
    Within (branches s depth stmt line bound done) (branches s depth' stmt' line bound done) := by
  intro ts
  induction bound generalizing done ts with
  | nil => exact .refl _
  | cons b bound ih =>
    rw [branches, branches]
    split
    · exact (branch_within hd h "elif" _).elim (.inl rfl) (fun _ => .refl _)
        fun (b, ts) => ih (b :: done) ts
    · split
      · exact .refl _
      · split
        · exact .refl _
        · exact (suite_within h _).elim (.inl rfl) (fun _ => .refl _) fun _ => .refl _

theorem loop_within (hd : depth ≤ depth') (h : Within stmt stmt') (line : Nat) :
    Within (loop s depth stmt line) (loop s depth' stmt' line) := by
  intro ts
  rw [loop, loop]
  exact (branch_within hd h "while" ts).elim (.inl rfl) (fun _ => .refl _) fun _ => .refl _

theorem choice_within (hd : depth ≤ depth') (h : Within stmt stmt') (line : Nat) :
    Within (choice s depth stmt line) (choice s depth' stmt' line) := by
  intro ts
  rw [choice, choice]
  refine (branch_within hd h "if" ts).elim (.inl rfl) (fun _ => .refl _) fun (b, rest) => ?_
  dsimp only
  exact (branches_within hd h line ts [b] rest).elim (.inl rfl) (fun _ => .refl _)
    fun _ => .refl _

theorem statement_within (hd : depth ≤ depth') :
    Within (statement s depth) (statement s depth') := by
  intro ts
  induction depth generalizing depth' ts with
  | zero => exact .inl (by rw [statement])
  | succ depth ih =>
    obtain ⟨deeper, rfl⟩ : ∃ deeper, depth' = deeper + 1 := ⟨depth' - 1, by omega⟩
    have hd : depth ≤ deeper := Nat.le_of_succ_le_succ hd
    have h : Within (statement s depth) (statement s deeper) := fun ts => ih hd ts
    cases ts with
    | nil => exact .inr (by rw [statement, statement])
    | cons t ts =>
      rw [statement, statement]
      split
      · exact loop_within hd h t.line ts
      · split
        · exact choice_within hd h t.line ts
        · exact .refl _

theorem entry_within (hd : depth ≤ depth') : Within (entry s depth) (entry s depth') := by
  intro ts
  rw [entry, entry]
  split
  · exact .refl _
  · exact suite_within (statement_within hd) _

end Indents

/-! ### `end` -/

namespace Ends

theorem separated_within (h : Within stmt stmt') : Within (separated stmt) (separated stmt') := by
  intro ts
  rw [separated, separated]
  exact (h ts).elim (.inl rfl) (fun _ => .refl _) fun _ => .refl _

theorem body_within (h : Within stmt stmt') : Within (body s stmt) (body s stmt') :=
  fun ts => (separated_within h).repeated (more s) (skip ts)

theorem block_within (h : Within stmt stmt') : Within (block s stmt) (block s stmt') := by
  intro ts
  rw [block, block]
  exact (body_within h ts).elim (.inl rfl) (fun _ => .refl _) fun _ => .refl _

theorem test_within (hd : depth ≤ depth') (negated : Bool) (line : Nat) :
    Within (test s depth negated line) (test s depth' negated line) := by
  intro ts
  rw [test, test]
  exact (condition_within s hd ts).elim (.inl rfl) (fun _ => .refl _) fun _ => .refl _

theorem branch_within (hd : depth ≤ depth') (h : Within stmt stmt') (negated : Bool)
    (line : Nat) :
    Within (branch s depth negated line stmt) (branch s depth' negated line stmt') := by
  intro ts
  rw [branch, branch]
  refine (test_within hd negated line ts).elim (.inl rfl) (fun _ => .refl _) fun (e, ts) => ?_
  dsimp only
  exact (body_within h _).elim (.inl rfl) (fun _ => .refl _) fun _ => .refl _

theorem branches_within (hd : depth ≤ depth') (h : Within stmt stmt') (line : Nat)
    (bound : List Token) (done : List Branch) :
    Within (branches s depth stmt line bound done) (branches s depth' stmt' line bound done) := by
  intro ts
  induction bound generalizing done ts with
  | nil => exact .refl _
  | cons b bound ih =>
    rw [branches, branches]
    split
    · exact (branch_within hd h false line _).elim (.inl rfl) (fun _ => .refl _)
        fun (b, ts) => ih (b :: done) ts
    · split
      · exact .refl _
      · exact (block_within h _).elim (.inl rfl) (fun _ => .refl _) fun _ => .refl _

theorem loop_within (hd : depth ≤ depth') (h : Within stmt stmt') (negated : Bool) (line : Nat) :
    Within (loop s depth negated stmt line) (loop s depth' negated stmt' line) := by
  intro ts
  rw [loop, loop]
  refine (test_within hd negated line ts).elim (.inl rfl) (fun _ => .refl _) fun (e, ts) => ?_
  dsimp only
  exact (block_within h _).elim (.inl rfl) (fun _ => .refl _) fun _ => .refl _

theorem forever_within (h : Within stmt stmt') (line : Nat) :
    Within (forever s stmt line) (forever s stmt' line) := by
  intro ts
  rw [forever, forever]
  split
  · exact .refl _
  · exact (block_within h _).elim (.inl rfl) (fun _ => .refl _) fun _ => .refl _

theorem choice_within (hd : depth ≤ depth') (h : Within stmt stmt') (negated : Bool)
    (line : Nat) :
    Within (choice s depth negated stmt line) (choice s depth' negated stmt' line) := by
  intro ts
  rw [choice, choice]
  refine (branch_within hd h negated line ts).elim (.inl rfl) (fun _ => .refl _)
    fun (b, rest) => ?_
  dsimp only
  exact (branches_within hd h line ts [b] rest).elim (.inl rfl) (fun _ => .refl _)
    fun _ => .refl _

theorem modifiers_within (hd : depth ≤ depth') (bound : List Token) (x : Stmt) :
    Within (modifiers s depth bound x) (modifiers s depth' bound x) := by
  intro ts
  induction bound generalizing x ts with
  | nil => exact .refl _
  | cons b bound ih =>
    cases ts with
    | nil => exact .refl _
    | cons t ts =>
      rw [modifiers, modifiers]
      split
      · exact (condition_within s hd ts).elim (.inl rfl) (fun _ => .refl _)
          fun (e, ts) => ih (modified t e x) ts
      · exact .refl _

theorem statement_within (hd : depth ≤ depth') :
    Within (statement s depth) (statement s depth') := by
  intro ts
  induction depth generalizing depth' ts with
  | zero => exact .inl (by rw [statement])
  | succ depth ih =>
    obtain ⟨deeper, rfl⟩ : ∃ deeper, depth' = deeper + 1 := ⟨depth' - 1, by omega⟩
    have hd : depth ≤ deeper := Nat.le_of_succ_le_succ hd
    have h : Within (statement s depth) (statement s deeper) := fun ts => ih hd ts
    cases ts with
    | nil => exact .inr (by rw [statement, statement])
    | cons t ts =>
      rw [statement, statement]
      split
      · exact loop_within hd h false t.line ts
      · split
        · exact loop_within hd h true t.line ts
        · split
          · exact forever_within h t.line ts
          · split
            · exact choice_within hd h false t.line ts
            · split
              · exact choice_within hd h true t.line ts
              · split
                · split
                  · exact .refl _
                  · exact (modifiers_within hd _ _ _).elim (.inl rfl) (fun _ => .refl _)
                      fun _ => .refl _
                · exact .refl _

theorem entry_within (hd : depth ≤ depth') : Within (entry s depth) (entry s depth') :=
  block_within (statement_within hd)

end Ends

/-! ### texts -/

theorem entry_within (hd : depth ≤ depth') : Within (entry s depth) (entry s depth') := by
  intro ts
  rw [entry, entry]
  cases s.dialect with
  | braced => exact Braces.entry_within hd ts
  | functional => exact Braces.entry_within hd ts
  | indented => exact Indents.entry_within hd ts
  | ended => exact Ends.entry_within hd ts

/-- **A text is nested too deeply, or is read as it is with any greater depth.** -/
theorem parse_upto (d : Dialect) (hd : depth ≤ depth') (source : String) :
    Upto (parse d depth source) (parse d depth' source) := by
  rw [parse, parse]
  split
  · exact .refl _
  · rw [parseTokens, parseTokens]
    split
    · exact .refl _
    · dsimp only
      exact (entry_within hd _).elim (.inl rfl) (fun _ => .refl _) fun _ => .refl _

end

end Ladybug.Script

import Ladybug.Proofs.Script.Printed
import Ladybug.Proofs.Script.Shape

/-!
# Reading conditions that were written

* `Reads`               a parser takes the tokens of a text and leaves what comes after them
* `Expr.height`         how deep a condition is nested when it is written
* `member_reads`        a name called on the receiver
* `condition_reads`     a condition is read as it was written
-/

namespace Ladybug.Script

/-- A parser reads some tokens, whatever comes after them, as long as it is such that they end
there. -/
def Reads {α : Type} (p : Parser α) (fs : List Face) (next : List Token → Prop) (good : α → Prop) :
    Prop :=
  ∀ ts rest, ts.map Token.face = fs → next rest → ∃ a, p (ts ++ rest) = .ok (a, rest) ∧ good a

/-- Anything may come next. -/
def Anywhere (_ : List Token) : Prop := True

theorem faces_cons {ts : List Token} {k : Kind} {x : String} {fs : List Face}
    (h : ts.map Token.face = (k, x) :: fs) : ∃ line column ts',
      ts = ⟨k, x, line, column⟩ :: ts' ∧ ts'.map Token.face = fs := by
  obtain ⟨⟨_, _, line, column⟩, ts', rfl, hf, hts⟩ := List.map_eq_cons_iff.mp h
  cases hf
  exact ⟨line, column, ts', rfl, hts⟩

theorem faces_append {ts : List Token} {fs gs : List Face}
    (h : ts.map Token.face = fs ++ gs) : ∃ ts₁ ts₂,
      ts = ts₁ ++ ts₂ ∧ ts₁.map Token.face = fs ∧ ts₂.map Token.face = gs :=
  List.map_eq_append_iff.mp h

theorem faces_nil {ts : List Token} (h : ts.map Token.face = []) : ts = [] :=
  List.map_eq_nil_iff.mp h

/-! ### names -/

theorem command?_commandName (d : Dialect) (c : Command) :
    command? (commandName d c) = some c := by
  cases d <;> cases c <;> decide

theorem sensor?_sensorName (d : Dialect) (s : Detector) : sensor? (sensorName d s) = some s := by
  cases d <;> cases s <;> decide

theorem command?_sensorName (d : Dialect) (s : Detector) : command? (sensorName d s) = none := by
  cases d <;> cases s <;> decide

/-- no parenthesis or question mark comes next, which would belong to the name before -/
def Calm (rest : List Token) : Prop :=
  ∀ t ∈ rest.head?, t.isOp "(" = false ∧ t.isOp "?" = false

/-! ### single tokens -/

@[simp] theorem acceptOp_op (x : String) (line column : Nat) (ts : List Token) :
    acceptOp x (⟨.op, x, line, column⟩ :: ts) = some ts := by
  simp [acceptOp, Token.isOp]

@[simp] theorem acceptName_name (x : String) (line column : Nat) (ts : List Token) :
    acceptName x (⟨.name, x, line, column⟩ :: ts) = some ts := by
  simp [acceptName, Token.isName]

@[simp] theorem expect_op (s : Setting) (x context : String) (line column : Nat)
    (ts : List Token) : s.expect x context (⟨.op, x, line, column⟩ :: ts) = .ok ((), ts) := by
  simp [Setting.expect, Token.isOp]

theorem acceptOp_eq_none {x : String} {rest : List Token}
    (h : ∀ t ∈ rest.head?, t.isOp x = false) : acceptOp x rest = none := by
  cases rest with
  | nil => rfl
  | cons t ts => rw [acceptOp, h t rfl, if_neg Bool.false_ne_true]

theorem acceptName_eq_none {x : String} {rest : List Token}
    (h : ∀ t ∈ rest.head?, t.isName x = false) : acceptName x rest = none := by
  cases rest with
  | nil => rfl
  | cons t ts => rw [acceptName, h t rfl, if_neg Bool.false_ne_true]

theorem eq_of_isOp {t : Token} {x : String} (h : t.isOp x = true) :
    t = ⟨.op, x, t.line, t.column⟩ := by
  obtain ⟨k, y, l, c⟩ := t
  simp only [Token.isOp, Bool.and_eq_true, beq_iff_eq] at h
  rw [h.1, h.2]

theorem eq_of_isName {t : Token} {x : String} (h : t.isName x = true) :
    t = ⟨.name, x, t.line, t.column⟩ := by
  obtain ⟨k, y, l, c⟩ := t
  simp only [Token.isName, Bool.and_eq_true, beq_iff_eq] at h
  rw [h.1, h.2]

theorem acceptOp_eq_some_iff {x : String} {ts rest : List Token} :
    acceptOp x ts = some rest ↔ ∃ t, t.isOp x = true ∧ ts = t :: rest := by
  cases ts with
  | nil => simp [acceptOp]
  | cons t ts => cases h : t.isOp x <;> grind [acceptOp]

theorem acceptName_eq_some_iff {x : String} {ts rest : List Token} :
    acceptName x ts = some rest ↔ ∃ t, t.isName x = true ∧ ts = t :: rest := by
  cases ts with
  | nil => simp [acceptName]
  | cons t ts => cases h : t.isName x <;> grind [acceptName]

theorem expect_eq_ok_iff {s : Setting} {x context : String} {ts rest : List Token} {u : Unit} :
    s.expect x context ts = .ok (u, rest) ↔ ∃ t, t.isOp x = true ∧ ts = t :: rest := by
  cases ts with
  | nil => simp [Setting.expect]
  | cons t ts => cases h : t.isOp x <;> grind [Setting.expect]

/-! ### calls -/

theorem callParens_parens (s : Setting) (name : String) {rest : List Token}
    {l₁ c₁ l₂ c₂ : Nat} :
    callParens s name (⟨.op, "(", l₁, c₁⟩ :: ⟨.op, ")", l₂, c₂⟩ :: rest) = .ok rest := by
  rw [callParens, acceptOp_op]
  simp only [expect_op]

theorem callParens_none {s : Setting} {name : String} {rest : List Token}
    (hd : s.dialect = .ended) (hrest : Calm rest) : callParens s name rest = .ok rest := by
  rw [callParens, acceptOp_eq_none fun t ht => (hrest t ht).1]
  exact if_pos hd

theorem member_eq {s : Setting} {name : String} {ts rest : List Token} {l₁ c₁ l₂ c₂ : Nat}
    (h : callParens s name (if s.dialect = .ended then skipOp "?" ts else ts) = .ok rest) :
    member s (⟨.op, ".", l₁, c₁⟩ :: ⟨.name, name, l₂, c₂⟩ :: ts)
      = .ok (⟨.name, name, l₂, c₂⟩, rest) := by
  rw [member, expect_op]
  simp only [if_true, h]

/-- A name with parentheses, or with what may be skipped in their place. -/
theorem member_reads (s : Setting) (name : String) {mark : List Face}
    (hmark : ∀ ts rest, ts.map Token.face = mark → Calm rest → skipOp "?" (ts ++ rest) = rest) :
    Reads (member s)
      (sign "." :: word name :: if s.dialect = .ended then mark else [sign "(", sign ")"])
      Calm fun t => t.text = name := by
  intro ts rest hts hrest
  obtain ⟨l₁, c₁, ts₁, rfl, hts₁⟩ := faces_cons hts
  obtain ⟨l₂, c₂, ts₂, rfl, hts₂⟩ := faces_cons hts₁
  refine ⟨_, member_eq ?_, rfl⟩
  split at hts₂ <;> rename_i hd
  · rw [if_pos hd]
    show callParens s name (skipOp "?" (ts₂ ++ rest)) = .ok rest
    rw [hmark ts₂ rest hts₂ hrest]
    exact callParens_none hd hrest
  · obtain ⟨l₃, c₃, ts₃, rfl, hts₃⟩ := faces_cons hts₂
    obtain ⟨l₄, c₄, ts₄, rfl, hts₄⟩ := faces_cons hts₃
    obtain rfl := faces_nil hts₄
    rw [if_neg hd]
    exact callParens_parens s name

theorem member_command (s : Setting) (name : String) :
    Reads (member s)
      (sign "." :: word name :: if s.dialect = .ended then [] else [sign "(", sign ")"])
      Calm fun t => t.text = name := by
  refine member_reads s name fun ts rest hts hrest => ?_
  obtain rfl := faces_nil hts
  rw [List.nil_append, skipOp, acceptOp_eq_none fun t ht => (hrest t ht).2]
  rfl

theorem member_sensor (s : Setting) (name : String) :
    Reads (member s)
      (sign "." :: word name :: if s.dialect = .ended then [sign "?"] else [sign "(", sign ")"])
      Calm fun t => t.text = name := by
  refine member_reads s name fun ts rest hts _ => ?_
  obtain ⟨line, column, ts', rfl, hts'⟩ := faces_cons hts
  obtain rfl := faces_nil hts'
  show skipOp "?" (⟨.op, "?", line, column⟩ :: rest) = rest
  rw [skipOp, acceptOp_op]
  rfl

theorem sensorCall_reads (s : Setting) (d : Detector) :
    Reads (sensorCall s) (sensorFaces s.dialect d).tail Calm
      fun e => e.unlined = (Expr.sensor d 0) := by
  intro ts rest hts hrest
  obtain ⟨t, ht, hname⟩ := member_sensor s (sensorName s.dialect d) ts rest hts hrest
  refine ⟨.sensor d t.line, ?_, rfl⟩
  rw [sensorCall, ht]
  simp only [hname, sensor?_sensorName]

/-! ### operands -/

section

variable (s : Setting) (depth line column : Nat) (ts : List Token)

theorem unary_receiver :
    unary s (depth + 1) (⟨.name, receiver, line, column⟩ :: ts) = sensorCall s ts := by
  obtain ⟨d, last⟩ := s
  cases d <;>
    simp [unary, isNot, Token.isOp, Token.isName, Token.isNameIn, Setting.notWords,
      Dialect.hasBraces, Setting.trueWord, Setting.falseWord, receiver]

theorem unary_literal (b : Bool) :
    unary s (depth + 1) (⟨.name, literalName s.dialect b, line, column⟩ :: ts)
      = .ok (.literal b line, ts) := by
  obtain ⟨d, last⟩ := s
  cases d <;> cases b <;>
    simp [unary, isNot, Token.isOp, Token.isName, Token.isNameIn, Setting.notWords,
      Dialect.hasBraces, Setting.trueWord, Setting.falseWord, literalName]

theorem isNot_notFace :
    isNot s ⟨(notFace s.dialect).1, (notFace s.dialect).2, line, column⟩ = true := by
  obtain ⟨d, last⟩ := s
  cases d <;>
    simp [isNot, Token.isOp, Token.isNameIn, Setting.notWords, Dialect.hasBraces, notFace, word,
      sign]

variable {s depth ts}

theorem unary_not {t : Token} {e : Expr} {rest : List Token} (h : isNot s t = true)
    (he : unary s depth ts = .ok (e, rest)) :
    unary s (depth + 1) (t :: ts) = .ok (.not e t.line, rest) := by
  rw [unary, if_pos h, he]

theorem unary_paren {e : Expr} {rest : List Token} {l c : Nat}
    (he : condition s depth ts = .ok (e, ⟨.op, ")", l, c⟩ :: rest)) :
    unary s (depth + 1) (⟨.op, "(", line, column⟩ :: ts) = .ok (e, rest) := by
  rw [condition] at he
  have hnot : isNot s ⟨.op, "(", line, column⟩ = false := by
    simp [isNot, Token.isOp, Token.isNameIn]
  rw [unary, hnot, he]
  simp [Token.isOp]

end

/-! ### nesting -/

section

variable {s : Setting} {n depth : Nat} {ts : List Token} {more : List Face}

theorem unary_not_tooDeep {t : Token} (h : isNot s t = true)
    (hdeep : unary s depth ts = .error .tooDeep) :
    unary s (depth + 1) (t :: ts) = .error .tooDeep := by
  rw [unary, if_pos h, hdeep]

/-- At least as many negations as the depth allows. -/
theorem unary_tooDeep (h : depth ≤ n)
    (hts : ts.map Token.face = List.replicate n (notFace s.dialect) ++ more) :
    unary s depth ts = .error .tooDeep := by
  induction depth generalizing n ts with
  | zero => rw [unary]
  | succ depth ih =>
    obtain ⟨n, rfl⟩ : ∃ k, n = k + 1 := ⟨n - 1, by omega⟩
    rw [List.replicate_succ, List.cons_append] at hts
    obtain ⟨line, column, ts', rfl, hts'⟩ := faces_cons hts
    exact unary_not_tooDeep (isNot_notFace s line column) (ih (Nat.le_of_succ_le_succ h) hts')

theorem condition_tooDeep (h : unary s depth ts = .error .tooDeep) :
    condition s depth ts = .error .tooDeep := by
  rw [condition, conditionOf, junction, chain, junction, chain, h]

end

mutual

/-- how deep a condition is nested as it is written, an operand in parentheses one level more -/
def Expr.height : Expr → Nat
  | .sensor _ _ => 1
  | .literal _ _ => 1
  | .not e _ => (if e.isJunction then e.height + 1 else e.height) + 1
  | .and es _ => operandHeights es
  | .or es _ => operandHeights es

def operandHeights : List Expr → Nat
  | [] => 0
  | e :: es => max (if e.isJunction then e.height + 1 else e.height) (operandHeights es)

end

def Expr.operandHeight (e : Expr) : Nat := if e.isJunction then e.height + 1 else e.height

/-! ### operands between separators -/

/-- `e'` is `e` on other lines. -/
def Expr.Same (e e' : Expr) : Prop := e'.unlined = e.unlined

/-- Every operand is read where it ends. -/
def OperandsRead (s : Setting) (item : Parser Expr) (next : List Token → Prop) (es : List Expr) :
    Prop :=
  ∀ e ∈ es, Reads item (e.enclosed (e.faces s.dialect)) next e.Same

/-- what may come after a chain: nothing that goes on with it -/
def Stops (sep : Token → Bool) (next : List Token → Prop) (rest : List Token) : Prop :=
  next rest ∧ ∀ t ∈ rest.head?, sep t = false

/-- A token is a separator and ends what comes before it. -/
structure Separates (sep : Token → Bool) (next : List Token → Prop) (f : Face) : Prop where
  sep : ∀ line column, sep ⟨f.1, f.2, line, column⟩ = true
  next : ∀ line column rest, next (⟨f.1, f.2, line, column⟩ :: rest)

section

variable {s : Setting} {sep : Token → Bool} {item : Parser Expr} {next : List Token → Prop}
  {f : Face} {node : List Expr → Nat → Expr}

theorem Separates.next_append (hsep : Separates sep next f) {es : List Expr} {ts rest : List Token}
    (hts : ts.map Token.face = separatedFaces s.dialect f es) (hrest : next rest) :
    next (ts ++ rest) := by
  cases es with
  | nil =>
    obtain rfl := faces_nil hts
    exact hrest
  | cons e es =>
    obtain ⟨line, column, ts', rfl, _⟩ := faces_cons hts
    exact hsep.next line column _

/-- Nothing is added by a token that is no separator. -/
theorem chainFrom_stop {rest : List Token} (h : ∀ t ∈ rest.head?, sep t = false)
    (bound : List Token) (done : List Expr) :
    chainFrom sep item bound done rest = .ok (done.reverse, rest) := by
  cases bound with
  | nil => rfl
  | cons b bound =>
    cases rest with
    | nil => rfl
    | cons t rest => rw [chainFrom, h t rfl, if_neg Bool.false_ne_true]

theorem chainFrom_reads (hsep : Separates sep next f) {es : List Expr}
    (hes : OperandsRead s item next es) {bound ts rest : List Token} (done : List Expr)
    (hbound : es.length ≤ bound.length)
    (hts : ts.map Token.face = separatedFaces s.dialect f es) (hrest : Stops sep next rest) :
    ∃ es', chainFrom sep item bound done (ts ++ rest) = .ok (done.reverse ++ es', rest) ∧
      unlinedAll es' = unlinedAll es := by
  induction es generalizing bound ts done with
  | nil =>
    obtain rfl := faces_nil hts
    refine ⟨[], ?_, rfl⟩
    rw [List.append_nil, List.nil_append, chainFrom_stop hrest.2]
  | cons e es ih =>
    obtain ⟨line, column, ts', rfl, hts'⟩ := faces_cons hts
    obtain ⟨ts₁, ts₂, rfl, hts₁, hts₂⟩ := faces_append hts'
    cases bound with
    | nil => exact absurd hbound (Nat.not_succ_le_zero _)
    | cons b bound =>
      obtain ⟨e', he', hsame⟩ :=
        hes e List.mem_cons_self ts₁ (ts₂ ++ rest) hts₁ (hsep.next_append hts₂ hrest.1)
      obtain ⟨es', hes', hsames⟩ :=
        ih (fun x hx => hes x (List.mem_cons_of_mem e hx)) (e' :: done)
          (Nat.le_of_succ_le_succ hbound) hts₂
      refine ⟨e' :: es', ?_, ?_⟩
      · rw [List.cons_append, List.append_assoc, chainFrom, hsep.sep line column, if_pos rfl, he']
        simp only [hes', List.reverse_cons, List.append_assoc, List.singleton_append]
      · rw [unlinedAll, unlinedAll, hsames, hsame]

theorem length_separatedFaces (es : List Expr) :
    es.length ≤ (separatedFaces s.dialect f es).length := by
  induction es with
  | nil => exact Nat.le_refl 0
  | cons e es ih =>
    rw [separatedFaces, List.length_append, List.length_cons, List.length_cons]
    omega

theorem chain_reads (hsep : Separates sep next f) {es : List Expr} (hne : es ≠ [])
    (hes : OperandsRead s item next es) :
    Reads (chain sep item) (separatedFaces s.dialect f es).tail (Stops sep next) fun es' =>
      unlinedAll es' = unlinedAll es := by
  obtain ⟨e, es, rfl⟩ := List.exists_cons_of_ne_nil hne
  intro ts rest hts hrest
  obtain ⟨ts₁, ts₂, rfl, hts₁, hts₂⟩ := faces_append hts
  obtain ⟨e', he', hsame⟩ :=
    hes e List.mem_cons_self ts₁ (ts₂ ++ rest) hts₁ (hsep.next_append hts₂ hrest.1)
  have hbound : es.length ≤ (ts₂ ++ rest).length := by
    have hlength := length_separatedFaces (s := s) (f := f) es
    rw [← hts₂, List.length_map] at hlength
    rw [List.length_append]
    omega
  obtain ⟨es', hes', hsames⟩ :=
    chainFrom_reads hsep (fun x hx => hes x (List.mem_cons_of_mem e hx)) [e'] hbound hts₂ hrest
  refine ⟨e' :: es', ?_, ?_⟩
  · rw [List.append_assoc, chain, he']
    exact hes'
  · show unlinedAll (e' :: es') = unlinedAll (e :: es)
    rw [unlinedAll, unlinedAll, hsames, hsame]

/-- a single operand -/
theorem junction_one {fs : List Face} {good : Expr → Prop} (h : Reads item fs next good) :
    Reads (junction s sep node item) fs (Stops sep next) good := by
  intro ts rest hts hrest
  obtain ⟨e, he, hgood⟩ := h ts rest hts hrest.1
  refine ⟨e, ?_, hgood⟩
  rw [junction, chain, he]
  simp only [chainFrom_stop hrest.2]
  rfl

/-- two operands or more -/
theorem junction_many (hsep : Separates sep next f) {es : List Expr} (hlength : 2 ≤ es.length)
    (hes : OperandsRead s item next es)
    (hnode : ∀ es line, (node es line).unlined = node (unlinedAll es) 0) :
    Reads (junction s sep node item) (separatedFaces s.dialect f es).tail (Stops sep next) fun e =>
      e.unlined = node (unlinedAll es) 0 := by
  intro ts rest hts hrest
  have hne : es ≠ [] := by
    rintro rfl
    exact absurd hlength (by decide)
  obtain ⟨es', hes', hsame⟩ := chain_reads hsep hne hes ts rest hts hrest
  have hlength' : es'.length = es.length := by
    rw [unlinedAll_eq_map, unlinedAll_eq_map] at hsame
    simpa using congrArg List.length hsame
  refine ⟨node es' (s.lineOf (ts ++ rest)), ?_, ?_⟩
  · rw [junction, hes']
    obtain ⟨e, e', es'', rfl⟩ : ∃ e e' es'', es' = e :: e' :: es'' := by
      rw [← hlength'] at hlength
      match es', hlength with
      | e :: e' :: es'', _ => exact ⟨e, e', es'', rfl⟩
    rfl
  · show (node es' (s.lineOf (ts ++ rest))).unlined = node (unlinedAll es) 0
    rw [hnode, hsame]

end

/-! ### conditions -/

section

variable {s : Setting} {depth : Nat}

theorem separates_and : Separates (isAnd s) Calm (andFace s.dialect) := by
  obtain ⟨d, last⟩ := s
  constructor
  · intro line column
    cases d <;>
      simp [isAnd, Token.isOp, Token.isNameIn, Setting.andWords, Dialect.hasBraces, andFace, word,
        sign]
  · rintro line column rest t ⟨⟩
    cases d <;> simp [Token.isOp, andFace, word, sign]

theorem separates_or : Separates (isOr s) (Stops (isAnd s) Calm) (orFace s.dialect) := by
  obtain ⟨d, last⟩ := s
  constructor
  · intro line column
    cases d <;>
      simp [isOr, Token.isOp, Token.isNameIn, Setting.orWords, Dialect.hasBraces, orFace, word,
        sign]
  · intro line column rest
    constructor
    · rintro t ⟨⟩
      cases d <;> simp [Token.isOp, orFace, word, sign]
    · rintro t ⟨⟩
      cases d <;>
        simp [isAnd, Token.isOp, Token.isNameIn, Setting.andWords, Dialect.hasBraces, orFace, word,
          sign]

/-- no operator comes next, nor anything that would belong to the operand before -/
def Follow (s : Setting) : List Token → Prop := Stops (isOr s) (Stops (isAnd s) Calm)

theorem follow_op (s : Setting) (x : String) (hx : x ∉ ["(", "?", "&&", "||"])
    (line column : Nat) (rest : List Token) : Follow s (⟨.op, x, line, column⟩ :: rest) := by
  simp only [List.mem_cons, List.not_mem_nil, or_false, not_or] at hx
  obtain ⟨h₁, h₂, h₃, h₄⟩ := hx
  refine ⟨⟨?_, ?_⟩, ?_⟩ <;> rintro t ⟨⟩ <;>
    simp [Token.isOp, Token.isNameIn, isAnd, isOr, h₁, h₂, h₃, h₄]

theorem follow_newline (s : Setting) (line column : Nat) (rest : List Token) :
    Follow s (⟨.newline, "", line, column⟩ :: rest) := by
  refine ⟨⟨?_, ?_⟩, ?_⟩ <;> rintro t ⟨⟩ <;> simp [Token.isOp, Token.isNameIn, isAnd, isOr]

theorem condition_and {es : List Expr} {line : Nat} (hlength : 2 ≤ es.length)
    (hes : OperandsRead s (unary s depth) Calm es) :
    Reads (condition s depth) ((Expr.and es line).faces s.dialect) (Follow s)
      (Expr.and es line).Same :=
  junction_one (junction_many separates_and hlength hes fun _ _ => rfl)

theorem condition_or {es : List Expr} {line : Nat} (hlength : 2 ≤ es.length)
    (hes : OperandsRead s (unary s depth) Calm es) :
    Reads (condition s depth) ((Expr.or es line).faces s.dialect) (Follow s)
      (Expr.or es line).Same :=
  junction_many separates_or hlength (fun e he => junction_one (hes e he)) fun _ _ => rfl

theorem condition_operand {fs : List Face} {good : Expr → Prop}
    (h : Reads (unary s depth) fs Calm good) : Reads (condition s depth) fs (Follow s) good :=
  junction_one (junction_one h)

end

theorem paren_reads {s : Setting} {depth : Nat} {fs : List Face} {good : Expr → Prop}
    {next : List Token → Prop} (h : Reads (condition s depth) fs (Follow s) good) :
    Reads (unary s (depth + 1)) (sign "(" :: fs ++ [sign ")"]) next good := by
  intro ts rest hts _
  obtain ⟨line, column, ts', rfl, hts'⟩ := faces_cons hts
  obtain ⟨ts₁, ts₂, rfl, hts₁, hts₂⟩ := faces_append hts'
  obtain ⟨line', column', ts₃, rfl, hts₃⟩ := faces_cons hts₂
  obtain rfl := faces_nil hts₃
  obtain ⟨e, he, hgood⟩ := h ts₁ _ hts₁ (follow_op s ")" (by decide) line' column' rest)
  refine ⟨e, ?_, hgood⟩
  rw [List.cons_append, List.append_assoc]
  exact unary_paren _ _ he

theorem not_reads {s : Setting} {depth line : Nat} {e : Expr} {fs : List Face}
    (h : Reads (unary s depth) fs Calm e.Same) :
    Reads (unary s (depth + 1)) (notFace s.dialect :: fs) Calm (Expr.not e line).Same := by
  intro ts rest hts hrest
  obtain ⟨line', column, ts', rfl, hts'⟩ := faces_cons hts
  obtain ⟨e', he', hsame⟩ := h ts' rest hts' hrest
  refine ⟨.not e' line', unary_not (isNot_notFace s line' column) he', ?_⟩
  rw [Expr.Same, Expr.unlined, Expr.unlined, hsame]

theorem sensor_reads (s : Setting) (d : Detector) (depth line : Nat) :
    Reads (unary s (depth + 1)) (sensorFaces s.dialect d) Calm (Expr.sensor d line).Same := by
  intro ts rest hts hrest
  obtain ⟨line', column, ts', rfl, hts'⟩ := faces_cons hts
  obtain ⟨e, he, hgood⟩ := sensorCall_reads s d ts' rest hts' hrest
  exact ⟨e, by rw [List.cons_append, unary_receiver, he], hgood⟩

theorem literal_reads (s : Setting) (b : Bool) (depth line : Nat) :
    Reads (unary s (depth + 1)) [word (literalName s.dialect b)] Calm
      (Expr.literal b line).Same := by
  intro ts rest hts _
  obtain ⟨line', column, ts', rfl, hts'⟩ := faces_cons hts
  obtain rfl := faces_nil hts'
  exact ⟨.literal b line', unary_literal s depth line' column rest b, rfl⟩

mutual

theorem Expr.reads {s : Setting} : ∀ (e : Expr) {depth : Nat}, e.Proper →
    e.operandHeight ≤ depth →
    Reads (unary s depth) (e.enclosed (e.faces s.dialect)) Calm e.Same
  | .sensor d line, depth + 1, _, _ => sensor_reads s d depth line
  | .literal b line, depth + 1, _, _ => literal_reads s b depth line
  | .not e _, _ + 1, hp, hd => not_reads (Expr.reads e hp (Nat.le_of_succ_le_succ hd))
  | .and es _, _ + 1, hp, hd =>
    paren_reads (condition_and hp.1 (operands_read es hp.2 (Nat.le_of_succ_le_succ hd)))
  | .or es _, _ + 1, hp, hd =>
    paren_reads (condition_or hp.1 (operands_read es hp.2 (Nat.le_of_succ_le_succ hd)))

theorem operands_read {s : Setting} : ∀ (es : List Expr) {depth : Nat}, ProperAll es →
    operandHeights es ≤ depth → OperandsRead s (unary s depth) Calm es
  | [], _, _, _ => nofun
  | e :: es, _, hp, hd =>
    List.forall_mem_cons.mpr ⟨Expr.reads e hp.1 (Nat.le_trans (Nat.le_max_left _ _) hd),
      operands_read es hp.2 (Nat.le_trans (Nat.le_max_right _ _) hd)⟩

end

/-- **A condition is read as it was written, if the nesting allows it.** -/
theorem condition_reads {s : Setting} {e : Expr} {depth : Nat} (hp : e.Proper)
    (hd : e.height ≤ depth) :
    Reads (condition s depth) (e.faces s.dialect) (Follow s) e.Same := by
  cases e with
  | sensor d line => exact condition_operand (Expr.reads (.sensor d line) hp hd)
  | literal b line => exact condition_operand (Expr.reads (.literal b line) hp hd)
  | not e line => exact condition_operand (Expr.reads (.not e line) hp hd)
  | and es line => exact condition_and hp.1 (operands_read es hp.2 hd)
  | or es line => exact condition_or hp.1 (operands_read es hp.2 hd)

end Ladybug.Script

import Ladybug.Proofs.Script.Conditions
import Ladybug.Proofs.Script.Depth

/-!
# The grammar of conditions

    condition   := conjunction (or conjunction)*
    conjunction := operand (and operand)*
    operand     := not operand | ( condition ) | literal | receiver . sensor mark? parens?

* `Operator`              a token that writes an operator in a dialect
* `Operand`, `Condition`  the grammar
* `condition_derives`     what is read is in the grammar
* `Condition.read`        what is in the grammar is read, if the reader goes deep enough
* `condition_grammar`     both, for readers of every depth
* `negations_unread`      a condition in the grammar that is nested too deeply to be read
-/

namespace Ladybug.Script

/-! ### the grammar -/

/-- A token writes an operator by its sign or, in a dialect without braces, by its word. -/
def Operator (d : Dialect) (sign word : String) (t : Token) : Prop :=
  t.isOp sign = true ∨ d.hasBraces = false ∧ t.isName word = true

/-- the question mark after a name, which one dialect knows -/
inductive Mark (d : Dialect) : List Token → Prop where
  | none : Mark d []
  | asked {t : Token} (hd : d = .ended) (ht : t.isOp "?" = true) : Mark d [t]

/-- the parentheses of a call, which one dialect can do without -/
inductive Parens (d : Dialect) : List Token → Prop where
  | none (hd : d = .ended) : Parens d []
  | both {t t' : Token} (ht : t.isOp "(" = true) (ht' : t'.isOp ")" = true) : Parens d [t, t']

mutual

/-- the tokens of an operand with what they mean -/
inductive Operand (d : Dialect) : List Token → Expr → Prop where
  | not {t : Token} {ts : List Token} {e : Expr} (ht : Operator d "!" "not" t)
      (h : Operand d ts e) : Operand d (t :: ts) (.not e t.line)
  | parens {t t' : Token} {ts : List Token} {e : Expr} (ht : t.isOp "(" = true)
      (h : Condition d ts e) (ht' : t'.isOp ")" = true) : Operand d (t :: (ts ++ [t'])) e
  | literal {t : Token} {b : Bool} (ht : t.isName (literalName d b) = true) :
      Operand d [t] (.literal b t.line)
  | sensor {t p n : Token} {mark parens : List Token} {x : Detector}
      (ht : t.isName receiver = true) (hp : p.isOp "." = true) (hn : n.kind = .name)
      (hx : sensor? n.text = some x) (hmark : Mark d mark) (hparens : Parens d parens) :
      Operand d (t :: p :: n :: (mark ++ parens)) (.sensor x n.line)

/-- One operand stands for itself, several are joined under one node. -/
inductive Conjunction (d : Dialect) : List Token → Expr → Prop where
  | of {t : Token} {ts ts' : List Token} {e : Expr} {es : List Expr}
      (h : Operand d (t :: ts) e) (h' : Ands d ts' es) :
      Conjunction d (t :: ts ++ ts') (joined .and t.line (e :: es))

/-- `(and operand)*` -/
inductive Ands (d : Dialect) : List Token → List Expr → Prop where
  | nil : Ands d [] []
  | cons {t : Token} {ts ts' : List Token} {e : Expr} {es : List Expr}
      (ht : Operator d "&&" "and" t) (h : Operand d ts e) (h' : Ands d ts' es) :
      Ands d (t :: (ts ++ ts')) (e :: es)

inductive Condition (d : Dialect) : List Token → Expr → Prop where
  | of {t : Token} {ts ts' : List Token} {e : Expr} {es : List Expr}
      (h : Conjunction d (t :: ts) e) (h' : Ors d ts' es) :
      Condition d (t :: ts ++ ts') (joined .or t.line (e :: es))

/-- `(or conjunction)*` -/
inductive Ors (d : Dialect) : List Token → List Expr → Prop where
  | nil : Ors d [] []
  | cons {t : Token} {ts ts' : List Token} {e : Expr} {es : List Expr}
      (ht : Operator d "||" "or" t) (h : Conjunction d ts e) (h' : Ors d ts' es) :
      Ors d (t :: (ts ++ ts')) (e :: es)

end

/-! ### what is read is in the grammar -/

section

variable {s : Setting} {t : Token}

theorem isNot_iff : isNot s t = true ↔ Operator s.dialect "!" "not" t := by
  cases h : s.dialect.hasBraces <;>
    simp [isNot, Operator, Setting.notWords, Token.isNameIn, Token.isName, h]

theorem isAnd_iff : isAnd s t = true ↔ Operator s.dialect "&&" "and" t := by
  cases h : s.dialect.hasBraces <;>
    simp [isAnd, Operator, Setting.andWords, Token.isNameIn, Token.isName, h]

theorem isOr_iff : isOr s t = true ↔ Operator s.dialect "||" "or" t := by
  cases h : s.dialect.hasBraces <;>
    simp [isOr, Operator, Setting.orWords, Token.isNameIn, Token.isName, h]

variable {ts rest : List Token}

theorem callParens_eq_ok {name : String} (h : callParens s name ts = .ok rest) :
    ∃ parens, Parens s.dialect parens ∧ ts = parens ++ rest := by
  rw [callParens] at h
  split at h
  · rename_i ts' hopen
    obtain ⟨t, ht, rfl⟩ := acceptOp_eq_some_iff.mp hopen
    split at h
    · rename_i u ts'' hclose
      obtain ⟨t', ht', rfl⟩ := expect_eq_ok_iff.mp hclose
      cases h
      exact ⟨[t, t'], .both ht ht', rfl⟩
    · cases h
  · split at h
    · rename_i hd
      cases h
      exact ⟨[], .none hd, rfl⟩
    · cases h

theorem skipOp_mark (h : s.dialect = .ended) (ts : List Token) :
    ∃ mark, Mark s.dialect mark ∧ ts = mark ++ skipOp "?" ts := by
  rw [skipOp]
  cases hask : acceptOp "?" ts with
  | some ts' =>
    obtain ⟨t, ht, rfl⟩ := acceptOp_eq_some_iff.mp hask
    exact ⟨[t], .asked h ht, rfl⟩
  | none => exact ⟨[], .none, rfl⟩

theorem member_eq_ok (h : member s ts = .ok (t, rest)) :
    ∃ p mark parens, p.isOp "." = true ∧ t.kind = .name ∧ Mark s.dialect mark ∧
      Parens s.dialect parens ∧ ts = p :: t :: (mark ++ parens ++ rest) := by
  rw [member] at h
  split at h
  · cases h
  · rename_i ts' hpoint
    obtain ⟨p, hp, rfl⟩ := expect_eq_ok_iff.mp hpoint
    split at h
    · rename_i n ts''
      split at h
      · rename_i hn
        dsimp only at h
        split at h
        · rename_i rest' hcall
          cases h
          obtain ⟨parens, hparens, hrest⟩ := callParens_eq_ok hcall
          by_cases hd : s.dialect = .ended
          · rw [if_pos hd] at hrest
            obtain ⟨mark, hmark, hts⟩ := skipOp_mark hd ts''
            exact ⟨p, mark, parens, hp, hn, hmark, hparens, by rw [hts, hrest, List.append_assoc]⟩
          · rw [if_neg hd] at hrest
            exact ⟨p, [], parens, hp, hn, .none, hparens, by rw [hrest, List.nil_append]⟩
        · cases h
      · cases h
    · cases h

end

/-- What a parser reads is derived by a grammar. -/
def Derives (p : Parser Expr) (R : List Token → Expr → Prop) : Prop :=
  ∀ ts e rest, p ts = .ok (e, rest) → ∃ used, R used e ∧ ts = used ++ rest

section

variable {s : Setting} {sep : Token → Bool} {item : Parser Expr} {node : List Expr → Nat → Expr}
  {R J : List Token → Expr → Prop} {Q : List Token → List Expr → Prop}

theorem chainFrom_derives (nil : Q [] [])
    (cons : ∀ {t ts ts' e es}, sep t = true → R ts e → Q ts' es → Q (t :: (ts ++ ts')) (e :: es))
    (hitem : Derives item R) {bound ts rest : List Token} {done es : List Expr}
    (h : chainFrom sep item bound done ts = .ok (es, rest)) :
    ∃ used more, Q used more ∧ es = done.reverse ++ more ∧ ts = used ++ rest := by
  induction bound generalizing done ts with
  | nil =>
    cases h
    exact ⟨[], [], nil, (List.append_nil _).symm, rfl⟩
  | cons b bound ih =>
    cases ts with
    | nil =>
      cases h
      exact ⟨[], [], nil, (List.append_nil _).symm, rfl⟩
    | cons t ts =>
      rw [chainFrom] at h
      split at h
      · rename_i hsep
        split at h
        · rename_i e ts' hread
          obtain ⟨used, hR, rfl⟩ := hitem ts e ts' hread
          obtain ⟨used', more, hQ, rfl, rfl⟩ := ih h
          exact ⟨t :: (used ++ used'), e :: more, cons hsep hR hQ, by simp, by simp⟩
        · cases h
      · cases h
        exact ⟨[], [], nil, (List.append_nil _).symm, rfl⟩

theorem junction_derives (nil : Q [] [])
    (cons : ∀ {t ts ts' e es}, sep t = true → R ts e → Q ts' es → Q (t :: (ts ++ ts')) (e :: es))
    (of : ∀ {t : Token} {ts ts' e es}, R (t :: ts) e → Q ts' es →
      J (t :: ts ++ ts') (joined node t.line (e :: es)))
    (hne : ∀ {e}, ¬ R [] e) (hitem : Derives item R) :
    Derives (junction s sep node item) J := by
  intro ts e rest h
  rw [junction] at h
  split at h
  · rename_i es rest' hchain
    cases h
    rw [chain] at hchain
    split at hchain
    · rename_i e ts' hread
      obtain ⟨used, hR, rfl⟩ := hitem ts e ts' hread
      obtain ⟨used', more, hQ, rfl, rfl⟩ := chainFrom_derives nil cons hitem hchain
      cases used with
      | nil => exact absurd hR hne
      | cons t used => exact ⟨t :: used ++ used', of hR hQ, by simp⟩
    · cases hchain
  · cases h

end

theorem not_operand_nil {d : Dialect} {e : Expr} : ¬ Operand d [] e := nofun

theorem not_conjunction_nil {d : Dialect} {e : Expr} : ¬ Conjunction d [] e := by
  generalize hts : ([] : List Token) = ts
  rintro ⟨⟩
  cases hts

section

variable {s : Setting} {depth : Nat}

theorem conditionOf_derives {operand : Parser Expr} (h : Derives operand (Operand s.dialect)) :
    Derives (conditionOf s operand) (Condition s.dialect) :=
  junction_derives .nil (fun ht h h' => .cons (isOr_iff.mp ht) h h') .of not_conjunction_nil <|
    junction_derives .nil (fun ht h h' => .cons (isAnd_iff.mp ht) h h') .of not_operand_nil h

theorem sensorCall_derives {t : Token} (ht : t.isName receiver = true) {ts rest : List Token}
    {e : Expr} (h : sensorCall s ts = .ok (e, rest)) :
    ∃ used, Operand s.dialect used e ∧ t :: ts = used ++ rest := by
  rw [sensorCall] at h
  split at h
  · cases h
  · rename_i n rest' hmember
    obtain ⟨p, mark, parens, hp, hn, hmark, hparens, rfl⟩ := member_eq_ok hmember
    split at h
    · rename_i x hx
      cases h
      exact ⟨_, .sensor ht hp hn hx hmark hparens, by simp⟩
    · split at h <;> cases h

theorem literalName_eq (s : Setting) :
    literalName s.dialect true = s.trueWord ∧ literalName s.dialect false = s.falseWord := by
  obtain ⟨d, last⟩ := s
  cases d <;> exact ⟨rfl, rfl⟩

theorem unary_derives : Derives (unary s depth) (Operand s.dialect) := by
  induction depth with
  | zero => exact fun ts e rest h => nomatch h
  | succ depth ih =>
    intro ts e rest h
    cases ts with
    | nil => cases h
    | cons t ts =>
      rw [unary] at h
      split at h
      · rename_i hnot
        split at h
        · rename_i e' rest' hread
          cases h
          obtain ⟨used, hR, rfl⟩ := ih ts e' rest hread
          exact ⟨t :: used, .not (isNot_iff.mp hnot) hR, rfl⟩
        · cases h
      · split at h
        · rename_i hopen
          split at h
          · cases h
          · rename_i e' ts' hread
            split at h
            · rename_i u rest' hclose
              obtain ⟨t', ht', rfl⟩ := expect_eq_ok_iff.mp hclose
              cases h
              obtain ⟨used, hR, rfl⟩ := conditionOf_derives ih ts e _ hread
              exact ⟨t :: (used ++ [t']), .parens hopen hR ht', by simp⟩
            · cases h
        · split at h
          · rename_i htrue
            cases h
            exact ⟨[t], .literal ((literalName_eq s).1 ▸ htrue), rfl⟩
          · split at h
            · rename_i hfalse
              cases h
              exact ⟨[t], .literal ((literalName_eq s).2 ▸ hfalse), rfl⟩
            · split at h
              · rename_i hreceiver
                exact sensorCall_derives hreceiver h
              · cases h

theorem condition_derives : Derives (condition s depth) (Condition s.dialect) :=
  conditionOf_derives unary_derives

end

/-! ### what is in the grammar is read -/

section

variable {s : Setting} {sep : Token → Bool} {item : Parser Expr} {node : List Expr → Nat → Expr}
  {e : Expr} {es : List Expr} {t : Token} {ts ts' rest : List Token}

theorem chainFrom_cons (hsep : sep t = true)
    (hitem : item (ts ++ (ts' ++ rest)) = .ok (e, ts' ++ rest)) {bound : List Token}
    (hbound : (t :: (ts ++ ts')).length ≤ bound.length)
    (hmore : ∀ (bound : List Token) (done : List Expr), ts'.length ≤ bound.length →
      chainFrom sep item bound done (ts' ++ rest) = .ok (done.reverse ++ es, rest))
    (done : List Expr) :
    chainFrom sep item bound done (t :: (ts ++ ts') ++ rest) =
      .ok (done.reverse ++ e :: es, rest) := by
  cases bound with
  | nil => exact absurd hbound (Nat.not_succ_le_zero _)
  | cons b bound =>
    rw [List.length_cons, List.length_cons, List.length_append] at hbound
    rw [List.cons_append, List.append_assoc, chainFrom, if_pos hsep, hitem]
    dsimp only
    rw [hmore bound (e :: done) (by omega), List.reverse_cons, List.append_assoc,
      List.singleton_append]

theorem junction_of (hitem : item (t :: ts ++ (ts' ++ rest)) = .ok (e, ts' ++ rest))
    (hmore : ∀ (bound : List Token) (done : List Expr), ts'.length ≤ bound.length →
      chainFrom sep item bound done (ts' ++ rest) = .ok (done.reverse ++ es, rest)) :
    junction s sep node item (t :: ts ++ ts' ++ rest) =
      .ok (joined node t.line (e :: es), rest) := by
  have hchain := hmore (ts' ++ rest) [e] (by simp)
  rw [junction, chain, List.append_assoc, hitem]
  simp only [hchain]
  rfl

end

theorem le_of_length_append_le {α : Type} {ts ts' : List α} {n : Nat}
    (h : (ts ++ ts').length ≤ n) : ts.length ≤ n ∧ ts'.length ≤ n := by
  rw [List.length_append] at h
  omega

section

variable {s : Setting} {t : Token} {rest : List Token}

/-- An operator is no parenthesis and no question mark. -/
theorem Operator.calm {sign word : String} (h : Operator s.dialect sign word t)
    (hopen : sign ≠ "(") (hask : sign ≠ "?") (rest : List Token) : Calm (t :: rest) := by
  rintro _ ⟨⟩
  rcases h with h | ⟨-, h⟩
  · rw [eq_of_isOp h]
    simp [Token.isOp, hopen, hask]
  · rw [eq_of_isName h]
    simp [Token.isOp]

theorem Ands.calm {ts : List Token} {es : List Expr} (h : Ands s.dialect ts es)
    (hrest : Calm rest) : Calm (ts ++ rest) := by
  cases h with
  | nil => exact hrest
  | cons ht _ _ => exact ht.calm (by decide) (by decide) _

theorem Ors.stops {ts : List Token} {es : List Expr} (h : Ors s.dialect ts es)
    (hrest : Stops (isAnd s) Calm rest) : Stops (isAnd s) Calm (ts ++ rest) := by
  cases h with
  | nil => exact hrest
  | cons ht _ _ =>
    refine ⟨ht.calm (by decide) (by decide) _, ?_⟩
    rintro _ ⟨⟩
    rw [Bool.eq_false_iff, ne_eq, isAnd_iff]
    rcases ht with ht | ⟨-, ht⟩
    · rw [eq_of_isOp ht]
      simp [Operator, Token.isOp, Token.isName]
    · rw [eq_of_isName ht]
      simp [Operator, Token.isOp, Token.isName]

theorem callParens_read {parens : List Token} (h : Parens s.dialect parens) (name : String)
    (hrest : Calm rest) : callParens s name (parens ++ rest) = .ok rest := by
  cases h with
  | none hd => exact callParens_none hd hrest
  | both ht ht' =>
    rw [eq_of_isOp ht, eq_of_isOp ht']
    exact callParens_parens s name

theorem Parens.no_mark {parens : List Token} (h : Parens s.dialect parens) (hrest : Calm rest) :
    ∀ t ∈ (parens ++ rest).head?, t.isOp "?" = false := by
  cases h with
  | none _ => exact fun t ht => (hrest t ht).2
  | both ht _ =>
    rintro _ ⟨⟩
    rw [eq_of_isOp ht]
    simp [Token.isOp]

theorem sensorCall_read {p n : Token} {mark parens : List Token} {x : Detector}
    (hp : p.isOp "." = true) (hn : n.kind = .name) (hx : sensor? n.text = some x)
    (hmark : Mark s.dialect mark) (hparens : Parens s.dialect parens) (hrest : Calm rest) :
    sensorCall s (p :: n :: (mark ++ parens) ++ rest) = .ok (.sensor x n.line, rest) := by
  obtain ⟨_, name, l, c⟩ := n
  cases hn
  have hcall : callParens s name
      (if s.dialect = .ended then skipOp "?" (mark ++ parens ++ rest) else mark ++ parens ++ rest)
        = .ok rest := by
    cases hmark with
    | none =>
      have hskip : skipOp "?" (parens ++ rest) = parens ++ rest := by
        rw [skipOp, acceptOp_eq_none (hparens.no_mark hrest)]
        rfl
      rw [List.nil_append, hskip, ite_self]
      exact callParens_read hparens name hrest
    | asked hd ht =>
      rw [if_pos hd, eq_of_isOp ht, skipOp, List.append_assoc, List.singleton_append, acceptOp_op]
      exact callParens_read hparens name hrest
  rw [eq_of_isOp hp, List.cons_append, List.cons_append, sensorCall, member_eq hcall]
  simp only [hx]

end

-- Each level of nesting takes a token, so a depth of the number of tokens is always enough. The
-- induction is on the derivation; `rest` varies, since it grows by what follows inside the chain.
mutual


theorem Operand.read {s : Setting} : ∀ {ts : List Token} {e : Expr}, Operand s.dialect ts e →
    ∀ {depth : Nat} {rest : List Token}, ts.length ≤ depth → Calm rest →
      unary s depth (ts ++ rest) = .ok (e, rest)
  | _, _, .not ht h, _ + 1, _, hd, hrest =>
    unary_not (isNot_iff.mpr ht) (h.read (Nat.le_of_succ_le_succ hd) hrest)
  | _, _, .parens ht h ht', _ + 1, rest, hd, _ => by
    have hlengths := le_of_length_append_le (Nat.le_of_succ_le_succ hd)
    rw [eq_of_isOp ht, eq_of_isOp ht', List.cons_append, List.append_assoc, List.singleton_append]
    exact unary_paren _ _ (h.read hlengths.1 (follow_op s ")" (by decide) _ _ rest))
  | _, _, .literal ht, depth + 1, rest, _, _ => by
    rw [eq_of_isName ht]
    exact unary_literal s depth _ _ rest _
  | _, _, .sensor ht hp hn hx hmark hparens, depth + 1, rest, _, hrest => by
    rw [eq_of_isName ht, List.cons_append, unary_receiver]
    exact sensorCall_read hp hn hx hmark hparens hrest

theorem Conjunction.read {s : Setting} : ∀ {ts : List Token} {e : Expr},
    Conjunction s.dialect ts e → ∀ {depth : Nat} {rest : List Token}, ts.length ≤ depth →
      Stops (isAnd s) Calm rest →
      junction s (isAnd s) .and (unary s depth) (ts ++ rest) = .ok (e, rest)
  | _, _, .of h h', _, _, hd, hrest =>
    have hlengths := le_of_length_append_le hd
    junction_of (h.read hlengths.1 (h'.calm hrest.1)) fun _ done hbound =>
      h'.read hlengths.2 hrest hbound done

theorem Ands.read {s : Setting} : ∀ {ts : List Token} {es : List Expr}, Ands s.dialect ts es →
    ∀ {depth : Nat} {rest : List Token}, ts.length ≤ depth → Stops (isAnd s) Calm rest →
      ∀ {bound : List Token}, ts.length ≤ bound.length → ∀ done,
      chainFrom (isAnd s) (unary s depth) bound done (ts ++ rest) = .ok (done.reverse ++ es, rest)
  | _, _, .nil, _, _, _, hrest, _, _, done => by
    rw [List.nil_append, List.append_nil, chainFrom_stop hrest.2]
  | _, _, .cons ht h h', _, _, hd, hrest, _, hbound, done =>
    have hlengths := le_of_length_append_le (Nat.le_of_succ_le hd)
    chainFrom_cons (isAnd_iff.mpr ht) (h.read hlengths.1 (h'.calm hrest.1)) hbound
      (fun _ done hbound => h'.read hlengths.2 hrest hbound done) done

theorem Condition.read {s : Setting} : ∀ {ts : List Token} {e : Expr}, Condition s.dialect ts e →
    ∀ {depth : Nat} {rest : List Token}, ts.length ≤ depth → Follow s rest →
      condition s depth (ts ++ rest) = .ok (e, rest)
  | _, _, .of h h', _, _, hd, hrest =>
    have hlengths := le_of_length_append_le hd
    junction_of (h.read hlengths.1 (h'.stops hrest.1)) fun _ done hbound =>
      h'.read hlengths.2 hrest hbound done

theorem Ors.read {s : Setting} : ∀ {ts : List Token} {es : List Expr}, Ors s.dialect ts es →
    ∀ {depth : Nat} {rest : List Token}, ts.length ≤ depth → Follow s rest →
      ∀ {bound : List Token}, ts.length ≤ bound.length → ∀ done,
      chainFrom (isOr s) (junction s (isAnd s) .and (unary s depth)) bound done (ts ++ rest) =
        .ok (done.reverse ++ es, rest)
  | _, _, .nil, _, _, _, hrest, _, _, done => by
    rw [List.nil_append, List.append_nil, chainFrom_stop hrest.2]
  | _, _, .cons ht h h', _, _, hd, hrest, _, hbound, done =>
    have hlengths := le_of_length_append_le (Nat.le_of_succ_le hd)
    chainFrom_cons (isOr_iff.mpr ht) (h.read hlengths.1 (h'.stops hrest.1)) hbound
      (fun _ done hbound => h'.read hlengths.2 hrest hbound done) done

end

/-- What is in the grammar is never read as anything else. -/
theorem Condition.read_or_tooDeep {s : Setting} {ts rest : List Token} {e : Expr}
    (h : Condition s.dialect ts e) (depth : Nat) (hrest : Follow s rest) :
    condition s depth (ts ++ rest) = .ok (e, rest) ∨
      condition s depth (ts ++ rest) = .error .tooDeep := by
  have hread : condition s (max depth ts.length) (ts ++ rest) = .ok (e, rest) :=
    h.read (Nat.le_max_right _ _) hrest
  obtain hdeep | hsame := condition_within s (Nat.le_max_left depth ts.length) (ts ++ rest)
  · exact .inr hdeep
  · exact .inl (hsame.trans hread)

/-- **A condition that is read is written in the grammar.** And what is written in it is read to
its end by every reader that goes deep enough, when what comes next does not go on with it; a reader
that does not read it says that it is nested too deeply. -/
theorem condition_grammar (s : Setting) :
    (∀ depth ts e rest, condition s depth ts = .ok (e, rest) →
      ∃ used, Condition s.dialect used e ∧ ts = used ++ rest) ∧
    ∀ used e, Condition s.dialect used e →
      (∃ enough, ∀ depth, enough ≤ depth → ∀ rest, Follow s rest →
        condition s depth (used ++ rest) = .ok (e, rest)) ∧
      ∀ depth rest, Follow s rest →
        condition s depth (used ++ rest) = .ok (e, rest) ∨
          condition s depth (used ++ rest) = .error .tooDeep := by
  refine ⟨fun _ => condition_derives, fun used e h => ⟨⟨used.length, ?_⟩, ?_⟩⟩
  · exact fun depth hd rest hrest => h.read hd hrest
  · exact fun depth rest hrest => h.read_or_tooDeep depth hrest

theorem Operand.condition {d : Dialect} {ts : List Token} {e : Expr} (h : Operand d ts e) :
    Condition d ts e := by
  cases ts with
  | nil => exact absurd h not_operand_nil
  | cons t ts => simpa [joined] using Condition.of (Conjunction.of h .nil) .nil

theorem exists_negated {d : Dialect} {t u : Token} (ht : t.isOp "!" = true)
    (hu : u.isName (literalName d true) = true) (n : Nat) :
    ∃ e, Operand d (List.replicate n t ++ [u]) e := by
  induction n with
  | zero => exact ⟨_, .literal hu⟩
  | succ n ih =>
    obtain ⟨e, h⟩ := ih
    exact ⟨_, .not (.inl ht) h⟩

theorem condition_negated_tooDeep {s : Setting} {depth n : Nat} {t : Token} (h : depth ≤ n)
    (ht : t.face = notFace s.dialect) (ts : List Token) :
    condition s depth (List.replicate n t ++ ts) = .error .tooDeep := by
  have hfaces : (List.replicate n t ++ ts).map Token.face =
      List.replicate n (notFace s.dialect) ++ ts.map Token.face := by
    rw [List.map_append, List.map_replicate, ht]
  exact condition_tooDeep (unary_tooDeep h hfaces)

/-- Three thousand negations of `true` are in the grammar and are not read. -/
theorem negations_unread :
    (∃ e, Condition .braced
      (List.replicate 3000 ⟨.op, "!", 1, 1⟩ ++ [⟨.name, "true", 1, 1⟩]) e) ∧
    Follow ⟨.braced, 1⟩ [] ∧
    condition ⟨.braced, 1⟩ nestingLimit
      (List.replicate 3000 ⟨.op, "!", 1, 1⟩ ++ [⟨.name, "true", 1, 1⟩]) = .error .tooDeep := by
  obtain ⟨e, h⟩ := exists_negated (d := .braced) (t := ⟨.op, "!", 1, 1⟩)
    (u := ⟨.name, "true", 1, 1⟩) rfl rfl 3000
  exact ⟨⟨e, h.condition⟩, ⟨⟨nofun, nofun⟩, nofun⟩, condition_negated_tooDeep (by decide) rfl _⟩

end Ladybug.Script

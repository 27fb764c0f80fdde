import Ladybug.Proofs.Script.Pieces
import Mathlib.Data.List.TakeWhile

/-!
# Readers look at one token more than they take

* `LocalIf`, `Local`   a reader and one that does the same whatever comes after the next token
* `LocalIn.iterate`    a loop of such steps
* `condition_local`    conditions are read by themselves
* `Braces.statement_local`, `Indents.statement_local`, `Ends.statement_local`   and so are statements
-/

namespace Ladybug.Script

variable {α β : Type}

/-- What `p` reads, `q` reads too, whatever comes after the token that comes next. Some of it takes a
token at least. -/
def LocalIf (must : α → Prop) (p q : Parser α) : Prop :=
  ∀ ⦃ts a rest⦄, p ts = .ok (a, rest) → ∃ used, (must a → used ≠ []) ∧ ts = used ++ rest ∧
    ∀ rest', rest'.head? = rest.head? → q (used ++ rest') = .ok (a, rest')

def Local : Parser α → Parser α → Prop := LocalIf fun _ => False

abbrev Takes (p q : Parser α) : Prop := LocalIf (fun _ => True) p q

/-- The same of two loops, with all bounds that have so many tokens to spare. -/
def LocalIn (spare : Nat) (p q : List Token → Parser α) : Prop :=
  ∀ ⦃bound ts a rest⦄, p bound ts = .ok (a, rest) → ts.length + spare ≤ bound.length →
    ∃ used, ts = used ++ rest ∧ ∀ bound' rest', rest'.head? = rest.head? →
      (used ++ rest').length + spare ≤ bound'.length → q bound' (used ++ rest') = .ok (a, rest')

theorem head?_append_congr (used : List Token) {rest rest' : List Token} (h : rest'.head? = rest.head?) :
    (used ++ rest').head? = (used ++ rest).head? := by
  rw [List.head?_append, List.head?_append, h]

section

variable {must : α → Prop} {p q : Parser α}

theorem Takes.localIf (h : Takes p q) : LocalIf must p q := by
  intro ts a rest hread
  obtain ⟨used, hmust, hused⟩ := h hread
  exact ⟨used, fun _ => hmust trivial, hused⟩

theorem LocalIf.give {a : α} (h : ¬ must a) : LocalIf must (give a) (give a) := by
  rintro ts _ _ ⟨⟩
  exact ⟨[], fun ha => absurd ha h, rfl, fun _ _ => rfl⟩

theorem Local.give (a : α) : Local (give a) (give a) := LocalIf.give not_false

theorem LocalIf.fail (m m' : List Token → Mistake) : LocalIf must (fail m) (fail m') := nofun

theorem LocalIf.ifTaken {test : Token → Bool} {yes yes' : Token → Parser α} {no no' : Parser α}
    (hyes : ∀ t, Local (yes t) (yes' t)) (hno : LocalIf must no no') :
    LocalIf must (ifTaken test yes no) (ifTaken test yes' no') := by
  intro ts a rest h
  cases ts with
  | nil =>
    obtain ⟨used, hmust, hused, hread⟩ := hno h
    obtain ⟨rfl, rfl⟩ := List.append_eq_nil_iff.mp hused.symm
    refine ⟨[], hmust, rfl, fun rest' hrest => ?_⟩
    obtain rfl := List.head?_eq_none_iff.mp hrest
    exact hread [] rfl
  | cons t ts =>
    rw [Script.ifTaken] at h
    split at h
    · rename_i ht
      obtain ⟨used, -, rfl, hread⟩ := hyes t h
      refine ⟨t :: used, fun _ => List.cons_ne_nil _ _, rfl, fun rest' hrest => ?_⟩
      rw [List.cons_append, Script.ifTaken, if_pos ht]
      exact hread rest' hrest
    · rename_i ht
      obtain ⟨used, hmust, hused, hread⟩ := hno h
      refine ⟨used, hmust, hused, fun rest' hrest => ?_⟩
      have hhead := head?_append_congr used hrest
      rw [← hused, List.head?_cons] at hhead
      obtain ⟨more, hmore⟩ := List.head?_eq_some_iff.mp hhead
      have := hread rest' hrest
      rw [hmore] at this ⊢
      rw [Script.ifTaken, if_neg ht]
      exact this

theorem LocalIf.ifNext {test : Option Token → Bool} {yes yes' no no' : Parser α}
    (hyes : LocalIf must yes yes') (hno : LocalIf must no no') :
    LocalIf must (ifNext test yes no) (ifNext test yes' no') := by
  intro ts a rest h
  rw [Script.ifNext] at h
  split at h
  · rename_i hts
    obtain ⟨used, hmust, rfl, hread⟩ := hyes h
    refine ⟨used, hmust, rfl, fun rest' hrest => ?_⟩
    rw [Script.ifNext, head?_append_congr used hrest, if_pos hts]
    exact hread rest' hrest
  · rename_i hts
    obtain ⟨used, hmust, rfl, hread⟩ := hno h
    refine ⟨used, hmust, rfl, fun rest' hrest => ?_⟩
    rw [Script.ifNext, head?_append_congr used hrest, if_neg hts]
    exact hread rest' hrest

variable {must' : β → Prop} {f g : α → Parser β}

theorem LocalIf.andThen_if (hp : LocalIf must p q) (hf : ∀ a, LocalIf must' (f a) (g a))
    {some : β → Prop}
    (hsome : ∀ a ts b rest, f a ts = .ok (b, rest) → some b → must a ∨ must' b) :
    LocalIf some (andThen p f) (andThen q g) := by
  intro ts b rest h
  rw [andThen] at h
  split at h
  · cases h
  · rename_i a mid hpa
    obtain ⟨used, hmust, rfl, hread⟩ := hp hpa
    obtain ⟨used', hmust', rfl, hread'⟩ := hf a h
    refine ⟨used ++ used', fun hb => ?_, (List.append_assoc ..).symm, fun rest' hrest => ?_⟩
    · obtain ha | hb := hsome a _ b rest h hb
      · exact fun he => hmust ha (List.append_eq_nil_iff.mp he).1
      · exact fun he => hmust' hb (List.append_eq_nil_iff.mp he).2
    · rw [andThen, List.append_assoc, hread _ (head?_append_congr _ hrest)]
      exact hread' rest' hrest

theorem LocalIf.andThen (hp : LocalIf (fun _ => True) p q) (hf : ∀ a, Local (f a) (g a)) :
    LocalIf must' (andThen p f) (andThen q g) :=
  hp.andThen_if hf fun _ _ _ _ _ _ => .inl trivial

theorem Local.andThen (hp : Local p q) (hf : ∀ a, LocalIf must' (f a) (g a)) :
    LocalIf must' (andThen p f) (andThen q g) :=
  hp.andThen_if hf fun _ _ _ _ _ hb => .inr hb

theorem Local.own {p q : List Token → Parser α} (h : LocalIn 0 p q) : Local (own p) (own q) := by
  intro ts a rest hread
  obtain ⟨used, hused, hin⟩ := h hread (Nat.le_refl _)
  exact ⟨used, False.elim, hused, fun rest' hrest => hin _ rest' hrest (Nat.le_refl _)⟩

theorem LocalIf.after {f g : α → List Token → Parser β} (hp : LocalIf (fun _ => True) p q)
    (hf : ∀ a, LocalIn 1 (f a) (g a)) : LocalIf must' (after p f) (after q g) := by
  intro ts b rest h
  rw [Script.after, Script.andThen] at h
  split at h
  · cases h
  · rename_i a mid hpa
    obtain ⟨used, hmust, rfl, hread⟩ := hp hpa
    have hpos : 0 < used.length := List.length_pos_iff.mpr (hmust trivial)
    obtain ⟨used', rfl, hin⟩ := hf a h (by rw [List.length_append]; omega)
    refine ⟨used ++ used', fun _ => List.append_ne_nil_of_left_ne_nil (hmust trivial) used',
      (List.append_assoc ..).symm, fun rest' hrest => ?_⟩
    rw [Script.after, Script.andThen, List.append_assoc, hread _ (head?_append_congr _ hrest)]
    exact hin _ rest' hrest (by simp only [List.length_append]; omega)

/-! ### loops -/

theorem LocalIn.iterate {step step' : β → Parser (α ⊕ β)} {last last' : β → Parser α}
    {spare : Nat} (hlast : spare = 0 → Exhausts step last)
    (hlast' : spare = 0 → Exhausts step' last')
    (hstep : ∀ b, LocalIf (·.isRight) (step b) (step' b)) (b : β) :
    LocalIn spare (fun bound => iterate step last bound b) fun bound => iterate step' last' bound b := by
  intro bound ts a rest h hbound
  induction hn : ts.length using Nat.strongRecOn generalizing bound b ts with
  | ind n ih =>
    subst hn
    dsimp only at h ih ⊢
    rw [iterate_eq hlast hbound, Script.andThen] at h
    split at h
    · cases h
    · rename_i out mid hout
      obtain ⟨used, hmust, rfl, hread⟩ := hstep b hout
      cases out with
      | inl a' =>
        cases h
        refine ⟨used, rfl, fun bound' rest' hrest hbound' => ?_⟩
        rw [iterate_eq hlast' hbound', Script.andThen, hread rest' hrest]
        rfl
      | inr b' =>
        have hpos : 0 < used.length := List.length_pos_iff.mpr (hmust rfl)
        rw [List.length_append] at hbound ih
        obtain ⟨used', rfl, hin⟩ :=
          ih mid.length (by omega) b' h (by rw [List.length_tail]; omega) rfl
        refine ⟨used ++ used', (List.append_assoc ..).symm, fun bound' rest' hrest hbound' => ?_⟩
        rw [iterate_eq hlast' hbound', Script.andThen, List.append_assoc,
          hread _ (head?_append_congr _ hrest)]
        rw [List.append_assoc, List.length_append] at hbound'
        exact hin bound'.tail rest' hrest (by rw [List.length_tail]; omega)

theorem LocalIn.andThen {p q : List Token → Parser α} {spare : Nat} (hp : LocalIn spare p q)
    (hf : ∀ a, Local (f a) (g a)) :
    LocalIn spare (fun bound => andThen (p bound) f) fun bound => andThen (q bound) g := by
  intro bound ts b rest h hbound
  dsimp only at h ⊢
  rw [Script.andThen] at h
  split at h
  · cases h
  · rename_i a mid hpa
    obtain ⟨used, rfl, hin⟩ := hp hpa hbound
    obtain ⟨used', -, rfl, hread⟩ := hf a h
    refine ⟨used ++ used', (List.append_assoc ..).symm, fun bound' rest' hrest hbound' => ?_⟩
    rw [List.append_assoc] at hbound' ⊢
    rw [Script.andThen, hin bound' _ (head?_append_congr _ hrest) hbound']
    exact hread rest' hrest

end

section

variable {d : Dialect} {l l' depth line : Nat} {must : α → Prop}

theorem LocalIf.take {must : Token → Prop} (test : Token → Bool)
    (m m' : List Token → Mistake) : LocalIf must (take test m) (take test m') := by
  intro ts a rest h
  cases ts with
  | nil => cases h
  | cons t ts =>
    rw [Script.take] at h
    split at h
    · rename_i ht
      cases h
      refine ⟨[a], fun _ => List.cons_ne_nil _ _, rfl, fun rest' _ => ?_⟩
      rw [List.singleton_append, Script.take, if_pos ht]
    · cases h

theorem expect_local {must : Unit → Prop} (x context : String) :
    LocalIf must (Setting.expect ⟨d, l⟩ x context) (Setting.expect ⟨d, l'⟩ x context) := by
  rw [expect_pieces, expect_pieces]
  exact (LocalIf.take _ _ _).andThen fun _ => .give _

theorem skipping_local (test : Token → Bool) : Local (skipping test) (skipping test) :=
  LocalIf.ifTaken (fun _ => Local.give _) (Local.give _)

/-! ### conditions -/

theorem parens_local (name : String) : Local (parens ⟨d, l⟩ name) (parens ⟨d, l'⟩ name) := by
  rw [parens, parens]
  refine LocalIf.ifTaken (fun _ => expect_local _ _) ?_
  dsimp only
  split
  · exact Local.give _
  · exact .fail _ _

theorem mark_local : Local (mark ⟨d, l⟩) (mark ⟨d, l'⟩) := by
  rw [mark, mark]
  dsimp only
  split
  · exact skipping_local _
  · exact Local.give _

theorem member_local {must : Token → Prop} :
    LocalIf must (member ⟨d, l⟩) (member ⟨d, l'⟩) := by
  rw [member_pieces, member_pieces]
  exact (expect_local _ _).andThen fun _ => (LocalIf.take _ _ _).andThen fun _ =>
    mark_local.andThen fun _ => (parens_local _).andThen fun _ => Local.give _

theorem sensorOf_local (t : Token) : Local (sensorOf ⟨d, l⟩ t) (sensorOf ⟨d, l'⟩ t) := by
  rw [sensorOf, sensorOf]
  split
  · exact Local.give _
  · exact .fail _ _

theorem sensorCall_local {must : Expr → Prop} :
    LocalIf must (sensorCall ⟨d, l⟩) (sensorCall ⟨d, l'⟩) := by
  rw [sensorCall_pieces, sensorCall_pieces]
  exact member_local.andThen sensorOf_local

theorem callOf_local (t : Token) : Local (callOf ⟨d, l⟩ t) (callOf ⟨d, l'⟩ t) := by
  rw [callOf, callOf]
  split
  · exact Local.give _
  · split
    · exact Local.give _
    · exact .fail _ _

theorem call_local {must : Stmt → Prop} : LocalIf must (call ⟨d, l⟩) (call ⟨d, l'⟩) := by
  rw [call_pieces, call_pieces]
  exact member_local.andThen callOf_local

theorem chainStep_exhausts (sep : Token → Bool) (item : Parser α) :
    Exhausts (chainStep sep item) fun done => give done.reverse := fun _ => rfl

theorem chain_local {item item' : Parser α} (h : Takes item item')
    (sep : Token → Bool) {must : List α → Prop} :
    LocalIf must (chain sep item) (chain sep item') := by
  rw [chain_pieces, chain_pieces]
  refine h.andThen fun a => .own ?_
  simp only [chainFrom_pieces]
  refine LocalIn.iterate (fun _ => chainStep_exhausts sep item)
    (fun _ => chainStep_exhausts sep item') (fun done => ?_) [a]
  exact LocalIf.ifTaken (fun _ => h.andThen fun _ => Local.give _) (.give Bool.false_ne_true)

theorem lineOf_congr {ts ts' : List Token} (h : ts ≠ []) (hhead : ts'.head? = ts.head?) :
    Setting.lineOf ⟨d, l'⟩ ts' = Setting.lineOf ⟨d, l⟩ ts := by
  cases ts with
  | nil => exact absurd rfl h
  | cons t ts =>
    obtain ⟨more, rfl⟩ := List.head?_eq_some_iff.mp hhead
    rfl

theorem junction_local {item item' : Parser Expr} (h : Takes item item')
    (sep : Token → Bool) (node : List Expr → Nat → Expr) {must : Expr → Prop} :
    LocalIf must (junction ⟨d, l⟩ sep node item) (junction ⟨d, l'⟩ sep node item') := by
  intro ts e rest hread
  rw [junction_pieces, andThen] at hread
  split at hread
  · cases hread
  · rename_i es mid hchain
    cases hread
    have hitems : Takes (chain sep item) (chain sep item') := chain_local h sep
    obtain ⟨used, hmust, rfl, hchain'⟩ := hitems hchain
    have hused : used ≠ [] := hmust trivial
    refine ⟨used, fun _ => hused, rfl, fun rest' hrest => ?_⟩
    rw [junction_pieces, andThen, hchain' rest' hrest, lineOf_congr (l := l)
      (List.append_ne_nil_of_left_ne_nil hused rest) (head?_append_congr _ hrest)]
    rfl

theorem conditionOf_local {operand operand' : Parser Expr}
    (h : Takes operand operand') {must : Expr → Prop} :
    LocalIf must (conditionOf ⟨d, l⟩ operand) (conditionOf ⟨d, l'⟩ operand') :=
  junction_local (junction_local h _ _) _ _

theorem unary_local {must : Expr → Prop} :
    LocalIf must (unary ⟨d, l⟩ depth) (unary ⟨d, l'⟩ depth) := by
  induction depth generalizing must with
  | zero => exact fun _ _ _ h => nomatch h
  | succ depth ih =>
    rw [unary_pieces, unary_pieces]
    refine LocalIf.ifTaken (fun t => ?not) <| LocalIf.ifTaken (fun _ => ?parens) <|
      LocalIf.ifTaken (fun t => Local.give _) <| LocalIf.ifTaken (fun t => Local.give _) <|
      LocalIf.ifTaken (fun _ => sensorCall_local) <| .fail _ _
    case not => exact ih.andThen fun _ => Local.give _
    case parens => exact (conditionOf_local ih).andThen fun _ =>
      (expect_local _ _).andThen fun _ => Local.give _

theorem condition_local {must : Expr → Prop} :
    LocalIf must (condition ⟨d, l⟩ depth) (condition ⟨d, l'⟩ depth) :=
  conditionOf_local unary_local

/-! ### statements -/

/-- Whether statements go on is said by the next token alone, and they do not without one. -/
structure Sees (more more' : List Token → Except Mistake Bool) : Prop where
  congr : ∀ ⦃ts ts' go⦄, ts'.head? = ts.head? → more ts = .ok go → more' ts' = .ok go
  nil : more [] ≠ .ok true

theorem repeatStep_exhausts {more : List Token → Except Mistake Bool} (h : more [] ≠ .ok true)
    (item : Parser (List Stmt)) : Exhausts (repeatStep more item) (repeatEnd more) := by
  intro done
  rw [repeatEnd, andThen, repeatStep, andThen, andThen, peek]
  rcases hmore : more [] with _ | ⟨_ | _⟩
  · rfl
  · rfl
  · exact absurd hmore h

theorem peek_local {more more' : List Token → Except Mistake Bool} (h : Sees more more') :
    Local (peek more) (peek more') := by
  intro ts go rest hread
  rw [peek] at hread
  split at hread
  · cases hread
  · rename_i hmore
    cases hread
    refine ⟨[], False.elim, rfl, fun rest' hrest => ?_⟩
    rw [List.nil_append, peek, h.congr hrest hmore]

theorem repeatStep_local {more more' : List Token → Except Mistake Bool} (h : Sees more more')
    {item item' : Parser (List Stmt)} (hitem : Takes item item') (done : List Stmt) :
    LocalIf (·.isRight) (repeatStep more item done) (repeatStep more' item' done) := by
  refine (peek_local h).andThen fun go => ?_
  cases go with
  | false => exact .give Bool.false_ne_true
  | true => exact hitem.andThen fun _ => Local.give _

theorem repeated_local {more more' : List Token → Except Mistake Bool} (h : Sees more more')
    (h' : more' [] ≠ .ok true) {item item' : Parser (List Stmt)}
    (hitem : Takes item item') :
    Local (repeated more item) (repeated more' item') := by
  rw [repeated_pieces, repeated_pieces]
  refine .own ?_
  simp only [repeatedFrom_pieces]
  exact LocalIn.iterate (fun _ => repeatStep_exhausts h.nil item)
    (fun _ => repeatStep_exhausts h' item') (repeatStep_local h hitem) []

theorem close_local : Local close close := by
  rintro ts _ _ ⟨⟩
  cases ts with
  | nil =>
    refine ⟨[], False.elim, rfl, fun rest' hrest => ?_⟩
    obtain rfl := List.head?_eq_none_iff.mp hrest
    rfl
  | cons t ts => exact ⟨[t], False.elim, rfl, fun _ _ => rfl⟩

variable {stmt stmt' : Parser (List Stmt)} (h : Takes stmt stmt')

namespace Braces

theorem sees_more : Sees (more ⟨d, l⟩) (more ⟨d, l'⟩) where
  congr ts ts' go hhead hmore := by
    cases ts with
    | nil => cases hmore
    | cons t ts =>
      obtain ⟨rest, rfl⟩ := List.head?_eq_some_iff.mp hhead
      exact hmore
  nil := nofun

theorem test_local {must : Expr → Prop} (keyword : String) :
    LocalIf must (test ⟨d, l⟩ depth keyword) (test ⟨d, l'⟩ depth keyword) := by
  rw [test_pieces, test_pieces]
  exact (expect_local _ _).andThen fun _ => condition_local.andThen fun _ =>
    (expect_local _ _).andThen fun _ => Local.give _

section

include h

theorem blockRest_local : Local (blockRest ⟨d, l⟩ stmt) (blockRest ⟨d, l'⟩ stmt') := by
  rw [blockRest_pieces, blockRest_pieces]
  exact (repeated_local sees_more nofun h).andThen fun _ => close_local.andThen fun _ =>
    Local.give _

theorem body_local {must : List Stmt → Prop} :
    LocalIf must (body ⟨d, l⟩ stmt) (body ⟨d, l'⟩ stmt') := by
  rw [body_pieces, body_pieces]
  exact LocalIf.ifTaken (fun _ => blockRest_local h) h.localIf

theorem branch_local {must : Branch → Prop} (keyword : String) :
    LocalIf must (branch ⟨d, l⟩ depth keyword stmt) (branch ⟨d, l'⟩ depth keyword stmt') := by
  rw [branch_pieces, branch_pieces]
  exact (test_local keyword).andThen fun _ => (body_local h).andThen fun _ => Local.give _

theorem branchStep_local (done : List Branch) :
    LocalIf (·.isRight) (branchStep ⟨d, l⟩ depth stmt line done)
      (branchStep ⟨d, l'⟩ depth stmt' line done) :=
  LocalIf.ifTaken
    (fun _ => LocalIf.ifTaken (fun _ => (branch_local h "if").andThen fun _ => Local.give _)
      ((body_local h).andThen fun _ => Local.give _))
    (.give Bool.false_ne_true)

theorem branches_local (done : List Branch) :
    LocalIn 1 (fun bound => branches ⟨d, l⟩ depth stmt line bound done)
      fun bound => branches ⟨d, l'⟩ depth stmt' line bound done := by
  simp only [branches_pieces]
  exact LocalIn.iterate nofun nofun (branchStep_local h) done

theorem loop_local {must : List Stmt → Prop} :
    LocalIf must (loop ⟨d, l⟩ depth stmt line) (loop ⟨d, l'⟩ depth stmt' line) := by
  rw [loop_pieces, loop_pieces]
  exact (branch_local h "while").andThen fun _ => Local.give _

theorem doLoop_local {must : List Stmt → Prop} :
    LocalIf must (doLoop ⟨d, l⟩ depth stmt line) (doLoop ⟨d, l'⟩ depth stmt' line) := by
  rw [doLoop_pieces, doLoop_pieces]
  exact (body_local h).andThen fun _ => (LocalIf.take _ _ _).andThen fun _ =>
    (test_local "while").andThen fun _ => (skipping_local _).andThen fun _ => Local.give _

theorem choice_local {must : List Stmt → Prop} :
    LocalIf must (choice ⟨d, l⟩ depth stmt line) (choice ⟨d, l'⟩ depth stmt' line) := by
  rw [choice_pieces, choice_pieces]
  exact (branch_local h "if").after fun b => (branches_local h [b]).andThen fun _ => Local.give _

end

theorem statement_local {must : List Stmt → Prop} :
    LocalIf must (statement ⟨d, l⟩ depth) (statement ⟨d, l'⟩ depth) := by
  induction depth generalizing must with
  | zero => exact fun _ _ _ h => nomatch h
  | succ depth ih =>
    rw [statement_pieces, statement_pieces]
    exact LocalIf.ifTaken (fun _ => Local.give _) <|
      LocalIf.ifTaken (fun _ => blockRest_local ih) <|
      LocalIf.ifTaken (fun _ => loop_local ih) <|
      LocalIf.ifTaken (fun _ => doLoop_local ih) <|
      LocalIf.ifTaken (fun _ => choice_local ih) <|
      LocalIf.ifTaken (fun _ => call_local.andThen fun _ =>
        (skipping_local _).andThen fun _ => Local.give _) <|
      .fail _ _

end Braces

namespace Indents

theorem sees_more : Sees more more where
  congr ts ts' go hhead hmore := by
    cases ts with
    | nil =>
      obtain rfl := List.head?_eq_none_iff.mp hhead
      exact hmore
    | cons t ts =>
      obtain ⟨rest, rfl⟩ := List.head?_eq_some_iff.mp hhead
      exact hmore
  nil := nofun

theorem simple_local {must : List Stmt → Prop} : LocalIf must (simple ⟨d, l⟩) (simple ⟨d, l'⟩) := by
  rw [simple_pieces, simple_pieces]
  exact LocalIf.ifTaken (fun _ => Local.give _) <|
    LocalIf.ifTaken (fun _ => call_local.andThen fun _ => Local.give _) <|
    .fail _ _

theorem simpleStep_local (done : List Stmt) :
    LocalIf (·.isRight) (simpleStep ⟨d, l⟩ done) (simpleStep ⟨d, l'⟩ done) :=
  LocalIf.ifTaken
    (fun _ => LocalIf.ifNext (Local.give _) (simple_local.andThen fun _ => Local.give _))
    (.give Bool.false_ne_true)

theorem simplesFrom_local (done : List Stmt) :
    LocalIn 1 (fun bound => simplesFrom ⟨d, l⟩ bound done)
      fun bound => simplesFrom ⟨d, l'⟩ bound done := by
  simp only [simplesFrom_pieces]
  exact LocalIn.iterate nofun nofun simpleStep_local done

theorem simples_local {must : List Stmt → Prop} :
    LocalIf must (simples ⟨d, l⟩) (simples ⟨d, l'⟩) := by
  rw [simples_pieces, simples_pieces]
  exact simple_local.after fun first => (simplesFrom_local first.reverse).andThen fun _ =>
    (LocalIf.take _ _ _).andThen fun _ => Local.give _

section

include h

theorem suite_local : Local (suite ⟨d, l⟩ stmt) (suite ⟨d, l'⟩ stmt') := by
  rw [suite_pieces, suite_pieces]
  refine LocalIf.ifNext (close_local.andThen fun _ => LocalIf.ifNext ?block (.fail _ _))
    simples_local
  exact close_local.andThen fun _ => (repeated_local sees_more nofun h).andThen fun _ =>
    close_local.andThen fun _ => Local.give _

theorem branch_local {must : Branch → Prop} (keyword : String) :
    LocalIf must (branch ⟨d, l⟩ depth keyword stmt) (branch ⟨d, l'⟩ depth keyword stmt') := by
  rw [branch_pieces, branch_pieces]
  exact condition_local.andThen fun _ => (expect_local _ _).andThen fun _ =>
    (suite_local h).andThen fun _ => Local.give _

theorem branchStep_local (done : List Branch) :
    LocalIf (·.isRight) (branchStep ⟨d, l⟩ depth stmt line done)
      (branchStep ⟨d, l'⟩ depth stmt' line done) :=
  LocalIf.ifTaken (fun _ => (branch_local h "elif").andThen fun _ => Local.give _) <|
    LocalIf.ifTaken (fun _ => (expect_local _ _).andThen fun _ => (suite_local h).andThen fun _ =>
      Local.give _) <|
    .give Bool.false_ne_true

theorem branches_local (done : List Branch) :
    LocalIn 1 (fun bound => branches ⟨d, l⟩ depth stmt line bound done)
      fun bound => branches ⟨d, l'⟩ depth stmt' line bound done := by
  simp only [branches_pieces]
  exact LocalIn.iterate nofun nofun (branchStep_local h) done

theorem loop_local {must : List Stmt → Prop} :
    LocalIf must (loop ⟨d, l⟩ depth stmt line) (loop ⟨d, l'⟩ depth stmt' line) := by
  rw [loop_pieces, loop_pieces]
  exact (branch_local h "while").andThen fun _ => Local.give _

theorem choice_local {must : List Stmt → Prop} :
    LocalIf must (choice ⟨d, l⟩ depth stmt line) (choice ⟨d, l'⟩ depth stmt' line) := by
  rw [choice_pieces, choice_pieces]
  exact (branch_local h "if").after fun b => (branches_local h [b]).andThen fun _ => Local.give _

end

theorem statement_local {must : List Stmt → Prop} :
    LocalIf must (statement ⟨d, l⟩ depth) (statement ⟨d, l'⟩ depth) := by
  induction depth generalizing must with
  | zero => exact fun _ _ _ h => nomatch h
  | succ depth ih =>
    rw [statement_pieces, statement_pieces]
    exact LocalIf.ifTaken (fun _ => loop_local ih) <|
      LocalIf.ifTaken (fun _ => choice_local ih) simples_local

end Indents

namespace Ends

theorem sees_more : Sees (more ⟨d, l⟩) (more ⟨d, l'⟩) where
  congr ts ts' go hhead hmore := by
    cases ts with
    | nil => cases hmore
    | cons t ts =>
      obtain ⟨rest, rfl⟩ := List.head?_eq_some_iff.mp hhead
      exact hmore
  nil := nofun

theorem skipped_local : Local skipped skipped := by
  rintro ts _ _ ⟨⟩
  refine ⟨ts.takeWhile isSeparator, False.elim, List.takeWhile_append_dropWhile.symm,
    fun rest' hrest => ?_⟩
  have htaken : (ts.takeWhile isSeparator).dropWhile isSeparator = [] :=
    List.dropWhile_eq_nil_iff.mpr fun t ht => (List.mem_takeWhile_imp ht)
  have hrest' : rest'.dropWhile isSeparator = rest' := by
    cases rest' with
    | nil => rfl
    | cons t rest' =>
      have hnot := List.head?_dropWhile_not isSeparator ts
      rw [← skip, ← hrest] at hnot
      rw [List.dropWhile_cons_of_neg (by simpa using hnot)]
  rw [skipped, skip, List.dropWhile_append, htaken, List.isEmpty_nil, if_pos rfl, hrest']

theorem test_local {must : Expr → Prop} (negated : Bool) :
    LocalIf must (test ⟨d, l⟩ depth negated line) (test ⟨d, l'⟩ depth negated line) := by
  rw [test_pieces, test_pieces]
  exact condition_local.andThen fun _ => Local.give _

section

include h

theorem separated_local {must : List Stmt → Prop} :
    LocalIf must (separated stmt) (separated stmt') := by
  rw [separated_pieces, separated_pieces]
  exact h.andThen fun _ => skipped_local.andThen fun _ => Local.give _

theorem body_local : Local (body ⟨d, l⟩ stmt) (body ⟨d, l'⟩ stmt') := by
  rw [body_pieces, body_pieces]
  exact skipped_local.andThen fun _ => repeated_local sees_more nofun (separated_local h)

theorem block_local {must : List Stmt → Prop} :
    LocalIf must (block ⟨d, l⟩ stmt) (block ⟨d, l'⟩ stmt') := by
  rw [block_pieces, block_pieces]
  exact (body_local h).andThen fun _ => (LocalIf.take _ _ _).andThen fun _ => Local.give _

theorem branch_local {must : Branch → Prop} (negated : Bool) :
    LocalIf must (branch ⟨d, l⟩ depth negated line stmt)
      (branch ⟨d, l'⟩ depth negated line stmt') := by
  rw [branch_pieces, branch_pieces]
  exact (test_local negated).andThen fun _ => (skipping_local _).andThen fun _ =>
    (body_local h).andThen fun _ => Local.give _

theorem branchStep_local (done : List Branch) :
    LocalIf (·.isRight) (branchStep ⟨d, l⟩ depth stmt line done)
      (branchStep ⟨d, l'⟩ depth stmt' line done) :=
  LocalIf.ifTaken (fun _ => (branch_local h false).andThen fun _ => Local.give _) <|
    LocalIf.ifTaken (fun _ => (block_local h).andThen fun _ => Local.give _) <|
    (LocalIf.take _ _ _).andThen fun _ => Local.give _

theorem branches_local (done : List Branch) :
    LocalIn 1 (fun bound => branches ⟨d, l⟩ depth stmt line bound done)
      fun bound => branches ⟨d, l'⟩ depth stmt' line bound done := by
  simp only [branches_pieces]
  exact LocalIn.iterate nofun nofun (branchStep_local h) done

theorem loop_local {must : List Stmt → Prop} (negated : Bool) :
    LocalIf must (loop ⟨d, l⟩ depth negated stmt line) (loop ⟨d, l'⟩ depth negated stmt' line) := by
  rw [loop_pieces, loop_pieces]
  exact (test_local negated).andThen fun _ => (skipping_local _).andThen fun _ =>
    (block_local h).andThen fun _ => Local.give _

theorem forever_local {must : List Stmt → Prop} :
    LocalIf must (forever ⟨d, l⟩ stmt line) (forever ⟨d, l'⟩ stmt' line) := by
  rw [forever_pieces, forever_pieces]
  exact (LocalIf.take _ _ _).andThen fun _ => (block_local h).andThen fun _ => Local.give _

theorem choice_local {must : List Stmt → Prop} (negated : Bool) :
    LocalIf must (choice ⟨d, l⟩ depth negated stmt line)
      (choice ⟨d, l'⟩ depth negated stmt' line) := by
  rw [choice_pieces, choice_pieces]
  exact (branch_local h negated).after fun b => (branches_local h [b]).andThen fun _ =>
    Local.give _

end

theorem modifierStep_local (x : Stmt) :
    LocalIf (·.isRight) (modifierStep ⟨d, l⟩ depth x) (modifierStep ⟨d, l'⟩ depth x) :=
  LocalIf.ifTaken (fun _ => condition_local.andThen fun _ => Local.give _)
    (.give Bool.false_ne_true)

theorem modifierStep_exhausts (s : Setting) : Exhausts (modifierStep s depth) give := fun _ => rfl

theorem modifiers_local (x : Stmt) :
    LocalIn 0 (fun bound => modifiers ⟨d, l⟩ depth bound x)
      fun bound => modifiers ⟨d, l'⟩ depth bound x := by
  simp only [modifiers_pieces]
  exact LocalIn.iterate (fun _ => modifierStep_exhausts _) (fun _ => modifierStep_exhausts _)
    modifierStep_local x

theorem statement_local {must : List Stmt → Prop} :
    LocalIf must (statement ⟨d, l⟩ depth) (statement ⟨d, l'⟩ depth) := by
  induction depth generalizing must with
  | zero => exact fun _ _ _ h => nomatch h
  | succ depth ih =>
    rw [statement_pieces, statement_pieces]
    exact LocalIf.ifTaken (fun _ => loop_local ih false) <|
      LocalIf.ifTaken (fun _ => loop_local ih true) <|
      LocalIf.ifTaken (fun _ => forever_local ih) <|
      LocalIf.ifTaken (fun _ => choice_local ih false) <|
      LocalIf.ifTaken (fun _ => choice_local ih true) <|
      LocalIf.ifTaken (fun _ => call_local.andThen fun c =>
        .own ((modifiers_local c).andThen fun _ => Local.give _)) <|
      .fail _ _

end Ends

end

end Ladybug.Script

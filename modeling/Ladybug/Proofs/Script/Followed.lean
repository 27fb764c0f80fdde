import Ladybug.Proofs.Script.Cursor
import Ladybug.Proofs.Script.Local

/-!
# The cursor does what the readers do

Where fewer tokens are left than readers may go deep, the cursor comes to the same result, behind the
same token, or to the same mistake, if it has enough fuel. It is shown of the pieces of readers first.
A loop of the cursor takes a token in every round, as a step of the reader does, and so it ends.

* `Settles`                what comes of some fuel and of all more of it
* `Follows`, `FollowsIn`   a reader or a bounded loop, and what the cursor does
* `Follows.accept_succ`    behind a token that is taken, one less is left
* `FollowsIn.iterate`      a loop that is not bounded by tokens
* `entry_follows`          the body of an entry routine
-/

namespace Ladybug.Script

open Cursor

variable {α β γ : Type} {x : Input}

/-- Enough fuel comes to some outcome. -/
def Settles (res : Nat → Checked α) (out : Checked α) : Prop := ∃ n, ∀ fuel ≥ n, res fuel = out

/-- What comes of a reader and of a cursor at cell `i` with enough fuel: the same result, after which
the cursor points to the tokens that are left, or the same mistake, which is not that of the
nesting. -/
inductive Agrees (x : Input) (i : Nat) :
    Except Mistake (α × List Token) → (Nat → Checked (α × Nat)) → Prop where
  | ok {a : α} {j : Nat} {res : Nat → Checked (α × Nat)} (hij : i ≤ j) (hj : j ≤ x.tokens.length)
      (h : Settles res (pure (a, j))) : Agrees x i (.ok (a, x.tokens.drop j)) res
  | mistake {m : Mistake} {res : Nat → Checked (α × Nat)} (hm : m ≠ .tooDeep)
      (h : Settles res (throw (.mistake m))) : Agrees x i (.error m) res

/-- A cursor does what a reader does, where fewer than `n` tokens are left. -/
def Follows (x : Input) (n : Nat) (p : Parser α) (m : Nat → Reading α) : Prop :=
  ∀ i, i ≤ x.tokens.length → x.tokens.length - i < n →
    Agrees x i (p (x.tokens.drop i)) fun fuel => (m fuel).run i

/-- The same of a loop, with all bounds that have so many tokens to spare. -/
def FollowsIn (x : Input) (n spare : Nat) (p : List Token → Parser α) (m : Nat → Reading α) : Prop :=
  ∀ bound i, i ≤ x.tokens.length → x.tokens.length - i < n →
    x.tokens.length - i + spare ≤ bound.length →
    Agrees x i (p bound (x.tokens.drop i)) fun fuel => (m fuel).run i

theorem Settles.const (out : Checked α) : Settles (fun _ => out) out := ⟨0, fun _ _ => rfl⟩

/-- The same outcome with `k` more of fuel. -/
theorem Settles.later {res res' : Nat → Checked α} {out : Checked α} (h : Settles res out) {k n : Nat}
    (heq : ∀ fuel ≥ n, res' (fuel + k) = res fuel) : Settles res' out := by
  obtain ⟨n', h⟩ := h
  refine ⟨max n n' + k, fun fuel hfuel => ?_⟩
  obtain ⟨fuel, rfl⟩ := Nat.exists_eq_add_of_le' (Nat.le_of_add_left_le hfuel)
  obtain ⟨hn, hn'⟩ := Nat.max_le.mp (Nat.le_of_add_le_add_right hfuel)
  rw [heq fuel hn, h fuel hn']

section

variable {i j : Nat} {out : Except Mistake (α × List Token)} {res res' : Nat → Checked (α × Nat)}

theorem Agrees.mono (h : Agrees x j out res) (hij : i ≤ j) : Agrees x i out res := by
  cases h with
  | ok hjk hk h => exact .ok (hij.trans hjk) hk h
  | mistake hm h => exact .mistake hm h

theorem Agrees.later (h : Agrees x i out res) {k n : Nat}
    (heq : ∀ fuel ≥ n, res' (fuel + k) = res fuel) : Agrees x i out res' := by
  cases h with
  | ok hij hj h => exact .ok hij hj (h.later heq)
  | mistake hm h => exact .mistake hm (h.later heq)

end

section

variable {n : Nat} {p : Parser α} {m m' : Nat → Reading α} {f : α → Parser β}
  {g : α → Nat → Reading β}

theorem Follows.mono {n' : Nat} (h : Follows x n' p m) (hn : n ≤ n') : Follows x n p m :=
  fun i hi hi' => h i hi (Nat.lt_of_lt_of_le hi' hn)

/-- A call takes one of the fuel. -/
theorem Follows.succ (h : Follows x n p m) (heq : ∀ fuel, m' (fuel + 1) = m fuel) :
    Follows x n p m' :=
  fun i hi hi' => (h i hi hi').later (k := 1) (n := 0) fun fuel _ => by rw [heq]

theorem Follows.give (a : α) : Follows x n (give a) fun _ => pure a :=
  fun i hi _ => .ok (Nat.le_refl i) hi (.const _)

theorem Follows.throw {mistake : Mistake} (h : mistake ≠ .tooDeep) :
    Follows x n (fail fun _ => mistake : Parser α) fun _ => throw (.mistake mistake) :=
  fun _ _ _ => .mistake h (.const _)

/-- What settles is all that counts for what comes after it. -/
theorem run_bind_later {i : Nat} {out : Checked (α × Nat)}
    (h : Settles (fun fuel => (m fuel).run i) out) : ∃ n, ∀ fuel ≥ n,
      (m fuel >>= fun a => g a fuel).run i = out >>= fun r => (g r.1 fuel).run r.2 := by
  obtain ⟨n, h⟩ := h
  refine ⟨n, fun fuel hfuel => ?_⟩
  rw [StateT.run_bind, show (m fuel).run i = out from h fuel hfuel]

theorem Follows.andThen (hp : Follows x n p m) (hf : ∀ a, Follows x n (f a) (g a)) :
    Follows x n (andThen p f) fun fuel => m fuel >>= fun a => g a fuel := by
  intro i hi hn
  have h := hp i hi hn
  rw [Script.andThen]
  generalize p (x.tokens.drop i) = out at h ⊢
  cases h with
  | ok hij hj h =>
    obtain ⟨n', heq⟩ := run_bind_later h
    exact ((hf _ _ hj (by omega)).mono hij).later (k := 0) heq
  | mistake hm h =>
    obtain ⟨n', heq⟩ := run_bind_later h
    exact .mistake hm ⟨n', heq⟩

theorem andThen_assoc (p : Parser α) (f : α → Parser β) (g : β → Parser γ) :
    andThen (andThen p f) g = andThen p fun a => andThen (f a) g := by
  funext ts
  grind [andThen]

theorem give_andThen (a : α) (f : α → Parser β) : andThen (Script.give a) f = f a := rfl

theorem after_andThen (p : Parser α) (f : α → List Token → Parser β) (g : β → Parser γ) :
    andThen (after p f) g = after p fun a bound => andThen (f a bound) g := by
  funext ts
  exact congrFun (andThen_assoc p (fun a => f a ts) g) ts

/-! ### cells -/

theorem cell_eq {ts : List Token} {i : Nat} (hi : i ≤ ts.length) : cell ts i = pure ts[i]? := by
  rw [cell]
  rcases Nat.lt_or_eq_of_le hi with hi | rfl
  · rw [List.getElem?_append_left (by rwa [List.length_map]), List.getElem?_map,
      List.getElem?_eq_getElem hi]
    rfl
  · rw [List.getElem?_append_right (by rw [List.length_map]), List.length_map, Nat.sub_self,
      List.getElem?_eq_none (Nat.le_refl ts.length)]
    rfl

theorem current_run {i : Nat} (hi : i ≤ x.tokens.length) :
    (current x).run i = pure ((x.tokens.drop i).head?, i) := by
  simp [current, cell_eq hi, List.head?_drop]

/-- The cursor is at the end of the script, or at a token. -/
theorem drop_cases {ts : List Token} {i : Nat} (hi : i ≤ ts.length) :
    ts.drop i = [] ∧ i = ts.length ∨ ∃ t, ts.drop i = t :: ts.drop (i + 1) ∧ i < ts.length := by
  rcases Nat.lt_or_eq_of_le hi with hi | rfl
  · exact .inr ⟨_, List.drop_eq_getElem_cons hi, hi⟩
  · exact .inl ⟨List.drop_length, rfl⟩

theorem advance_token {i : Nat} (hi : i < x.tokens.length) :
    (advance x).run i = pure ((), i + 1) := by
  simp [advance, current_run hi.le, List.head?_drop, List.getElem?_eq_getElem hi]

theorem Follows.close : Follows x n close fun _ => advance x := by
  intro i hi _
  rw [Script.close, List.drop_drop]
  obtain ⟨hts, rfl⟩ | ⟨t, -, hlt⟩ := drop_cases hi
  · have hend : (advance x).run x.tokens.length = pure ((), x.tokens.length) := by
      simp [advance, current_run (Nat.le_refl _)]
    simp only [hend]
    rw [List.drop_eq_nil_of_le (Nat.le_succ _), ← hts]
    exact .ok (Nat.le_refl _) (Nat.le_refl _) (.const _)
  · simp only [advance_token hlt]
    exact .ok (Nat.le_succ i) hlt (.const _)

theorem accept_token {test : Token → Bool} {t : Token} {i : Nat} (hi : i < x.tokens.length)
    (hts : x.tokens.drop i = t :: x.tokens.drop (i + 1)) :
    (accept x test).run i = if test t then pure (some t, i + 1) else pure (none, i) := by
  rw [accept, StateT.run_bind, current_run hi.le, pure_bind, hts]
  cases ht : test t <;> simp [ht, advance_token hi]

theorem accept_end {test : Token → Bool} {i : Nat} (hi : i ≤ x.tokens.length)
    (hts : x.tokens.drop i = []) : (accept x test).run i = pure (none, i) := by
  rw [accept, StateT.run_bind, current_run hi, pure_bind, hts]
  rfl

section

variable {test : Token → Bool} {yes : Token → Parser α} {no : Parser α}
  {k : Nat → Option Token → Reading α}

/-- After the token that is taken, fewer tokens are left. -/
theorem Follows.accept_succ (hyes : ∀ t, Follows x n (yes t) fun fuel => k fuel (some t))
    (hno : Follows x (n + 1) no fun fuel => k fuel none) :
    Follows x (n + 1) (ifTaken test yes no) fun fuel => accept x test >>= k fuel := by
  intro i hi hi'
  have h := hno i hi hi'
  simp only [StateT.run_bind]
  obtain ⟨hts, -⟩ | ⟨t, hts, hlt⟩ := drop_cases hi
  · simp only [accept_end hi hts, pure_bind]
    rw [hts] at h ⊢
    exact h
  · simp only [accept_token hlt hts]
    rw [hts, ifTaken]
    by_cases ht : test t
    · simp only [if_pos ht, pure_bind]
      exact (hyes t (i + 1) hlt (by omega)).mono (Nat.le_succ i)
    · simp only [if_neg ht, pure_bind]
      rwa [← hts]

theorem Follows.accept (hyes : ∀ t, Follows x n (yes t) fun fuel => k fuel (some t))
    (hno : Follows x n no fun fuel => k fuel none) :
    Follows x n (ifTaken test yes no) fun fuel => accept x test >>= k fuel := by
  cases n with
  | zero => exact fun _ _ h => absurd h (Nat.not_lt_zero _)
  | succ n => exact .accept_succ (fun t => (hyes t).mono (Nat.le_succ n)) hno

theorem ifTaken_either {sign : String} {words : List String}
    (htest : ∀ t, test t = (t.isOp sign || t.isNameIn words)) (yes : Token → Parser α)
    (no : Parser α) : ifTaken test yes no =
      ifTaken (·.isOp sign) yes (ifTaken (·.isNameIn words) yes no) := by
  funext ts
  cases ts with
  | nil => rfl
  | cons t ts => cases h : t.isOp sign <;> simp [ifTaken, htest, h]

theorem acceptEither_bind (sign : String) (words : List String) (k : Option Token → Reading α) :
    acceptEither x sign words >>= k = Cursor.acceptOp x sign >>= fun o =>
      o.elim (acceptNames x words >>= k) fun t => k (some t) := by
  rw [acceptEither, bind_assoc]
  refine bind_congr fun o => ?_
  cases o with
  | some t => exact pure_bind (some t) k
  | none => rfl

theorem Follows.acceptEither_succ {sign : String} {words : List String}
    (htest : ∀ t, test t = (t.isOp sign || t.isNameIn words))
    (hyes : ∀ t, Follows x n (yes t) fun fuel => k fuel (some t))
    (hno : Follows x (n + 1) no fun fuel => k fuel none) :
    Follows x (n + 1) (ifTaken test yes no) fun fuel => acceptEither x sign words >>= k fuel := by
  simp only [acceptEither_bind, ifTaken_either htest]
  exact .accept_succ hyes (.accept_succ hyes hno)

theorem Follows.acceptEither {sign : String} {words : List String}
    (htest : ∀ t, test t = (t.isOp sign || t.isNameIn words))
    (hyes : ∀ t, Follows x n (yes t) fun fuel => k fuel (some t))
    (hno : Follows x n no fun fuel => k fuel none) :
    Follows x n (ifTaken test yes no) fun fuel => acceptEither x sign words >>= k fuel := by
  simp only [acceptEither_bind, ifTaken_either htest]
  exact .accept hyes (.accept hyes hno)

end

theorem Follows.error (w : Wanted) :
    Follows x n (fail (x.toSetting.wanted w) : Parser α) fun _ => error x w := by
  intro i hi _
  simp only [Cursor.error, StateT.run_bind, current_run hi, pure_bind, fail]
  obtain ⟨hts, -⟩ | ⟨t, hts, -⟩ := drop_cases hi <;> rw [hts]
  · exact .mistake (by simp [Setting.wanted]) (.const _)
  · exact .mistake (by simp [Setting.wanted]) (.const _)

@[simp] theorem error_bind (w : Wanted) (f : α → Reading β) : error x w >>= f = error x w := by
  rw [Cursor.error, bind_assoc, Cursor.error]
  refine bind_congr fun c => ?_
  cases c <;> rfl

theorem Follows.take (test : Token → Bool) (w : Wanted) :
    Follows x n (Script.take test (x.toSetting.wanted w)) fun _ => expect x test w := by
  have htake : Script.take test (x.toSetting.wanted w) =
      ifTaken test Script.give (fail (x.toSetting.wanted w)) := by
    funext ts
    cases ts <;> rfl
  rw [htake]
  exact .accept (fun t => .give t) (.error w)

theorem Follows.expectOp (text context : String) :
    Follows x n (x.toSetting.expect text context) fun _ => expectOp x text context := by
  rw [expect_pieces]
  exact (Follows.take _ _).andThen fun _ => .give ()

theorem Follows.optional (test : Token → Bool) :
    Follows x n (skipping test) fun _ => optional x test :=
  .accept (fun _ => .give ()) (.give ())

theorem Follows.ifNext {test : Option Token → Bool} {yes no : Parser α}
    (hyes : Follows x n yes m) (hno : Follows x n no m') :
    Follows x n (ifNext test yes no) fun fuel =>
      current x >>= fun c => if test c then m fuel else m' fuel := by
  intro i hi hi'
  simp only [StateT.run_bind, current_run hi, pure_bind, Script.ifNext]
  split
  · exact hyes i hi hi'
  · exact hno i hi hi'

/-- what depends on the line of the current token -/
theorem Follows.line {p : Nat → Parser α} {k : Nat → Nat → Reading α}
    (h : ∀ l, Follows x n (p l) (k l)) :
    Follows x n (fun ts => p (x.toSetting.lineOf ts) ts) fun fuel =>
      Cursor.line x >>= fun l => k l fuel := by
  intro i hi hi'
  have hline : (Cursor.line x).run i = pure (x.toSetting.lineOf (x.tokens.drop i), i) := by
    rw [Cursor.line, StateT.run_bind, current_run hi, pure_bind]
    cases x.tokens.drop i <;> rfl
  simp only [StateT.run_bind, hline, pure_bind]
  exact h _ i hi hi'

/-! ### loops -/

theorem Follows.own {p : List Token → Parser α} (h : FollowsIn x n 0 p m) :
    Follows x n (own p) m :=
  fun i hi hi' => h _ i hi hi' (by rw [List.length_drop]; exact Nat.le_refl _)

theorem Follows.after {f : α → List Token → Parser β} (htakes : Takes p p) (hp : Follows x n p m)
    (hf : ∀ a, FollowsIn x n 1 (f a) (g a)) :
    Follows x n (after p f) fun fuel => m fuel >>= fun a => g a fuel := by
  intro i hi hn
  have h := hp i hi hn
  rw [Script.after, Script.andThen]
  generalize hout : p (x.tokens.drop i) = out at h ⊢
  cases h with
  | @ok a j _ hij hj h =>
    obtain ⟨used, hused, hts, -⟩ := htakes hout
    have hlength := congrArg List.length hts
    have hpos := List.length_pos_iff.mpr (hused trivial)
    simp only [List.length_append, List.length_drop] at hlength
    obtain ⟨n', heq⟩ := run_bind_later h
    have hrest := hf a (x.tokens.drop i) j hj (by omega) (by rw [List.length_drop]; omega)
    exact (hrest.mono hij).later (k := 0) (n := n') heq
  | mistake hm h =>
    obtain ⟨n', heq⟩ := run_bind_later h
    exact .mistake hm ⟨n', heq⟩

theorem FollowsIn.andThen {p : List Token → Parser α} {spare : Nat} (hp : FollowsIn x n spare p m)
    (hf : ∀ a, Follows x n (f a) (g a)) : FollowsIn x n spare (fun bound => andThen (p bound) f)
      fun fuel => m fuel >>= fun a => g a fuel := by
  intro bound i hi hn hbound
  have h := hp bound i hi hn hbound
  dsimp only
  rw [Script.andThen]
  generalize p bound (x.tokens.drop i) = out at h ⊢
  cases h with
  | ok hij hj h =>
    obtain ⟨n', heq⟩ := run_bind_later h
    exact ((hf _ _ hj (by omega)).mono hij).later (k := 0) heq
  | mistake hm h =>
    obtain ⟨n', heq⟩ := run_bind_later h
    exact .mistake hm ⟨n', heq⟩

/-- A loop of the cursor that does such steps comes to an end. -/
theorem FollowsIn.iterate {step : β → Parser (α ⊕ β)} {last : β → Parser α} {spare : Nat}
    (hlast : spare = 0 → Exhausts step last)
    (htakes : ∀ b, LocalIf (·.isRight) (step b) (step b)) {loop : Nat → β → Reading α}
    {round : Nat → β → Reading (α ⊕ β)}
    (hloop : ∀ fuel b, loop (fuel + 1) b = round fuel b >>= Sum.elim pure (loop fuel))
    (hstep : ∀ b, Follows x n (step b) fun fuel => round fuel b) (b : β) :
    FollowsIn x n spare (fun bound => iterate step last bound b) fun fuel => loop fuel b := by
  intro bound i hi hn hbound
  induction hleft : x.tokens.length - i using Nat.strongRecOn generalizing bound i b with
  | ind left ih =>
    subst hleft
    have h := hstep b i hi hn
    dsimp only at ih ⊢
    rw [iterate_eq hlast (by rwa [List.length_drop]), Script.andThen]
    have hround {out : Checked ((α ⊕ β) × Nat)}
        (h : Settles (fun fuel => (round fuel b).run i) out) : ∃ n, ∀ fuel ≥ n,
          (loop (fuel + 1) b).run i =
            out >>= fun r => (Sum.elim pure (loop fuel) r.1 : Reading α).run r.2 := by
      simp only [hloop]
      exact run_bind_later (g := fun r fuel => Sum.elim pure (loop fuel) r) h
    generalize hout : step b (x.tokens.drop i) = out at h ⊢
    cases h with
    | mistake hm h =>
      obtain ⟨n', heq⟩ := hround h
      exact .mistake hm ((Settles.const _).later (k := 1) heq)
    | @ok a j _ hij hj h =>
      obtain ⟨n', heq⟩ := hround h
      cases a with
      | inl a => exact .ok hij hj ((Settles.const _).later (k := 1) heq)
      | inr b' =>
        obtain ⟨used, hused, hts, -⟩ := htakes b hout
        have hlength := congrArg List.length hts
        have hpos := List.length_pos_iff.mpr (hused rfl)
        simp only [List.length_append, List.length_drop] at hlength
        have hrest := ih _ (by omega) b' bound.tail j hj (by omega)
          (by rw [List.length_tail]; omega) rfl
        exact (hrest.mono hij).later (k := 1) heq

/-! ### conditions -/

theorem parens_follows (name : String) :
    Follows x n (parens x.toSetting name) fun _ => Cursor.parens x name := by
  rw [parens, Cursor.parens]
  refine .accept (fun _ => .expectOp _ _) ?_
  dsimp only
  split
  · exact .give ()
  · exact .error _

theorem mark_follows : Follows x n (mark x.toSetting) fun _ => Cursor.mark x := by
  rw [mark, Cursor.mark]
  split
  · exact .optional _
  · exact .give ()

theorem member_follows : Follows x n (member x.toSetting) fun _ => Cursor.member x := by
  rw [member_pieces, Cursor.member]
  exact (Follows.expectOp _ _).andThen fun _ => (Follows.take _ _).andThen fun t =>
    mark_follows.andThen fun _ => (parens_follows t.text).andThen fun _ => .give t

theorem sensor_follows : Follows x n (sensorCall x.toSetting) fun _ => sensor x := by
  rw [sensorCall_pieces, sensor]
  refine member_follows.andThen fun t => ?_
  rw [sensorOf]
  cases sensor? t.text with
  | some d => exact .give _
  | none => cases command? t.text <;> exact .throw Mistake.noConfusion

theorem call_follows : Follows x n (call x.toSetting) fun _ => Cursor.call x := by
  rw [call_pieces, Cursor.call]
  refine member_follows.andThen fun t => ?_
  rw [callOf]
  cases command? t.text with
  | some c => exact .give _
  | none =>
    cases sensor? t.text with
    | some d => exact .give _
    | none => exact .throw Mistake.noConfusion

/-- one round of a loop over operands -/
def operandRound (x : Input) (sign : String) (words : List String) (operand : Reading Expr)
    (done : List Expr) : Reading (List Expr ⊕ List Expr) := do
  match ← Cursor.acceptEither x sign words with
  | some _ => return .inr ((← operand) :: done)
  | none => return .inl done.reverse

/-- operands of one operator, with a loop for those after the first one -/
theorem Follows.junction {sep : Token → Bool} {sign : String} {words : List String}
    (hsep : ∀ t, sep t = (t.isOp sign || t.isNameIn words)) {operand : Parser Expr}
    (htakes : Takes operand operand) {m : Nat → Reading Expr} (hoperand : Follows x n operand m)
    {rest : Nat → List Expr → Reading (List Expr)}
    (hrest : ∀ fuel done, rest (fuel + 1) done =
      operandRound x sign words (m fuel) done >>= Sum.elim pure (rest fuel))
    (node : List Expr → Nat → Expr) :
    Follows x n (junction x.toSetting sep node operand) fun fuel => do
      let l ← Cursor.line x
      let es ← rest fuel [← m fuel]
      return joined node l es := by
  have hstep (done : List Expr) : Follows x n (chainStep sep operand done) fun fuel =>
      operandRound x sign words (m fuel) done :=
    .acceptEither hsep (fun _ => hoperand.andThen fun _ => .give _) (.give _)
  have hlocal (done : List Expr) : LocalIf (·.isRight) (chainStep sep operand done)
      (chainStep sep operand done) :=
    LocalIf.ifTaken (fun _ => htakes.andThen fun _ => Local.give _) (.give Bool.false_ne_true)
  have hchain : Follows x n (chain sep operand) fun fuel => m fuel >>= fun e => rest fuel [e] := by
    rw [chain_pieces]
    refine hoperand.andThen fun e => .own ?_
    simp only [chainFrom_pieces]
    exact .iterate (fun _ => chainStep_exhausts sep operand) hlocal hrest hstep [e]
  have hjunction : Follows x n
      (fun ts => Script.andThen (chain sep operand)
        (fun es => Script.give (joined node (x.toSetting.lineOf ts) es)) ts)
      fun fuel => Cursor.line x >>= fun l => (m fuel >>= fun e => rest fuel [e]) >>= fun es =>
        pure (joined node l es) :=
    .line fun l => hchain.andThen fun es => .give (joined node l es)
  simpa only [← junction_pieces, bind_assoc] using hjunction

theorem orRest_round (fuel : Nat) (done : List Expr) : orRest x (fuel + 1) done =
    operandRound x "||" x.orWords (conjunction x fuel) done >>= Sum.elim pure (orRest x fuel) := by
  rw [orRest, operandRound, bind_assoc]
  refine bind_congr fun o => ?_
  cases o <;> simp

theorem andRest_round (fuel : Nat) (done : List Expr) : andRest x (fuel + 1) done =
    operandRound x "&&" x.andWords (Cursor.unary x fuel) done >>=
      Sum.elim pure (andRest x fuel) := by
  rw [andRest, operandRound, bind_assoc]
  refine bind_congr fun o => ?_
  cases o <;> simp

theorem condition_of_unary {depth : Nat}
    (h : Follows x n (unary x.toSetting depth) (Cursor.unary x)) :
    Follows x n (condition x.toSetting depth) (Cursor.condition x) := by
  have hand : Follows x n (Script.junction x.toSetting (isAnd x.toSetting) .and
      (unary x.toSetting depth)) (conjunction x) :=
    (Follows.junction (fun _ => rfl) unary_local h andRest_round .and).succ (conjunction.eq_2 x)
  exact (Follows.junction (fun _ => rfl) (junction_local unary_local _ _) hand orRest_round .or).succ
    (Cursor.condition.eq_2 x)

theorem unary_follows (depth : Nat) :
    Follows x depth (unary x.toSetting depth) (Cursor.unary x) := by
  induction depth with
  | zero => exact fun _ _ h => absurd h (Nat.not_lt_zero _)
  | succ depth ih =>
    have hnot (t : Token) : Follows x depth
        (Script.andThen (unary x.toSetting depth) fun e => Script.give (Expr.not e t.line))
        fun fuel => Cursor.unary x fuel >>= fun e => pure (Expr.not e t.line) :=
      ih.andThen fun e => .give _
    have hparens : Follows x depth
        (Script.andThen (condition x.toSetting depth) fun e =>
          Script.andThen (x.toSetting.expect ")" "to close the parenthesis") fun _ =>
            Script.give e)
        fun fuel => Cursor.condition x fuel >>= fun e =>
          expectOp x ")" "to close the parenthesis" >>= fun _ => pure e :=
      (condition_of_unary ih).andThen fun e => (Follows.expectOp _ _).andThen fun _ => .give e
    rw [unary_pieces]
    refine .succ (.acceptEither_succ (fun _ => rfl) hnot ?_) (Cursor.unary.eq_2 x)
    refine .succ ?_ (primary.eq_2 x)
    exact .accept_succ (fun _ => hparens) <|
      .accept (fun t => .give _) <| .accept (fun t => .give _) <|
      .accept (fun _ => sensor_follows) <| .error _

theorem condition_follows (depth : Nat) :
    Follows x depth (condition x.toSetting depth) (Cursor.condition x) :=
  condition_of_unary (unary_follows depth)

/-! ### statements -/

/-- Statements that are repeated as long as the next token says so. -/
theorem Follows.repeated {more : List Token → Except Mistake Bool} (hmore : Sees more more)
    {item : Parser (List Stmt)} (htakes : Takes item item)
    {round : Nat → List Stmt → Reading (List Stmt ⊕ List Stmt)}
    {loop : Nat → List Stmt → Reading (List Stmt)}
    (hloop : ∀ fuel done, loop (fuel + 1) done = round fuel done >>= Sum.elim pure (loop fuel))
    (hstep : ∀ done, Follows x n (repeatStep more item done) fun fuel => round fuel done) :
    Follows x n (repeated more item) fun fuel => loop fuel [] := by
  rw [repeated_pieces]
  refine .own ?_
  simp only [repeatedFrom_pieces]
  exact .iterate (fun _ => repeatStep_exhausts hmore.nil item) (repeatStep_local hmore htakes)
    hloop hstep []

end

namespace Braces

/-- one round of a block, whose closing brace is taken -/
def blockStep (s : Setting) (stmt : Parser (List Stmt)) (done : List Stmt) :
    Parser (List Stmt ⊕ List Stmt) :=
  ifTaken (·.isOp "\x7d") (fun _ => give (.inl done.reverse)) <|
  ifNext (·.isNone) (fail (s.wanted .closingBrace)) <|
  andThen stmt fun stmts => give (.inr (stmts.reverse ++ done))

def blockEnd (s : Setting) (done : List Stmt) : Parser (List Stmt) :=
  andThen (repeatEnd (more s) done) fun body => andThen close fun _ => give body

theorem blockRest_loop (s : Setting) (stmt : Parser (List Stmt)) : blockRest s stmt =
    own fun bound => iterate (blockStep s stmt) (blockEnd s) bound [] := by
  have hfrom : ∀ bound done ts,
      andThen (repeatedFrom (more s) stmt bound done)
        (fun body => andThen close fun _ => give body) ts =
      iterate (blockStep s stmt) (blockEnd s) bound done ts := by
    intro bound
    induction bound with
    | nil =>
      intro done ts
      rw [repeatedFrom_pieces]
      rfl
    | cons b bound ih =>
      intro done ts
      rw [iterate, andThen, andThen]
      unfold repeatedFrom
      cases ts with
      | nil => rfl
      | cons t ts =>
        rw [more, blockStep, ifTaken]
        cases ht : t.isOp "\x7d" with
        | true => rfl
        | false =>
          simp only [Bool.not_false, ifNext, List.head?_cons, Option.isNone_some, andThen]
          rcases stmt (t :: ts) with _ | ⟨stmts, rest⟩
          · rfl
          · exact ih (stmts.reverse ++ done) rest
  rw [blockRest_pieces]
  funext ts
  exact hfrom ts [] ts

theorem blockStep_exhausts (s : Setting) (stmt : Parser (List Stmt)) :
    Exhausts (blockStep s stmt) (blockEnd s) := fun _ => rfl

/-- one round of a block under the cursor -/
def blockRound (x : Input) (fuel : Nat) (done : List Stmt) :
    Reading (List Stmt ⊕ List Stmt) := do
  if let some _ ← Cursor.acceptOp x "\x7d" then return .inl done.reverse
  else if (← current x).isNone then error x .closingBrace
  else return .inr ((← Cursor.Braces.statement x fuel).reverse ++ done)

/-- a condition and what depends on it -/
def readBranch (x : Input) (fuel : Nat) (keyword : String) : Reading Branch := do
  let e ← Cursor.Braces.test x fuel keyword
  let b ← Cursor.Braces.body x fuel
  return (e, b)

def branchRound (x : Input) (line fuel : Nat) (done : List Branch) :
    Reading (Stmt ⊕ List Branch) := do
  if let some _ ← Cursor.acceptName x "else" then
    if let some _ ← Cursor.acceptName x "if" then
      return .inr ((← readBranch x fuel "if") :: done)
    else return .inl (.choice done.reverse (← Cursor.Braces.body x fuel) line)
  else return .inl (.choice done.reverse [] line)

section

variable {x : Input} {depth line : Nat}
  (ih : Follows x depth (statement x.toSetting depth) (Cursor.Braces.statement x))

theorem blockRest_round (fuel : Nat) (done : List Stmt) :
    Cursor.Braces.blockRest x (fuel + 1) done =
      blockRound x fuel done >>= Sum.elim pure (Cursor.Braces.blockRest x fuel) := by
  rw [Cursor.Braces.blockRest, blockRound, bind_assoc]
  refine bind_congr fun o => ?_
  cases o with
  | some t => simp
  | none =>
    rw [bind_assoc]
    refine bind_congr fun c => ?_
    split <;> simp

theorem branches_round (fuel : Nat) (done : List Branch) :
    Cursor.Braces.branches x line (fuel + 1) done =
      branchRound x line fuel done >>= Sum.elim pure (Cursor.Braces.branches x line fuel) := by
  rw [Cursor.Braces.branches, branchRound, bind_assoc]
  refine bind_congr fun o => ?_
  cases o with
  | none => simp
  | some t =>
    dsimp only
    rw [bind_assoc]
    refine bind_congr fun o => ?_
    cases o <;> simp [readBranch]

theorem test_follows (keyword : String) : Follows x depth (test x.toSetting depth keyword)
    fun fuel => Cursor.Braces.test x fuel keyword := by
  rw [test_pieces]
  exact (Follows.expectOp _ _).andThen fun _ => (condition_follows depth).andThen fun e =>
    (Follows.expectOp _ _).andThen fun _ => .give e

include ih

theorem blockRest_follows : Follows x depth (blockRest x.toSetting (statement x.toSetting depth))
    fun fuel => Cursor.Braces.blockRest x fuel [] := by
  have hstep (done : List Stmt) : Follows x depth
      (blockStep x.toSetting (statement x.toSetting depth) done) fun fuel =>
        blockRound x fuel done :=
    .accept (fun _ => .give _) (.ifNext (.error _) (ih.andThen fun _ => .give _))
  have hlocal (done : List Stmt) : LocalIf (·.isRight)
      (blockStep x.toSetting (statement x.toSetting depth) done)
      (blockStep x.toSetting (statement x.toSetting depth) done) :=
    LocalIf.ifTaken (fun _ => Local.give _) (LocalIf.ifNext (.fail _ _)
      (LocalIf.andThen statement_local fun _ => Local.give _))
  rw [blockRest_loop]
  exact .own (.iterate (fun _ => blockStep_exhausts _ _) hlocal blockRest_round hstep [])

theorem body_follows : Follows x depth (body x.toSetting (statement x.toSetting depth))
    (Cursor.Braces.body x) := by
  rw [body_pieces]
  exact .succ (.accept (fun _ => blockRest_follows ih) ih) (Cursor.Braces.body.eq_2 x)

theorem branch_follows (keyword : String) :
    Follows x depth (branch x.toSetting depth keyword (statement x.toSetting depth))
      fun fuel => readBranch x fuel keyword := by
  rw [branch_pieces]
  exact (test_follows keyword).andThen fun e => (body_follows ih).andThen fun b => .give (e, b)

theorem branches_follows (line : Nat) (done : List Branch) : FollowsIn x depth 1
    (fun bound => branches x.toSetting depth (statement x.toSetting depth) line bound done)
    fun fuel => Cursor.Braces.branches x line fuel done := by
  have hstep (done : List Branch) : Follows x depth
      (branchStep x.toSetting depth (statement x.toSetting depth) line done) fun fuel =>
        branchRound x line fuel done :=
    .accept (fun _ => .accept (fun _ => (branch_follows ih "if").andThen fun b => .give _)
      ((body_follows ih).andThen fun b => .give _)) (.give _)
  simp only [branches_pieces]
  exact .iterate (absurd · Nat.one_ne_zero) (branchStep_local statement_local) branches_round
    hstep done

theorem loop_follows : Follows x depth
    (loop x.toSetting depth (statement x.toSetting depth) line) fun fuel => do
      let e ← Cursor.Braces.test x fuel "while"
      return [.loop e (← Cursor.Braces.body x fuel) line] := by
  have h := (branch_follows ih "while").andThen fun b => Follows.give [Stmt.loop b.1 b.2 line]
  simpa only [loop_pieces, readBranch, bind_assoc, pure_bind] using h

theorem doLoop_follows : Follows x depth
    (doLoop x.toSetting depth (statement x.toSetting depth) line) fun fuel => do
      let b ← Cursor.Braces.body x fuel
      let _ ← Cursor.expect x (·.isName "while") .whileAfterDo
      let e ← Cursor.Braces.test x fuel "while"
      Cursor.optional x (·.isOp ";")
      return b ++ [.loop e b line] := by
  rw [doLoop_pieces]
  exact (body_follows ih).andThen fun b => (Follows.take _ _).andThen fun _ =>
    (test_follows "while").andThen fun e => (Follows.optional _).andThen fun _ => .give _

theorem choice_follows : Follows x depth
    (choice x.toSetting depth (statement x.toSetting depth) line) fun fuel => do
      let e ← Cursor.Braces.test x fuel "if"
      let b ← Cursor.Braces.body x fuel
      return [← Cursor.Braces.branches x line fuel [(e, b)]] := by
  have h := Follows.after (branch_local statement_local "if") (branch_follows ih "if") fun b =>
    (branches_follows ih line [b]).andThen fun c => .give [c]
  simpa only [choice_pieces, readBranch, bind_assoc, pure_bind] using h

omit ih in
theorem statement_follows (depth : Nat) :
    Follows x depth (statement x.toSetting depth) (Cursor.Braces.statement x) := by
  induction depth with
  | zero => exact fun _ _ h => absurd h (Nat.not_lt_zero _)
  | succ depth ih =>
    rw [statement_pieces]
    refine .succ ?_ (Cursor.Braces.statement.eq_2 x)
    exact .accept_succ (fun _ => .give []) <|
      .accept_succ (fun _ => blockRest_follows ih) <|
      .accept_succ (fun t => loop_follows ih) <|
      .accept_succ (fun t => doLoop_follows ih) <|
      .accept_succ (fun t => choice_follows ih) <|
      .accept (fun _ => call_follows.andThen fun c => (Follows.optional _).andThen fun _ =>
        .give [c]) <|
      .error _

omit ih in
theorem entry_follows (depth : Nat) :
    Follows x depth (entry x.toSetting depth) (Cursor.Braces.entry x) := by
  rw [entry_pieces]
  exact (Follows.expectOp _ _).andThen fun _ => blockRest_follows (statement_follows depth)

end

end Braces

namespace Indents

/-- one round of a block, which the end of the script ends too -/
theorem blockStep_eq (stmt : Parser (List Stmt)) (done : List Stmt) :
    repeatStep more stmt done =
      (ifNext (·.any (·.kind == .dedent)) (give (.inl done.reverse)) <|
      ifNext (·.isNone) (give (.inl done.reverse)) <|
      andThen stmt fun stmts => give (.inr (stmts.reverse ++ done))) := by
  funext ts
  cases ts with
  | nil => rfl
  | cons t ts =>
    rw [repeatStep, andThen, peek, more, bne]
    cases h : t.kind == .dedent <;> simp [ifNext, h]

/-- Simple statements after some others, from the semicolon on. -/
def simplesAfter (x : Input) (fuel : Nat) (done : List Stmt) : Reading (List Stmt) := do
  if let some _ ← Cursor.acceptOp x ";" then
    if (← current x).any (·.kind == .newline) then return done.reverse
    else Cursor.Indents.simplesFrom x fuel done
  else return done.reverse

def simpleRound (x : Input) (done : List Stmt) : Reading (List Stmt ⊕ List Stmt) := do
  if let some _ ← Cursor.acceptOp x ";" then
    if (← current x).any (·.kind == .newline) then return .inl done.reverse
    else return .inr ((← Cursor.Indents.simple x).reverse ++ done)
  else return .inl done.reverse

def blockRound (x : Input) (fuel : Nat) (done : List Stmt) :
    Reading (List Stmt ⊕ List Stmt) := do
  if (← current x).any (·.kind == .dedent) then return .inl done.reverse
  else if (← current x).isNone then return .inl done.reverse
  else return .inr ((← Cursor.Indents.statement x fuel).reverse ++ done)

/-- a condition and what depends on it -/
def readBranch (x : Input) (fuel : Nat) (keyword : String) : Reading Branch := do
  let e ← Cursor.Indents.test x fuel keyword
  let b ← Cursor.Indents.suite x fuel
  return (e, b)

def branchRound (x : Input) (line fuel : Nat) (done : List Branch) :
    Reading (Stmt ⊕ List Branch) := do
  if let some _ ← Cursor.acceptName x "elif" then
    return .inr ((← readBranch x fuel "elif") :: done)
  else if let some _ ← Cursor.acceptName x "else" then
    expectOp x ":" "after 'else'"
    return .inl (.choice done.reverse (← Cursor.Indents.suite x fuel) line)
  else return .inl (.choice done.reverse [] line)

section

variable {x : Input} {n depth line : Nat}

theorem simplesFrom_eq (fuel : Nat) (done : List Stmt) :
    Cursor.Indents.simplesFrom x (fuel + 1) done =
      Cursor.Indents.simple x >>= fun stmts => simplesAfter x fuel (stmts.reverse ++ done) :=
  Cursor.Indents.simplesFrom.eq_2 x done fuel

theorem simplesAfter_round (fuel : Nat) (done : List Stmt) :
    simplesAfter x (fuel + 1) done = simpleRound x done >>= Sum.elim pure (simplesAfter x fuel) := by
  rw [simplesAfter, simpleRound, bind_assoc]
  refine bind_congr fun o => ?_
  cases o with
  | none => simp
  | some t =>
    dsimp only
    rw [bind_assoc, simplesFrom_eq]
    refine bind_congr fun c => ?_
    split <;> simp

theorem block_round (fuel : Nat) (done : List Stmt) : Cursor.Indents.block x (fuel + 1) done =
    blockRound x fuel done >>= Sum.elim pure (Cursor.Indents.block x fuel) := by
  rw [Cursor.Indents.block, blockRound, bind_assoc]
  refine bind_congr fun c => ?_
  split
  · simp
  · rw [bind_assoc]
    refine bind_congr fun c => ?_
    split <;> simp

theorem branches_round (fuel : Nat) (done : List Branch) :
    Cursor.Indents.branches x line (fuel + 1) done =
      branchRound x line fuel done >>= Sum.elim pure (Cursor.Indents.branches x line fuel) := by
  rw [Cursor.Indents.branches, branchRound, bind_assoc]
  refine bind_congr fun o => ?_
  cases o with
  | some t => simp [readBranch]
  | none =>
    dsimp only
    rw [bind_assoc]
    refine bind_congr fun o => ?_
    cases o <;> simp

theorem simple_follows : Follows x n (simple x.toSetting) fun _ => Cursor.Indents.simple x := by
  rw [simple_pieces, Cursor.Indents.simple]
  exact .accept (fun _ => .give []) <|
    .accept (fun _ => call_follows.andThen fun c => .give [c]) <| .error _

/-- A loop with its condition in the middle of its body. -/
theorem simplesFrom_follows : Follows x n
    (after (simple x.toSetting) fun first bound => simplesFrom x.toSetting bound first.reverse)
    fun fuel => Cursor.Indents.simplesFrom x fuel [] := by
  have hstep (done : List Stmt) : Follows x n (simpleStep x.toSetting done) fun _ =>
      simpleRound x done :=
    .accept (fun _ => .ifNext (.give _) (simple_follows.andThen fun _ => .give _)) (.give _)
  have hafter (done : List Stmt) : FollowsIn x n 1
      (fun bound => simplesFrom x.toSetting bound done) fun fuel => simplesAfter x fuel done := by
    simp only [simplesFrom_pieces]
    exact .iterate (absurd · Nat.one_ne_zero) simpleStep_local simplesAfter_round hstep done
  have h := Follows.after simple_local (simple_follows (x := x) (n := n)) fun first =>
    hafter first.reverse
  exact h.succ fun fuel => by simp only [simplesFrom_eq, List.append_nil]

theorem simples_follows : Follows x n (simples x.toSetting) (Cursor.Indents.simples x) := by
  have hassoc : simples x.toSetting = andThen
      (after (simple x.toSetting) fun first bound => simplesFrom x.toSetting bound first.reverse)
      fun stmts => andThen (take (·.kind == .newline) (x.toSetting.wanted .lineEnd)) fun _ =>
        give stmts := by
    rw [simples_pieces]
    exact (after_andThen _ _ _).symm
  rw [hassoc]
  exact simplesFrom_follows.andThen fun stmts => (Follows.take _ _).andThen fun _ => .give stmts

theorem test_follows (keyword : String) : Follows x depth
    (andThen (condition x.toSetting depth) fun e =>
      andThen (x.toSetting.expect ":" ("after the '" ++ keyword ++ "' condition")) fun _ => give e)
    fun fuel => Cursor.Indents.test x fuel keyword :=
  (condition_follows depth).andThen fun e => (Follows.expectOp _ _).andThen fun _ => .give e

variable (ih : Follows x depth (statement x.toSetting depth) (Cursor.Indents.statement x))

include ih

theorem block_follows : Follows x depth (repeated more (statement x.toSetting depth))
    fun fuel => Cursor.Indents.block x fuel [] := by
  refine .repeated sees_more statement_local block_round fun done => ?_
  rw [blockStep_eq]
  exact .ifNext (.give _) (.ifNext (.give _) (ih.andThen fun _ => .give _))

theorem suite_follows : Follows x depth (suite x.toSetting (statement x.toSetting depth))
    (Cursor.Indents.suite x) := by
  rw [suite_pieces]
  refine .succ ?_ (Cursor.Indents.suite.eq_2 x)
  exact .ifNext (Follows.close.andThen fun _ => .ifNext
    (Follows.close.andThen fun _ => (block_follows ih).andThen fun b =>
      Follows.close.andThen fun _ => .give b) (.error _)) simples_follows

theorem branch_follows (keyword : String) :
    Follows x depth (branch x.toSetting depth keyword (statement x.toSetting depth))
      fun fuel => readBranch x fuel keyword := by
  have h := (test_follows keyword : Follows x depth _ _).andThen fun e =>
    (suite_follows ih).andThen fun b => .give (e, b)
  simp only [andThen_assoc, give_andThen] at h
  rw [branch_pieces]
  exact h

theorem branches_follows (line : Nat) (done : List Branch) : FollowsIn x depth 1
    (fun bound => branches x.toSetting depth (statement x.toSetting depth) line bound done)
    fun fuel => Cursor.Indents.branches x line fuel done := by
  have hstep (done : List Branch) : Follows x depth
      (branchStep x.toSetting depth (statement x.toSetting depth) line done) fun fuel =>
        branchRound x line fuel done :=
    .accept (fun _ => (branch_follows ih "elif").andThen fun b => .give _) <|
      .accept (fun _ => (Follows.expectOp _ _).andThen fun _ => (suite_follows ih).andThen fun b =>
        .give _) <|
      .give _
  simp only [branches_pieces]
  exact .iterate (absurd · Nat.one_ne_zero) (branchStep_local statement_local) branches_round
    hstep done

theorem loop_follows : Follows x depth
    (loop x.toSetting depth (statement x.toSetting depth) line) fun fuel => do
      let e ← Cursor.Indents.test x fuel "while"
      return [.loop e (← Cursor.Indents.suite x fuel) line] := by
  have h := (branch_follows ih "while").andThen fun b => Follows.give [Stmt.loop b.1 b.2 line]
  simpa only [loop_pieces, readBranch, bind_assoc, pure_bind] using h

theorem choice_follows : Follows x depth
    (choice x.toSetting depth (statement x.toSetting depth) line) fun fuel => do
      let e ← Cursor.Indents.test x fuel "if"
      let b ← Cursor.Indents.suite x fuel
      return [← Cursor.Indents.branches x line fuel [(e, b)]] := by
  have h := Follows.after (branch_local statement_local "if") (branch_follows ih "if") fun b =>
    (branches_follows ih line [b]).andThen fun c => .give [c]
  simpa only [choice_pieces, readBranch, bind_assoc, pure_bind] using h

omit ih in
theorem statement_follows (depth : Nat) :
    Follows x depth (statement x.toSetting depth) (Cursor.Indents.statement x) := by
  induction depth with
  | zero => exact fun _ _ h => absurd h (Nat.not_lt_zero _)
  | succ depth ih =>
    rw [statement_pieces]
    refine .succ ?_ (Cursor.Indents.statement.eq_2 x)
    exact .accept_succ (fun t => loop_follows ih) <|
      .accept_succ (fun t => choice_follows ih) simples_follows

omit ih in
theorem entry_follows (depth : Nat) :
    Follows x depth (entry x.toSetting depth) (Cursor.Indents.entry x) := by
  rw [entry_pieces]
  exact (Follows.expectOp _ _).andThen fun _ => suite_follows (statement_follows depth)

end

end Indents

namespace Ends

/-- one round of a block -/
theorem blockStep_eq (s : Setting) (stmt : Parser (List Stmt)) (done : List Stmt) :
    repeatStep (more s) (separated stmt) done =
      (ifNext (·.any (·.isNameIn terminators)) (give (.inl done.reverse)) <|
      ifNext (·.isNone) (fail (s.wanted .closingEnd)) <|
      andThen stmt fun stmts => andThen skipped fun _ => give (.inr (stmts.reverse ++ done))) := by
  funext ts
  cases ts with
  | nil => rfl
  | cons t ts =>
    rw [repeatStep, andThen, peek, more]
    cases h : t.isNameIn terminators <;> simp [ifNext, h, separated_pieces, andThen_assoc]
    rfl

/-- a keyword and the one that turns its condition round -/
theorem ifTaken_keywords {α : Type} {a b : String} (hab : a ≠ b) (yes : Bool → Token → Parser α)
    (no : Parser α) : ifTaken (·.isName a) (yes false) (ifTaken (·.isName b) (yes true) no) =
      ifTaken (·.isNameIn [a, b]) (fun t => yes (t.text == b) t) no := by
  funext ts
  cases ts with
  | nil => rfl
  | cons t ts =>
    simp only [ifTaken, Token.isName, Token.isNameIn]
    by_cases ha : t.text = a
    · simp [ha, hab, beq_false_of_ne hab]
    · by_cases hb : t.text = b <;> simp [ha, hb, Ne.symm hab]

theorem skipped_eq : skipped = ifTaken isSeparator (fun _ => skipped) (give ()) := by
  funext ts
  cases ts with
  | nil => rfl
  | cons t ts => cases h : isSeparator t <;> simp [skipped, skip, ifTaken, give, h]

def modifierRound (x : Input) (fuel : Nat) (c : Stmt) : Reading (Stmt ⊕ Stmt) := do
  if let some t ← acceptNames x ["if", "unless", "while", "until"] then
    return .inr (modified t (← Cursor.condition x fuel) c)
  else return .inl c

def blockRound (x : Input) (fuel : Nat) (done : List Stmt) :
    Reading (List Stmt ⊕ List Stmt) := do
  if (← current x).any (·.isNameIn terminators) then return .inl done.reverse
  else if (← current x).isNone then error x .closingEnd
  else
    let stmts ← Cursor.Ends.statement x fuel
    Cursor.Ends.skip x fuel
    return .inr (stmts.reverse ++ done)

/-- a condition and what depends on it -/
def readBranch (x : Input) (fuel : Nat) (negated : Bool) (line : Nat) : Reading Branch := do
  let e ← Cursor.Ends.test x fuel negated line
  Cursor.optional x (·.isName "then")
  let b ← Cursor.Ends.body x fuel
  return (e, b)

def branchRound (x : Input) (line fuel : Nat) (done : List Branch) :
    Reading (Stmt ⊕ List Branch) := do
  if let some _ ← Cursor.acceptName x "elsif" then
    return .inr ((← readBranch x fuel false line) :: done)
  else
    let otherwise ← Cursor.Ends.lastBranch x fuel
    let _ ← Cursor.expect x (·.isName "end") .closingEnd
    return .inl (.choice done.reverse otherwise line)

theorem ifTaken_andThen {α β : Type} (test : Token → Bool) (yes : Token → Parser α)
    (no : Parser α) (f : α → Parser β) : andThen (ifTaken test yes no) f =
      ifTaken test (fun t => andThen (yes t) f) (andThen no f) := by
  funext ts
  cases ts with
  | nil => rfl
  | cons t ts => cases h : test t <;> simp [andThen, ifTaken, h]

/-- The last branch may be missing; then the choice ends all the same. -/
theorem branchStep_eq (s : Setting) (depth : Nat) (stmt : Parser (List Stmt)) (line : Nat)
    (done : List Branch) : branchStep s depth stmt line done =
      (ifTaken (·.isName "elsif")
        (fun _ => andThen (branch s depth false line stmt) fun b => give (.inr (b :: done))) <|
      andThen (ifTaken (·.isName "else") (fun _ => body s stmt) (give [])) fun otherwise =>
        andThen (take (·.isName "end") (s.wanted .closingEnd)) fun _ =>
          give (.inl (.choice done.reverse otherwise line))) := by
  simp only [branchStep, block_pieces, ifTaken_andThen, andThen_assoc, give_andThen]

section

variable {x : Input} {n depth line : Nat}

theorem modifiers_round (fuel : Nat) (c : Stmt) : Cursor.Ends.modifiers x (fuel + 1) c =
    modifierRound x fuel c >>= Sum.elim pure (Cursor.Ends.modifiers x fuel) := by
  rw [Cursor.Ends.modifiers, modifierRound, bind_assoc]
  refine bind_congr fun o => ?_
  cases o <;> simp

theorem bodyRest_round (fuel : Nat) (done : List Stmt) :
    Cursor.Ends.bodyRest x (fuel + 1) done =
      blockRound x fuel done >>= Sum.elim pure (Cursor.Ends.bodyRest x fuel) := by
  rw [Cursor.Ends.bodyRest, blockRound, bind_assoc]
  refine bind_congr fun c => ?_
  split
  · simp
  · rw [bind_assoc]
    refine bind_congr fun c => ?_
    split <;> simp

theorem test_false (fuel : Nat) : Cursor.Ends.test x fuel false line = Cursor.condition x fuel :=
  bind_pure _

theorem branches_round (fuel : Nat) (done : List Branch) :
    Cursor.Ends.branches x line (fuel + 1) done =
      branchRound x line fuel done >>= Sum.elim pure (Cursor.Ends.branches x line fuel) := by
  rw [Cursor.Ends.branches, branchRound, bind_assoc]
  refine bind_congr fun o => ?_
  cases o <;> simp [readBranch, test_false]

theorem skip_follows : Follows x n skipped (Cursor.Ends.skip x) := by
  induction n with
  | zero => exact fun _ _ h => absurd h (Nat.not_lt_zero _)
  | succ n ih =>
    rw [skipped_eq]
    exact .succ (.accept_succ (fun _ => ih) (.give ())) (Cursor.Ends.skip.eq_2 x)

theorem test_follows (negated : Bool) : Follows x depth (test x.toSetting depth negated line)
    fun fuel => Cursor.Ends.test x fuel negated line := by
  rw [test_pieces]
  exact (condition_follows depth).andThen fun e => .give _

theorem modifiers_follows (c : Stmt) : FollowsIn x depth 0
    (fun bound => modifiers x.toSetting depth bound c) fun fuel => Cursor.Ends.modifiers x fuel c := by
  have hstep (c : Stmt) : Follows x depth (modifierStep x.toSetting depth c) fun fuel =>
      modifierRound x fuel c :=
    .accept (fun t => (condition_follows depth).andThen fun e => .give _) (.give _)
  simp only [modifiers_pieces]
  exact .iterate (fun _ => modifierStep_exhausts _) modifierStep_local modifiers_round hstep c

variable (ih : Follows x depth (statement x.toSetting depth) (Cursor.Ends.statement x))

include ih

theorem body_follows : Follows x depth (body x.toSetting (statement x.toSetting depth))
    (Cursor.Ends.body x) := by
  have hrest : Follows x depth
      (repeated (more x.toSetting) (separated (statement x.toSetting depth)))
      fun fuel => Cursor.Ends.bodyRest x fuel [] := by
    refine .repeated sees_more (separated_local statement_local) bodyRest_round fun done => ?_
    rw [blockStep_eq]
    exact .ifNext (.give _) (.ifNext (.error _) (ih.andThen fun _ =>
      skip_follows.andThen fun _ => .give _))
  rw [body_pieces]
  exact .succ (skip_follows.andThen fun _ => hrest) (Cursor.Ends.body.eq_2 x)

theorem block_follows : Follows x depth (block x.toSetting (statement x.toSetting depth))
    (Cursor.Ends.block x) := by
  rw [block_pieces]
  refine .succ ?_ (Cursor.Ends.block.eq_2 x)
  exact (body_follows ih).andThen fun b => (Follows.take _ _).andThen fun _ => .give b

theorem branch_follows (negated : Bool) (line : Nat) : Follows x depth
    (branch x.toSetting depth negated line (statement x.toSetting depth))
    fun fuel => readBranch x fuel negated line := by
  rw [branch_pieces]
  exact (test_follows negated).andThen fun e => (Follows.optional _).andThen fun _ =>
    (body_follows ih).andThen fun b => .give (e, b)

theorem lastBranch_follows : Follows x depth
    (ifTaken (·.isName "else") (fun _ => body x.toSetting (statement x.toSetting depth)) (give []))
    (Cursor.Ends.lastBranch x) :=
  .succ (.accept (fun _ => body_follows ih) (.give [])) (Cursor.Ends.lastBranch.eq_2 x)

theorem branches_follows (line : Nat) (done : List Branch) : FollowsIn x depth 1
    (fun bound => branches x.toSetting depth (statement x.toSetting depth) line bound done)
    fun fuel => Cursor.Ends.branches x line fuel done := by
  have hstep (done : List Branch) : Follows x depth
      (branchStep x.toSetting depth (statement x.toSetting depth) line done) fun fuel =>
        branchRound x line fuel done := by
    rw [branchStep_eq]
    exact .accept (fun _ => (branch_follows ih false line).andThen fun b => .give _) <|
      (lastBranch_follows ih).andThen fun b => (Follows.take _ _).andThen fun _ => .give _
  simp only [branches_pieces]
  exact .iterate (absurd · Nat.one_ne_zero) (branchStep_local statement_local) branches_round
    hstep done

theorem loop_follows (negated : Bool) : Follows x depth
    (loop x.toSetting depth negated (statement x.toSetting depth) line) fun fuel => do
      let e ← Cursor.Ends.test x fuel negated line
      Cursor.optional x (·.isName "do")
      return [.loop e (← Cursor.Ends.block x fuel) line] := by
  rw [loop_pieces]
  exact (test_follows negated).andThen fun e => (Follows.optional _).andThen fun _ =>
    (block_follows ih).andThen fun b => .give _

theorem forever_follows : Follows x depth
    (forever x.toSetting (statement x.toSetting depth) line) fun fuel => do
      let _ ← Cursor.expect x (·.isName "do") .doAfterLoop
      return [.loop (.literal true line) (← Cursor.Ends.block x fuel) line] := by
  rw [forever_pieces]
  exact (Follows.take _ _).andThen fun _ => (block_follows ih).andThen fun b => .give _

theorem choice_follows (negated : Bool) : Follows x depth
    (choice x.toSetting depth negated (statement x.toSetting depth) line) fun fuel => do
      let e ← Cursor.Ends.test x fuel negated line
      Cursor.optional x (·.isName "then")
      let b ← Cursor.Ends.body x fuel
      return [← Cursor.Ends.branches x line fuel [(e, b)]] := by
  have h := Follows.after (branch_local statement_local negated) (branch_follows ih negated line)
    fun b => (branches_follows ih line [b]).andThen fun c => .give [c]
  simpa only [choice_pieces, readBranch, bind_assoc, pure_bind] using h

omit ih in
theorem statement_follows (depth : Nat) :
    Follows x depth (statement x.toSetting depth) (Cursor.Ends.statement x) := by
  induction depth with
  | zero => exact fun _ _ h => absurd h (Nat.not_lt_zero _)
  | succ depth ih =>
    rw [statement_pieces,
      ifTaken_keywords (a := "while") (by decide) (fun negated t =>
        loop x.toSetting depth negated (statement x.toSetting depth) t.line),
      ifTaken_keywords (a := "if") (by decide) (fun negated t =>
        choice x.toSetting depth negated (statement x.toSetting depth) t.line)]
    refine .succ ?_ (Cursor.Ends.statement.eq_2 x)
    exact .accept_succ (fun t => loop_follows ih _) <|
      .accept_succ (fun t => forever_follows ih) <|
      .accept_succ (fun t => choice_follows ih _) <|
      .accept_succ (fun _ => call_follows.andThen fun c =>
        .own ((modifiers_follows c).andThen fun c => .give [c])) <|
      .error _

omit ih in
theorem entry_follows (depth : Nat) :
    Follows x depth (entry x.toSetting depth) (Cursor.Ends.block x) := by
  rw [entry_pieces]
  exact block_follows (statement_follows depth)

end

end Ends

/-- **The body of an entry routine is read with a cursor as by a reader that may go deep enough.** -/
theorem entry_follows (depth : Nat) :
    Follows x depth (entry x.toSetting depth) (Cursor.entry x) := by
  intro i hi hlt
  simp only [entry, Cursor.entry]
  cases x.dialect with
  | braced => exact Braces.entry_follows depth i hi hlt
  | functional => exact Braces.entry_follows depth i hi hlt
  | indented => exact Indents.entry_follows depth i hi hlt
  | ended => exact Ends.entry_follows depth i hi hlt

end Ladybug.Script

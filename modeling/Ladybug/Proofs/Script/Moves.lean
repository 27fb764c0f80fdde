import Ladybug.Proofs.Script.Calls
import Ladybug.Proofs.Script.Execution

/-!
# The moves of a program

What a program still has to do, read as one block, is what is left of the execution of the whole
program. Each move makes it smaller or can be seen: a command, or an iteration that begins.

* `blockNesting`         how deep the blocks and conditions of a block are nested, itself counted in
* `Agenda.continues`     one move, seen from the execution of what is still to be done
* `Goes`                 the moves from one agenda to another
* `Goes.linear`          there is only one way to go
* `Goes.run`, `Run.goes` the moves are an execution that has been cut off, and each one is made so
* `Agenda.resume_goes`   the moves up to the next command
-/

namespace Ladybug.Script

/-! ### nesting -/

mutual

/-- how deep the operands of a condition are nested -/
def Expr.nesting : Expr → Nat
  | .sensor _ _ => 0
  | .literal _ _ => 0
  | .not e _ => e.nesting + 1
  | .and es _ => operandNesting es + 1
  | .or es _ => operandNesting es + 1

def operandNesting : List Expr → Nat
  | [] => 0
  | e :: es => max e.nesting (operandNesting es)

end

mutual

/-- how deep the blocks and conditions in a statement are nested -/
def Stmt.nesting : Stmt → Nat
  | .command _ _ => 0
  | .ask e _ => e.nesting
  | .loop e body _ => max e.nesting (blockNesting body)
  | .choice branches otherwise _ => max (branchNesting branches) (blockNesting otherwise)

def blockNesting : List Stmt → Nat
  | [] => 1
  | s :: rest => max (s.nesting + 1) (blockNesting rest)

def branchNesting : List (Expr × List Stmt) → Nat
  | [] => 0
  | (e, body) :: rest => max (max e.nesting (blockNesting body)) (branchNesting rest)

end

mutual

theorem Expr.descent_le (w : World) : ∀ e : Expr, e.descent w ≤ e.nesting
  | .sensor _ _ => Nat.le_refl 0
  | .literal _ _ => Nat.le_refl 0
  | .not e _ => Nat.succ_le_succ (Expr.descent_le w e)
  | .and es _ => Nat.succ_le_succ (operandDescent_le w false es)
  | .or es _ => Nat.succ_le_succ (operandDescent_le w true es)

theorem operandDescent_le (w : World) (decisive : Bool) :
    ∀ es : List Expr, operandDescent w decisive es ≤ operandNesting es
  | [] => Nat.le_refl 0
  | e :: es => by
    have hfirst := Expr.descent_le w e
    have hrest := operandDescent_le w decisive es
    rw [operandDescent, operandNesting]
    split <;> omega

end

theorem branchDescent_le (w : World) (branches : List (Expr × List Stmt)) :
    branchDescent w branches ≤ branchNesting branches := by
  induction branches with
  | nil => exact Nat.le_refl 0
  | cons b rest ih =>
    obtain ⟨e, body⟩ := b
    have hfirst := e.descent_le w
    rw [branchDescent, branchNesting]
    split <;> omega

/-- No evaluation goes deeper than conditions are nested. -/
theorem Stmt.descent_le (w : World) (s : Stmt) : s.descent w ≤ s.nesting := by
  cases s with
  | command => exact Nat.le_refl 0
  | ask e => exact e.descent_le w
  | loop e body => exact Nat.le_trans (e.descent_le w) (Nat.le_max_left _ _)
  | choice branches otherwise =>
    exact Nat.le_trans (branchDescent_le w branches) (Nat.le_max_left _ _)

theorem blockNesting_tail (s : Stmt) (rest : List Stmt) :
    blockNesting rest ≤ blockNesting (s :: rest) := by
  rw [blockNesting]
  omega

theorem blockNesting_chosen (w : World) (otherwise : List Stmt)
    (branches : List (Expr × List Stmt)) :
    blockNesting (chosen w otherwise branches)
      ≤ max (branchNesting branches) (blockNesting otherwise) := by
  induction branches with
  | nil => exact Nat.le_max_right _ _
  | cons b bs ih =>
    obtain ⟨e, body⟩ := b
    rw [chosen, branchNesting]
    split <;> omega

/-- what is left of blocks that are nested at most `m` deep -/
def Agenda.Fits (m : Nat) : Agenda → Prop
  | [] => True
  | block :: outer => outer.length + blockNesting block ≤ m ∧ Fits m outer

theorem Agenda.Fits.height_le {m : Nat} {a : Agenda} (h : a.Fits m) (w : World) :
    a.height w ≤ m := by
  match a with
  | [] => exact Nat.zero_le m
  | [] :: outer => exact h.1
  | (s :: rest) :: outer =>
    have hdescent := s.descent_le w
    have hblock := h.1
    rw [blockNesting] at hblock
    rw [height]
    omega

theorem Agenda.Fits.tail {m : Nat} {s : Stmt} {rest : List Stmt} {outer : Agenda}
    (h : Agenda.Fits m ((s :: rest) :: outer)) : Agenda.Fits m (rest :: outer) :=
  ⟨Nat.le_trans (Nat.add_le_add_left (blockNesting_tail s rest) _) h.1, h.2⟩

/-! ### one move -/

def Move.rest : Move → Agenda
  | .done => []
  | .emit _ rest | .go rest | .again _ rest => rest

theorem Agenda.Fits.step {m : Nat} {a : Agenda} (w : World) (h : a.Fits m) :
    (a.step w).rest.Fits m := by
  unfold Agenda.step
  split
  · trivial
  · exact h.2
  · exact h.tail
  · exact h.tail
  · split
    · refine ⟨?_, h⟩
      have := h.1
      rw [blockNesting, Stmt.nesting] at this
      rw [List.length_cons]
      omega
    · exact h.tail
  · refine ⟨?_, h.tail⟩
    rename_i branches otherwise _ _ _
    have := h.1
    have := blockNesting_chosen w otherwise branches
    rw [blockNesting, Stmt.nesting] at *
    rw [List.length_cons]
    omega

/-- An execution of a block, given one of what a move leaves to be done. -/
def Move.Continues (ws : Nat → World) (k : Nat) (block : List Stmt) : Move → Prop
  | .done => Run ws k block [] .done
  | .emit c rest => ∀ es f, Run ws (k + 1) rest.flatten es f → Run ws k block (.emit c :: es) f
  | .go rest => ∀ es f, Run ws k rest.flatten es f → Run ws k block es f
  | .again line rest => ∀ es f, Run ws k rest.flatten es f → Run ws k block (.enter line :: es) f

theorem Agenda.continues (ws : Nat → World) (k : Nat) (a : Agenda) :
    (a.step (ws k)).Continues ws k a.flatten := by
  unfold Agenda.step
  split
  · exact .done
  · exact fun _ _ h => h
  · exact fun _ _ h => .command h
  · exact fun _ _ h => .ask h
  · split
    · rename_i e body line rest outer holds
      intro es f h
      rw [List.flatten_cons] at h
      cases h.split with
      | within first => exact .loopCut (Expr.value_iff.mpr holds) first
      | across first second => exact .loopOn (Expr.value_iff.mpr holds) first second
    · rename_i fails
      exact fun _ _ h => .loopOver (Expr.value_iff.mpr (Bool.not_eq_true _ ▸ fails)) h
  · intro es f h
    rw [List.flatten_cons] at h
    cases h.split with
    | within first => exact .choiceCut (picks_iff.mpr rfl) first
    | across first second => exact .choiceOn (picks_iff.mpr rfl) first second

/-! ### move after move -/

/-- the events that can be seen of a move -/
def Move.seen : Move → List Event
  | .done | .go _ => []
  | .emit c _ => [.emit c]
  | .again line _ => [.enter line]

/-- nested too deeply -/
def Agenda.Deep (deepest : Option Nat) (w : World) (a : Agenda) : Prop :=
  ∃ n, deepest = some n ∧ n < a.height w

/-- The moves from one agenda to another, the first one after `k` commands, and the events seen of
them. No move is made that goes too deep. -/
inductive Goes (ws : Nat → World) (deepest : Option Nat) :
    (k : Nat) → Agenda → List Event → Agenda → Prop
  | here {k : Nat} {a : Agenda} : Goes ws deepest k a [] a
  | move {k : Nat} {a b : Agenda} {es : List Event} (more : a ≠ [])
      (shallow : ¬ a.Deep deepest (ws k))
      (after : Goes ws deepest (k + (emitted (a.step (ws k)).seen).length) (a.step (ws k)).rest
        es b) :
      Goes ws deepest k a ((a.step (ws k)).seen ++ es) b

section

variable {ws : Nat → World} {deepest : Option Nat} {k : Nat} {a b c : Agenda}
  {es es' : List Event}

theorem Agenda.deep_iff {w : World} :
    (deepest.any fun n => n < a.height w) = true ↔ a.Deep deepest w := by
  cases deepest with
  | none => simp [Agenda.Deep]
  | some n => simp [Agenda.Deep]

theorem Agenda.step_eq_done {w : World} (h : a.step w = .done) : a = [] := by
  unfold Agenda.step at h
  split at h
  · rfl
  · cases h
  · cases h
  · cases h
  · split at h <;> cases h
  · cases h

theorem Goes.at (h : Goes ws deepest k a es b) {k' : Nat} (hk : k = k') :
    Goes ws deepest k' a es b :=
  hk ▸ h

theorem Goes.trans (h : Goes ws deepest k a es b)
    (h' : Goes ws deepest (k + (emitted es).length) b es' c) :
    Goes ws deepest k a (es ++ es') c := by
  induction h with
  | here => exact h'
  | move more shallow _ ih =>
    rw [List.append_assoc]
    refine .move more shallow (ih (h'.at ?_))
    rw [emitted_append, List.length_append, Nat.add_assoc]

/-- Of two ways to go from an agenda one goes on where the other ends. -/
theorem Goes.linear {b' : Agenda} (h : Goes ws deepest k a es b) (h' : Goes ws deepest k a es' b') :
    (∃ more, es' = es ++ more ∧ Goes ws deepest (k + (emitted es).length) b more b') ∨
      ∃ more, es = es' ++ more ∧ Goes ws deepest (k + (emitted es').length) b' more b := by
  induction h generalizing es' b' with
  | here => exact .inl ⟨es', rfl, h'⟩
  | move more shallow after ih =>
    cases h' with
    | here => exact .inr ⟨_, rfl, .move more shallow after⟩
    | move _ _ after' =>
      rcases ih after' with ⟨rest, rfl, h⟩ | ⟨rest, rfl, h⟩
      · refine .inl ⟨rest, (List.append_assoc _ _ _).symm, h.at ?_⟩
        rw [emitted_append, List.length_append, Nat.add_assoc]
      · refine .inr ⟨rest, (List.append_assoc _ _ _).symm, h.at ?_⟩
        rw [emitted_append, List.length_append, Nat.add_assoc]

theorem Goes.eq_of_nil (h : Goes ws deepest k [] es b) : es = [] ∧ b = [] := by
  cases h with
  | here => exact ⟨rfl, rfl⟩
  | move more => exact absurd rfl more

theorem Goes.eq_of_deep (h : Goes ws deepest k a es b) (ha : a.Deep deepest (ws k)) :
    es = [] ∧ b = a := by
  cases h with
  | here => exact ⟨rfl, rfl⟩
  | move _ shallow => exact absurd ha shallow

theorem Goes.fits {m : Nat} (h : Goes ws deepest k a es b) (ha : a.Fits m) : b.Fits m := by
  induction h with
  | here => exact ha
  | move _ _ _ ih => exact ih (ha.step _)

/-! ### moves and executions -/

theorem Agenda.continues_seen (ws : Nat → World) (k : Nat) (a : Agenda) {f : Ending}
    (h : Run ws (k + (emitted (a.step (ws k)).seen).length) (a.step (ws k)).rest.flatten es f) :
    Run ws k a.flatten ((a.step (ws k)).seen ++ es) f := by
  have hmove := a.continues ws k
  cases hm : a.step (ws k) with
  | done =>
    rw [hm] at h
    rwa [Agenda.step_eq_done hm]
  | emit c rest =>
    rw [hm] at hmove h
    exact hmove _ _ h
  | go rest =>
    rw [hm] at hmove h
    exact hmove _ _ h
  | again line rest =>
    rw [hm] at hmove h
    exact hmove _ _ h

/-- Moves, and then an execution of what is left, make an execution of what was to be done. -/
theorem Goes.run (h : Goes ws deepest k a es b) {f : Ending}
    (after : Run ws (k + (emitted es).length) b.flatten es' f) :
    Run ws k a.flatten (es ++ es') f := by
  induction h with
  | here => exact after
  | @move k a b es _ _ _ ih =>
    rw [List.append_assoc]
    refine a.continues_seen ws k (ih (after.from ?_))
    rw [emitted_append, List.length_append, Nat.add_assoc]

theorem Agenda.Fits.not_deep {w : World} (h : ∀ n, deepest = some n → a.Fits n) :
    ¬ a.Deep deepest w := by
  rintro ⟨n, hn, hlt⟩
  exact absurd ((h n hn).height_le w) (Nat.not_le_of_lt hlt)

theorem Goes.first {m : Move} (shallow : ¬ a.Deep deepest (ws k)) (hm : a.step (ws k) = m)
    (hne : m ≠ .done) (after : Goes ws deepest (k + (emitted m.seen).length) m.rest es b) :
    Goes ws deepest k a (m.seen ++ es) b := by
  subst hm
  exact .move (fun h => hne (by rw [h]; rfl)) shallow after

theorem Agenda.Fits.rest {m : Move} {w : World} (hfits : ∀ n, deepest = some n → a.Fits n)
    (hm : a.step w = m) : ∀ n, deepest = some n → m.rest.Fits n :=
  fun n hn => hm ▸ (hfits n hn).step w

theorem Agenda.step_over {w : World} {e : Expr} (fails : e.Value w false) (body rest : List Stmt)
    (line : Nat) (outer : Agenda) :
    step w ((.loop e body line :: rest) :: outer) = .go (rest :: outer) := by
  rw [step, Expr.value_iff.mp fails]
  rfl

theorem Agenda.step_again {w : World} {e : Expr} (holds : e.Value w true) (body rest : List Stmt)
    (line : Nat) (outer : Agenda) :
    step w ((.loop e body line :: rest) :: outer) =
      .again line (body :: (.loop e body line :: rest) :: outer) := by
  rw [step, Expr.value_iff.mp holds]
  rfl

theorem Agenda.step_picks {w : World} {otherwise body : List Stmt}
    {branches : List (Expr × List Stmt)} (picks : Picks w otherwise branches body)
    (rest : List Stmt) (line : Nat) (outer : Agenda) :
    step w ((.choice branches otherwise line :: rest) :: outer) = .go (body :: rest :: outer) := by
  rw [step, picks_iff.mp picks]

/-- An execution that is cut off is made by moves, when nothing is nested too deeply; one that has
come to its end leads to what stands after the block. -/
theorem Run.goes {block : List Stmt} {f : Ending} (h : Run ws k block es f) (outer : Agenda)
    (hfits : ∀ n, deepest = some n → Agenda.Fits n (block :: outer)) :
    ∃ a, Goes ws deepest k (block :: outer) es a ∧ (f = .done → a = outer) := by
  induction h generalizing outer with
  | cut => exact ⟨_, .here, nofun⟩
  | done =>
    refine ⟨outer, ?_, fun _ => rfl⟩
    exact .first (m := .go outer) (Agenda.Fits.not_deep hfits) rfl nofun .here
  | @command k line c rest es f _ ih =>
    obtain ⟨a, hgoes, hdone⟩ := ih outer fun n hn => (hfits n hn).tail
    exact ⟨a, .first (m := .emit c (rest :: outer)) (Agenda.Fits.not_deep hfits) rfl nofun hgoes,
      hdone⟩
  | @ask k line s rest es f _ ih =>
    obtain ⟨a, hgoes, hdone⟩ := ih outer fun n hn => (hfits n hn).tail
    exact ⟨a, .first (m := .go (rest :: outer)) (Agenda.Fits.not_deep hfits) rfl nofun hgoes, hdone⟩
  | @loopOver k line e body rest es f fails _ ih =>
    have hm := Agenda.step_over fails body rest line outer
    obtain ⟨a, hgoes, hdone⟩ := ih _ (Agenda.Fits.rest hfits hm)
    exact ⟨a, .first (Agenda.Fits.not_deep hfits) hm nofun hgoes, hdone⟩
  | @loopCut k line e body rest es holds _ ih =>
    have hm := Agenda.step_again holds body rest line outer
    obtain ⟨a, hgoes, _⟩ := ih _ (Agenda.Fits.rest hfits hm)
    exact ⟨a, .first (Agenda.Fits.not_deep hfits) hm nofun hgoes, nofun⟩
  | @loopOn k line e body rest es es' f holds _ _ ihInside ihAfter =>
    have hm := Agenda.step_again holds body rest line outer
    obtain ⟨_, hinside, hback⟩ := ihInside _ (Agenda.Fits.rest hfits hm)
    obtain rfl := hback rfl
    obtain ⟨a, hafter, hdone⟩ := ihAfter outer hfits
    exact ⟨a, .first (Agenda.Fits.not_deep hfits) hm nofun (hinside.trans hafter), hdone⟩
  | @choiceCut k line branches otherwise body rest es picks _ ih =>
    have hm := Agenda.step_picks picks rest line outer
    obtain ⟨a, hgoes, _⟩ := ih _ (Agenda.Fits.rest hfits hm)
    exact ⟨a, .first (Agenda.Fits.not_deep hfits) hm nofun hgoes, nofun⟩
  | @choiceOn k line branches otherwise body rest es es' f picks _ _ ihInside ihAfter =>
    have hm := Agenda.step_picks picks rest line outer
    obtain ⟨_, hinside, hback⟩ := ihInside _ (Agenda.Fits.rest hfits hm)
    obtain rfl := hback rfl
    obtain ⟨a, hafter, hdone⟩ := ihAfter outer fun n hn => (hfits n hn).tail
    exact ⟨a, .first (Agenda.Fits.not_deep hfits) hm nofun (hinside.trans hafter), hdone⟩

/-! ### the moves up to the next command -/

/-- Why the search for a command stops where `a` is to be done, `left` being the number of
iterations that may still begin. -/
inductive Pauses (deepest : Option Nat) (w : World) (left : Nat) (a : Agenda) :
    Except Halt (Command × Agenda) → Prop
  | command {c : Command} {rest : Agenda} (shallow : ¬ a.Deep deepest w)
      (found : a.step w = .emit c rest) : Pauses deepest w left a (.ok (c, rest))
  | finished (empty : a = []) : Pauses deepest w left a (.error .finished)
  | idle {line : Nat} {rest : Agenda} (shallow : ¬ a.Deep deepest w)
      (again : a.step w = .again line rest) (none : left = 0) :
      Pauses deepest w left a (.error (.idle line))
  | tooDeep (deep : a.Deep deepest w) : Pauses deepest w left a (.error .tooDeep)

/-- **The search for a command moves on, through no more iterations than may begin, to where it must
stop.** -/
theorem Agenda.resume_goes (ws : Nat → World) (deepest : Option Nat) (k idle : Nat) (a : Agenda) :
    ∃ (lines : List Nat) (left : Nat) (b : Agenda),
      Goes ws deepest k a (lines.map .enter) b ∧ lines.length + left = idle ∧
        Pauses deepest (ws k) left b (a.resume deepest (ws k) idle) := by
  fun_induction Agenda.resume deepest (ws k) idle a with
  | case1 idle a h => exact ⟨[], idle, a, .here, Nat.zero_add _, .tooDeep (Agenda.deep_iff.mp h)⟩
  | case2 idle a h hstep =>
    exact ⟨[], idle, a, .here, Nat.zero_add _, .finished (Agenda.step_eq_done hstep)⟩
  | case3 idle a h c rest hstep =>
    exact ⟨[], idle, a, .here, Nat.zero_add _, .command (mt Agenda.deep_iff.mpr h) hstep⟩
  | case4 idle a h rest hstep _ ih =>
    obtain ⟨lines, left, b, hgoes, hcount, hpauses⟩ := ih
    exact ⟨lines, left, b, .first (mt Agenda.deep_iff.mpr h) hstep nofun hgoes, hcount, hpauses⟩
  | case5 a h line rest hstep =>
    exact ⟨[], 0, a, .here, rfl, .idle (mt Agenda.deep_iff.mpr h) hstep rfl⟩
  | case6 a h line rest hstep idle ih =>
    obtain ⟨lines, left, b, hgoes, hcount, hpauses⟩ := ih
    refine ⟨line :: lines, left, b, .first (mt Agenda.deep_iff.mpr h) hstep nofun hgoes, ?_,
      hpauses⟩
    rw [List.length_cons]
    omega

end

end Ladybug.Script

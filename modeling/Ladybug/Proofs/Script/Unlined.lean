import Ladybug.Proofs.Script.Calls
import Ladybug.Proofs.Script.Shape

/-!
# Lines do not matter to a run

Programs that differ in their lines only give the same commands and the same world, and end with the
same fault, up to the line that the fault names.

* `Agenda.step_unlined`, `Agenda.resume_unlined`   moves of programs without lines
* `Interpreter.Alike`        programs under way that differ in lines
* `extractProgram_alike`     whole runs
-/

namespace Ladybug

/-- a fault without the line that it names -/
def Fault.unlined (f : Fault) : Fault := { f with line := none }

end Ladybug

namespace Ladybug.Script

mutual

theorem Expr.eval_unlined (w : World) : ∀ e : Expr, e.unlined.eval w = e.eval w
  | .sensor _ _ => rfl
  | .literal _ _ => rfl
  | .not e _ => congrArg Bool.not (Expr.eval_unlined w e)
  | .and es _ => allHold_unlined w es
  | .or es _ => someHolds_unlined w es

theorem allHold_unlined (w : World) : ∀ es : List Expr, allHold w (unlinedAll es) = allHold w es
  | [] => rfl
  | e :: es => by rw [unlinedAll, allHold, allHold, Expr.eval_unlined w e, allHold_unlined w es]

theorem someHolds_unlined (w : World) :
    ∀ es : List Expr, someHolds w (unlinedAll es) = someHolds w es
  | [] => rfl
  | e :: es => by
    rw [unlinedAll, someHolds, someHolds, Expr.eval_unlined w e, someHolds_unlined w es]

end

theorem chosen_unlined (w : World) (otherwise : List Stmt) (branches : List (Expr × List Stmt)) :
    chosen w (unlinedBlock otherwise) (unlinedBranches branches) =
      unlinedBlock (chosen w otherwise branches) := by
  induction branches with
  | nil => rfl
  | cons b rest ih =>
    obtain ⟨e, body⟩ := b
    rw [unlinedBranches, chosen, chosen, Expr.eval_unlined, ih]
    split <;> rfl

mutual

theorem Expr.descent_unlined (w : World) : ∀ e : Expr, e.unlined.descent w = e.descent w
  | .sensor _ _ => rfl
  | .literal _ _ => rfl
  | .not e _ => congrArg Nat.succ (Expr.descent_unlined w e)
  | .and es _ => congrArg Nat.succ (operandDescent_unlined w false es)
  | .or es _ => congrArg Nat.succ (operandDescent_unlined w true es)

theorem operandDescent_unlined (w : World) (decisive : Bool) :
    ∀ es : List Expr, operandDescent w decisive (unlinedAll es) = operandDescent w decisive es
  | [] => rfl
  | e :: es => by
    rw [unlinedAll, operandDescent, operandDescent, Expr.eval_unlined, Expr.descent_unlined w e,
      operandDescent_unlined w decisive es]

end

theorem branchDescent_unlined (w : World) (branches : List (Expr × List Stmt)) :
    branchDescent w (unlinedBranches branches) = branchDescent w branches := by
  induction branches with
  | nil => rfl
  | cons b rest ih =>
    obtain ⟨e, body⟩ := b
    rw [unlinedBranches, branchDescent, branchDescent, Expr.eval_unlined, Expr.descent_unlined, ih]

theorem Stmt.descent_unlined (w : World) (s : Stmt) : s.unlined.descent w = s.descent w := by
  cases s with
  | command => rfl
  | ask e => exact e.descent_unlined w
  | loop e => exact e.descent_unlined w
  | choice branches => exact branchDescent_unlined w branches

/-! ### moves -/

def Agenda.unlined (a : Agenda) : Agenda := a.map unlinedBlock

def Move.unlined : Move → Move
  | .done => .done
  | .emit c rest => .emit c rest.unlined
  | .go rest => .go rest.unlined
  | .again _ rest => .again 0 rest.unlined

theorem Agenda.step_unlined (w : World) (a : Agenda) : a.unlined.step w = (a.step w).unlined := by
  match a with
  | [] => rfl
  | [] :: outer => rfl
  | (.command c line :: rest) :: outer => rfl
  | (.ask e line :: rest) :: outer => rfl
  | (.loop e body line :: rest) :: outer =>
    show Agenda.step w ((.loop e.unlined (unlinedBlock body) 0 :: unlinedBlock rest) ::
      Agenda.unlined outer) = _
    rw [Agenda.step, Agenda.step, Expr.eval_unlined]
    split <;> rfl
  | (.choice branches otherwise line :: rest) :: outer =>
    show Agenda.step w ((.choice (unlinedBranches branches) (unlinedBlock otherwise) 0 ::
      unlinedBlock rest) :: Agenda.unlined outer) = _
    rw [Agenda.step, Agenda.step, chosen_unlined]
    rfl

theorem Agenda.height_unlined (w : World) (a : Agenda) : a.unlined.height w = a.height w := by
  have hlength : ∀ outer : Agenda, (unlined outer).length = outer.length :=
    fun _ => List.length_map _
  match a with
  | [] => rfl
  | [] :: outer => exact congrArg Nat.succ (hlength outer)
  | (s :: rest) :: outer =>
    show (unlined outer).length + 1 + s.unlined.descent w = _
    rw [hlength, Stmt.descent_unlined, height]

def Halt.unlined : Halt → Halt
  | .idle _ => .idle 0
  | h => h

/-- what the search for the next command has found, without lines -/
def unlinedResult : Except Halt (Command × Agenda) → Except Halt (Command × Agenda)
  | .ok (c, rest) => .ok (c, rest.unlined)
  | .error h => .error h.unlined

theorem Agenda.resume_unlined (deepest : Option Nat) (w : World) (idle : Nat) (a : Agenda) :
    a.unlined.resume deepest w idle = unlinedResult (a.resume deepest w idle) := by
  fun_induction Agenda.resume deepest w idle a with
  | case1 idle a h =>
    rw [Agenda.resume, Agenda.height_unlined, if_pos h]
    rfl
  | case2 idle a h hstep =>
    rw [Agenda.resume_eq (by rwa [Agenda.height_unlined]), Agenda.step_unlined, hstep]
    rfl
  | case3 idle a h c rest hstep =>
    rw [Agenda.resume_eq (by rwa [Agenda.height_unlined]), Agenda.step_unlined, hstep]
    rfl
  | case4 idle a h rest hstep _ ih =>
    rw [Agenda.resume_eq (by rwa [Agenda.height_unlined]), Agenda.step_unlined, hstep]
    exact ih
  | case5 a h line rest hstep =>
    rw [Agenda.resume_eq (by rwa [Agenda.height_unlined]), Agenda.step_unlined, hstep]
    rfl
  | case6 a h line rest hstep idle ih =>
    rw [Agenda.resume_eq (by rwa [Agenda.height_unlined]), Agenda.step_unlined, hstep]
    exact ih

/-! ### runs -/

/-- Two programs under way differ in their lines only. -/
structure Interpreter.Alike (i i' : Interpreter) : Prop where
  agenda : i.agenda.unlined = i'.agenda.unlined
  limits : i.limits = i'.limits
  emitted : i.emitted = i'.emitted
  done : i.done = i'.done
  fault : i.fault.map Fault.unlined = i'.fault.map Fault.unlined

/-- Two answers differ in the lines of their faults only. -/
structure Next.Alike (n n' : Next) : Prop where
  command : n.command = n'.command
  done : n.done = n'.done
  fault : n.fault.map Fault.unlined = n'.fault.map Fault.unlined

def Extraction.unlined (x : Extraction) : Extraction :=
  { x with fault := x.fault.map Fault.unlined }

theorem Halt.fault?_unlined {h h' : Halt} (heq : h.unlined = h'.unlined) (limits : Limits) :
    (h.fault? limits).map Fault.unlined = (h'.fault? limits).map Fault.unlined := by
  cases h <;> cases h' <;> first | rfl | cases heq

section

variable {i i' : Interpreter}

theorem Interpreter.Alike.halt (h : i.Alike i') {fault fault' : Option Fault}
    (hfault : fault.map Fault.unlined = fault'.map Fault.unlined) :
    (i.halt fault).1.Alike (i'.halt fault').1 ∧ (i.halt fault).2.Alike (i'.halt fault').2 :=
  ⟨⟨h.agenda, h.limits, h.emitted, rfl, hfault⟩, rfl, rfl, hfault⟩

theorem Interpreter.Alike.emit (h : i.Alike i') {rest rest' : Agenda}
    (hrest : rest.unlined = rest'.unlined) : (i.emit rest).Alike (i'.emit rest') :=
  ⟨hrest, h.limits, congrArg (· + 1) h.emitted, h.done, h.fault⟩

theorem Interpreter.Alike.budget (h : i.Alike i') : i.budget = i'.budget := by
  rw [Interpreter.budget, Interpreter.budget, h.limits, h.emitted]

/-- both searches find the same -/
theorem Interpreter.Alike.resume (h : i.Alike i') (w : World) :
    unlinedResult (i.agenda.resume i.limits.depth w (i.limits.idle.getD Automaton.unbounded)) =
      unlinedResult
        (i'.agenda.resume i'.limits.depth w (i'.limits.idle.getD Automaton.unbounded)) := by
  rw [← Agenda.resume_unlined, ← Agenda.resume_unlined, h.agenda, h.limits]

theorem Interpreter.Alike.next (h : i.Alike i') (w : World) :
    (i.next w).1.Alike (i'.next w).1 ∧ (i.next w).2.Alike (i'.next w).2 := by
  cases hdone : i.done with
  | true =>
    rw [Interpreter.next, Interpreter.next, if_pos hdone, if_pos (h.done ▸ hdone)]
    exact ⟨h, rfl, rfl, h.fault⟩
  | false =>
    have hdone' : i'.done = false := h.done ▸ hdone
    have hfound := h.resume w
    cases hr : i.agenda.resume i.limits.depth w (i.limits.idle.getD Automaton.unbounded) with
    | error e =>
      cases hr' : i'.agenda.resume i'.limits.depth w
          (i'.limits.idle.getD Automaton.unbounded) with
      | error e' =>
        rw [hr, hr'] at hfound
        rw [Interpreter.next_of_error hdone hr, Interpreter.next_of_error hdone' hr', h.limits]
        exact h.halt (Halt.fault?_unlined (Except.error.inj hfound) i'.limits)
      | ok found' =>
        rw [hr, hr'] at hfound
        cases hfound
    | ok found =>
      cases hr' : i'.agenda.resume i'.limits.depth w
          (i'.limits.idle.getD Automaton.unbounded) with
      | error e' =>
        rw [hr, hr'] at hfound
        cases hfound
      | ok found' =>
        obtain ⟨c, rest⟩ := found
        obtain ⟨c', rest'⟩ := found'
        rw [hr, hr'] at hfound
        obtain ⟨rfl, hrest⟩ : c = c' ∧ rest.unlined = rest'.unlined := by
          simpa [unlinedResult] using hfound
        have hemit := h.emit hrest
        rw [Interpreter.next_of_ok hdone hr, Interpreter.next_of_ok hdone' hr', hemit.budget]
        split
        · exact hemit.halt rfl
        · exact ⟨hemit, rfl, rfl, rfl⟩

theorem extractFrom_alike (fuel : Nat) (h : i.Alike i') (w : World) (done : List Command) :
    (extractFrom fuel i w done).unlined = (extractFrom fuel i' w done).unlined := by
  induction fuel generalizing i i' w done with
  | zero =>
    have hnext := (h.next w).2
    rw [extractFrom, extractFrom, Extraction.unlined, Extraction.unlined, hnext.fault]
  | succ fuel ih =>
    obtain ⟨hrest, hnext⟩ := h.next w
    rw [extractFrom, extractFrom]
    simp only [← hnext.command]
    split
    · rw [Extraction.unlined, Extraction.unlined, hnext.fault]
    · split
      · rfl
      · exact ih hrest _ _

end

/-- **Programs that differ in their lines run alike.** -/
theorem extractProgram_alike {p p' : Program} (h : unlinedBlock p.body = unlinedBlock p'.body)
    (limits : Limits) (w : World) :
    (extractProgram p limits w).unlined = (extractProgram p' limits w).unlined := by
  have hbody : [unlinedBlock p.body] = [unlinedBlock p'.body] := by rw [h]
  have hstart : (Interpreter.ofProgram p limits).Alike (.ofProgram p' limits) :=
    ⟨hbody, rfl, rfl, rfl, rfl⟩
  exact extractFrom_alike (limits.steps.getD Automaton.unbounded) hstart w []

end Ladybug.Script

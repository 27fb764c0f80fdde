import Ladybug.Proofs.Script.Moves

/-!
# Running a program call by call

A program under way is asked for one command after the other. What it still has to do, read as one
block, is what is left of the execution of the whole program.

* `Agenda.Fits.resumed`  the moves up to the next command, seen from the execution
* `Trips`                what makes a program stop before its end
* `Interpreter.Stage`    a program after some calls
* `calls_follow_execution`   each call gives the command that the program has at that place
-/

namespace Ladybug.Script

/-! ### moves up to the next command -/

/-- What the search for the next command has found, `m` bounding the nesting. -/
inductive Resumed (ws : Nat → World) (k m idle : Nat) (deepest : Option Nat) (block : List Stmt) :
    Except Halt (Command × Agenda) → Prop
  | command {c : Command} {rest : Agenda} (fits : rest.Fits m) (lines : List Nat)
      (leads : ∀ es f, Run ws (k + 1) rest.flatten es f →
        Run ws k block (lines.map .enter ++ .emit c :: es) f) :
      Resumed ws k m idle deepest block (.ok (c, rest))
  | finished (lines : List Nat) (ends : Run ws k block (lines.map .enter) .done) :
      Resumed ws k m idle deepest block (.error .finished)
  | idle {line : Nat} (lines : List Nat) (count : lines.length = idle)
      (leads : Run ws k block ((lines ++ [line]).map .enter) .cut) :
      Resumed ws k m idle deepest block (.error (.idle line))
  | tooDeep {n : Nat} (limit : deepest = some n) (deeper : n < m) :
      Resumed ws k m idle deepest block (.error .tooDeep)

theorem Agenda.Fits.resumed {m : Nat} {a : Agenda} (hfits : a.Fits m) (ws : Nat → World)
    (k idle : Nat) (deepest : Option Nat) :
    Resumed ws k m idle deepest a.flatten (a.resume deepest (ws k) idle) := by
  obtain ⟨lines, left, b, hgoes, hcount, hpauses⟩ := a.resume_goes ws deepest k idle
  generalize a.resume deepest (ws k) idle = r at hpauses
  have hrest := hgoes.fits hfits
  have hrun : ∀ es f, Run ws k b.flatten es f → Run ws k a.flatten (lines.map .enter ++ es) f :=
    fun es f h => hgoes.run (h.from (by rw [emitted_entered]; rfl))
  cases hpauses with
  | command _ found =>
    have hmove := b.continues ws k
    have hafter := hrest.step (ws k)
    rw [found] at hmove hafter
    exact .command hafter lines fun es f h => hrun _ _ (hmove es f h)
  | finished empty =>
    subst empty
    have hends := hrun _ _ .done
    rw [List.append_nil] at hends
    exact .finished lines hends
  | idle _ again none =>
    have hmove := b.continues ws k
    rw [again] at hmove
    refine .idle lines (by omega) ?_
    rw [List.map_append]
    exact hrun _ _ (hmove _ _ .cut)
  | tooDeep deep =>
    obtain ⟨n, hn, hlt⟩ := deep
    exact .tooDeep hn (Nat.lt_of_lt_of_le hlt (hrest.height_le (ws k)))

/-! ### calls -/

namespace Interpreter

/-- a program after `k` calls, each of them with the next world -/
def calls (i : Interpreter) (ws : Nat → World) : (k : Nat) → Interpreter
  | 0 => i
  | k + 1 => ((calls i ws k).next (ws k)).1

/-- the answer to call number `k`, the first one being number 0 -/
def answer (i : Interpreter) (ws : Nat → World) (k : Nat) : Next := ((i.calls ws k).next (ws k)).2

end Interpreter

/-- What makes a program stop at call number `j`, and the fault that it stops with: a command too
many, too many iterations after the command before, or blocks and conditions that are nested too
deeply. -/
inductive Trips (p : Program) (limits : Limits) (ws : Nat → World) (j : Nat) : Fault → Prop
  | steps {n : Nat} {c : Command} (limit : limits.steps = some n) (past : n ≤ j)
      (more : Nth ws p.body j c) : Trips p limits ws j (.limitExceeded n "steps")
  | idle {line : Nat} {es : List Event} {lines : List Nat} {fault : Fault}
      (sofar : (emitted es).length = j)
      (past : lines.length = limits.idle.getD Automaton.unbounded)
      (leads : Run ws 0 p.body (es ++ (lines ++ [line]).map .enter) .cut)
      (report : (Halt.idle line).fault? limits = some fault) : Trips p limits ws j fault
  | depth {n : Nat} {fault : Fault} (limit : limits.depth = some n)
      (past : n < blockNesting p.body) (report : Halt.tooDeep.fault? limits = some fault) :
      Trips p limits ws j fault

/-- A program after `k` calls. -/
inductive Stage (p : Program) (limits : Limits) (ws : Nat → World) (k : Nat) : Interpreter → Prop
  | going {a : Agenda} (fits : a.Fits (blockNesting p.body)) {before : List Event}
      (sofar : (emitted before).length = k)
      (leads : ∀ es f, Run ws k a.flatten es f → Run ws 0 p.body (before ++ es) f) :
      Stage p limits ws k ⟨a, limits, k, false, none⟩
  | ended {a : Agenda} {e n : Nat} (before : n ≤ k) (ends : Ends ws p.body n) :
      Stage p limits ws k ⟨a, limits, e, true, none⟩
  | tripped {a : Agenda} {e j : Nat} {fault : Fault} (before : j < k)
      (trips : Trips p limits ws j fault) : Stage p limits ws k ⟨a, limits, e, true, some fault⟩

/-- The answer that call number `k` should get from a program that has not stopped before. -/
inductive Found (p : Program) (limits : Limits) (ws : Nat → World) (k : Nat) : Next → Prop
  | command {c : Command} (nth : Nth ws p.body k c) : Found p limits ws k ⟨some c, false, none⟩
  | ended (ends : Ends ws p.body k) : Found p limits ws k ⟨none, true, none⟩
  | tripped {fault : Fault} (trips : Trips p limits ws k fault) :
      Found p limits ws k ⟨none, true, some fault⟩

/-- The answer that call number `k` should get. -/
inductive Answered (p : Program) (limits : Limits) (ws : Nat → World) (k : Nat) : Next → Prop
  | command {c : Command} (nth : Nth ws p.body k c) : Answered p limits ws k ⟨some c, false, none⟩
  | ended {n : Nat} (before : n ≤ k) (ends : Ends ws p.body n) :
      Answered p limits ws k ⟨none, true, none⟩
  | tripped {j : Nat} {fault : Fault} (before : j ≤ k) (trips : Trips p limits ws j fault) :
      Answered p limits ws k ⟨none, true, some fault⟩

section

variable {p : Program} {limits : Limits} {ws : Nat → World} {k : Nat}

theorem stage_ofProgram : Stage p limits ws 0 (.ofProgram p limits) := by
  refine @Stage.going _ _ _ _ _ ⟨?_, trivial⟩ [] rfl fun es f h => ?_
  · exact Nat.le_of_eq (Nat.zero_add _)
  · rwa [List.flatten_cons, List.flatten_nil, List.append_nil] at h

theorem Ends.stops {a : Agenda} {e : Nat} (h : Ends ws p.body k) :
    Stage p limits ws (k + 1) ⟨a, limits, e, true, none⟩ ∧
      Found p limits ws k ⟨none, true, none⟩ :=
  ⟨.ended (Nat.le_succ k) h, .ended h⟩

theorem Trips.stops {a : Agenda} {e : Nat} {fault : Fault} (h : Trips p limits ws k fault) :
    Stage p limits ws (k + 1) ⟨a, limits, e, true, some fault⟩ ∧
      Found p limits ws k ⟨none, true, some fault⟩ :=
  ⟨.tripped (Nat.lt_succ_self k) h, .tripped h⟩

theorem Nth.trips {c : Command} (h : Nth ws p.body k c)
    (hover : Budget.exhausted ⟨limits.steps, "steps", (k + 1 : Nat)⟩ = true) :
    Trips p limits ws k (Budget.fault ⟨limits.steps, "steps", (k + 1 : Nat)⟩) := by
  obtain ⟨n, hn, hlt, hfault⟩ := Budget.fault_of_exhausted hover
  rw [hfault]
  exact .steps hn (Nat.le_of_lt_succ hlt) h

theorem Found.answered {n : Next} (h : Found p limits ws k n) : Answered p limits ws k n := by
  cases h with
  | command nth => exact .command nth
  | ended ends => exact .ended (Nat.le_refl k) ends
  | tripped trips => exact .tripped (Nat.le_refl k) trips

/-- **What a call finds in a program that has not stopped before.** -/
theorem Stage.found {i : Interpreter} (h : Stage p limits ws k i) (hi : i.done = false) :
    Stage p limits ws (k + 1) (i.next (ws k)).1 ∧ Found p limits ws k (i.next (ws k)).2 := by
  cases h with
  | ended => cases hi
  | tripped => cases hi
  | @going a fits before sofar leads =>
    -- what has been executed before, and then what this call executes, is the execution so far
    have hres := fits.resumed ws k (limits.idle.getD Automaton.unbounded) limits.depth
    generalize hr : a.resume limits.depth (ws k) (limits.idle.getD Automaton.unbounded) = r at hres
    cases hres with
    | finished lines ends =>
      rw [Interpreter.next_of_error rfl hr]
      have hends : Ends ws p.body k := ⟨_, leads _ _ ends, by simpa using sofar⟩
      exact hends.stops
    | idle lines count run =>
      rw [Interpreter.next_of_error rfl hr]
      exact (Trips.idle sofar count (leads _ _ run) rfl).stops
    | tooDeep limit deeper =>
      rw [Interpreter.next_of_error rfl hr]
      exact (Trips.depth limit deeper rfl).stops
    | @command c rest fits' lines run =>
      rw [Interpreter.next_of_ok rfl hr]
      have hnth : Nth ws p.body k c := ⟨_, _, leads _ _ (run _ _ .cut), by simp [sofar]⟩
      have hsofar : (emitted (before ++ (lines.map .enter ++ [.emit c]))).length = k + 1 := by
        rw [emitted_append, emitted_append, emitted_entered, List.nil_append, List.length_append,
          sofar]
        rfl
      split
      · rename_i hover
        exact (hnth.trips hover).stops
      · refine ⟨.going fits' hsofar fun es f h => ?_, .command hnth⟩
        rw [List.append_assoc, List.append_assoc]
        exact leads _ _ (run es f h)

theorem Stage.next {i : Interpreter} (h : Stage p limits ws k i) :
    Stage p limits ws (k + 1) (i.next (ws k)).1 ∧ Answered p limits ws k (i.next (ws k)).2 := by
  cases h with
  | ended before ends => exact ⟨.ended (Nat.le_succ_of_le before) ends, .ended before ends⟩
  | tripped before trips =>
    exact ⟨.tripped (Nat.lt_succ_of_lt before) trips, .tripped (Nat.le_of_lt before) trips⟩
  | going fits sofar leads =>
    obtain ⟨hstage, hfound⟩ := (Stage.going fits sofar leads).found rfl
    exact ⟨hstage, hfound.answered⟩

theorem Interpreter.stage_calls : Stage p limits ws k ((ofProgram p limits).calls ws k) := by
  induction k with
  | zero => exact stage_ofProgram
  | succ k ih => exact ih.next.1

theorem Interpreter.answered :
    Answered p limits ws k ((ofProgram p limits).answer ws k) :=
  stage_calls.next.2

theorem Answered.command_iff {n : Next} {c : Command} (h : Answered p limits ws k n)
    (hn : n.fault = none) : n = ⟨some c, false, none⟩ ↔ Nth ws p.body k c := by
  cases h with
  | @command c' nth =>
    refine ⟨fun h => by cases h; exact nth, fun h => ?_⟩
    rw [nth.unique h]
  | ended before ends =>
    refine ⟨nofun, fun h => ?_⟩
    have := h.lt_of_ends ends
    omega
  | tripped => cases hn

theorem Answered.ended_iff {n : Next} (h : Answered p limits ws k n) (hn : n.fault = none) :
    n = ⟨none, true, none⟩ ↔ ∃ m ≤ k, Ends ws p.body m := by
  cases h with
  | command nth =>
    refine ⟨nofun, fun ⟨m, hm, ends⟩ => ?_⟩
    have := nth.lt_of_ends ends
    omega
  | ended before ends => exact ⟨fun _ => ⟨_, before, ends⟩, fun _ => rfl⟩
  | tripped => cases hn

theorem Answered.progress {n : Next} (h : Answered p limits ws k n) (hn : n.fault = none) :
    (∃ c, Nth ws p.body k c) ∨ ∃ m ≤ k, Ends ws p.body m := by
  cases h with
  | command nth => exact .inl ⟨_, nth⟩
  | ended before ends => exact .inr ⟨_, before, ends⟩
  | tripped => cases hn

theorem Answered.trips {n : Next} {fault : Fault} (h : Answered p limits ws k n)
    (hn : n.fault = some fault) : ∃ j ≤ k, Trips p limits ws j fault := by
  cases h with
  | command => cases hn
  | ended => cases hn
  | tripped before trips =>
    cases hn
    exact ⟨_, before, trips⟩

end

/-- **Call number `k` gives the command that the program has at that place, or says that the
program has come to its end, whatever the worlds are that the calls bring; it gives a fault only if
the program has passed one of its limits.** -/
theorem calls_follow_execution (p : Program) (limits : Limits) (ws : Nat → World) (k : Nat) :
    let a := (Interpreter.ofProgram p limits).answer ws k
    (a.fault = none →
      (∀ c, a = ⟨some c, false, none⟩ ↔ Nth ws p.body k c) ∧
      (a = ⟨none, true, none⟩ ↔ ∃ n ≤ k, Ends ws p.body n) ∧
      ((∃ c, Nth ws p.body k c) ∨ ∃ n ≤ k, Ends ws p.body n)) ∧
    ∀ fault, a.fault = some fault → ∃ j ≤ k, Trips p limits ws j fault := by
  intro a
  have h : Answered p limits ws k a := Interpreter.answered
  exact ⟨fun hn => ⟨fun c => h.command_iff hn, h.ended_iff hn, h.progress hn⟩,
    fun fault hn => h.trips hn⟩

/-! ### blocks nested too deeply -/

/-- a step forward inside `n` choices -/
def wrapped : (n : Nat) → List Stmt
  | 0 => [.command .moveForward 1]
  | n + 1 => [.choice [(.literal true 1, wrapped n)] [] 1]

theorem run_wrapped (ws : Nat → World) (n : Nat) :
    Run ws 0 (wrapped n) [.emit .moveForward] .done := by
  induction n with
  | zero => exact .command .done
  | succ n ih => exact .choiceOn (.here .literal) ih .done

theorem resume_wrapped (w : World) (idle deepest n : Nat) (outer : Agenda)
    (h : deepest < outer.length + 1 + n) :
    Agenda.resume (some deepest) w idle (wrapped n :: outer) = .error .tooDeep := by
  induction n generalizing outer with
  | zero =>
    rw [Agenda.resume, if_pos]
    exact decide_eq_true h
  | succ n ih =>
    rw [Agenda.resume]
    split
    · rfl
    · show Agenda.resume (some deepest) w idle (wrapped n :: [] :: outer) = _
      exact ih ([] :: outer) (by rw [List.length_cons]; omega)

/-- **A program of one command stops before it when its blocks are nested too deeply.** -/
theorem wrapped_too_deep :
    let ws : Nat → World := fun _ => ⟨1, 1, [[.empty]], ⟨⟨0, 0⟩, .north, 0⟩⟩
    let p : Program := ⟨wrapped 3000, 1⟩
    Run ws 0 p.body [.emit .moveForward] .done ∧ Nth ws p.body 0 .moveForward ∧
      (Interpreter.ofProgram p {}).answer ws 0 = ⟨none, true, Halt.tooDeep.fault? {}⟩ := by
  intro ws p
  refine ⟨run_wrapped ws 3000, ⟨_, _, run_wrapped ws 3000, rfl⟩, ?_⟩
  have hdeep : Agenda.resume (some 400) (ws 0) 10000 [p.body] = .error .tooDeep :=
    resume_wrapped (ws 0) 10000 400 3000 [] (by decide)
  show ((Interpreter.ofProgram p {}).next (ws 0)).2 = _
  rw [Interpreter.next_of_error rfl hdeep]
  rfl

end Ladybug.Script

import Ladybug.Script.Interpreter

/-!
# One call of a program under way

* `Agenda.resume_eq`            the search for the next command, move by move
* `Interpreter.next_of_error`   a call when the search finds no command
* `Interpreter.next_of_ok`      a call when it finds one
* `Interpreter.exists_of_next`  what a call that gives a command leaves
* `Interpreter.next_of_stopped` what a call that stops the program leaves
-/

namespace Ladybug

namespace Budget

theorem exhausted_iff {limit : Option Nat} {what : String} {count : Nat} :
    exhausted ⟨limit, what, count⟩ = true ↔ ∃ n, limit = some n ∧ n < count := by
  cases limit with
  | none => simp
  | some n => simp [exhausted]

theorem fault_of_exhausted {limit : Option Nat} {what : String} {count : Nat}
    (h : exhausted ⟨limit, what, count⟩ = true) :
    ∃ n, limit = some n ∧ n < count ∧ fault ⟨limit, what, count⟩ = .limitExceeded n what := by
  obtain ⟨n, rfl, hlt⟩ := exhausted_iff.mp h
  exact ⟨n, rfl, hlt, rfl⟩

end Budget

namespace Script

/-- the moves from an agenda that is not too deep -/
theorem Agenda.resume_eq {deepest : Option Nat} {w : World} {idle : Nat} {a : Agenda}
    (h : ¬ (deepest.any fun n => n < a.height w) = true) :
    a.resume deepest w idle =
      match a.step w, idle with
      | .done, _ => .error .finished
      | .emit c rest, _ => .ok (c, rest)
      | .go rest, idle => rest.resume deepest w idle
      | .again line _, 0 => .error (.idle line)
      | .again _ rest, idle + 1 => rest.resume deepest w idle := by
  rw [Agenda.resume, if_neg h]
  split <;> rename_i hstep
  · simp only [hstep]
  · simp only [hstep]
  · simp only [hstep]
  · cases idle <;> simp only [hstep]

namespace Interpreter

theorem next_of_error {i : Interpreter} {w : World} {h : Halt} (hi : i.done = false)
    (hr : i.agenda.resume i.limits.depth w (i.limits.idle.getD Automaton.unbounded) = .error h) :
    i.next w = i.halt (h.fault? i.limits) := by
  rw [next, if_neg (by rw [hi]; exact Bool.false_ne_true), hr]

/-- a program that has found a command, and what is then left of it -/
def emit (i : Interpreter) (rest : Agenda) : Interpreter :=
  { i with agenda := rest, emitted := i.emitted + 1 }

theorem next_of_ok {i : Interpreter} {w : World} {c : Command} {rest : Agenda}
    (hi : i.done = false)
    (hr : i.agenda.resume i.limits.depth w (i.limits.idle.getD Automaton.unbounded)
      = .ok (c, rest)) :
    i.next w = if (i.emit rest).budget.exhausted then
      (i.emit rest).halt (some (i.emit rest).budget.fault)
      else (i.emit rest, ⟨some c, false, none⟩) := by
  rw [next, if_neg (by rw [hi]; exact Bool.false_ne_true), hr]
  rfl

theorem next_of_done {i : Interpreter} (w : World) (hi : i.done = true) :
    i.next w = (i, ⟨none, true, i.fault⟩) := by
  rw [next, if_pos hi]

/-- A call that gives a command leaves the program under way, within its budget. -/
theorem exists_of_next {i : Interpreter} {w : World} {c : Command}
    (h : (i.next w).2.command = some c) :
    i.done = false ∧ ∃ rest, i.next w = (i.emit rest, ⟨some c, false, none⟩) ∧
      (i.emit rest).budget.exhausted = false := by
  cases hi : i.done with
  | true =>
    rw [next_of_done w hi] at h
    cases h
  | false =>
    cases hr : i.agenda.resume i.limits.depth w (i.limits.idle.getD Automaton.unbounded) with
    | error e =>
      rw [next_of_error hi hr] at h
      cases h
    | ok found =>
      obtain ⟨c', rest⟩ := found
      have hnext := next_of_ok hi hr
      cases hover : (i.emit rest).budget.exhausted with
      | true =>
        rw [hnext, if_pos hover] at h
        cases h
      | false =>
        rw [hover, if_neg Bool.false_ne_true] at hnext
        rw [hnext] at h
        cases h
        exact ⟨rfl, rest, hnext, hover⟩

theorem limits_next (i : Interpreter) (w : World) :
    (i.next w).1.limits = i.limits := by
  unfold next
  split
  · rfl
  · split
    · rfl
    · dsimp only
      split <;> rfl

theorem not_done_of_next {i : Interpreter} {w : World}
    (h : (i.next w).1.done = false) : i.done = false := by
  cases hi : i.done with
  | false => rfl
  | true =>
    rw [next_of_done w hi] at h
    exact absurd (hi.symm.trans h) (by decide)

/-- A call that stops a program leaves the fault that it gives. -/
theorem next_of_stopped {i : Interpreter} {w : World}
    (h : (i.next w).1.done = true) : (i.next w).2 = ⟨none, true, (i.next w).1.fault⟩ := by
  cases hi : i.done with
  | true => rw [next_of_done w hi]
  | false =>
    cases hr : i.agenda.resume i.limits.depth w (i.limits.idle.getD Automaton.unbounded) with
    | error e =>
      rw [next_of_error hi hr]
      rfl
    | ok found =>
      obtain ⟨c, rest⟩ := found
      rw [next_of_ok hi hr] at h ⊢
      split at h
      · rw [if_pos ‹_›]
        rfl
      · exact absurd (hi.symm.trans h) (by decide)

end Interpreter

end Script

end Ladybug

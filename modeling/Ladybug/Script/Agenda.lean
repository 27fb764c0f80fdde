import Ladybug.Script.Tree

/-!
# Running a program command by command

What is still to be done is a stack of statement lists, the innermost block first. A loop stays on
its list while its body is run, so that its condition is tested again when the body is done.

* `Agenda.step`     one move of the machine: a command, the end, or a smaller agenda
* `Agenda.height`   how deep it goes
* `Agenda.resume`   moves until the next command
-/

namespace Ladybug.Script

abbrev Agenda := List (List Stmt)

/-- One move. `again` begins an iteration of the loop that stands on a line. -/
inductive Move where
  | done
  | emit (command : Command) (rest : Agenda)
  | go (rest : Agenda)
  | again (line : Nat) (rest : Agenda)

namespace Agenda

def step (w : World) : Agenda → Move
  | [] => .done
  | [] :: outer => .go outer
  | (.command c _ :: rest) :: outer => .emit c (rest :: outer)
  | (.ask _ _ :: rest) :: outer => .go (rest :: outer)
  | (.loop e body line :: rest) :: outer =>
    if e.eval w then .again line (body :: (.loop e body line :: rest) :: outer)
    else .go (rest :: outer)
  | (.choice branches otherwise _ :: rest) :: outer =>
    .go (chosen w otherwise branches :: rest :: outer)

theorem sizeOf_chosen (w : World) (otherwise : List Stmt) (branches : List (Expr × List Stmt)) :
    sizeOf (chosen w otherwise branches) ≤ sizeOf otherwise + sizeOf branches := by
  induction branches with
  | nil => simp [chosen]
  | cons b bs ih =>
    obtain ⟨e, body⟩ := b
    simp only [chosen]
    split <;> simp only [List.cons.sizeOf_spec, Prod.mk.sizeOf_spec] <;> omega

theorem sizeOf_go {w : World} {a rest : Agenda} (h : a.step w = .go rest) :
    sizeOf rest < sizeOf a := by
  unfold step at h
  split at h
  · cases h
  · injection h with h
    subst h
    simp only [List.cons.sizeOf_spec, List.nil.sizeOf_spec]
    omega
  · cases h
  · injection h with h
    subst h
    simp only [List.cons.sizeOf_spec]
    omega
  · split at h
    · cases h
    · injection h with h
      subst h
      simp only [List.cons.sizeOf_spec]
      omega
  · injection h with h
    subst h
    rename_i branches otherwise _ rest outer
    have := sizeOf_chosen w otherwise branches
    simp only [List.cons.sizeOf_spec, Stmt.choice.sizeOf_spec]
    omega

end Agenda

/-- Why a program cannot go on. -/
inductive Halt where
  | finished
  | idle (line : Nat)
  | tooDeep
deriving DecidableEq, Repr

namespace Agenda

/-- How deep the next move goes: into the blocks, and from there into a condition. -/
def height (w : World) : Agenda → Nat
  | [] => 0
  | [] :: outer => outer.length + 1
  | (s :: _) :: outer => outer.length + 1 + s.descent w

/-- The next command, `idle` being the number of loop iterations that may still begin before it,
and `deepest` how deep blocks and conditions may be nested. -/
def resume (deepest : Option Nat) (w : World) (idle : Nat) (a : Agenda) :
    Except Halt (Command × Agenda) :=
  if deepest.any fun n => n < a.height w then .error .tooDeep
  else
    match h : a.step w with
    | .done => .error .finished
    | .emit c rest => .ok (c, rest)
    | .go rest =>
      have := sizeOf_go h
      resume deepest w idle rest
    | .again line rest =>
      match idle with
      | 0 => .error (.idle line)
      | idle + 1 => resume deepest w idle rest
termination_by (idle, sizeOf a)

end Agenda

end Ladybug.Script

import Ladybug.Script.Agenda

/-!
# What a program means

The commands of a program as its structure gives them: statements one after the other, a loop as
long as its condition holds, one branch of a choice. Sensors are answered by a sequence of worlds,
a new one after each command. An execution is given by its events, the commands and the iterations
that begin, and it may be cut off anywhere.

* `Expr.Value`     the value of a condition in a world
* `Picks`          the body that a choice runs
* `Run`            executions of a block, complete ones and those cut off
* `Run.split`      an execution of two blocks that stand one after the other
* `Run.agree`      of two executions of a block one goes on where the other was cut off
* `Nth`, `Ends`    the commands of a block, and their number
-/

namespace Ladybug.Script

/-- The value of a condition: of operands under `and` all must be true, under `or` one of them. -/
inductive Expr.Value (w : World) : Expr → Bool → Prop
  | sensor {d : Detector} {line : Nat} : Value w (.sensor d line) (d.read w)
  | literal {b : Bool} {line : Nat} : Value w (.literal b line) b
  | not {e : Expr} {b : Bool} {line : Nat} (operand : Value w e b) : Value w (.not e line) (!b)
  | all {es : List Expr} {line : Nat} (each : ∀ e ∈ es, Value w e true) :
      Value w (.and es line) true
  | notAll {e : Expr} {es : List Expr} {line : Nat} (mem : e ∈ es) (one : Value w e false) :
      Value w (.and es line) false
  | some {e : Expr} {es : List Expr} {line : Nat} (mem : e ∈ es) (one : Value w e true) :
      Value w (.or es line) true
  | none {es : List Expr} {line : Nat} (each : ∀ e ∈ es, Value w e false) :
      Value w (.or es line) false

/-- The body of the first branch whose condition holds, or else the last body. -/
inductive Picks (w : World) (otherwise : List Stmt) : List (Expr × List Stmt) → List Stmt → Prop
  | here {e : Expr} {body : List Stmt} {rest : List (Expr × List Stmt)} (holds : e.Value w true) :
      Picks w otherwise ((e, body) :: rest) body
  | later {e : Expr} {body body' : List Stmt} {rest : List (Expr × List Stmt)}
      (fails : e.Value w false) (more : Picks w otherwise rest body') :
      Picks w otherwise ((e, body) :: rest) body'
  | last : Picks w otherwise [] otherwise

/-- What can be seen of an execution: a command, or an iteration of the loop on a line. -/
inductive Event where
  | emit (command : Command)
  | enter (line : Nat)
deriving DecidableEq

def Event.command? : Event → Option Command
  | .emit c => some c
  | .enter _ => none

/-- the commands among some events -/
def emitted (es : List Event) : List Command := es.filterMap Event.command?

/-- An execution has come to the end of its block, or it has been cut off. -/
inductive Ending where
  | done
  | cut
deriving DecidableEq

/-- The executions of a block that begins after `k` commands, when sensors are answered by `ws n`
after `n` commands. -/
inductive Run (ws : Nat → World) : (k : Nat) → List Stmt → List Event → Ending → Prop
  | cut {k : Nat} {block : List Stmt} : Run ws k block [] .cut
  | done {k : Nat} : Run ws k [] [] .done
  | command {k line : Nat} {c : Command} {rest : List Stmt} {es : List Event} {f : Ending}
      (after : Run ws (k + 1) rest es f) : Run ws k (.command c line :: rest) (.emit c :: es) f
  | ask {k line : Nat} {s : Expr} {rest : List Stmt} {es : List Event} {f : Ending}
      (after : Run ws k rest es f) : Run ws k (.ask s line :: rest) es f
  | loopOver {k line : Nat} {e : Expr} {body rest : List Stmt} {es : List Event} {f : Ending}
      (fails : e.Value (ws k) false) (after : Run ws k rest es f) :
      Run ws k (.loop e body line :: rest) es f
  | loopCut {k line : Nat} {e : Expr} {body rest : List Stmt} {es : List Event}
      (holds : e.Value (ws k) true) (inside : Run ws k body es .cut) :
      Run ws k (.loop e body line :: rest) (.enter line :: es) .cut
  | loopOn {k line : Nat} {e : Expr} {body rest : List Stmt} {es es' : List Event} {f : Ending}
      (holds : e.Value (ws k) true) (inside : Run ws k body es .done)
      (after : Run ws (k + (emitted es).length) (.loop e body line :: rest) es' f) :
      Run ws k (.loop e body line :: rest) (.enter line :: es ++ es') f
  | choiceCut {k line : Nat} {branches : List (Expr × List Stmt)} {otherwise body rest : List Stmt}
      {es : List Event} (picks : Picks (ws k) otherwise branches body)
      (inside : Run ws k body es .cut) : Run ws k (.choice branches otherwise line :: rest) es .cut
  | choiceOn {k line : Nat} {branches : List (Expr × List Stmt)} {otherwise body rest : List Stmt}
      {es es' : List Event} {f : Ending} (picks : Picks (ws k) otherwise branches body)
      (inside : Run ws k body es .done) (after : Run ws (k + (emitted es).length) rest es' f) :
      Run ws k (.choice branches otherwise line :: rest) (es ++ es') f

@[simp] theorem emitted_emit (c : Command) (es : List Event) :
    emitted (.emit c :: es) = c :: emitted es := rfl

@[simp] theorem emitted_enter (line : Nat) (es : List Event) :
    emitted (.enter line :: es) = emitted es := rfl

@[simp] theorem emitted_append (es es' : List Event) :
    emitted (es ++ es') = emitted es ++ emitted es' :=
  List.filterMap_append

@[simp] theorem emitted_entered (lines : List Nat) : emitted (lines.map .enter) = [] := by
  induction lines with
  | nil => rfl
  | cons line lines ih => exact ih

/-! ### conditions -/

theorem allHold_iff {w : World} {es : List Expr} :
    allHold w es = true ↔ ∀ e ∈ es, e.eval w = true := by
  induction es with
  | nil => simp [allHold]
  | cons e es ih => simp [allHold, ih]

theorem someHolds_iff {w : World} {es : List Expr} :
    someHolds w es = true ↔ ∃ e ∈ es, e.eval w = true := by
  induction es with
  | nil => simp [someHolds]
  | cons e es ih => simp [someHolds, ih]

theorem allHold_eq_false {w : World} {es : List Expr} :
    allHold w es = false ↔ ∃ e ∈ es, e.eval w = false := by
  rw [← Bool.not_eq_true, allHold_iff]
  simp

theorem someHolds_eq_false {w : World} {es : List Expr} :
    someHolds w es = false ↔ ∀ e ∈ es, e.eval w = false := by
  rw [← Bool.not_eq_true, someHolds_iff]
  simp

mutual

theorem Expr.value_eval (w : World) : ∀ e : Expr, e.Value w (e.eval w)
  | .sensor _ _ => .sensor
  | .literal _ _ => .literal
  | .not e _ => .not (Expr.value_eval w e)
  | .and es line => by
    show Expr.Value w (.and es line) (allHold w es)
    have each := Expr.values_eval w es
    cases h : allHold w es with
    | true => exact .all fun e he => allHold_iff.mp h e he ▸ each e he
    | false =>
      obtain ⟨e, he, hv⟩ := allHold_eq_false.mp h
      exact .notAll he (hv ▸ each e he)
  | .or es line => by
    show Expr.Value w (.or es line) (someHolds w es)
    have each := Expr.values_eval w es
    cases h : someHolds w es with
    | true =>
      obtain ⟨e, he, hv⟩ := someHolds_iff.mp h
      exact .some he (hv ▸ each e he)
    | false => exact .none fun e he => someHolds_eq_false.mp h e he ▸ each e he

theorem Expr.values_eval (w : World) : ∀ es : List Expr, ∀ e ∈ es, e.Value w (e.eval w)
  | [] => fun _ h => nomatch h
  | e :: es => List.forall_mem_cons.mpr ⟨Expr.value_eval w e, Expr.values_eval w es⟩

end

theorem Expr.eval_of_value {w : World} {e : Expr} {b : Bool} (h : e.Value w b) : e.eval w = b := by
  induction h with
  | sensor => rfl
  | literal => rfl
  | not _ ih => rw [Expr.eval, ih]
  | all _ ih => exact allHold_iff.mpr ih
  | notAll mem _ ih => exact allHold_eq_false.mpr ⟨_, mem, ih⟩
  | some mem _ ih => exact someHolds_iff.mpr ⟨_, mem, ih⟩
  | none _ ih => exact someHolds_eq_false.mpr ih

/-- evaluating a condition gives its value -/
theorem Expr.value_iff {w : World} {e : Expr} {b : Bool} : e.Value w b ↔ e.eval w = b := by
  refine ⟨Expr.eval_of_value, fun h => ?_⟩
  rw [← h]
  exact Expr.value_eval w e

theorem picks_iff {w : World} {otherwise body : List Stmt} {branches : List (Expr × List Stmt)} :
    Picks w otherwise branches body ↔ chosen w otherwise branches = body := by
  constructor
  · intro h
    induction h with
    | here holds => simp [chosen, Expr.eval_of_value holds]
    | later fails _ ih => simp [chosen, Expr.eval_of_value fails, ih]
    | last => rfl
  · intro h
    rw [← h]
    clear h
    induction branches with
    | nil => exact .last
    | cons b bs ih =>
      obtain ⟨e, body'⟩ := b
      cases he : e.eval w with
      | true => simpa [chosen, he] using Picks.here (Expr.value_iff.mpr he)
      | false => simpa [chosen, he] using Picks.later (Expr.value_iff.mpr he) ih

theorem Expr.Value.unique {w : World} {e : Expr} {b b' : Bool} (h : e.Value w b)
    (h' : e.Value w b') : b = b' :=
  (Expr.value_iff.mp h).symm.trans (Expr.value_iff.mp h')

theorem Picks.unique {w : World} {otherwise body body' : List Stmt}
    {branches : List (Expr × List Stmt)} (h : Picks w otherwise branches body)
    (h' : Picks w otherwise branches body') : body = body' :=
  (picks_iff.mp h).symm.trans (picks_iff.mp h')

/-! ### one block after another -/

/-- An execution of two blocks, one after the other: it is cut off in the first, or goes on with
the second. -/
inductive Run.Split (ws : Nat → World) (k : Nat) (a b : List Stmt) : List Event → Ending → Prop
  | within {es : List Event} (first : Run ws k a es .cut) : Split ws k a b es .cut
  | across {es es' : List Event} {f : Ending} (first : Run ws k a es .done)
      (second : Run ws (k + (emitted es).length) b es' f) : Split ws k a b (es ++ es') f

theorem Run.split_nil {ws : Nat → World} {k : Nat} {b : List Stmt} {es : List Event} {f : Ending}
    (h : Run ws k b es f) : Run.Split ws k [] b es f :=
  .across .done h

theorem Run.from {ws : Nat → World} {k k' : Nat} {b : List Stmt} {es : List Event} {f : Ending}
    (h : Run ws k b es f) (hk : k = k') : Run ws k' b es f :=
  hk ▸ h

theorem Run.split {ws : Nat → World} {k : Nat} {a b : List Stmt} {es : List Event} {f : Ending}
    (h : Run ws k (a ++ b) es f) : Run.Split ws k a b es f := by
  generalize hab : a ++ b = block at h
  induction h generalizing a with
  | cut => exact .within .cut
  | done =>
    obtain ⟨rfl, rfl⟩ := List.append_eq_nil_iff.mp hab
    exact Run.done.split_nil
  | command after ih =>
    rcases List.append_eq_cons_iff.mp hab with ⟨rfl, rfl⟩ | ⟨a, rfl, rfl⟩
    · exact (Run.command after).split_nil
    · cases ih rfl with
      | within first => exact .within (.command first)
      | across first second =>
        exact .across (.command first) (second.from (by rw [emitted_emit, List.length_cons]; omega))
  | ask after ih =>
    rcases List.append_eq_cons_iff.mp hab with ⟨rfl, rfl⟩ | ⟨a, rfl, rfl⟩
    · exact (Run.ask after).split_nil
    · cases ih rfl with
      | within first => exact .within (.ask first)
      | across first second => exact .across (.ask first) second
  | loopOver fails after ih =>
    rcases List.append_eq_cons_iff.mp hab with ⟨rfl, rfl⟩ | ⟨a, rfl, rfl⟩
    · exact (Run.loopOver fails after).split_nil
    · cases ih rfl with
      | within first => exact .within (.loopOver fails first)
      | across first second => exact .across (.loopOver fails first) second
  | loopCut holds inside =>
    rcases List.append_eq_cons_iff.mp hab with ⟨rfl, rfl⟩ | ⟨a, rfl, rfl⟩
    · exact (Run.loopCut holds inside).split_nil
    · exact .within (.loopCut holds inside)
  | loopOn holds inside after _ ih =>
    rcases List.append_eq_cons_iff.mp hab with ⟨rfl, rfl⟩ | ⟨a, rfl, rfl⟩
    · exact (Run.loopOn holds inside after).split_nil
    · cases ih (a := .loop _ _ _ :: a) rfl with
      | within first => exact .within (.loopOn holds inside first)
      | across first second =>
        rw [← List.append_assoc]
        refine .across (.loopOn holds inside first) (second.from ?_)
        rw [List.cons_append, emitted_enter, emitted_append, List.length_append, Nat.add_assoc]
  | choiceCut picks inside =>
    rcases List.append_eq_cons_iff.mp hab with ⟨rfl, rfl⟩ | ⟨a, rfl, rfl⟩
    · exact (Run.choiceCut picks inside).split_nil
    · exact .within (.choiceCut picks inside)
  | choiceOn picks inside after _ ih =>
    rcases List.append_eq_cons_iff.mp hab with ⟨rfl, rfl⟩ | ⟨a, rfl, rfl⟩
    · exact (Run.choiceOn picks inside after).split_nil
    · cases ih rfl with
      | within first => exact .within (.choiceOn picks inside first)
      | across first second =>
        rw [← List.append_assoc]
        refine .across (.choiceOn picks inside first) (second.from ?_)
        rw [emitted_append, List.length_append, Nat.add_assoc]

/-! ### one execution and another -/

/-- Of two executions of a block one goes on where the other was cut off, or they are the same. -/
inductive Agree : List Event → Ending → List Event → Ending → Prop
  | shorter {es more : List Event} {f : Ending} : Agree es .cut (es ++ more) f
  | longer {es more : List Event} {f : Ending} : Agree (es ++ more) f es .cut
  | same {es : List Event} : Agree es .done es .done

theorem Agree.cut {es : List Event} {f : Ending} : Agree es f [] .cut :=
  @Agree.longer [] es f

theorem Agree.before (es : List Event) {es₁ es₂ : List Event} {f₁ f₂ : Ending}
    (h : Agree es₁ f₁ es₂ f₂) : Agree (es ++ es₁) f₁ (es ++ es₂) f₂ := by
  cases h with
  | shorter => rw [← List.append_assoc]; exact .shorter
  | longer => rw [← List.append_assoc]; exact .longer
  | same => exact .same

theorem Run.agree {ws : Nat → World} {k : Nat} {block : List Stmt} {es₁ es₂ : List Event}
    {f₁ f₂ : Ending} (h₁ : Run ws k block es₁ f₁) (h₂ : Run ws k block es₂ f₂) :
    Agree es₁ f₁ es₂ f₂ := by
  induction h₁ generalizing es₂ f₂ with
  | cut => exact .shorter
  | done =>
    cases h₂ with
    | cut => exact .cut
    | done => exact .same
  | command _ ih =>
    cases h₂ with
    | cut => exact .cut
    | command after => exact (ih after).before [_]
  | ask _ ih =>
    cases h₂ with
    | cut => exact .cut
    | ask after => exact ih after
  | loopOver fails _ ih =>
    cases h₂ with
    | cut => exact .cut
    | loopOver _ after => exact ih after
    | loopCut holds => exact absurd (fails.unique holds) (by decide)
    | loopOn holds => exact absurd (fails.unique holds) (by decide)
  | loopCut holds _ ih =>
    cases h₂ with
    | cut => exact .cut
    | loopOver fails => exact absurd (fails.unique holds) (by decide)
    | loopCut _ inside => exact (ih inside).before [_]
    | loopOn _ inside after =>
      cases ih inside with
      | shorter => rw [← List.cons_append, List.append_assoc]; exact .shorter
  | loopOn holds _ _ ihInside ihAfter =>
    cases h₂ with
    | cut => exact .cut
    | loopOver fails => exact absurd (fails.unique holds) (by decide)
    | loopCut _ inside =>
      cases ihInside inside with
      | longer => rw [← List.cons_append, List.append_assoc]; exact .longer
    | loopOn _ inside after =>
      cases ihInside inside with
      | same => exact (ihAfter after).before _
  | choiceCut picks _ ih =>
    cases h₂ with
    | cut => exact .cut
    | choiceCut picks' inside =>
      obtain rfl := picks.unique picks'
      exact ih inside
    | choiceOn picks' inside after =>
      obtain rfl := picks.unique picks'
      cases ih inside with
      | shorter => rw [List.append_assoc]; exact .shorter
  | choiceOn picks _ _ ihInside ihAfter =>
    cases h₂ with
    | cut => exact .cut
    | choiceCut picks' inside =>
      obtain rfl := picks.unique picks'
      cases ihInside inside with
      | longer => rw [List.append_assoc]; exact .longer
    | choiceOn picks' inside after =>
      obtain rfl := picks.unique picks'
      cases ihInside inside with
      | same => exact (ihAfter after).before _

/-! ### the commands of a block -/

/-- command number `k` of a block, the first one being number 0 -/
def Nth (ws : Nat → World) (block : List Stmt) (k : Nat) (c : Command) : Prop :=
  ∃ es f, Run ws 0 block es f ∧ (emitted es)[k]? = some c

/-- a block has come to its end after `n` commands -/
def Ends (ws : Nat → World) (block : List Stmt) (n : Nat) : Prop :=
  ∃ es, Run ws 0 block es .done ∧ (emitted es).length = n

theorem Nth.unique {ws : Nat → World} {block : List Stmt} {k : Nat} {c c' : Command}
    (h : Nth ws block k c) (h' : Nth ws block k c') : c = c' := by
  obtain ⟨es, f, hrun, hk⟩ := h
  obtain ⟨es', f', hrun', hk'⟩ := h'
  cases hrun.agree hrun' with
  | shorter =>
    rw [emitted_append, List.getElem?_append_left (List.getElem?_eq_some_iff.mp hk).1, hk] at hk'
    exact Option.some.inj hk'
  | longer =>
    rw [emitted_append, List.getElem?_append_left (List.getElem?_eq_some_iff.mp hk').1, hk'] at hk
    exact (Option.some.inj hk).symm
  | same => exact Option.some.inj (hk.symm.trans hk')

theorem Nth.lt_of_ends {ws : Nat → World} {block : List Stmt} {k n : Nat} {c : Command}
    (h : Nth ws block k c) (h' : Ends ws block n) : k < n := by
  obtain ⟨es, f, hrun, hk⟩ := h
  obtain ⟨es', hrun', rfl⟩ := h'
  have hlt : k < (emitted es).length := (List.getElem?_eq_some_iff.mp hk).1
  cases hrun.agree hrun' with
  | shorter => rw [emitted_append, List.length_append]; omega
  | same => exact hlt

end Ladybug.Script

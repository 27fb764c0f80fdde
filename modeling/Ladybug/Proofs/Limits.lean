import Ladybug.Proofs.Automaton.Steps
import Ladybug.Proofs.Script.Extracted

/-!
# Limits are only guards

A run that does not pass its limit is the same with any greater one. A run that does goes on, with a
greater limit, from where it was stopped.

* `Automaton.runFrom_more`     a run that may make more transitions
* `Automaton.runFrom_later`    a run counted from later on
* `Script.Raised`              the faults of limits that have been raised
* `Script.Extracts.raise`      the commands of a program with greater limits
* `limits_only_guard`          runs with one limit and with another
-/

namespace Ladybug

/-! ### automata -/

namespace Automaton

/-- An outcome whose steps come after `n` others, `full` being what is said of a spent limit. -/
def Outcome.later (r : Outcome) (n : Nat) (full : Fault) : Outcome :=
  { r with
    steps := n + r.steps
    fault := r.fault.map fun f => if f.kind = .limitExceeded then full else f }

theorem structuralFault?_kind {a : Automaton} {id : Option String} {f : Fault}
    (h : a.structuralFault? id = some f) : f.kind = .structural := by
  unfold structuralFault? at h
  split at h
  · cases h
    rfl
  · split at h
    · cases h
      rfl
    · split at h
      · cases h
        rfl
      · cases h

theorem validate_kind {a : Automaton} {f : Fault} (h : a.validate = some f) :
    f.kind = .validation := by
  unfold validate at h
  split at h
  · cases h
    rfl
  · cases h
    rfl
  · split at h
    · cases h
      rfl
    · split at h
      · cases h
      · cases h
        rfl

/-- No single transition passes a limit. -/
theorem step_kind {a : Automaton} {w : World} {id : String} {f : Fault}
    (h : (a.step w id).fault = some f) : f.kind ≠ .limitExceeded := by
  cases hs : a.structuralFault? (some id) with
  | some g =>
    rw [step_of_structural hs] at h
    cases h
    rw [structuralFault?_kind hs]
    decide
  | none =>
    by_cases hid : id = a.stop
    · simp only [step, hs, if_pos hid] at h
      cases h
    · cases ht : a.transition? w id with
      | none =>
        rw [step_of_stuck hs hid ht] at h
        cases h
        show FaultKind.stuckState ≠ .limitExceeded
        decide
      | some t =>
        cases hact : act t.actions w with
        | mk v b =>
          cases b with
          | none =>
            rw [step_of_acted hs hid ht hact] at h
            cases h
          | some b =>
            rw [step_of_blocked hs hid ht hact] at h
            cases h
            show FaultKind.blockedAction ≠ .limitExceeded
            decide

/-- A run that may make more transitions: it is the same, or it goes on where it was stopped. -/
theorem runFrom_more (a : Automaton) (b : Budget) (left n : Nat) (w : World) (id : String) :
    let r := a.runFrom b left n w id
    (r.fault.map Fault.kind ≠ some .limitExceeded ∧
      ∀ b' more, a.runFrom b' (left + more) n w id = r) ∨
    r.fault.map Fault.kind = some .limitExceeded ∧ r.steps = n + left ∧
      ∃ c, r.state = some c ∧
        ∀ b' more, a.runFrom b' (left + more) n w id = a.runFrom b' more (n + left) r.world c := by
  by_cases hid : id = a.stop
  · rw [runFrom_stop hid]
    exact .inl ⟨nofun, fun _ _ => runFrom_stop hid⟩
  · induction left generalizing n w id with
    | zero =>
      rw [runFrom_spent hid]
      refine .inr ⟨rfl, rfl, id, rfl, fun b' more => ?_⟩
      rw [Nat.zero_add, Nat.add_zero]
    | succ left ih =>
      simp only [Nat.add_right_comm left 1]
      cases hf : (a.step w id).fault with
      | some f =>
        rw [runFrom_of_fault hid hf]
        refine .inl ⟨?_, fun _ _ => runFrom_of_fault hid hf⟩
        simpa only [Option.map_some, ne_eq, Option.some.injEq] using step_kind hf
      | none =>
        simp only [runFrom_of_step hid hf, Nat.add_right_comm n left, ← Nat.add_assoc]
        by_cases hnext : (a.step w id).next = a.stop
        · rw [runFrom_stop hnext]
          exact .inl ⟨nofun, fun _ _ => runFrom_stop hnext⟩
        · exact ih (n + 1) _ _ hnext

/-- The steps before a run only count. -/
theorem runFrom_later (a : Automaton) (b b' : Budget) (left n k : Nat) (w : World) (id : String) :
    a.runFrom b' left (n + k) w id = (a.runFrom b left k w id).later n b'.fault := by
  fun_induction runFrom a b left k w id with
  | case1 =>
    rw [runFrom_stop rfl]
    rfl
  | case2 k w id hid =>
    rw [runFrom_spent hid]
    rfl
  | case3 k w id hid left s f hf =>
    rw [runFrom_of_fault hid hf]
    simp only [Outcome.later, Option.map_some, if_neg (step_kind hf)]
    rfl
  | case4 k w id hid left s hf ih =>
    rw [runFrom_of_step hid hf]
    exact ih

/-- **A run with a greater limit** is the same if the limit was not passed; else it goes on where
the limit stopped it. -/
theorem run_more (a : Automaton) (w : World) (start : Option String) {m m' : Nat} (h : m ≤ m') :
    let r := a.run w start (some m)
    (r.fault.map Fault.kind ≠ some .limitExceeded ∧ a.run w start (some m') = r) ∨
    r.fault.map Fault.kind = some .limitExceeded ∧ r.steps = m ∧ ∃ c, r.state = some c ∧
      a.run w start (some m') =
        (a.run r.world (some c) (some (m' - m))).later m (.limitExceeded m' "steps") := by
  obtain ⟨more, rfl⟩ := Nat.exists_eq_add_of_le h
  rw [Nat.add_sub_cancel_left]
  cases hs : start <|> a.start with
  | none =>
    have hrun : ∀ limit, a.run w start limit = ⟨w, none, 0, a.validate⟩ := by
      intro limit
      rw [run, hs]
    rw [hrun, hrun]
    refine .inl ⟨?_, rfl⟩
    cases hv : a.validate with
    | none => simp
    | some f => simp [validate_kind hv]
  | some s =>
    have hrun : ∀ limit, a.run w start (some limit) =
        a.runFrom ⟨some limit, "steps", 0⟩ limit 0 w s := by
      intro limit
      rw [run, hs]
      rfl
    rw [hrun, hrun]
    rcases a.runFrom_more ⟨some m, "steps", 0⟩ m 0 w s with
      ⟨hkind, hsame⟩ | ⟨hkind, hsteps, c, hc, hgoes⟩
    · exact .inl ⟨hkind, hsame _ more⟩
    · rw [Nat.zero_add] at hsteps
      refine .inr ⟨hkind, hsteps, c, hc, (hgoes _ more).trans ?_⟩
      rw [Nat.zero_add]
      exact a.runFrom_later ⟨some more, "steps", 0⟩ _ more m 0 _ c

end Automaton

/-! ### scripts -/

namespace Script

/-- With more idle iterations allowed the search for the next command finds the same, unless it was
their number that ended it. -/
theorem Agenda.resume_more {deepest : Option Nat} {w : World} {idle idle' : Nat} {a : Agenda}
    (h : idle ≤ idle')
    (hsame : ∀ line, a.resume deepest w idle = .error (.idle line) → idle = idle') :
    a.resume deepest w idle' = a.resume deepest w idle := by
  fun_induction Agenda.resume deepest w idle a generalizing idle' with
  | case1 idle a hdeep => rw [Agenda.resume, if_pos hdeep]
  | case2 idle a hdeep hstep => rw [Agenda.resume_eq hdeep, hstep]
  | case3 idle a hdeep c rest hstep => rw [Agenda.resume_eq hdeep, hstep]
  | case4 idle a hdeep rest hstep _ ih =>
    rw [Agenda.resume_eq hdeep, hstep]
    exact ih h hsame
  | case5 a hdeep line rest hstep =>
    obtain rfl := hsame line rfl
    rw [Agenda.resume_eq hdeep, hstep]
  | case6 a hdeep line rest hstep idle ih =>
    obtain ⟨more, rfl⟩ : ∃ more, idle' = more + 1 := ⟨idle' - 1, by omega⟩
    rw [Agenda.resume_eq hdeep, hstep]
    exact ih (Nat.le_of_succ_le_succ h) fun line hl => Nat.succ.inj (hsame line hl)

/-- Limits on steps and idling that are the same or greater, the nesting being as it was. -/
structure Limits.Le (l l' : Limits) : Prop where
  steps : ∀ m', l'.steps = some m' → ∃ m, l.steps = some m ∧ m ≤ m'
  idle : ∃ j j', l.idle = some j ∧ l'.idle = some j' ∧ j ≤ j'
  depth : l'.depth = l.depth

/-- The faults of limits that are not the same any more. -/
inductive Raised (l l' : Limits) : Fault → Prop
  | steps {m : Nat} (limit : l.steps = some m) (other : l'.steps ≠ l.steps) :
      Raised l l' (.limitExceeded m "steps")
  | idle {line : Nat} {f : Fault} (other : l'.idle ≠ l.idle)
      (report : (Halt.idle line).fault? l = some f) : Raised l l' f

/-- a program under way with other limits -/
def Interpreter.withLimits (i : Interpreter) (limits : Limits) : Interpreter := { i with limits }

/-- The next call is the same with other limits, or ends the program with a fault of one that is not
the same any more. -/
def Interpreter.NextRaised (i : Interpreter) (l' : Limits) (w : World) : Prop :=
  (∃ f, Raised i.limits l' f ∧ i.next w = (i.next w).1.halt (some f)) ∨
    (i.withLimits l').next w = ((i.next w).1.withLimits l', (i.next w).2)

theorem Halt.fault?_congr {l l' : Limits} {h : Halt}
    (hsame : ∀ line, h = .idle line → l'.idle = l.idle) : h.fault? l' = h.fault? l := by
  cases h with
  | finished | tooDeep => rfl
  | idle line => rw [Halt.fault?, Halt.fault?, hsame line rfl]

section

variable {l l' : Limits} (hle : l.Le l')
include hle

/-- The search for the next command with greater limits. -/
theorem Limits.Le.resume (w : World) (a : Agenda) :
    let r := a.resume l.depth w (l.idle.getD Automaton.unbounded)
    (∃ line, r = .error (.idle line) ∧ l'.idle ≠ l.idle) ∨
      a.resume l'.depth w (l'.idle.getD Automaton.unbounded) = r ∧
        ∀ line, r = .error (.idle line) → l'.idle = l.idle := by
  intro r
  by_cases hlate : ∃ line, r = .error (.idle line) ∧ l'.idle ≠ l.idle
  · exact .inl hlate
  · have hsame : ∀ line, r = .error (.idle line) → l'.idle = l.idle := by
      intro line hline
      exact Classical.not_not.mp fun hother => hlate ⟨line, hline, hother⟩
    obtain ⟨j, j', hj, hj', hidle⟩ := hle.idle
    refine .inr ⟨?_, hsame⟩
    simp only [r, hj, hj', hle.depth, Option.getD_some, Option.some.injEq] at hsame ⊢
    exact Agenda.resume_more hidle fun line hline => (hsame line hline).symm

/-- The count of commands that passes a greater limit passes the limit. -/
theorem Limits.Le.exhausted {what : String} {count : Nat}
    (h : ¬ Budget.exhausted ⟨l.steps, what, count⟩ = true) :
    ¬ Budget.exhausted ⟨l'.steps, what, count⟩ = true := by
  intro h'
  obtain ⟨m', hm', hlt⟩ := Budget.exhausted_iff.mp h'
  obtain ⟨m, hm, hmm⟩ := hle.steps m' hm'
  exact h (Budget.exhausted_iff.mpr ⟨m, hm, Nat.lt_of_le_of_lt hmm hlt⟩)

/-- A call that finds no command, with greater limits. -/
theorem Interpreter.next_raise_error {i : Interpreter} {w : World} {e : Halt} (hl : i.limits = l)
    (hi : i.done = false)
    (hr : i.agenda.resume i.limits.depth w (i.limits.idle.getD Automaton.unbounded) = .error e) :
    i.NextRaised l' w := by
  subst hl
  have hnext := next_of_error hi hr
  have hfound := hle.resume w i.agenda
  rw [hr] at hfound
  rcases hfound with ⟨line, he, hother⟩ | ⟨hr', hsame⟩
  · cases he
    have hraised : Raised i.limits l' _ :=
      .idle hother (rfl : (Halt.idle line).fault? i.limits = some _)
    refine .inl ⟨_, hraised, ?_⟩
    rw [hnext]
    rfl
  · have hfault : e.fault? l' = e.fault? i.limits :=
      Halt.fault?_congr fun line he => hsame line (congrArg _ he)
    refine .inr ?_
    rw [next_of_error (i := i.withLimits l') hi hr', hnext]
    show (i.withLimits l').halt (e.fault? l') = _
    rw [hfault]
    rfl

/-- A call that finds a command, with greater limits: the budget may hold for longer. -/
theorem Interpreter.next_raise_ok {i : Interpreter} {w : World} {c : Command} {rest : Agenda}
    (hl : i.limits = l) (hi : i.done = false)
    (hr : i.agenda.resume i.limits.depth w (i.limits.idle.getD Automaton.unbounded)
      = .ok (c, rest)) :
    i.NextRaised l' w := by
  subst hl
  have hnext := next_of_ok hi hr
  have hfound := hle.resume w i.agenda
  rw [hr] at hfound
  rcases hfound with ⟨line, he, _⟩ | ⟨hr', _⟩
  · cases he
  have hnext' := next_of_ok (i := i.withLimits l') hi hr'
  by_cases hover : (i.emit rest).budget.exhausted = true
  · rw [if_pos hover] at hnext
    by_cases hsame : l'.steps = i.limits.steps
    · have hbudget : ((i.withLimits l').emit rest).budget = (i.emit rest).budget := by
        simp only [budget, emit, withLimits, hsame]
      rw [hbudget, if_pos hover] at hnext'
      refine .inr ?_
      rw [hnext, hnext']
      rfl
    · obtain ⟨m, hm, _, hfault⟩ := Budget.fault_of_exhausted hover
      refine .inl ⟨_, .steps hm hsame, ?_⟩
      rw [hnext, ← hfault]
      rfl
  · have hfine : ¬ ((i.withLimits l').emit rest).budget.exhausted = true := hle.exhausted hover
    rw [if_neg hover] at hnext
    rw [if_neg hfine] at hnext'
    refine .inr ?_
    rw [hnext, hnext']
    rfl

/-- **One call with greater limits.** -/
theorem Interpreter.next_raise {i : Interpreter} (hl : i.limits = l) (w : World) :
    i.NextRaised l' w := by
  cases hi : i.done with
  | true =>
    refine .inr ?_
    rw [next_of_done w hi, next_of_done w (by exact hi)]
    rfl
  | false =>
    cases hr : i.agenda.resume i.limits.depth w (i.limits.idle.getD Automaton.unbounded) with
    | error e => exact next_raise_error hle hl hi hr
    | ok found => exact next_raise_ok hle hl hi hr

/-- **An extraction with greater limits** is the same, or a limit that has been raised had ended it;
its commands then are the first ones. -/
theorem Extracts.raise {i : Interpreter} {w : World} {r : Extraction} (h : Extracts i w r)
    (hl : i.limits = l) :
    Extracts (i.withLimits l') w r ∨
      (∃ f, r.fault = some f ∧ Raised l l' f) ∧
        ∀ r', Extracts (i.withLimits l') w r' → r.commands <+: r'.commands := by
  induction h with
  | @halt i w none =>
    rcases Interpreter.next_raise hle hl w with ⟨f, hraised, hnext⟩ | hnext
    · refine .inr ⟨⟨f, ?_, hl ▸ hraised⟩, fun _ _ => List.nil_prefix⟩
      rw [hnext]
      rfl
    · have hend := Extracts.halt (i := i.withLimits l') (w := w) (by rw [hnext]; exact none)
      rw [hnext] at hend
      exact .inl hend
  | @block i w c asks still =>
    rcases Interpreter.next_raise hle hl w with ⟨f, _, hnext⟩ | hnext
    · rw [hnext] at asks
      cases asks
    · exact .inl (.block (by rw [hnext]; exact asks) still)
  | @act i w v c r asks acts _ ih =>
    rcases Interpreter.next_raise hle hl w with ⟨f, _, hnext⟩ | hnext
    · rw [hnext] at asks
      cases asks
    · have hasks : ((i.withLimits l').next w).2.command = some c := by
        rw [hnext]
        exact asks
      have hrest := ih ((i.limits_next w).trans hl)
      rw [show (i.next w).1.withLimits l' = ((i.withLimits l').next w).1 by rw [hnext]] at hrest
      rcases hrest with hsame | ⟨hfault, hpart⟩
      · exact .inl (.act hasks acts hsame)
      · refine .inr ⟨hfault, fun r' hr' => ?_⟩
        cases hr' with
        | halt none => cases none.symm.trans hasks
        | block asks' still =>
          cases asks'.symm.trans hasks
          cases still.symm.trans acts
        | act asks' acts' rest =>
          cases asks'.symm.trans hasks
          cases acts'.symm.trans acts
          exact List.cons_prefix_cons.mpr ⟨rfl, hpart _ rest⟩

theorem extract_raise {m m' : Nat} (hm : l.steps = some m) (hm' : l'.steps = some m')
    (source dialect : String) (w : World) :
    let r := extract source dialect l w
    let r' := extract source dialect l' w
    r' = r ∨ (∃ f, r.fault = some f ∧ Raised l l' f) ∧ r.commands <+: r'.commands := by
  intro r r'
  have hr : r = extract source dialect l w := rfl
  have hr' : r' = extract source dialect l' w := rfl
  rw [extract] at hr hr'
  cases hp : compile source dialect with
  | error e =>
    rw [hp] at hr hr'
    exact .inl (hr'.trans hr.symm)
  | ok p =>
    rw [hp] at hr hr'
    have hext := extractProgram_extracts p hm w
    have hext' := extractProgram_extracts p hm' w
    rw [hr, hr']
    rcases hext.raise hle rfl with hsame | ⟨hfault, hpart⟩
    · exact .inl (hext'.unique hsame)
    · exact .inr ⟨hfault, hpart _ hext'⟩

/-- **Calls with greater limits**: they give the same, unless a limit that has been raised has
ended the program. -/
theorem Interpreter.calls_raise {i : Interpreter} (hl : i.limits = l) (ws : Nat → World)
    (k : Nat) :
    ((i.calls ws k).done = true ∧ ∃ f, (i.calls ws k).fault = some f ∧ Raised l l' f) ∨
      (i.withLimits l').calls ws k = (i.calls ws k).withLimits l' ∧
        (i.calls ws k).limits = l := by
  induction k with
  | zero => exact .inr ⟨rfl, hl⟩
  | succ k ih =>
    rw [calls, calls]
    rcases ih with ⟨hdone, f, hf, hraised⟩ | ⟨hsame, hlimits⟩
    · rw [next_of_done _ hdone]
      exact .inl ⟨hdone, f, hf, hraised⟩
    · rcases next_raise hle hlimits (ws k) with ⟨f, hraised, hnext⟩ | hnext
      · rw [hnext]
        exact .inl ⟨rfl, f, rfl, hlimits ▸ hraised⟩
      · rw [hsame, hnext]
        exact .inr ⟨rfl, (limits_next _ _).trans hlimits⟩

theorem Interpreter.answer_raise {i : Interpreter} (hl : i.limits = l) (ws : Nat → World)
    (k : Nat) :
    (∃ f, (i.answer ws k).fault = some f ∧ Raised l l' f) ∨
      (i.withLimits l').answer ws k = i.answer ws k := by
  rw [answer, answer]
  rcases Interpreter.calls_raise hle hl ws k with ⟨hdone, f, hf, hraised⟩ | ⟨hsame, hlimits⟩
  · rw [next_of_done _ hdone]
    exact .inl ⟨f, hf, hraised⟩
  · rcases next_raise hle hlimits (ws k) with ⟨f, hraised, hnext⟩ | hnext
    · rw [hnext]
      exact .inl ⟨f, rfl, hlimits ▸ hraised⟩
    · rw [hsame, hnext]
      exact .inr rfl

end

theorem Limits.le_of_steps {m m' : Nat} (h : m ≤ m') (idle : Nat) (depth : Option Nat) :
    Limits.Le ⟨some m, some idle, depth⟩ ⟨some m', some idle, depth⟩ where
  steps n hn := by
    cases hn
    exact ⟨m, rfl, h⟩
  idle := ⟨idle, idle, rfl, rfl, Nat.le_refl idle⟩
  depth := rfl

theorem Limits.le_of_idle {j j' : Nat} (h : j ≤ j') (steps depth : Option Nat) :
    Limits.Le ⟨steps, some j, depth⟩ ⟨steps, some j', depth⟩ where
  steps n hn := ⟨n, hn, Nat.le_refl n⟩
  idle := ⟨j, j', rfl, rfl, h⟩
  depth := rfl

/-- A raised limit on idling gives no other fault than that of an idle loop. -/
theorem Raised.reason {j j' : Nat} {steps depth : Option Nat} {f : Fault}
    (h : Raised ⟨steps, some j, depth⟩ ⟨steps, some j', depth⟩ f) :
    f.reason = some "idle_loop" := by
  cases h with
  | steps _ other => exact absurd rfl other
  | idle _ report =>
    cases report
    rfl

theorem Raised.eq_of_steps {m m' idle : Nat} {depth : Option Nat} {f : Fault}
    (h : Raised ⟨some m, some idle, depth⟩ ⟨some m', some idle, depth⟩ f) :
    f = .limitExceeded m "steps" := by
  cases h with
  | steps limit =>
    cases limit
    rfl
  | idle other => exact absurd rfl other

theorem length_of_spent {source dialect : String} {limits : Limits} {w : World} {m : Nat}
    (hm : limits.steps = some m)
    (h : (extract source dialect limits w).fault = some (.limitExceeded m "steps")) :
    (extract source dialect limits w).commands.length = m := by
  rcases extract_cases source dialect limits w with ⟨e, _, heq⟩ | ⟨p, _, heq⟩
  · rw [heq] at h
    cases congrArg (Option.map Fault.kind) h
  · rw [heq] at h ⊢
    have hreason : (Fault.limitExceeded m "steps").reason ≠ some "idle_loop" := by
      show some "steps" ≠ some "idle_loop"
      decide
    obtain ⟨hlength, _⟩ := (account_extractProgram p hm w).spent _ h rfl hreason
    exact Option.some.inj (hlength.symm.trans hm)

end Script

/-! ### all of them -/

open Script in
/-- **Limits are only guards.** A run of an automaton that does not pass its limit is the same with
a greater one, and one that does goes on from where it was stopped. So are the commands of a script
the same, or the first of them; and more idle iterations change nothing but the end in an idle
loop. -/
theorem limits_only_guard {m m' j j' : Nat} (hm : m ≤ m') (hj : j ≤ j') :
    (∀ (a : Automaton) (w : World) (start : Option String),
      let r := a.run w start (some m)
      (r.fault.map Fault.kind ≠ some .limitExceeded → a.run w start (some m') = r) ∧
        (r.fault.map Fault.kind = some .limitExceeded → r.steps = m ∧ ∃ c, r.state = some c ∧
          a.run w start (some m') =
            (a.run r.world (some c) (some (m' - m))).later m (.limitExceeded m' "steps"))) ∧
    (∀ (source dialect : String) (w : World) (idle : Nat) (depth : Option Nat),
      let r := extract source dialect ⟨some m, some idle, depth⟩ w
      let r' := extract source dialect ⟨some m', some idle, depth⟩ w
      (r.fault ≠ some (.limitExceeded m "steps") → r' = r) ∧
        (r.fault = some (.limitExceeded m "steps") →
          r.commands.length = m ∧ r.commands <+: r'.commands)) ∧
    (∀ (source dialect : String) (w : World) (steps : Nat) (depth : Option Nat),
      let r := extract source dialect ⟨some steps, some j, depth⟩ w
      r.fault.bind Fault.reason ≠ some "idle_loop" →
        extract source dialect ⟨some steps, some j', depth⟩ w = r) ∧
    ∀ (p : Program) (ws : Nat → World) (k : Nat) (steps depth : Option Nat),
      let n := (Interpreter.ofProgram p ⟨steps, some j, depth⟩).answer ws k
      n.fault.bind Fault.reason ≠ some "idle_loop" →
        (Interpreter.ofProgram p ⟨steps, some j', depth⟩).answer ws k = n := by
  refine ⟨fun a w start => ?_, fun source dialect w idle depth => ?_,
    fun source dialect w steps depth => ?_, fun p ws k steps depth => ?_⟩
  · rcases a.run_more w start hm with ⟨hkind, hsame⟩ | ⟨hkind, hgoes⟩
    · exact ⟨fun _ => hsame, fun h => absurd h hkind⟩
    · exact ⟨fun h => absurd hkind h, fun _ => hgoes⟩
  · intro r r'
    rcases extract_raise (Limits.le_of_steps hm idle depth) rfl rfl source dialect w with
      hsame | ⟨⟨f, hf, hraised⟩, hpart⟩
    · have hcommands : r'.commands = r.commands := congrArg Extraction.commands hsame
      have hpart : r.commands <+: r'.commands := hcommands ▸ List.prefix_rfl
      exact ⟨fun _ => hsame, fun h => ⟨length_of_spent rfl h, hpart⟩⟩
    · rw [hraised.eq_of_steps] at hf
      exact ⟨fun h => absurd hf h, fun h => ⟨length_of_spent rfl h, hpart⟩⟩
  · intro r hr
    rcases extract_raise (Limits.le_of_idle hj (some steps) depth) rfl rfl source dialect w with
      hsame | ⟨⟨f, hf, hraised⟩, _⟩
    · exact hsame
    · refine absurd ?_ hr
      rw [show r.fault = some f from hf]
      exact hraised.reason
  · intro n hn
    rcases Interpreter.answer_raise (Limits.le_of_idle hj steps depth)
      (i := .ofProgram p _) rfl ws k with
      ⟨f, hf, hraised⟩ | hsame
    · refine absurd ?_ hn
      rw [show n.fault = some f from hf]
      exact hraised.reason
    · exact hsame

/-- a state that goes round and round -/
def spinner : Automaton where
  states :=
    [Automaton.stopState,
     { id := "spin", name := "Spin", transitions := [⟨"turn", "spin", [], [.turnLeft]⟩] }]
  start := some "spin"

/-- the only cell of a world -/
def spot : World where
  width := 1
  height := 1
  grid := [[.empty]]
  character := { position := ⟨0, 0⟩, direction := .north }

/-- Two turns of five, and then the other three. -/
theorem spinner_limited :
    2 ≤ 5 ∧ 1 ≤ 3 ∧ (spinner.run spot none (some 2)).steps = 2 ∧
      spinner.run spot none (some 5) =
        (spinner.run (spinner.run spot none (some 2)).world (some "spin") (some 3)).later 2
          (.limitExceeded 5 "steps") := by
  have hm : 2 ≤ 5 := by decide
  have hj : 1 ≤ 3 := by decide
  obtain ⟨hruns, -⟩ := limits_only_guard hm hj
  obtain ⟨hsteps, c, hc, hgoes⟩ := (hruns spinner spot none).2 (by decide +kernel)
  obtain rfl : "spin" = c := Option.some.inj ((by decide +kernel : some "spin" = _).trans hc)
  exact ⟨hm, hj, hsteps, hgoes⟩

end Ladybug

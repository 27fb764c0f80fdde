import Mathlib.Data.List.Infix
import Ladybug.Proofs.Script.Resumed

/-!
# Loops without a command

The iterations that begin are counted, those of all loops together, and a command sets the count
back. A program stops where one more of them would begin than may, and nowhere else for that reason.

* `idling`            the iterations that have begun since the last command
* `Bounded`           there were never more of them than a number
* `CallEnds`          how a call ends
* `Underway`          a program that has not stopped, with the moves it has made
* `AtLimit`           where one more iteration would begin than may
* `idle_guard_exact`  a call ends with the fault of an idle loop exactly there
-/

namespace Ladybug.Script

/-! ### iterations since the last command -/

def Event.count : Nat → Event → Nat
  | _, .emit _ => 0
  | n, .enter _ => n + 1

/-- the iterations, of whatever loops, that have begun since the last command or since the start -/
def idling (es : List Event) : Nat := es.foldl Event.count 0

@[simp] theorem idling_emit (es : List Event) (c : Command) : idling (es ++ [.emit c]) = 0 := by
  simp [idling, Event.count]

@[simp] theorem idling_enter (es : List Event) (line : Nat) :
    idling (es ++ [.enter line]) = idling es + 1 := by
  simp [idling, Event.count]

/-- Without a command between them, iterations add up. -/
theorem idling_append {es more : List Event} (h : emitted more = []) :
    idling (es ++ more) = idling es + more.length := by
  induction more generalizing es with
  | nil => rw [List.append_nil, List.length_nil, Nat.add_zero]
  | cons e more ih =>
    cases e with
    | emit c => cases h
    | enter line =>
      have hrest : idling (es ++ [.enter line] ++ more) = idling (es ++ [.enter line]) + _ := ih h
      rw [List.append_assoc, idling_enter, List.singleton_append] at hrest
      rw [hrest, List.length_cons]
      omega

/-- There were never more than `n` iterations since the last command. -/
def Bounded (n : Nat) (es : List Event) : Prop := ∀ es', es' <+: es → idling es' ≤ n

section

variable {n : Nat} {es : List Event}

theorem bounded_nil : Bounded n [] := by
  intro es' h
  rw [List.prefix_nil.mp h]
  exact Nat.zero_le n

theorem Bounded.concat {e : Event} (h : Bounded n es) (hle : idling (es ++ [e]) ≤ n) :
    Bounded n (es ++ [e]) := by
  intro es' hes
  rcases List.prefix_concat_iff.mp hes with rfl | hes
  · exact hle
  · exact h es' hes

theorem Bounded.emit (h : Bounded n es) (c : Command) : Bounded n (es ++ [.emit c]) :=
  h.concat (by rw [idling_emit]; exact Nat.zero_le n)

theorem Bounded.entered {lines : List Nat} (h : Bounded n es)
    (hle : idling es + lines.length ≤ n) : Bounded n (es ++ lines.map .enter) := by
  induction lines generalizing es with
  | nil => rwa [List.map_nil, List.append_nil]
  | cons line lines ih =>
    rw [List.length_cons] at hle
    have hone : Bounded n (es ++ [.enter line]) := h.concat (by rw [idling_enter]; omega)
    have hrest := ih hone (by rw [idling_enter]; omega)
    rwa [List.append_assoc, List.singleton_append] at hrest

end

/-! ### loops that go on -/

/-- A loop comes next, and its condition is true. -/
inductive AtLoop (w : World) (line : Nat) : Agenda → Prop
  | loop {e : Expr} {body rest : List Stmt} {outer : Agenda} (holds : e.Value w true) :
      AtLoop w line ((.loop e body line :: rest) :: outer)

theorem Agenda.atLoop_of_step {w : World} {line : Nat} {a rest : Agenda}
    (h : a.step w = .again line rest) : AtLoop w line a := by
  unfold Agenda.step at h
  split at h
  · cases h
  · cases h
  · cases h
  · cases h
  · split at h
    · rename_i holds
      cases h
      exact .loop (Expr.value_iff.mpr holds)
    · cases h
  · cases h

theorem AtLoop.step {w : World} {line : Nat} {a : Agenda} (h : AtLoop w line a) :
    ∃ rest, a.step w = .again line rest := by
  cases h with
  | loop holds => exact ⟨_, Agenda.step_again holds _ _ _ _⟩

section

variable {ws : Nat → World} {deepest : Option Nat} {k line : Nat} {a b : Agenda} {es : List Event}

/-- A way on from such a loop begins with an iteration. -/
theorem AtLoop.enters (h : AtLoop (ws k) line a) (hgoes : Goes ws deepest k a es b) :
    es = [] ∧ b = a ∨ [.enter line] <+: es := by
  obtain ⟨rest, hstep⟩ := h.step
  cases hgoes with
  | here => exact .inl ⟨rfl, rfl⟩
  | move _ _ after =>
    rw [hstep]
    exact .inr (List.prefix_append _ _)

/-- Before an iteration there is a loop that goes on. -/
theorem Goes.before_enter (h : Goes ws deepest k a (es ++ [.enter line]) b) :
    ∃ a', Goes ws deepest k a es a' ∧ ¬ a'.Deep deepest (ws (k + (emitted es).length)) ∧
      AtLoop (ws (k + (emitted es).length)) line a' := by
  generalize hall : es ++ [.enter line] = all at h
  induction h generalizing es with
  | here => exact absurd hall (List.append_ne_nil_of_right_ne_nil es (List.cons_ne_nil _ _))
  | @move k a b after more shallow _ ih =>
    cases hstep : a.step (ws k) with
    | done => exact absurd (Agenda.step_eq_done hstep) more
    | go rest =>
      rw [hstep] at hall ih
      obtain ⟨a', hgoes, hshallow, hloop⟩ := ih hall
      exact ⟨a', .first shallow hstep nofun hgoes, hshallow, hloop⟩
    | emit c rest =>
      rw [hstep] at hall ih
      cases es with
      | nil => exact absurd (List.cons.inj hall).1 nofun
      | cons e es =>
        obtain ⟨rfl, hrest⟩ := List.cons.inj hall
        obtain ⟨a', hgoes, hshallow, hloop⟩ := ih hrest
        rw [Nat.add_assoc, Nat.add_comm (List.length _)] at hshallow hloop
        exact ⟨a', .first shallow hstep nofun hgoes, hshallow, hloop⟩
    | again line' rest =>
      rw [hstep] at hall ih
      cases es with
      | nil =>
        cases hall
        exact ⟨a, .here, shallow, Agenda.atLoop_of_step hstep⟩
      | cons e es =>
        obtain ⟨rfl, hrest⟩ := List.cons.inj hall
        obtain ⟨a', hgoes, hshallow, hloop⟩ := ih hrest
        exact ⟨a', .first shallow hstep nofun hgoes, hshallow, hloop⟩

end

/-! ### calls -/

/-- the iterations that may begin before a command -/
def Limits.loops (limits : Limits) : Nat := limits.idle.getD Automaton.unbounded

/-- How call number `k` ends after the events `es`, where `a` is to be done: with a command, with
one that is too many, at the end, before an iteration too many, or nested too deeply. -/
inductive CallEnds (limits : Limits) (ws : Nat → World) (k : Nat) (es : List Event) (a : Agenda) :
    Next → Prop
  | command {c : Command} {before : List Event} (found : es = before ++ [.emit c])
      (sofar : (emitted before).length = k) (within : ∀ n, limits.steps = some n → k < n) :
      CallEnds limits ws k es a ⟨some c, false, none⟩
  | spent {n : Nat} {c : Command} {before : List Event} (found : es = before ++ [.emit c])
      (sofar : (emitted before).length = k) (limit : limits.steps = some n) (past : n ≤ k) :
      CallEnds limits ws k es a ⟨none, true, some (.limitExceeded n "steps")⟩
  | finished (empty : a = []) (sofar : (emitted es).length = k) :
      CallEnds limits ws k es a ⟨none, true, none⟩
  | idle {line : Nat} (loop : AtLoop (ws k) line a) (shallow : ¬ a.Deep limits.depth (ws k))
      (sofar : (emitted es).length = k) (count : idling es = limits.loops) :
      CallEnds limits ws k es a ⟨none, true, (Halt.idle line).fault? limits⟩
  | tooDeep (deep : a.Deep limits.depth (ws k)) (sofar : (emitted es).length = k) :
      CallEnds limits ws k es a ⟨none, true, Halt.tooDeep.fault? limits⟩

/-- A program that has not stopped after `k` calls, with the moves it has made. The last of them, if
there are any, gave a command. -/
inductive Underway (p : Program) (limits : Limits) (ws : Nat → World) (k : Nat) :
    Interpreter → Prop
  | after {es : List Event} {a : Agenda} (goes : Goes ws limits.depth 0 [p.body] es a)
      (sofar : (emitted es).length = k) (fresh : idling es = 0)
      (bounded : Bounded limits.loops es) : Underway p limits ws k ⟨a, limits, k, false, none⟩

section

variable {p : Program} {limits : Limits} {ws : Nat → World} {k : Nat}

theorem underway_ofProgram : Underway p limits ws 0 (.ofProgram p limits) :=
  .after .here rfl rfl bounded_nil

theorem CallEnds.of_exhausted {es before : List Event} {a : Agenda} {c : Command}
    (found : es = before ++ [.emit c]) (sofar : (emitted before).length = k)
    (hover : Budget.exhausted ⟨limits.steps, "steps", (k + 1 : Nat)⟩ = true) :
    CallEnds limits ws k es a
      ⟨none, true, some (Budget.fault ⟨limits.steps, "steps", (k + 1 : Nat)⟩)⟩ := by
  obtain ⟨n, hn, hlt, hfault⟩ := Budget.fault_of_exhausted hover
  rw [hfault]
  exact .spent found sofar hn (Nat.le_of_lt_succ hlt)

/-- **A call moves on, with never more iterations than may begin, to where it must stop.** -/
theorem Underway.call {i : Interpreter} (h : Underway p limits ws k i) :
    (∃ es a, Goes ws limits.depth 0 [p.body] es a ∧ Bounded limits.loops es ∧
      CallEnds limits ws k es a (i.next (ws k)).2) ∧
    ((i.next (ws k)).1.done = false → Underway p limits ws (k + 1) (i.next (ws k)).1) := by
  cases h with
  | @after es a goes sofar fresh bounded =>
    obtain ⟨lines, left, b, hgoes, hcount, hpauses⟩ :=
      a.resume_goes ws limits.depth k limits.loops
    -- the iterations of this call are all there are since the last command
    have hpath : Goes ws limits.depth 0 [p.body] (es ++ lines.map .enter) b :=
      goes.trans (hgoes.at (by rw [sofar, Nat.zero_add]))
    have hbounded : Bounded limits.loops (es ++ lines.map .enter) :=
      bounded.entered (by rw [fresh]; omega)
    have hsofar : (emitted (es ++ lines.map .enter)).length = k := by
      rw [emitted_append, emitted_entered, List.append_nil, sofar]
    have hidling : idling (es ++ lines.map .enter) = lines.length := by
      rw [idling_append (emitted_entered lines), fresh, Nat.zero_add, List.length_map]
    generalize hr : a.resume limits.depth (ws k) limits.loops = r at hpauses
    cases hpauses with
    | @command c rest shallow found =>
      rw [Interpreter.next_of_ok rfl hr]
      have hlast : Goes ws limits.depth 0 [p.body] (es ++ lines.map .enter ++ [.emit c]) rest := by
        have hmove : Goes ws limits.depth k b [.emit c] rest :=
          .first (m := .emit c rest) shallow found nofun .here
        exact hpath.trans (hmove.at (by rw [hsofar, Nat.zero_add]))
      split
      · rename_i hover
        exact ⟨⟨_, rest, hlast, hbounded.emit c, .of_exhausted rfl hsofar hover⟩, nofun⟩
      · rename_i hover
        refine ⟨⟨_, rest, hlast, hbounded.emit c, .command rfl hsofar fun n hn => ?_⟩, fun _ => ?_⟩
        · exact Nat.lt_of_not_le fun hle =>
            hover (Budget.exhausted_iff.mpr ⟨n, hn, Nat.lt_succ_of_le hle⟩)
        · refine .after hlast ?_ (idling_emit _ c) (hbounded.emit c)
          rw [emitted_append, List.length_append, hsofar]
          rfl
    | finished empty =>
      rw [Interpreter.next_of_error rfl hr]
      exact ⟨⟨_, b, hpath, hbounded, .finished empty hsofar⟩, nofun⟩
    | idle shallow again none =>
      rw [Interpreter.next_of_error rfl hr]
      exact ⟨⟨_, b, hpath, hbounded,
        .idle (Agenda.atLoop_of_step again) shallow hsofar (by omega)⟩, nofun⟩
    | tooDeep deep =>
      rw [Interpreter.next_of_error rfl hr]
      exact ⟨⟨_, b, hpath, hbounded, .tooDeep deep hsofar⟩, nofun⟩

theorem Interpreter.underway_calls (h : ((ofProgram p limits).calls ws k).done = false) :
    Underway p limits ws k ((ofProgram p limits).calls ws k) := by
  induction k with
  | zero => exact underway_ofProgram
  | succ k ih => exact (ih (not_done_of_next h)).call.2 h

/-- A call after the one that has stopped a program gives the same answer again. -/
theorem Interpreter.answer_of_done {i : Interpreter} (hi : i.done = false)
    (h : (i.calls ws k).done = true) :
    ∃ j < k, (i.calls ws j).done = false ∧ i.answer ws k = i.answer ws j := by
  induction k with
  | zero => exact absurd (hi.symm.trans h) (by decide)
  | succ k ih =>
    have hagain : i.answer ws (k + 1) = ⟨none, true, (i.calls ws (k + 1)).fault⟩ :=
      congrArg Prod.snd (next_of_done _ h)
    cases hk : (i.calls ws k).done with
    | false => exact ⟨k, Nat.lt_succ_self k, hk, hagain.trans (next_of_stopped h).symm⟩
    | true =>
      obtain ⟨j, hj, hlive, hsame⟩ := ih hk
      refine ⟨j, Nat.lt_succ_of_lt hj, hlive, hagain.trans (Eq.trans ?_ hsame)⟩
      exact (next_of_stopped h).symm

/-! ### one iteration more than may begin -/

/-- After `k` commands a loop goes on although as many iterations have begun since then as may. -/
structure AtLimit (p : Program) (limits : Limits) (ws : Nat → World) (k line : Nat)
    (es : List Event) (a : Agenda) : Prop where
  goes : Goes ws limits.depth 0 [p.body] es a
  loop : AtLoop (ws k) line a
  shallow : ¬ a.Deep limits.depth (ws k)
  sofar : (emitted es).length = k
  count : idling es = limits.loops

variable {line : Nat} {es es' : List Event} {a b : Agenda}

/-- A program that keeps to the limit does not go past this place. -/
theorem AtLimit.reach (h : AtLimit p limits ws k line es a)
    (hgoes : Goes ws limits.depth 0 [p.body] es' b) (hbounded : Bounded limits.loops es') :
    ∃ more, es = es' ++ more ∧ Goes ws limits.depth (emitted es').length b more a := by
  rcases hgoes.linear h.goes with ⟨more, heq, hmore⟩ | ⟨more, rfl, hmore⟩
  · exact ⟨more, heq, hmore.at (Nat.zero_add _)⟩
  · rcases h.loop.enters (hmore.at ((Nat.zero_add _).trans h.sofar)) with ⟨rfl, rfl⟩ | henter
    · exact ⟨[], by rw [List.append_nil, List.append_nil], .here⟩
    · have hle := hbounded _ ((List.prefix_append_right_inj es).mpr henter)
      rw [idling_enter, h.count] at hle
      omega

theorem AtLimit.stops {n : Next} (h : AtLimit p limits ws k line es a)
    (hgoes : Goes ws limits.depth 0 [p.body] es' b) (hbounded : Bounded limits.loops es')
    (hstops : CallEnds limits ws k es' b n) : n.fault = (Halt.idle line).fault? limits := by
  obtain ⟨more, rfl, hmore⟩ := h.reach hgoes hbounded
  have hsofar := h.sofar
  rw [emitted_append, List.length_append] at hsofar
  cases hstops with
  | command found sofar | spent found sofar =>
    -- there is a command too many
    rw [found, emitted_append, List.length_append, sofar, emitted_emit, List.length_cons] at hsofar
    omega
  | finished empty =>
    subst empty
    obtain ⟨-, rfl⟩ := hmore.eq_of_nil
    cases h.loop
  | @idle line' loop shallow sofar count =>
    rcases loop.enters (hmore.at sofar) with ⟨rfl, rfl⟩ | henter
    · cases h.loop
      cases loop
      rfl
    · -- an iteration has begun that is one too many
      have hsilent : emitted more = [] := List.length_eq_zero_iff.mp (by omega)
      have hcount := h.count
      have hlen := henter.length_le
      rw [idling_append hsilent, count] at hcount
      rw [List.length_singleton] at hlen
      omega
  | tooDeep deep sofar =>
    obtain ⟨-, rfl⟩ := (hmore.at sofar).eq_of_deep deep
    exact absurd deep h.shallow

theorem CallEnds.atLimit {n : Next} (h : CallEnds limits ws k es a n)
    (hgoes : Goes ws limits.depth 0 [p.body] es a)
    (hn : n.fault = (Halt.idle line).fault? limits) : AtLimit p limits ws k line es a := by
  cases h with
  | command | finished => cases hn
  | spent =>
    have hreason : some "steps" = some "idle_loop" := congrArg (Option.bind · Fault.reason) hn
    exact absurd hreason (by decide)
  | @idle line' loop shallow sofar count =>
    have hline : some (line' : Int) = some (line : Int) := congrArg (Option.bind · Fault.line) hn
    obtain rfl : line' = line := Int.ofNat.inj (Option.some.inj hline)
    exact ⟨hgoes, loop, shallow, sofar, count⟩
  | tooDeep =>
    have hkind : some FaultKind.execution = some .limitExceeded :=
      congrArg (Option.map Fault.kind) hn
    exact absurd hkind (by decide)

/-- With blocks and conditions that are not nested too deeply, every execution of the program comes
to this place. -/
theorem exists_atLimit_iff (hfits : ∀ m, limits.depth = some m → blockNesting p.body ≤ m) :
    (∃ es a, AtLimit p limits ws k line es a) ↔
      ∃ es, Run ws 0 p.body (es ++ [.enter line]) .cut ∧ (emitted es).length = k ∧
        idling es = limits.loops := by
  constructor
  · rintro ⟨es, a, goes, loop, -, rfl, count⟩
    refine ⟨es, ?_, rfl, count⟩
    cases loop with
    | loop holds =>
      have hrun := goes.run (((Run.loopCut holds .cut).from (Nat.zero_add _).symm))
      rwa [List.flatten_cons, List.flatten_nil, List.append_nil] at hrun
  · rintro ⟨es, hrun, rfl, count⟩
    obtain ⟨b, hgoes, _⟩ := hrun.goes [] fun m hm =>
      ⟨(Nat.zero_add _).trans_le (hfits m hm), trivial⟩
    obtain ⟨a, goes, shallow, loop⟩ := hgoes.before_enter
    rw [Nat.zero_add] at loop shallow
    exact ⟨es, a, goes, loop, shallow, rfl, count⟩

end

/-- **A call ends with the fault of an idle loop exactly where a loop goes on although as many
iterations have begun since the last command as may.** The iterations of all loops are counted
together, and there are never more than may begin, whatever the worlds are that the calls bring. -/
theorem idle_guard_exact (p : Program) (idle : Nat) (steps depth : Option Nat) (ws : Nat → World)
    (k : Nat) :
    let limits : Limits := ⟨steps, some idle, depth⟩
    let i := Interpreter.ofProgram p limits
    let n := i.answer ws k
    ((i.calls ws k).done = true → ∃ j < k, (i.calls ws j).done = false ∧ n = i.answer ws j) ∧
    ((i.calls ws k).done = false →
      (∃ es a, Goes ws depth 0 [p.body] es a ∧ Run ws 0 p.body es .cut ∧ Bounded idle es ∧
        CallEnds limits ws k es a n) ∧
      ∀ line : Nat,
        let fault : Fault := { Fault.limitExceeded idle idleUnit with
          line := some line, reason := some "idle_loop" }
        (n.fault = some fault ↔ ∃ es a, AtLimit p limits ws k line es a) ∧
        ((∀ m, depth = some m → blockNesting p.body ≤ m) →
          (n.fault = some fault ↔
            ∃ es, Run ws 0 p.body (es ++ [.enter line]) .cut ∧ (emitted es).length = k ∧
              idling es = idle))) := by
  intro limits i n
  refine ⟨Interpreter.answer_of_done rfl, fun hlive => ?_⟩
  obtain ⟨es, a, hgoes, hbounded, hstops⟩ := (Interpreter.underway_calls hlive).call.1
  have hrun : Run ws 0 p.body es .cut := by
    have hrun := hgoes.run .cut
    rwa [List.flatten_cons, List.flatten_nil, List.append_nil, List.append_nil] at hrun
  refine ⟨⟨es, a, hgoes, hrun, hbounded, hstops⟩, fun line => ?_⟩
  have hiff : n.fault = (Halt.idle line).fault? limits ↔
      ∃ es a, AtLimit p limits ws k line es a :=
    ⟨fun hn => ⟨es, a, hstops.atLimit hgoes hn⟩, fun ⟨_, _, h⟩ => h.stops hgoes hbounded hstops⟩
  exact ⟨hiff, fun hfits => hiff.trans (exists_atLimit_iff hfits)⟩

end Ladybug.Script

import Ladybug.Proofs.Limits
import Ladybug.Proofs.Session.Safe

/-!
# Scripts that are ticked for a while and then skipped

A session asks its interpreter for the commands that an extraction would do, each being done before
the next is asked for. Only the limits differ: without limited streaming a tick has none, and a skip
counts its own commands. With as many commands left as the extraction has, both pass their limits at
the same command.

* `Interpreter.next_withLimits`   one call under the limits of a session
* `Session.Extracting`            a session whose script an extraction would bring to an end
* `Extracting.codeTick`           one command of it
* `Extracting.ticks`, `Extracting.skipCode`   some ticks, and the rest of the run
* `Session.told`                  the fault of an extraction as the session gives it
* `skipped_session_ends`          where the session ends
-/

namespace Ladybug

/-! ### one call -/

theorem Command.blocked_ne_limit (c : Command) (w : World) (m : Nat) :
    c.blocked w ≠ .limitExceeded m "steps" := fun h => by
  cases congrArg Fault.kind h

namespace Script

theorem Halt.fault?_ne_limit (h : Halt) (limits : Limits) (m : Nat) :
    h.fault? limits ≠ some (.limitExceeded m "steps") := by
  intro heq
  cases h with
  | finished => cases heq
  | idle line =>
    have hreason : some "idle_loop" = some "steps" := congrArg (Option.bind · Fault.reason) heq
    exact absurd hreason (by decide)
  | tooDeep => cases congrArg (Option.map Fault.kind) heq

namespace Interpreter

variable {i : Interpreter} {m : Nat}

theorem resume_withLimits {l : Limits} (hl : i.limits = { l with steps := some m }) (w : World) :
    (i.withLimits l).agenda.resume l.depth w (l.idle.getD Automaton.unbounded) =
      i.agenda.resume i.limits.depth w (i.limits.idle.getD Automaton.unbounded) := by
  rw [hl]
  rfl

/-- Without its limit on steps, a call is the same, or it finds a command where the limit had ended
the program. -/
theorem next_unlimited {l : Limits} (hi : i.done = false)
    (hl : i.limits = { l with steps := some m }) (hnone : l.steps = none) (w : World) :
    (i.withLimits l).next w = ((i.next w).1.withLimits l, (i.next w).2) ∧
        (i.next w).2.fault ≠ some (.limitExceeded m "steps") ∨
      m ≤ i.emitted ∧ (i.next w).2 = ⟨none, true, some (.limitExceeded m "steps")⟩ ∧
        ∃ c, ((i.withLimits l).next w).2.command = some c := by
  cases hr : i.agenda.resume i.limits.depth w (i.limits.idle.getD Automaton.unbounded) with
  | error e =>
    have hfault : e.fault? l = e.fault? i.limits := Halt.fault?_congr fun _ _ => by rw [hl]
    have hnext := next_of_error hi hr
    have hnext' : (i.withLimits l).next w = (i.withLimits l).halt (e.fault? l) :=
      next_of_error hi ((resume_withLimits hl w).trans hr)
    refine .inl ⟨?_, ?_⟩
    · rw [hnext, hnext', hfault]
      rfl
    · rw [hnext]
      exact e.fault?_ne_limit i.limits m
  | ok found =>
    obtain ⟨c, rest⟩ := found
    have hnext := next_of_ok hi hr
    have hnext' : (i.withLimits l).next w
        = (((i.withLimits l).emit rest), ⟨some c, false, none⟩) := by
      rw [next_of_ok (i := i.withLimits l) hi ((resume_withLimits hl w).trans hr)]
      refine if_neg ?_
      show ¬ Budget.exhausted ⟨l.steps, "steps", i.emitted + 1⟩ = true
      rw [hnone, Budget.exhausted_unlimited]
      exact Bool.false_ne_true
    by_cases hover : (i.emit rest).budget.exhausted = true
    · obtain ⟨n, hn, hlt, hfault⟩ := Budget.fault_of_exhausted hover
      have hsteps : i.limits.steps = some m := by rw [hl]
      obtain rfl : m = n := Option.some.inj (hsteps.symm.trans hn)
      rw [if_pos hover] at hnext
      refine .inr ⟨?_, ?_, c, ?_⟩
      · exact Nat.le_of_lt_succ hlt
      · rw [hnext]
        show (⟨none, true, some (i.emit rest).budget.fault⟩ : Next) = _
        rw [← hfault]
        rfl
      · rw [hnext']
    · rw [if_neg hover] at hnext
      refine .inl ⟨?_, ?_⟩
      · rw [hnext, hnext']
        rfl
      · rw [hnext]
        exact nofun

/-- One call under the limits of a session, which have the limit on steps or none. -/
theorem next_withLimits {l : Limits} (hi : i.done = false)
    (hl : i.limits = { l with steps := some m }) (hsteps : l.steps = none ∨ l.steps = some m)
    (w : World) :
    (i.withLimits l).next w = ((i.next w).1.withLimits l, (i.next w).2) ∧
        (l.steps = none → (i.next w).2.fault ≠ some (.limitExceeded m "steps")) ∨
      l.steps = none ∧ m ≤ i.emitted ∧
        (i.next w).2 = ⟨none, true, some (.limitExceeded m "steps")⟩ ∧
        ∃ c, ((i.withLimits l).next w).2.command = some c := by
  rcases hsteps with hnone | hsome
  · rcases next_unlimited hi hl hnone w with ⟨hsame, hne⟩ | hpast
    · exact .inl ⟨hsame, fun _ => hne⟩
    · exact .inr ⟨hnone, hpast⟩
  · have hlimits : l = i.limits := by rw [hl, ← hsome]
    have hnext : (i.next w).1.withLimits l = (i.next w).1 := by
      rw [hlimits, ← i.limits_next w]
      rfl
    refine .inl ⟨?_, fun hnone => ?_⟩
    · rw [hnext, hlimits]
      rfl
    · rw [hsome] at hnone
      cases hnone

end Interpreter

end Script

namespace Session

open Script (Interpreter Extraction Extracts)

variable {s : Session} {i : Interpreter}

/-! ### one command of a session -/

section

variable {b : Option Budget} {c : Command}

theorem codeTick_of_none (b : Option Budget) (h : (i.next s.world).2.command = none) :
    s.codeTick i b =
      ((s.setInterpreter (i.next s.world).1).after s.world true (i.next s.world).2.fault,
        ⟨s.world, true, (i.next s.world).2.fault, none, none, none⟩) := by
  unfold codeTick
  simp only [h]
  rfl

theorem codeTick_of_spent (h : (i.next s.world).2.command = some c)
    (hb : b.any Budget.exhausted = true) :
    s.codeTick i b =
      ((s.setInterpreter (i.next s.world).1).after s.world true (b.map Budget.fault),
        ⟨s.world, true, b.map Budget.fault, none, none, none⟩) := by
  unfold codeTick
  simp only [h, if_pos hb]
  rfl

theorem codeTick_of_blocked (h : (i.next s.world).2.command = some c)
    (hb : b.any Budget.exhausted = false) (hc : c.apply s.world = none) :
    s.codeTick i b =
      ((s.setInterpreter (i.next s.world).1).after s.world true (some (c.blocked s.world)),
        ⟨s.world, true, some (c.blocked s.world), some c, none, none⟩) := by
  unfold codeTick
  simp only [h, hb, Bool.false_eq_true, ↓reduceIte, setInterpreter, hc]

theorem codeTick_of_acts {w : World} (h : (i.next s.world).2.command = some c)
    (hb : b.any Budget.exhausted = false) (hc : c.apply s.world = some w) :
    s.codeTick i b =
      ((s.setInterpreter (i.next s.world).1).after w false none,
        ⟨w, false, none, some c, none, none⟩) := by
  unfold codeTick
  simp only [h, hb, Bool.false_eq_true, ↓reduceIte, setInterpreter, hc]

end

/-! ### a session and an extraction -/

/-- The fault that a session gives where an extraction of at most `m` commands gives one: without
limited streaming the limit that a session passes is its own. -/
def told (settings : Settings) (m : Nat) (f : Option Fault) : Option Fault :=
  if settings.limitStreaming = false ∧ f = some (.limitExceeded m "steps") then
    some (.limitExceeded settings.maxScriptSteps "commands")
  else f

/-- A run that has ended in a world with a fault. -/
structure Over (s : Session) (v : World) (f : Option Fault) : Prop where
  done : s.done = true
  world : s.world = v
  fault : s.fault = f

/-- A call that leaves the run at its end, and says so. -/
structure Closes (r : Session × Tick) (v : World) (f : Option Fault) : Prop where
  ended : r.1.Over v f
  done : r.2.done = true
  world : r.2.world = v
  fault : r.2.fault = f

/-- A session under some settings whose script an extraction of at most `m` commands, being under
way in `i`, would bring to the world `v` and the fault `f`. There are `left` commands for it. -/
structure Extracting (settings : Settings) (m : Nat) (v : World) (f : Option Fault) (s : Session)
    (i : Interpreter) (left : Nat) : Prop where
  settings_eq : s.settings = settings
  run : s.run = { mode := some .code, interpreter := some (i.withLimits s.limits) }
  going : s.done = false
  active : i.done = false
  limits : i.limits = { s.limits with steps := some m }
  extracts : ∃ cs, Extracts i s.world ⟨cs, v, f⟩
  enough : m ≤ i.emitted + left
  exact : settings.limitStreaming = false → m = i.emitted + left
  streamed : settings.limitStreaming = true → settings.maxScriptSteps = m

/-- What one command leaves: the run is over, or the extraction goes on and has one command less. -/
def Advances (settings : Settings) (m : Nat) (v : World) (f : Option Fault) (left : Nat)
    (r : Session × Tick) : Prop :=
  Closes r v (told settings m f) ∨
    r.2.done = false ∧ ∃ i rest, left = rest + 1 ∧ Extracting settings m v f r.1 i rest

theorem told_of_ne {settings : Settings} {m : Nat} {f : Option Fault}
    (h : settings.limitStreaming = false → f ≠ some (.limitExceeded m "steps")) :
    told settings m f = f :=
  if_neg fun hspent => h hspent.1 hspent.2

/-- The last command of a run, or none. -/
theorem advances_after {settings : Settings} {m left : Nat} {s : Session} {t : Tick}
    {f g : Option Fault} (hg : told settings m f = g) (hdone : t.done = true)
    (hworld : t.world = s.world) (hfault : t.fault = g) :
    Advances settings m s.world f left (s.after s.world true g, t) := by
  refine .inl ?_
  rw [hg]
  exact ⟨⟨rfl, rfl, rfl⟩, hdone, hworld, hfault⟩

namespace Extracting

variable {settings : Settings} {m left : Nat} {v : World} {f : Option Fault}

theorem steps_eq (h : Extracting settings m v f s i left) :
    s.limits.steps = if settings.limitStreaming then some m else none := by
  unfold Session.limits
  rw [h.settings_eq]
  cases hl : settings.limitStreaming with
  | false => rfl
  | true => exact congrArg some (h.streamed hl)

/-- A command that the extraction has done as well. -/
theorem acted (h : Extracting settings m v f s i (left + 1)) {c : Command} {w : World}
    {cs : List Command} (asks : (i.next s.world).2.command = some c)
    (rest : Extracts (i.next s.world).1 w ⟨cs, v, f⟩) :
    Extracting settings m v f
      ((s.setInterpreter ((i.next s.world).1.withLimits s.limits)).after w false none)
      (i.next s.world).1 left := by
  have hlimit : i.limits.steps = some m := by rw [h.limits]
  have hemitted := (Interpreter.emitted_next hlimit asks).1
  have hactive : (i.next s.world).1.done = false := by
    obtain ⟨-, _, hnext, -⟩ := Interpreter.exists_of_next asks
    rw [hnext]
    exact h.active
  have henough := h.enough
  constructor
  case run =>
    simp only [after, setInterpreter, h.run, Bool.false_eq_true, ↓reduceIte]
    rfl
  case limits => exact (i.limits_next s.world).trans h.limits
  case extracts => exact ⟨cs, rest⟩
  case enough => omega
  case exact =>
    intro hfalse
    have hexact := h.exact hfalse
    omega
  case active => exact hactive
  case settings_eq => exact h.settings_eq
  case going => exact h.going
  case streamed => exact h.streamed

/-- A call that is the same for the session and for the extraction. -/
theorem codeTick_same (h : Extracting settings m v f s i left) {b : Option Budget}
    (hb : b.any Budget.exhausted = true ↔ left = 0)
    (hsame : (i.withLimits s.limits).next s.world
      = ((i.next s.world).1.withLimits s.limits, (i.next s.world).2))
    (hne : s.limits.steps = none → (i.next s.world).2.fault ≠ some (.limitExceeded m "steps")) :
    Advances settings m v f left (s.codeTick (i.withLimits s.limits) b) := by
  have hlimit : i.limits.steps = some m := by rw [h.limits]
  have hroom : i.emitted + 1 ≤ m → left ≠ 0 := by
    have henough := h.enough
    omega
  have hsecond : ((i.withLimits s.limits).next s.world).2 = (i.next s.world).2 := by rw [hsame]
  obtain ⟨cs, hext⟩ := h.extracts
  generalize hw : s.world = w at hext
  cases hext with
  | halt none =>
    subst hw
    rw [codeTick_of_none b (by rw [hsecond]; exact none), hsecond]
    refine advances_after (told_of_ne fun hfalse => hne ?_) rfl rfl rfl
    rw [h.steps_eq, hfalse]
    rfl
  | @block _ _ c asks still =>
    subst hw
    have hfine := Bool.eq_false_iff.mpr (mt hb.mp (hroom (Interpreter.emitted_next hlimit asks).2))
    rw [codeTick_of_blocked (by rw [hsecond]; exact asks) hfine still]
    have hother : some (c.blocked s.world) ≠ some (.limitExceeded m "steps") := fun heq =>
      c.blocked_ne_limit _ _ (Option.some.inj heq)
    exact advances_after (told_of_ne fun _ => hother) rfl rfl rfl
  | act asks acts rest =>
    subst hw
    have hleft := hroom (Interpreter.emitted_next hlimit asks).2
    obtain ⟨more, rfl⟩ := Nat.exists_eq_succ_of_ne_zero hleft
    have hfine := Bool.eq_false_iff.mpr (mt hb.mp hleft)
    rw [codeTick_of_acts (by rw [hsecond]; exact asks) hfine acts, hsame]
    exact .inr ⟨rfl, (i.next s.world).1, more, rfl, h.acted asks rest⟩

/-- **One command** of the session. It is the last, or the extraction goes on with the session. -/
theorem codeTick (h : Extracting settings m v f s i left) {b : Option Budget}
    (hb : b.any Budget.exhausted = true ↔ left = 0)
    (hf : left = 0 →
      b.map Budget.fault = some (.limitExceeded settings.maxScriptSteps "commands")) :
    Advances settings m v f left (s.codeTick (i.withLimits s.limits) b) := by
  have hcases : s.limits.steps = none ∨ s.limits.steps = some m := by
    rw [h.steps_eq]
    cases settings.limitStreaming with
    | false => exact .inl rfl
    | true => exact .inr rfl
  rcases Interpreter.next_withLimits h.active h.limits hcases s.world with
    ⟨hsame, hne⟩ | ⟨hnone, hm, hnext, c, hc⟩
  · exact h.codeTick_same hb hsame hne
  · -- the extraction has passed its limit, and the session passes its own here
    have hfalse : settings.limitStreaming = false := by
      refine Bool.eq_false_iff.mpr fun htrue => ?_
      rw [h.steps_eq, htrue] at hnone
      cases hnone
    have hleft : left = 0 := by
      have hexact := h.exact hfalse
      omega
    rw [codeTick_of_spent hc (hb.mpr hleft), hf hleft]
    obtain ⟨cs, hext⟩ := h.extracts
    generalize hw : s.world = w at hext
    cases hext with
    | halt =>
      subst hw
      rw [hnext]
      exact advances_after (if_pos ⟨hfalse, rfl⟩) rfl rfl rfl
    | block asks | act asks =>
      subst hw
      rw [hnext] at asks
      cases asks

end Extracting

/-! ### ticks -/

/-- the session after some ticks -/
def ticks : Nat → Session → Session
  | 0, s => s
  | k + 1, s => ticks k s.tick.1

section

variable {j : Interpreter} (hrun : s.run = { mode := some .code, interpreter := some j })
  (hdone : s.done = false)
include hrun hdone

theorem tick_of_code : s.tick = s.codeTick j none := by
  simp only [tick, running, hrun, hdone, Option.isSome_some, Bool.not_false, Bool.and_self,
    Bool.not_true, Bool.false_eq_true, ↓reduceIte]

theorem skip_of_code : s.skip = s.codeSkip j := by
  simp only [skip, running, hrun, hdone, Option.isSome_some, Bool.not_false, Bool.and_self,
    Bool.not_true, Bool.false_eq_true, ↓reduceIte]

end

section

variable {settings : Settings} {m left : Nat} {v : World} {f : Option Fault}

theorem Over.not_running (h : s.Over v f) : s.running = false := by
  rw [running, h.done, Bool.not_true, Bool.and_false]

theorem Over.ticks (h : s.Over v f) (k : Nat) : (ticks k s).Over v f := by
  induction k with
  | zero => exact h
  | succ k ih =>
    rw [Session.ticks, tick_of_not_running h.not_running]
    exact ih

theorem Over.skip (h : s.Over v f) : Closes s.skip v f := by
  rw [skip_of_not_running h.not_running]
  exact ⟨h, rfl, h.world, h.fault⟩

/-- **Some ticks**: the run is over, or the extraction goes on after them. -/
theorem Extracting.ticks {k : Nat} (h : Extracting settings m v f s i (left + k)) :
    (ticks k s).Over v (told settings m f) ∨
      ∃ j, Extracting settings m v f (ticks k s) j left := by
  induction k generalizing s i with
  | zero => exact .inr ⟨i, h⟩
  | succ k ih =>
    have hb : (none : Option Budget).any Budget.exhausted = true ↔ left + (k + 1) = 0 :=
      ⟨nofun, nofun⟩
    rw [Session.ticks, tick_of_code h.run h.going]
    rcases h.codeTick hb nofun with hend | ⟨-, j, rest, hrest, hgoes⟩
    · exact .inl (hend.ended.ticks k)
    · obtain rfl : left + k = rest := Nat.succ.inj hrest
      exact ih hgoes

/-! ### the rest of the run -/

/-- One command of a skip, its budget allowing as many as are left. -/
theorem Extracting.skipTick {count : Nat} (h : Extracting settings m v f s i left)
    (hcount : count + left = settings.maxScriptSteps) :
    let b : Budget := ⟨some settings.maxScriptSteps, "commands", count⟩
    Advances settings m v f left (s.codeTick (i.withLimits s.limits) (some b.charge)) := by
  intro b
  refine h.codeTick ?_ fun _ => rfl
  have hspent : b.charge.exhausted = true ↔
      ∃ n, some settings.maxScriptSteps = some n ∧ n < count + 1 := Budget.exhausted_iff
  rw [Option.any_some, hspent]
  constructor
  · rintro ⟨n, hn, hlt⟩
    cases hn
    omega
  · intro hleft
    exact ⟨_, rfl, by omega⟩

/-- **The rest of the run**, with a budget that allows as many commands as are left. -/
theorem Extracting.skipCode {count : Nat} (h : Extracting settings m v f s i left)
    (hcount : count + left = settings.maxScriptSteps) :
    Closes (skipCode left s ⟨some settings.maxScriptSteps, "commands", count⟩
      (i.withLimits s.limits)) v (told settings m f) := by
  induction left generalizing s i count with
  | zero =>
    rw [Session.skipCode]
    rcases h.skipTick hcount with hend | ⟨-, _, _, hrest, -⟩
    · simp only [hend.done, ↓reduceIte]
      exact hend
    · cases hrest
  | succ left ih =>
    rw [Session.skipCode]
    rcases h.skipTick hcount with hend | ⟨hgoes, j, rest, hrest, hj⟩
    · simp only [hend.done, ↓reduceIte]
      exact hend
    · obtain rfl : left = rest := Nat.succ.inj hrest
      simp only [hgoes, Bool.false_eq_true, ↓reduceIte, hj.run]
      have hnext : count + 1 + left = settings.maxScriptSteps := by omega
      exact ih hj hnext

end

/-! ### whole runs -/

/-- the number of commands for an extraction that ends where a run ends that is skipped after `k`
ticks: ticks are free unless streaming is limited -/
def allowance (settings : Settings) (k : Nat) : Nat :=
  if settings.limitStreaming then settings.maxScriptSteps else k + settings.maxScriptSteps

/-- An extraction begins with a run. -/
theorem extracting_startProgram (s : Session) (p : Script.Program) (k : Nat) :
    let m := allowance s.settings k
    let limits : Script.Limits := { steps := some m, idle := some s.settings.maxIdleIterations }
    let e := Script.extractProgram p limits s.world
    Extracting s.settings m e.world e.fault (s.startProgram p) (.ofProgram p limits)
      (s.settings.maxScriptSteps + k) := by
  intro m limits e
  have hsteps : limits.steps = some m := rfl
  have hext := Script.extractProgram_extracts p hsteps s.world
  have henough : m ≤ s.settings.maxScriptSteps + k := by
    show allowance s.settings k ≤ _
    unfold allowance
    split <;> omega
  constructor
  case extracts => exact ⟨e.commands, hext⟩
  case enough => exact Nat.le_trans henough (Nat.le_add_left _ _)
  case exact =>
    intro hfalse
    show allowance s.settings k = 0 + (s.settings.maxScriptSteps + k)
    rw [allowance, hfalse, if_neg Bool.false_ne_true]
    omega
  case streamed =>
    intro htrue
    show _ = allowance s.settings k
    rw [allowance, if_pos htrue]
  all_goals rfl

/-- **A script that is ticked for a while and then skipped ends where its extraction ends**, in the
same world and with the same fault; only the session's own limit is told in its own words. -/
theorem skipped_session_ends (s : Session) (source dialect : String) (k : Nat) :
    let m := allowance s.settings k
    let e := Script.extract source dialect
      { steps := some m, idle := some s.settings.maxIdleIterations } s.world
    Closes (ticks k (s.startCode source dialect).1).skip e.world (told s.settings m e.fault) := by
  intro m e
  have hstart : (s.startCode source dialect).1.Over e.world (told s.settings m e.fault) ∨
      ∃ i, Extracting s.settings m e.world e.fault (s.startCode source dialect).1 i
        (s.settings.maxScriptSteps + k) := by
    rw [startCode]
    rcases Script.extract_cases source dialect _ s.world with ⟨mistake, hcompile, heq⟩ |
      ⟨p, hcompile, heq⟩
    · have hparse : some mistake.fault ≠ some (.limitExceeded m "steps") := fun h => by
        cases congrArg (Option.map Fault.kind) h
      rw [hcompile, show e = _ from heq, told_of_ne fun _ => hparse]
      exact .inl ⟨rfl, rfl, rfl⟩
    · rw [hcompile, show e = _ from heq]
      exact .inr ⟨_, s.extracting_startProgram p k⟩
  rcases hstart with hover | ⟨i, hi⟩
  · exact (hover.ticks k).skip
  · rcases hi.ticks with hover | ⟨j, hj⟩
    · exact hover.skip
    · rw [skip_of_code hj.run hj.going, codeSkip, hj.settings_eq]
      exact hj.skipCode (Nat.zero_add _)

end Session

end Ladybug

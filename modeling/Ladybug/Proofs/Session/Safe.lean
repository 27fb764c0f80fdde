import Ladybug.Proofs.World.Runs
import Ladybug.Session

/-!
# Sessions, whatever is asked of them

* `Session.Call`        what may be asked of a session, in any order
* `Run.Alone`           of what runs programs, a session holds only what runs the kind it has begun
* `Session.Sound`       what holds of a session between two calls
* `Session.Sound.call`  every call keeps a session sound
* `Session.Safe`, `safe_afterCalls`   what can therefore be relied on after any calls
-/

namespace Ladybug

open World (Reaches Kept)

/-! ### what a session holds -/

/-- What runs programs of the kind that has begun is there, and nothing else that runs programs. -/
inductive Run.Alone : Run → Prop
  | nothing : Alone {}
  | commands (r : Runner) : Alone { mode := some .commands, runner := some r }
  | automaton (q : Automaton.Sequencer) : Alone { mode := some .automaton, sequencer := some q }
  | code (i : Script.Interpreter) : Alone { mode := some .code, interpreter := some i }

namespace Session

/-- What holds of a session between two calls. -/
structure Sound (s : Session) : Prop where
  valid : s.initial.Valid
  reached : Reaches s.initial s.world
  alone : s.run.Alone
  fine : s.running = true → s.fault = none

theorem not_running {s : Session} (h : s.running = false) : (!s.running) = true := by
  rw [h, Bool.not_false]

/-- what `s'` is after a step of the run of `s` -/
structure Steps (s s' : Session) : Prop where
  initial : s'.initial = s.initial
  reaches : Reaches s.world s'.world
  alone : s'.run.Alone
  fine : s'.done = false → s'.fault = none

theorem Sound.steps {s s' : Session} (h : s.Sound) (hs : s.Steps s') : s'.Sound where
  valid := hs.initial ▸ h.valid
  reached := hs.initial ▸ h.reached.trans hs.reaches
  alone := hs.alone
  fine hr := by
    refine hs.fine ?_
    rw [running, Bool.and_eq_true, Bool.not_eq_true'] at hr
    exact hr.2

theorem Steps.trans {s t u : Session} (h₁ : s.Steps t) (h₂ : t.Steps u) : s.Steps u :=
  ⟨h₂.initial.trans h₁.initial, h₁.reaches.trans h₂.reaches, h₂.alone, h₂.fine⟩

theorem steps_after {s : Session} (hf : s.fault = none) {run : Run} (hr : run.Alone) {w : World}
    (hw : Reaches s.world w) (done : Bool) (f : Option Fault) :
    s.Steps (after { s with run } w done f) := by
  unfold after
  cases done with
  | true => exact ⟨rfl, hw, hr, fun e => nomatch e⟩
  | false => exact ⟨rfl, hw, hr, fun _ => hf⟩

/-! ### one tick -/

section
variable {s : Session}

theorem steps_commandsTick {r₀ : Runner} (r : Runner) (hf : s.fault = none)
    (hr : s.run = { mode := some .commands, runner := some r₀ }) :
    s.Steps (s.commandsTick r).1 := by
  unfold commandsTick setRunner
  simp only [hr]
  exact steps_after hf (.commands _) (Runner.reaches_step r s.world) ..

theorem steps_automatonTick {q₀ : Automaton.Sequencer} (q : Automaton.Sequencer)
    (hf : s.fault = none) (hr : s.run = { mode := some .automaton, sequencer := some q₀ }) :
    s.Steps (s.automatonTick q).1 := by
  unfold automatonTick setSequencer
  simp only [hr]
  exact steps_after hf (.automaton _) (Automaton.Sequencer.reaches_advance q s.world) ..

theorem next_codeTick (s : Session) (i : Script.Interpreter) (b : Option Budget) :
    s.world.Next (s.codeTick i b).1.world := by
  unfold codeTick
  simp only
  cases (i.next s.world).2.command with
  | none => exact .inl rfl
  | some c =>
    simp only
    split
    · exact .inl rfl
    · cases h : c.apply s.world with
      | none =>
        simp only [setInterpreter, h]
        exact .inl rfl
      | some w =>
        simp only [setInterpreter, h]
        exact .inr ⟨c, h⟩

/-- One command of a script; the run has ended when the tick says so. -/
theorem steps_codeTick {i₀ : Script.Interpreter} (i : Script.Interpreter) (b : Option Budget)
    (hf : s.fault = none) (hr : s.run = { mode := some .code, interpreter := some i₀ }) :
    s.Steps (s.codeTick i b).1 ∧
      ((s.codeTick i b).2.done = false → (s.codeTick i b).1.fault = none) ∧
      ∃ j, (s.codeTick i b).1.run = { mode := some .code, interpreter := some j } := by
  have hnext := (next_codeTick s i b).reaches
  have hset : s.setInterpreter (i.next s.world).1
      = { s with run := { mode := some .code, interpreter := some (i.next s.world).1 } } := by
    rw [setInterpreter, hr]
  revert hnext
  unfold codeTick
  simp only [hset]
  intro hnext
  cases hc : (i.next s.world).2.command with
  | none =>
    simp only [hc] at hnext ⊢
    exact ⟨steps_after hf (.code _) hnext .., fun e => (nomatch e), _, rfl⟩
  | some c =>
    simp only [hc] at hnext ⊢
    by_cases hb : b.any Budget.exhausted = true
    · simp only [hb, ↓reduceIte] at hnext ⊢
      exact ⟨steps_after hf (.code _) hnext .., fun e => (nomatch e), _, rfl⟩
    · simp only [hb, Bool.false_eq_true, ↓reduceIte] at hnext ⊢
      cases hw : c.apply s.world with
      | none =>
        simp only [hw] at hnext ⊢
        exact ⟨steps_after hf (.code _) hnext .., fun e => (nomatch e), _, rfl⟩
      | some w =>
        simp only [hw] at hnext ⊢
        exact ⟨steps_after hf (.code _) hnext .., fun _ => hf, _, rfl⟩

/-! ### the rest of a run -/

theorem steps_commandsSkip {r₀ : Runner} (r : Runner) (hf : s.fault = none)
    (hr : s.run = { mode := some .commands, runner := some r₀ }) :
    s.Steps (s.commandsSkip r).1 := by
  unfold commandsSkip setRunner
  simp only [hr]
  exact steps_after hf (.commands _) (Runner.reaches_skip r s.world) ..

theorem steps_automatonSkip {q₀ : Automaton.Sequencer} (q : Automaton.Sequencer)
    (hf : s.fault = none) (hr : s.run = { mode := some .automaton, sequencer := some q₀ }) :
    s.Steps (s.automatonSkip q).1 := by
  unfold automatonSkip setSequencer
  simp only [hr]
  exact steps_after hf (.automaton _) (Automaton.Sequencer.reaches_skip q s.world) ..

end

theorem steps_skipCode (left : Nat) {s : Session} (b : Budget) {i₀ : Script.Interpreter}
    (i : Script.Interpreter) (hf : s.fault = none)
    (hr : s.run = { mode := some .code, interpreter := some i₀ }) :
    s.Steps (skipCode left s b i).1 := by
  induction left generalizing s b i₀ i with
  | zero =>
    obtain ⟨hs, -, -⟩ := steps_codeTick i (some b.charge) hf hr
    unfold skipCode
    simp only
    split <;> exact hs
  | succ left ih =>
    obtain ⟨hs, hfault, j, hj⟩ := steps_codeTick i (some b.charge) hf hr
    unfold skipCode
    simp only
    split
    · exact hs
    · rename_i hdone
      simp only [hj]
      exact hs.trans (ih b.charge j (hfault (Bool.eq_false_iff.mpr hdone)) hj)

/-! ### calls -/

/-- What may be asked of a session. Nothing stands for an automaton that is no program at all. -/
inductive Call where
  | startCommands (commands : List Command)
  | startAutomaton (program : Option Automaton) (state : Option String)
  | startCode (source dialect : String)
  | tick
  | skip
  | stop
  | reset
  | load (w : World) (valid : w.Valid)

/-- Calls that begin a run, if they are not refused. -/
def Call.starts : Call → Bool
  | .startCommands _ | .startAutomaton _ _ | .startCode _ _ => true
  | _ => false

def Call.loads : Call → Bool
  | .load _ _ => true
  | _ => false

/-- the session after a call, and why a start was refused -/
def call (s : Session) : Call → Session × Option Fault
  | .startCommands cs => (s.startCommands cs, none)
  | .startAutomaton (some a) id => s.startAutomaton a id
  | .startAutomaton none _ => s.startNothing
  | .startCode source dialect => s.startCode source dialect
  | .tick => (s.tick.1, none)
  | .skip => (s.skip.1, none)
  | .stop => (s.stop.1, none)
  | .reset => (s.reset, none)
  | .load w _ => (s.load w, none)

/-- A session after some calls. -/
def afterCalls (settings : Settings) (w : World) (calls : List Call) : Session :=
  calls.foldl (fun s c => (s.call c).1) (.ofWorld settings w)

theorem tick_of_not_running {s : Session} (h : s.running = false) : s.tick = (s, s.idleTick) := by
  rw [tick, if_pos (not_running h)]

theorem skip_of_not_running {s : Session} (h : s.running = false) : s.skip = (s, s.idleTick) := by
  rw [skip, if_pos (not_running h)]

theorem stop_of_not_running {s : Session} (h : s.running = false) : s.stop = (s, s.idleTick) := by
  simp only [stop, h, Bool.false_eq_true, ↓reduceIte]

theorem Sound.steps_tick {s : Session} (h : s.Sound) (hr : s.running = true) :
    s.Steps s.tick.1 ∧ s.world.Next s.tick.1.world := by
  have hf := h.fine hr
  have halone := h.alone
  unfold tick
  rw [hr, Bool.not_true, if_neg Bool.false_ne_true]
  generalize hrun : s.run = run at halone
  cases halone with
  | nothing =>
    rw [running, hrun] at hr
    cases hr
  | commands r =>
    refine ⟨steps_commandsTick r hf hrun, ?_⟩
    have hnext := r.next_step s.world
    unfold commandsTick after
    simp only
    split <;> exact hnext
  | automaton q =>
    refine ⟨steps_automatonTick q hf hrun, ?_⟩
    have hnext := q.next_advance s.world
    unfold automatonTick after
    simp only
    split <;> exact hnext
  | code i => exact ⟨(steps_codeTick i none hf hrun).1, next_codeTick s i none⟩

theorem Sound.steps_skip {s : Session} (h : s.Sound) (hr : s.running = true) :
    s.Steps s.skip.1 := by
  have hf := h.fine hr
  have halone := h.alone
  unfold skip
  rw [hr, Bool.not_true, if_neg Bool.false_ne_true]
  generalize hrun : s.run = run at halone
  cases halone with
  | nothing =>
    rw [running, hrun] at hr
    cases hr
  | commands r => exact steps_commandsSkip r hf hrun
  | automaton q => exact steps_automatonSkip q hf hrun
  | code i => exact steps_skipCode _ _ i hf hrun

/-- A session whose run is another one that has just begun, or none. -/
theorem Sound.begun {s : Session} (h : s.Sound) {run : Run} (hrun : run.Alone) (done : Bool)
    {fault : Option Fault} (hfine : done = false → fault = none) :
    Sound { s with run, done, fault } where
  valid := h.valid
  reached := h.reached
  alone := hrun
  fine hr := by
    rw [running, Bool.and_eq_true, Bool.not_eq_true'] at hr
    exact hfine hr.2

theorem Sound.reject {s : Session} (h : s.Sound) (f : Fault) : (s.reject f).Sound :=
  h.begun .nothing true fun e => nomatch e

theorem Sound.load {s : Session} {w : World} (hw : w.Valid) : (s.load w).Sound where
  valid := hw
  reached := .refl
  alone := .nothing
  fine hr := by cases hr

/-- **Every call keeps a session sound.** -/
theorem Sound.call {s : Session} (h : s.Sound) (c : Call) : (s.call c).1.Sound := by
  cases c with
  | startCommands cs =>
    show (s.startCommands cs).Sound
    unfold startCommands
    simp only
    split
    · exact h.begun (.commands _) true fun e => nomatch e
    · exact h.begun (.commands _) false fun _ => rfl
  | startAutomaton a id =>
    cases a with
    | none => exact h.reject _
    | some a =>
      show (s.startAutomaton a id).1.Sound
      unfold startAutomaton
      simp only
      split
      · exact h.reject _
      · exact h.begun (.automaton _) false fun _ => rfl
  | startCode source dialect =>
    show (s.startCode source dialect).1.Sound
    unfold startCode
    split
    · exact h.reject _
    · exact h.begun (.code _) false fun _ => rfl
  | tick =>
    show s.tick.1.Sound
    cases hr : s.running with
    | true => exact h.steps (h.steps_tick hr).1
    | false =>
      rw [tick_of_not_running hr]
      exact h
  | skip =>
    show s.skip.1.Sound
    cases hr : s.running with
    | true => exact h.steps (h.steps_skip hr)
    | false =>
      rw [skip_of_not_running hr]
      exact h
  | stop =>
    show (if s.running then { s with done := true } else s).Sound
    split
    · exact h.begun h.alone true fun e => nomatch e
    · exact h
  | reset => exact Sound.load (s := s) h.valid
  | load w valid => exact Sound.load valid

theorem sound_afterCalls (settings : Settings) {w : World} (hw : w.Valid) (calls : List Call) :
    (afterCalls settings w calls).Sound := by
  have hstart : (ofWorld settings w).Sound := ⟨hw, .refl, .nothing, fun e => nomatch e⟩
  unfold afterCalls
  generalize ofWorld settings w = s at hstart
  induction calls generalizing s with
  | nil => exact hstart
  | cons c calls ih => exact ih _ (hstart.call c)

/-! ### what can be relied on -/

/-- Starts and stops have nothing to do with worlds. -/
theorem call_worlds (s : Session) {c : Call} (hc : c.starts = true ∨ c = .stop) :
    (s.call c).1.world = s.world ∧ (s.call c).1.initial = s.initial := by
  cases c with
  | startCommands cs =>
    show (s.startCommands cs).world = s.world ∧ (s.startCommands cs).initial = s.initial
    unfold startCommands
    simp only
    split <;> exact ⟨rfl, rfl⟩
  | startAutomaton a id =>
    cases a with
    | none => exact ⟨rfl, rfl⟩
    | some a =>
      show (s.startAutomaton a id).1.world = s.world ∧
        (s.startAutomaton a id).1.initial = s.initial
      unfold startAutomaton
      simp only
      split <;> exact ⟨rfl, rfl⟩
  | startCode source dialect =>
    show (s.startCode source dialect).1.world = s.world ∧
      (s.startCode source dialect).1.initial = s.initial
    unfold startCode
    split <;> exact ⟨rfl, rfl⟩
  | stop =>
    show (if s.running then { s with done := true } else s).world = s.world ∧
      (if s.running then { s with done := true } else s).initial = s.initial
    split <;> exact ⟨rfl, rfl⟩
  | tick | skip | reset | load => simp [Call.starts] at hc

/-- Only another world to begin with is a world to go back to. -/
theorem Sound.call_initial {s : Session} (h : s.Sound) {c : Call} (hc : c.loads = false) :
    (s.call c).1.initial = s.initial := by
  cases c with
  | startCommands | startAutomaton | startCode => exact (s.call_worlds (.inl rfl)).2
  | stop => exact (s.call_worlds (.inr rfl)).2
  | tick =>
    show s.tick.1.initial = s.initial
    cases hr : s.running with
    | true => exact (h.steps_tick hr).1.initial
    | false => rw [tick_of_not_running hr]
  | skip =>
    show s.skip.1.initial = s.initial
    cases hr : s.running with
    | true => exact (h.steps_skip hr).initial
    | false => rw [skip_of_not_running hr]
  | reset => rfl
  | load w valid => cases hc

/-- A refusal is kept, and nothing runs. -/
theorem call_refused (s : Session) {c : Call} {f : Fault} (hc : (s.call c).2 = some f) :
    (s.call c).1.running = false ∧ (s.call c).1.fault = some f := by
  cases c with
  | startAutomaton a id =>
    cases a with
    | none =>
      cases hc
      exact ⟨rfl, rfl⟩
    | some a =>
      revert hc
      show (s.startAutomaton a id).2 = some f →
        (s.startAutomaton a id).1.running = false ∧ (s.startAutomaton a id).1.fault = some f
      unfold startAutomaton
      simp only
      split
      · rintro ⟨rfl⟩
        exact ⟨rfl, rfl⟩
      · rintro ⟨⟩
  | startCode source dialect =>
    revert hc
    show (s.startCode source dialect).2 = some f →
      (s.startCode source dialect).1.running = false ∧ (s.startCode source dialect).1.fault = some f
    unfold startCode
    split
    · rintro ⟨rfl⟩
      exact ⟨rfl, rfl⟩
    · rintro ⟨⟩
  | startCommands | tick | skip | stop | reset | load => cases hc

/-- What can be relied on in a session, whatever has been asked of it. -/
structure Safe (s : Session) : Prop where
  /-- Only commands have changed the world since the initial one. -/
  valid : s.world.Valid
  kept : Kept s.initial s.world
  reset_world : s.reset.world = s.initial
  call_initial : ∀ c, Call.loads c = false → (s.call c).1.initial = s.initial
  load_initial : ∀ w valid, (s.call (.load w valid)).1.initial = w
  /-- Starts, whether refused or not, and stops leave the world alone. -/
  start_world : ∀ c, Call.starts c = true → (s.call c).1.world = s.world
  stop_world : s.stop.1.world = s.world
  tick_world : s.world.Next s.tick.1.world
  /-- A run that goes on has no fault, and what runs programs of its kind alone is there. -/
  fine : s.running = true → s.fault = none
  component : s.running = true → ∃ mode, s.run.mode = some mode ∧
    (s.run.runner.isSome = true ↔ mode = .commands) ∧
    (s.run.sequencer.isSome = true ↔ mode = .automaton) ∧
    (s.run.interpreter.isSome = true ↔ mode = .code)
  /-- Without such a run, nothing happens. -/
  idle : s.running = false →
    s.tick = (s, s.idleTick) ∧ s.skip = (s, s.idleTick) ∧ s.stop = (s, s.idleTick)
  idle_tick : s.idleTick.done = true ∧ s.idleTick.world = s.world ∧ s.idleTick.fault = s.fault
  refused : ∀ c f, (s.call c).2 = some f →
    (s.call c).1.running = false ∧ (s.call c).1.fault = some f

theorem Sound.component {s : Session} (h : s.Sound) (hr : s.running = true) :
    ∃ mode, s.run.mode = some mode ∧
      (s.run.runner.isSome = true ↔ mode = .commands) ∧
      (s.run.sequencer.isSome = true ↔ mode = .automaton) ∧
      (s.run.interpreter.isSome = true ↔ mode = .code) := by
  have halone := h.alone
  unfold running at hr
  generalize s.run = run at hr halone
  cases halone with
  | nothing => cases hr
  | commands r => exact ⟨.commands, rfl, by simp, by simp, by simp⟩
  | automaton q => exact ⟨.automaton, rfl, by simp, by simp, by simp⟩
  | code i => exact ⟨.code, rfl, by simp, by simp, by simp⟩

theorem Sound.safe {s : Session} (h : s.Sound) : s.Safe where
  valid := (h.reached.kept h.valid).1
  kept := (h.reached.kept h.valid).2
  reset_world := rfl
  call_initial _ hc := h.call_initial hc
  load_initial _ _ := rfl
  start_world _ hc := (s.call_worlds (.inl hc)).1
  stop_world := (s.call_worlds (c := .stop) (.inr rfl)).1
  tick_world := by
    cases hr : s.running with
    | true => exact (h.steps_tick hr).2
    | false =>
      rw [tick_of_not_running hr]
      exact .inl rfl
  fine := h.fine
  component := h.component
  idle hr := ⟨tick_of_not_running hr, skip_of_not_running hr, stop_of_not_running hr⟩
  idle_tick := ⟨rfl, rfl, rfl⟩
  refused _ _ hc := s.call_refused hc

/-- **Any calls, in any order, leave a session safe.** -/
theorem safe_afterCalls (settings : Settings) {w : World} (hw : w.Valid) (calls : List Call) :
    (afterCalls settings w calls).Safe :=
  (sound_afterCalls settings hw calls).safe

/-- a clover under the character -/
def plot : World where
  width := 2
  height := 1
  grid := [[.clover, .empty]]
  character := { position := ⟨0, 0⟩, direction := .east }

def brief : Settings where
  dataRoot := ⟨"", []⟩
  maxScriptSteps := 9

/-- A run is cut short by a start that is refused, and another one goes on from its world. -/
def interrupted : List Call :=
  [.startCommands [.pickClover, .pickClover], .tick, .startAutomaton none none, .tick,
   .startCommands [.moveForward, .placeClover, .turnLeft], .tick, .tick]

theorem plot_safe :
    plot.Valid ∧
      (afterCalls brief plot interrupted).running = true ∧
      (afterCalls brief plot interrupted).world.grid = [[.empty, .clover]] ∧
      (afterCalls brief plot interrupted).Safe := by
  have hv : plot.Valid := by
    constructor
    case placed => exact .inr rfl
    all_goals decide
  exact ⟨hv, by decide, by decide, safe_afterCalls _ hv _⟩

end Session

end Ladybug

import Ladybug.Proofs.Script.Resumed
import Ladybug.Proofs.World.Leads

/-!
# The commands of a program, done in a world of their own

A program is asked for one command after the other, each being done before the next is asked for,
until there is no command or one that cannot act. The limit on steps bounds the rounds of that loop,
so the loop ends of itself.

* `Extracts`             the loop, and what it ends with
* `Extraction.Follows`   the commands are those the program asks for, and all of them act
* `Stopped`              why there are no more of them
* `extraction_sound`     what is true of every extraction
-/

namespace Ladybug.Script

open Command (Leads worldAt)

/-! ### the loop -/

/-- The loop ends where a call gives no command, or one that cannot act; else it goes on in the
world after the command. -/
inductive Extracts : Interpreter → World → Extraction → Prop
  | halt {i : Interpreter} {w : World} (none : (i.next w).2.command = none) :
      Extracts i w ⟨[], w, (i.next w).2.fault⟩
  | block {i : Interpreter} {w : World} {c : Command} (asks : (i.next w).2.command = some c)
      (still : c.apply w = none) : Extracts i w ⟨[], w, some (c.blocked w)⟩
  | act {i : Interpreter} {w v : World} {c : Command} {r : Extraction}
      (asks : (i.next w).2.command = some c) (acts : c.apply w = some v)
      (rest : Extracts (i.next w).1 v r) : Extracts i w ⟨c :: r.commands, r.world, r.fault⟩

theorem Extracts.unique {i : Interpreter} {w : World} {r r' : Extraction} (h : Extracts i w r)
    (h' : Extracts i w r') : r = r' := by
  induction h generalizing r' with
  | halt none =>
    cases h' with
    | halt => rfl
    | block asks | act asks => cases none.symm.trans asks
  | block asks still =>
    cases h' with
    | halt none => cases none.symm.trans asks
    | block asks' =>
      cases asks.symm.trans asks'
      rfl
    | act asks' acts =>
      cases asks.symm.trans asks'
      cases still.symm.trans acts
  | act asks acts _ ih =>
    cases h' with
    | halt none => cases none.symm.trans asks
    | block asks' still =>
      cases asks.symm.trans asks'
      cases still.symm.trans acts
    | act asks' acts' rest =>
      cases asks.symm.trans asks'
      cases acts.symm.trans acts'
      cases ih rest
      rfl

/-- A command that is given has been counted, and the budget still holds. -/
theorem Interpreter.emitted_next {i : Interpreter} {w : World} {c : Command} {n : Nat}
    (hn : i.limits.steps = some n) (h : (i.next w).2.command = some c) :
    (i.next w).1.emitted = i.emitted + 1 ∧ i.emitted + 1 ≤ n := by
  obtain ⟨_, rest, hnext, hover⟩ := Interpreter.exists_of_next h
  rw [hnext]
  refine ⟨rfl, Nat.le_of_not_lt fun hlt => ?_⟩
  have hover' : (i.emit rest).budget.exhausted = true := Budget.exhausted_iff.mpr ⟨n, hn, hlt⟩
  rw [hover] at hover'
  cases hover'

/-- The rounds that the limit allows are enough for the loop to end. -/
theorem extractFrom_extracts {n : Nat} (fuel : Nat) (i : Interpreter) (w : World)
    (done : List Command) (hn : i.limits.steps = some n) (hfuel : n ≤ i.emitted + fuel) :
    ∃ r, Extracts i w r ∧
      extractFrom fuel i w done = ⟨done.reverse ++ r.commands, r.world, r.fault⟩ := by
  induction fuel generalizing i w done with
  | zero =>
    have hnone : (i.next w).2.command = none := by
      cases h : (i.next w).2.command with
      | none => rfl
      | some c =>
        have hle := (Interpreter.emitted_next hn h).2
        omega
    refine ⟨_, .halt hnone, ?_⟩
    rw [extractFrom, List.append_nil]
  | succ fuel ih =>
    rw [extractFrom]
    cases h : (i.next w).2.command with
    | none =>
      refine ⟨_, .halt h, ?_⟩
      simp only [h, List.append_nil]
    | some c =>
      cases hc : c.apply w with
      | none =>
        refine ⟨_, .block h hc, ?_⟩
        simp only [h, hc, List.append_nil]
      | some v =>
        have hlimits := i.limits_next w
        have hemitted := (Interpreter.emitted_next hn h).1
        obtain ⟨r, hr, heq⟩ := ih (i.next w).1 v (c :: done) (by rw [hlimits, hn]) (by omega)
        refine ⟨_, .act h hc hr, ?_⟩
        simp only [h, hc, heq, List.reverse_cons, List.append_assoc, List.singleton_append]

theorem extractProgram_extracts (p : Program) {limits : Limits} {n : Nat}
    (hn : limits.steps = some n) (w : World) :
    Extracts (.ofProgram p limits) w (extractProgram p limits w) := by
  obtain ⟨r, hr, heq⟩ := extractFrom_extracts n (.ofProgram p limits) w [] hn (Nat.le_add_left n 0)
  have hsame : extractProgram p limits w = r := by
    rw [extractProgram, hn]
    exact heq
  rw [hsame]
  exact hr

/-- A limit on steps bounds the commands. -/
theorem Extracts.length_le {i : Interpreter} {w : World} {r : Extraction} (h : Extracts i w r)
    {n : Nat} (hn : i.limits.steps = some n) (hle : i.emitted ≤ n) :
    i.emitted + r.commands.length ≤ n := by
  induction h with
  | halt | block => exact hle
  | act asks _ _ ih =>
    obtain ⟨hemitted, hle'⟩ := Interpreter.emitted_next hn asks
    have hrest := ih (by rw [Interpreter.limits_next, hn]) (by omega)
    rw [List.length_cons]
    omega

theorem Extracts.leads {i : Interpreter} {w : World} {r : Extraction} (h : Extracts i w r) :
    Leads r.commands w r.world := by
  induction h with
  | halt | block => exact .nil
  | act _ acts _ ih => exact .cons acts ih

/-! ### what the program asks for -/

/-- Why there are no more commands after `n` of them, in the world `v`. -/
inductive Stopped (p : Program) (limits : Limits) (ws : Nat → World) (n : Nat) (v : World) :
    Option Fault → Prop
  | ended (ends : Ends ws p.body n) : Stopped p limits ws n v none
  | blocked {c : Command} (asks : Nth ws p.body n c) (still : c.apply v = none) :
      Stopped p limits ws n v (some (c.blocked v))
  | tripped {fault : Fault} (trips : Trips p limits ws n fault) :
      Stopped p limits ws n v (some fault)

/-- The commands of an extraction are those that the program asks for, each world being the one
after the commands before, and it has stopped for a reason. -/
structure Extraction.Follows (p : Program) (limits : Limits) (ws : Nat → World) (k : Nat)
    (r : Extraction) : Prop where
  asked : ∀ n c, r.commands[n]? = some c → Nth ws p.body (k + n) c
  stopped : Stopped p limits ws (k + r.commands.length) r.world r.fault

section

variable {p : Program} {limits : Limits} {ws : Nat → World} {k : Nat}

theorem Found.stopped {v : World} {n : Next} (h : Found p limits ws k n) (hn : n.command = none) :
    Stopped p limits ws k v n.fault := by
  cases h with
  | command => cases hn
  | ended ends => exact .ended ends
  | tripped trips => exact .tripped trips

theorem Found.nth {n : Next} {c : Command} (h : Found p limits ws k n)
    (hn : n.command = some c) : Nth ws p.body k c := by
  cases h with
  | command nth =>
    cases hn
    exact nth
  | ended | tripped => cases hn

theorem Extracts.follows {i : Interpreter} {w : World} {r : Extraction} (h : Extracts i w r)
    (hstage : Stage p limits ws k i) (hi : i.done = false)
    (hws : ∀ n ≤ r.commands.length, ws (k + n) = worldAt w r.commands n) :
    r.Follows p limits ws k := by
  induction h generalizing k with
  | @halt i w none =>
    have hw : ws k = w := hws 0 (Nat.le_refl _)
    have hfound := (hstage.found hi).2
    rw [hw] at hfound
    exact ⟨nofun, hfound.stopped none⟩
  | @block i w c asks still =>
    have hw : ws k = w := hws 0 (Nat.le_refl _)
    have hfound := (hstage.found hi).2
    rw [hw] at hfound
    exact ⟨nofun, .blocked (hfound.nth asks) still⟩
  | @act i w v c r asks acts _ ih =>
    have hw : ws k = w := hws 0 (Nat.zero_le _)
    obtain ⟨hnext, hfound⟩ := hstage.found hi
    rw [hw] at hnext hfound
    have hdone : (i.next w).1.done = false := by
      obtain ⟨_, rest, heq, _⟩ := Interpreter.exists_of_next asks
      rw [heq]
      exact hi
    have hrest : r.Follows p limits ws (k + 1) := by
      refine ih hnext hdone fun n hn => ?_
      rw [Nat.add_right_comm, Nat.add_assoc, hws (n + 1) (Nat.succ_le_succ hn),
        Command.worldAt_succ acts]
    constructor
    · intro n c' hc
      cases n with
      | zero =>
        cases hc
        exact hfound.nth asks
      | succ n =>
        have hnth := hrest.asked n c' hc
        rwa [Nat.add_right_comm, Nat.add_assoc] at hnth
    · have hstopped := hrest.stopped
      rwa [Nat.add_right_comm, Nat.add_assoc] at hstopped

/-! ### the faults -/

theorem Trips.kind {fault : Fault} (h : Trips p limits ws k fault) :
    fault.kind = .limitExceeded ∨ fault.kind = .execution := by
  cases h with
  | steps => exact .inl rfl
  | idle _ _ _ report =>
    cases report
    exact .inl rfl
  | depth _ _ report =>
    cases report
    exact .inr rfl

variable {v : World} {fault : Fault}

theorem Stopped.blocked_of_kind (h : Stopped p limits ws k v (some fault))
    (hkind : fault.kind = .blockedAction) :
    ∃ c, Nth ws p.body k c ∧ c.apply v = none ∧ fault = c.blocked v := by
  cases h with
  | blocked asks still => exact ⟨_, asks, still, rfl⟩
  | tripped trips =>
    rcases trips.kind with h | h
    · cases hkind.symm.trans h
    · cases hkind.symm.trans h

theorem Stopped.kind_ne_parse (h : Stopped p limits ws k v (some fault)) :
    fault.kind ≠ .parse := by
  intro hkind
  cases h with
  | blocked => cases hkind
  | tripped trips =>
    rcases trips.kind with h | h
    · cases hkind.symm.trans h
    · cases hkind.symm.trans h

/-- A limit that is not the one on idle loops is the one on commands. -/
theorem Stopped.spent_of_kind (h : Stopped p limits ws k v (some fault))
    (hkind : fault.kind = .limitExceeded) (hreason : fault.reason ≠ some "idle_loop") :
    ∃ n, limits.steps = some n ∧ n ≤ k ∧ fault = .limitExceeded n "steps" ∧
      ∃ c, Nth ws p.body k c := by
  cases h with
  | blocked => cases hkind
  | tripped trips =>
    cases trips with
    | steps limit past more => exact ⟨_, limit, past, rfl, _, more⟩
    | idle _ _ _ report =>
      cases report
      exact absurd rfl hreason
    | depth _ _ report =>
      cases report
      cases hkind

end

/-- What is true of the commands of a program that were done from a world on within limits, the
worlds being those after the commands before. -/
structure Extraction.Account (p : Program) (limits : Limits) (w : World) (r : Extraction) :
    Prop where
  terminates : Extracts (.ofProgram p limits) w r
  leads : Leads r.commands w r.world
  length_le : ∀ n, limits.steps = some n → r.commands.length ≤ n
  asked : ∀ n c, r.commands[n]? = some c → Nth (worldAt w r.commands) p.body n c
  ended : r.fault = none → Ends (worldAt w r.commands) p.body r.commands.length
  blocked : ∀ f, r.fault = some f → f.kind = .blockedAction →
    ∃ c, Nth (worldAt w r.commands) p.body r.commands.length c ∧ c.apply r.world = none ∧
      f = c.blocked r.world
  spent : ∀ f, r.fault = some f → f.kind = .limitExceeded → f.reason ≠ some "idle_loop" →
    limits.steps = some r.commands.length ∧
      ∃ c, Nth (worldAt w r.commands) p.body r.commands.length c
  parsed : ∀ f, r.fault = some f → f.kind ≠ .parse

theorem account_extractProgram (p : Program) {limits : Limits} {n : Nat}
    (hn : limits.steps = some n) (w : World) : (extractProgram p limits w).Account p limits w := by
  have hext := extractProgram_extracts p hn w
  generalize extractProgram p limits w = r at hext
  have hle : ∀ m, limits.steps = some m → r.commands.length ≤ m := by
    intro m hm
    have hle := hext.length_le hm (Nat.zero_le m)
    rwa [show (Interpreter.ofProgram p limits).emitted = 0 from rfl, Nat.zero_add] at hle
  have hfollows : r.Follows p limits (worldAt w r.commands) 0 :=
    hext.follows stage_ofProgram rfl fun n _ => by rw [Nat.zero_add]
  obtain ⟨hasked, hstopped⟩ := hfollows
  simp only [Nat.zero_add] at hasked hstopped
  refine ⟨hext, hext.leads, hle, hasked, ?_, ?_, ?_, ?_⟩
  · intro hf
    rw [hf] at hstopped
    cases hstopped with
    | ended ends => exact ends
  · intro f hf hkind
    rw [hf] at hstopped
    exact hstopped.blocked_of_kind hkind
  · intro f hf hkind hreason
    rw [hf] at hstopped
    obtain ⟨m, hm, hmle, _, hmore⟩ := hstopped.spent_of_kind hkind hreason
    have hlen : r.commands.length = m := Nat.le_antisymm (hle m hm) hmle
    exact ⟨hlen ▸ hm, hmore⟩
  · intro f hf
    rw [hf] at hstopped
    exact hstopped.kind_ne_parse

/-- A text that is no program gives no commands. -/
theorem extract_cases (source dialect : String) (limits : Limits) (w : World) :
    (∃ m, compile source dialect = .error m ∧
      extract source dialect limits w = ⟨[], w, some m.fault⟩) ∨
    ∃ p, compile source dialect = .ok p ∧
      extract source dialect limits w = extractProgram p limits w := by
  rw [extract]
  cases compile source dialect with
  | error m => exact .inl ⟨m, rfl, rfl⟩
  | ok p => exact .inr ⟨p, rfl, rfl⟩

/-- **An extraction always ends, with commands that the program asks for and that all act.** There
are at most as many as the limit on steps allows, and a runner that is given them leaves the same
world without a fault. It says that a command is blocked just where the program asks for one that
leaves the world as it is, and that the limit is passed where the program asks for more commands
than it allows. A text that is no program leaves the world as it was. -/
theorem extraction_sound (source dialect : String) (w : World) (steps idle : Nat)
    (depth : Option Nat) :
    let limits : Limits := ⟨some steps, some idle, depth⟩
    let r := extract source dialect limits w
    r.commands.length ≤ steps ∧ Leads r.commands w r.world ∧
      ((⟨r.commands, 0, none⟩ : Runner).skip w).2.world = r.world ∧
      ((⟨r.commands, 0, none⟩ : Runner).skip w).2.fault = none ∧
      (match compile source dialect with
        | .error m => r = ⟨[], w, some m.fault⟩ ∧ m.fault.kind = .parse
        | .ok p => r = extractProgram p limits w) ∧
      ∀ p, (extractProgram p limits w).Account p limits w := by
  intro limits r
  have haccount : ∀ p, (extractProgram p limits w).Account p limits w :=
    fun p => account_extractProgram p rfl w
  have hleads : r.commands.length ≤ steps ∧ Leads r.commands w r.world := by
    rcases extract_cases source dialect limits w with ⟨m, _, heq⟩ | ⟨p, _, heq⟩
    · rw [show r = _ from heq]
      exact ⟨Nat.zero_le steps, .nil⟩
    · rw [show r = _ from heq]
      exact ⟨(haccount p).length_le steps rfl, (haccount p).leads⟩
  have hnil : ∀ b, ([] : List Command).head? = some b → b.apply r.world = none := nofun
  obtain ⟨hworld, hfault⟩ := Runner.skip_of_leads hleads.2 hnil
  rw [List.append_nil] at hworld hfault
  refine ⟨hleads.1, hleads.2, hworld, hfault, ?_, haccount⟩
  rcases extract_cases source dialect limits w with ⟨m, hm, heq⟩ | ⟨p, hp, heq⟩
  · rw [hm]
    exact ⟨heq, rfl⟩
  · rw [hp]
    exact heq

end Ladybug.Script

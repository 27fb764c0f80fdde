import Ladybug.Proofs.Automaton.Meaning
import Ladybug.Proofs.Script.Dialects
import Ladybug.Proofs.Script.Extracted

/-!
# Commands one after the other, run in three ways

A list of commands can be given to a runner, to a state of an automaton as the actions of its only
transition, and to a script as its statements. All three do the commands up to the first that cannot
act, and report that one.

* `Automaton.Performs`       a state that does some commands and stops
* `Automaton.run_performs`   a run from such a state
* `Script.straight`          statements that are commands only
* `Script.straight_extracts` a script of such statements
* `executors_agree`          the three of them
-/

namespace Ladybug

open Command (Leads)

/-! ### automata -/

namespace Automaton

/-- A state of a valid program whose only transition asks nothing, does the commands, and leads to
the stop state. -/
structure Performs (a : Automaton) (id : String) (cs : List Command) : Prop where
  valid : a.flaw? = none
  going : id ≠ a.stop
  only : ∃ s t, a.state? id = some s ∧ s.transitions = [t] ∧ (∀ e ∈ t.conditions, e.2 = none) ∧
    t.actions = cs ∧ t.target = a.stop

theorem act_of_leads {done rest : List Command} {w v : World} (h : Leads done w v)
    (hrest : ∀ b, rest.head? = some b → b.apply v = none) :
    act (done ++ rest) w = (v, rest.head?) := by
  induction h with
  | nil =>
    cases rest with
    | nil => rfl
    | cons b rest =>
      rw [List.nil_append, act, hrest b rfl]
      rfl
  | cons first _ ih =>
    rw [List.cons_append, act, first]
    exact ih hrest

theorem Performs.step {a : Automaton} {id : String} {done rest : List Command}
    (h : a.Performs id (done ++ rest)) {w v : World} (hdone : Leads done w v)
    (hrest : ∀ b, rest.head? = some b → b.apply v = none) :
    (a.step w id).world = v ∧
      (a.step w id).fault = rest.head?.map (fun b => blockedFault b v (some id)) ∧
      (rest = [] → (a.step w id).next = a.stop) := by
  obtain ⟨s, t, hs, ht, hfree, hactions, htarget⟩ := h.only
  have hstruct : a.structuralFault? (some id) = none := by
    rw [structuralFault?_eq h.valid, hs]
    rfl
  have hfits : t.matches w = true := by
    refine matches_iff.mpr fun d b hd => ?_
    cases hfree _ hd
  have htrans : a.transition? w id = some t := by
    have hfirst : s.transitions.find? (fun t => t.matches w) = some t := by
      rw [ht]
      exact List.find?_cons_of_pos hfits
    rw [transition?, if_neg h.going, hs, Option.bind_some, hfirst]
  have hact := act_of_leads hdone hrest
  rw [← hactions] at hact
  cases rest with
  | nil =>
    rw [step_of_acted hstruct h.going htrans hact]
    exact ⟨rfl, rfl, fun _ => htarget⟩
  | cons b rest =>
    rw [step_of_blocked hstruct h.going htrans hact]
    exact ⟨rfl, rfl, fun hnil => absurd hnil (List.cons_ne_nil b rest)⟩

/-- **A run from such a state** leaves the world that the commands lead to, and reports the one that
cannot act. -/
theorem run_performs {a : Automaton} {id : String} {done rest : List Command}
    (h : a.Performs id (done ++ rest)) {start : Option String}
    (hstart : (start <|> a.start) = some id) {limit : Nat} (hlimit : 1 ≤ limit) {w v : World}
    (hdone : Leads done w v) (hrest : ∀ b, rest.head? = some b → b.apply v = none) :
    (a.run w start (some limit)).world = v ∧
      (a.run w start (some limit)).fault =
        rest.head?.map fun b => blockedFault b v (some id) := by
  obtain ⟨left, rfl⟩ : ∃ left, limit = left + 1 := ⟨limit - 1, by omega⟩
  have hrun : a.run w start (some (left + 1)) =
      a.runFrom ⟨some (left + 1), "steps", 0⟩ (left + 1) 0 w id := by
    rw [run, hstart]
    rfl
  obtain ⟨hworld, hfault, hnext⟩ := h.step hdone hrest
  rw [hrun]
  cases rest with
  | nil =>
    rw [runFrom_of_step h.going hfault, runFrom_stop (hnext rfl)]
    exact ⟨hworld, rfl⟩
  | cons b rest =>
    rw [runFrom_of_fault h.going hfault]
    exact ⟨hworld, rfl⟩

end Automaton

/-! ### scripts -/

namespace Script

/-- the statements that are some commands -/
def straight (cs : List Command) : List Stmt := cs.map fun c => .command c 0

theorem exists_of_straight_cons {c : Command} {cs : List Command} {body : List Stmt}
    (h : unlinedBlock body = straight (c :: cs)) :
    ∃ line rest, body = .command c line :: rest ∧ unlinedBlock rest = straight cs := by
  cases body with
  | nil => cases h
  | cons s rest =>
    obtain ⟨hs, hrest⟩ := List.cons.inj h
    cases s with
    | command c' line =>
      cases hs
      exact ⟨line, rest, rfl, hrest⟩
    | ask | loop | choice => cases hs

theorem eq_nil_of_straight_nil {body : List Stmt} (h : unlinedBlock body = straight []) :
    body = [] := by
  cases body with
  | nil => rfl
  | cons => cases h

theorem not_deep {deepest : Option Nat} (h : ∀ d, deepest = some d → 1 ≤ d) {w : World} {a : Agenda}
    (ha : a.height w ≤ 1) : ¬ (deepest.any fun n => n < a.height w) = true := by
  rw [Agenda.deep_iff]
  rintro ⟨n, hn, hlt⟩
  have hle := h n hn
  omega

section

variable {i : Interpreter} {n : Nat} (hi : i.done = false) (hn : i.limits.steps = some n)
  (hdepth : ∀ d, i.limits.depth = some d → 1 ≤ d)
include hi hdepth

theorem next_empty (w : World) (ha : i.agenda = [[]]) : (i.next w).2 = ⟨none, true, none⟩ := by
  have hr : i.agenda.resume i.limits.depth w (i.limits.idle.getD Automaton.unbounded) =
      .error .finished := by
    rw [ha, Agenda.resume_eq (not_deep hdepth (by exact Nat.le_refl 1))]
    simp only [Agenda.step]
    rw [Agenda.resume_eq (not_deep hdepth (by exact Nat.zero_le 1))]
    rfl
  rw [Interpreter.next_of_error hi hr]
  rfl

include hn

theorem next_command (w : World) {c : Command} {line : Nat} {rest : List Stmt}
    (ha : i.agenda = [.command c line :: rest]) (hlt : i.emitted < n) :
    i.next w = (i.emit [rest], ⟨some c, false, none⟩) := by
  have hr : i.agenda.resume i.limits.depth w (i.limits.idle.getD Automaton.unbounded) =
      .ok (c, [rest]) := by
    rw [ha, Agenda.resume_eq (not_deep hdepth (by exact Nat.le_refl 1))]
    rfl
  have hover : ¬ (i.emit [rest]).budget.exhausted = true := by
    intro h
    obtain ⟨m, hm, hmlt⟩ := Budget.exhausted_iff.mp h
    cases hn.symm.trans hm
    exact absurd hlt (Nat.not_lt.mpr (Nat.le_of_lt_succ hmlt))
  rw [Interpreter.next_of_ok hi hr, if_neg hover]

end

/-- **A script of commands only** does those before the first that cannot act. -/
theorem straight_extracts {done rest : List Command} {w v : World} (hdone : Leads done w v)
    (hrest : ∀ b, rest.head? = some b → b.apply v = none) {i : Interpreter} {n : Nat}
    {body : List Stmt} (ha : i.agenda = [body])
    (hbody : unlinedBlock body = straight (done ++ rest)) (hi : i.done = false)
    (hn : i.limits.steps = some n) (hdepth : ∀ d, i.limits.depth = some d → 1 ≤ d)
    (hle : i.emitted + (done ++ rest).length ≤ n) :
    Extracts i w ⟨done, v, rest.head?.map fun b => b.blocked v⟩ := by
  induction hdone generalizing i body with
  | @nil w =>
    cases rest with
    | nil =>
      rw [eq_nil_of_straight_nil hbody] at ha
      have hnext := next_empty hi hdepth w ha
      have hend := Extracts.halt (i := i) (w := w) (by rw [hnext])
      rw [hnext] at hend
      exact hend
    | cons b rest =>
      obtain ⟨line, body', rfl, _⟩ := exists_of_straight_cons hbody
      rw [List.nil_append, List.length_cons] at hle
      have hnext := next_command hi hn hdepth w ha (by omega)
      exact .block (by rw [hnext]) (hrest b rfl)
  | @cons c cs w u v first _ ih =>
    obtain ⟨line, body', rfl, hbody'⟩ := exists_of_straight_cons hbody
    rw [List.cons_append, List.length_cons] at hle
    have hnext := next_command hi hn hdepth w ha (by omega)
    have hlater : (i.emit [body']).emitted + (cs ++ rest).length ≤ n := by
      show i.emitted + 1 + (cs ++ rest).length ≤ n
      omega
    have hlast : Extracts (i.next w).1 u ⟨cs, v, rest.head?.map fun b => b.blocked v⟩ := by
      rw [hnext]
      exact ih hrest (i := i.emit [body']) rfl hbody' hi hn hdepth hlater
    exact .act (by rw [hnext]) first hlast

theorem unlinedBlock_straight (cs : List Command) : unlinedBlock (straight cs) = straight cs := by
  induction cs with
  | nil => rfl
  | cons c cs ih => exact congrArg (.command c 0 :: ·) ih

theorem straight_proper (cs : List Command) : ProperBlock (straight cs) := by
  induction cs with
  | nil => exact trivial
  | cons c cs ih => exact ⟨trivial, ih⟩

theorem blockHeight_straight (cs : List Command) : blockHeight (straight cs) = 1 := by
  induction cs with
  | nil => rfl
  | cons c cs ih =>
    show max 1 (blockHeight (straight cs)) = 1
    rw [ih]
    rfl

/-- The text of some commands is read as those commands in every dialect. -/
theorem compile_straight (d : Dialect) (cs : List Command) :
    ∃ p, compile (print d (straight cs)) d.name = .ok p ∧ unlinedBlock p.body = straight cs := by
  have hheight : blockHeight (straight cs) ≤ nestingLimit := by
    rw [blockHeight_straight]
    decide
  obtain ⟨p, hp, hsame⟩ := parse_print d (straight_proper cs) hheight
  refine ⟨p, (compile_name d _).trans hp, ?_⟩
  rw [hsame, unlinedBlock_straight]

theorem extract_straight {source dialect : String} {p : Program} {done rest : List Command}
    (hp : compile source dialect = .ok p) (hbody : unlinedBlock p.body = straight (done ++ rest))
    {w v : World} (hdone : Leads done w v)
    (hrest : ∀ b, rest.head? = some b → b.apply v = none) {n : Nat}
    (hle : (done ++ rest).length ≤ n) (idle : Nat) :
    extract source dialect { steps := some n, idle := some idle } w =
      ⟨done, v, rest.head?.map fun b => b.blocked v⟩ := by
  rw [extract_of_compile hp]
  refine (extractProgram_extracts p rfl w).unique ?_
  refine straight_extracts hdone hrest rfl hbody rfl rfl ?_ ?_
  · intro d hd
    cases hd
    decide
  · exact (Nat.zero_add _).symm ▸ hle

end Script

/-! ### all of them -/

open Script in
/-- **The executors agree.** For a list of commands, a state of an automaton that performs them and
a script of them leave the world that a runner leaves. There is a fault just when the runner has
one, with the same message and reason; a script has the same fault, and its commands are those that
the runner has done, the first of the list up to one that cannot act. -/
theorem executors_agree (cs : List Command) (w : World) :
    let ran := (⟨cs, 0, none⟩ : Runner).skip w
    (∃ rest, cs = ran.1.acted ++ rest ∧ Leads ran.1.acted w ran.2.world ∧
      (∀ b, rest.head? = some b → b.apply ran.2.world = none) ∧
      ran.2.fault = rest.head?.map fun b => b.blocked ran.2.world) ∧
    (∀ (a : Automaton) (id : String) (start : Option String) (limit : Nat), a.Performs id cs →
      (start <|> a.start) = some id → 1 ≤ limit →
        let r := a.run w start (some limit)
        r.world = ran.2.world ∧ (r.fault = none ↔ ran.2.fault = none) ∧
          ∀ f, r.fault = some f → f.kind = .blockedAction ∧
            ∃ g, ran.2.fault = some g ∧ f.message = g.message ∧ f.reason = g.reason) ∧
    ∀ steps idle : Nat, cs.length ≤ steps →
      (∀ d, extract (print d (straight cs)) d.name { steps := some steps, idle := some idle } w =
        ⟨ran.1.acted, ran.2.world, ran.2.fault⟩) ∧
      ∀ source dialect p, compile source dialect = .ok p → unlinedBlock p.body = straight cs →
        extract source dialect { steps := some steps, idle := some idle } w =
          ⟨ran.1.acted, ran.2.world, ran.2.fault⟩ := by
  obtain ⟨done, rest, v, rfl, hdone, hrest⟩ := Command.exists_leads cs w
  obtain ⟨hworld, hfault, hacted⟩ := Runner.skip_acted hdone hrest
  intro ran
  have hscript : ∀ (steps idle : Nat), (done ++ rest).length ≤ steps → ∀ source dialect p,
      compile source dialect = .ok p → unlinedBlock p.body = straight (done ++ rest) →
        extract source dialect { steps := some steps, idle := some idle } w =
          ⟨ran.1.acted, ran.2.world, ran.2.fault⟩ := by
    intro steps idle hle source dialect p hp hbody
    rw [extract_straight hp hbody hdone hrest hle idle, hworld, hfault, hacted]
  refine ⟨⟨rest, ?_⟩, fun a id start limit ha hstart hlimit => ?_,
    fun steps idle hle => ⟨fun d => ?_, ?_⟩⟩
  · rw [hacted, hworld]
    exact ⟨rfl, hdone, hrest, hfault⟩
  · obtain ⟨haworld, hafault⟩ := Automaton.run_performs ha hstart hlimit hdone hrest
    refine ⟨haworld.trans hworld.symm, ?_, fun f hf => ?_⟩
    · rw [hafault, hfault, Option.map_eq_none_iff, Option.map_eq_none_iff]
    · rw [hafault] at hf
      obtain ⟨b, hb, rfl⟩ := Option.map_eq_some_iff.mp hf
      refine ⟨rfl, b.blocked v, ?_, rfl, rfl⟩
      rw [hfault, hb]
      rfl
  · obtain ⟨p, hp, hbody⟩ := compile_straight d (done ++ rest)
    exact hscript steps idle hle _ _ p hp hbody
  · exact hscript steps idle hle

/-- a clover picked, a mushroom pushed, and more -/
def errands : List Command :=
  [.pickClover, .moveForward, .moveForward, .moveForward, .moveForward, .turnLeft]

/-- a program whose only state does the errands -/
def porter : Automaton where
  states :=
    [Automaton.stopState,
     { id := "work", name := "Work", transitions :=
        [⟨"all", "stop", [(.treeFront, none)], errands⟩] }]
  start := some "work"

/-- The fourth step is blocked by the mushroom before the tree, however the errands are run. -/
theorem porter_agrees :
    porter.Performs "work" errands ∧ (none <|> porter.start) = some "work" ∧ 1 ≤ 1 ∧
      errands.length ≤ 6 ∧
      ((⟨errands, 0, none⟩ : Runner).skip Automaton.lane).2.fault =
        some ⟨.blockedAction, Obstacle.mushroom.message, none, some "MOVE_FORWARD", [], none,
          some "mushroom"⟩ ∧
      (∃ f, (porter.run Automaton.lane none (some 1)).fault = some f ∧
        f.message = Obstacle.mushroom.message) ∧
      ∀ d : Dialect,
        (Script.extract (Script.print d (Script.straight errands)) d.name
          { steps := some 6, idle := some 0 } Automaton.lane).commands =
            [.pickClover, .moveForward, .moveForward, .moveForward] := by
  have hperforms : porter.Performs "work" errands := by
    refine ⟨by decide, by decide, _, _, rfl, rfl, ?_, rfl, rfl⟩
    decide
  obtain ⟨_, hrun, hscript⟩ := executors_agree errands Automaton.lane
  have hfault : ((⟨errands, 0, none⟩ : Runner).skip Automaton.lane).2.fault =
      some ⟨.blockedAction, Obstacle.mushroom.message, none, some "MOVE_FORWARD", [], none,
        some "mushroom"⟩ := by decide +kernel
  have hran : ((⟨errands, 0, none⟩ : Runner).skip Automaton.lane).1.acted =
      [.pickClover, .moveForward, .moveForward, .moveForward] := by decide +kernel
  refine ⟨hperforms, rfl, by decide, by decide, hfault, ?_, fun d => ?_⟩
  · obtain ⟨_, hnone, hsame⟩ := hrun porter "work" none 1 hperforms rfl (by decide)
    cases hf : (porter.run Automaton.lane none (some 1)).fault with
    | none => exact absurd (hfault.symm.trans (hnone.mp hf)) (Option.some_ne_none _)
    | some f =>
      obtain ⟨_, g, hg, hmessage, _⟩ := hsame f hf
      cases hfault.symm.trans hg
      exact ⟨f, rfl, hmessage⟩
  · rw [(hscript 6 0 (by decide)).1 d]
    exact hran

end Ladybug

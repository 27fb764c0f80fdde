import Ladybug.Proofs.Automaton.Steps
import Ladybug.Proofs.World.Leads

/-!
# What a run of an automaton is

A run makes one transition after the other, each from a world and a state to another world and
another state, until it is at the stop state, may make no more of them, or cannot make the next one.

* `Transition.Fits`    all readings are what the transition asks for
* `FirstFit`           the first transition of a row that fits
* `Makes`              one transition made, with the commands it does
* `Runs`, `Longest`    transitions one after the other, and as many of them as can be made
* `Ending`             why there is no further transition, and what is left of an attempt at one
* `run_is_longest`     a run is the longest one, and says why it is not longer
-/

namespace Ladybug.Automaton

open Command (Leads)

/-! ### the transition to make -/

/-- What a transition asks of readings is so; a condition under `none` asks nothing. -/
def Transition.Fits (t : Transition) (w : World) : Prop :=
  ∀ d b, (d, some b) ∈ t.conditions → d.read w = b

/-- A transition of a row fits, and none of those before it does. -/
def FirstFit (w : World) (ts : List Transition) (t : Transition) : Prop :=
  t.Fits w ∧ ∃ before after, ts = before ++ t :: after ∧ ∀ u ∈ before, ¬ u.Fits w

theorem mem_required_iff {c : Conditions} {d : Detector} {b : Bool} :
    (d, b) ∈ c.required ↔ (d, some b) ∈ c := by
  rw [Conditions.required, List.mem_filterMap]
  constructor
  · rintro ⟨⟨e, o⟩, he, heq⟩
    obtain ⟨b', rfl, hb⟩ := Option.map_eq_some_iff.mp heq
    cases hb
    exact he
  · exact fun h => ⟨(d, some b), h, rfl⟩

theorem matches_iff {t : Transition} {w : World} : t.matches w = true ↔ t.Fits w := by
  simp only [Transition.matches, List.all_eq_true, Prod.forall, beq_iff_eq, mem_required_iff]
  rfl

theorem firstFit_iff {w : World} {ts : List Transition} {t : Transition} :
    FirstFit w ts t ↔ ts.find? (fun t => t.matches w) = some t := by
  simp only [FirstFit, List.find?_eq_some_iff_append, matches_iff, Bool.not_eq_eq_eq_not,
    Bool.not_true, ← Bool.not_eq_true]

theorem FirstFit.unique {w : World} {ts : List Transition} {t u : Transition}
    (h₁ : FirstFit w ts t) (h₂ : FirstFit w ts u) : t = u :=
  Option.some.inj ((firstFit_iff.mp h₁).symm.trans (firstFit_iff.mp h₂))

theorem find?_eq_none_iff {w : World} {ts : List Transition} :
    ts.find? (fun t => t.matches w) = none ↔ ∀ t ∈ ts, ¬ t.Fits w := by
  simp only [List.find?_eq_none, matches_iff]

/-! ### the actions of a transition -/

theorem act_eq_none_iff {cs : List Command} {w v : World} :
    act cs w = (v, none) ↔ Leads cs w v := by
  induction cs generalizing w with
  | nil =>
    constructor
    · rintro ⟨⟩
      exact .nil
    · rintro ⟨⟩
      rfl
  | cons c cs ih =>
    cases hc : c.apply w with
    | none =>
      simp only [act, hc, Prod.mk.injEq, reduceCtorEq, and_false, false_iff]
      rintro (_ | ⟨first, _⟩)
      exact Option.some_ne_none _ (first.symm.trans hc)
    | some u =>
      simp only [act, hc, ih]
      constructor
      · exact .cons hc
      · rintro (_ | ⟨first, rest⟩)
        cases first.symm.trans hc
        exact rest

theorem exists_of_act_eq_some {cs : List Command} {w v : World} {b : Command}
    (h : act cs w = (v, some b)) :
    ∃ done rest, cs = done ++ b :: rest ∧ Leads done w v ∧ b.apply v = none := by
  induction cs generalizing w with
  | nil => cases h
  | cons c cs ih =>
    cases hc : c.apply w with
    | none =>
      simp only [act, hc, Prod.mk.injEq, Option.some.injEq] at h
      obtain ⟨rfl, rfl⟩ := h
      exact ⟨[], cs, rfl, .nil, hc⟩
    | some u =>
      simp only [act, hc] at h
      obtain ⟨done, rest, rfl, hdone, hb⟩ := ih h
      exact ⟨c :: done, rest, rfl, .cons hc hdone, hb⟩

/-! ### runs -/

/-- One transition made, from a world and a state to a world and a state: the first of the state
that fits, each of its commands acting. -/
inductive Makes (a : Automaton) : World × String → List Command → World × String → Prop
  | mk {w v : World} {id : String} {s : State} {t : Transition} (going : id ≠ a.stop)
      (state : a.state? id = some s) (first : FirstFit w s.transitions t)
      (acts : Leads t.actions w v) : Makes a (w, id) t.actions (v, t.target)

/-- A number of transitions made one after the other, with all the commands they do. -/
inductive Runs (a : Automaton) :
    Nat → World × String → List Command → World × String → Prop
  | nil {x : World × String} : Runs a 0 x [] x
  | cons {n : Nat} {cs ds : List Command} {x y z : World × String} (first : Makes a x cs y)
      (rest : Runs a n y ds z) : Runs a (n + 1) x (cs ++ ds) z

/-- A run that no run of at most `m` transitions from the same place is longer than. -/
structure Longest (a : Automaton) (m : Nat) (x : World × String) (n : Nat) (cs : List Command)
    (y : World × String) : Prop where
  runs : Runs a n x cs y
  le : n ≤ m
  longest : ∀ k ds z, k ≤ m → Runs a k x ds z → k ≤ n

theorem Makes.leads {a : Automaton} {x y : World × String} {cs : List Command}
    (h : Makes a x cs y) : Leads cs x.1 y.1 := by
  cases h with
  | mk _ _ _ acts => exact acts

theorem Makes.unique {a : Automaton} {x y z : World × String} {cs ds : List Command}
    (h₁ : Makes a x cs y) (h₂ : Makes a x ds z) : y = z := by
  cases h₁ with
  | mk _ state first acts =>
    cases h₂ with
    | mk _ state' first' acts' =>
      cases state.symm.trans state'
      cases first.unique first'
      cases acts.unique acts'
      rfl

theorem Runs.leads {a : Automaton} {n : Nat} {x y : World × String} {cs : List Command}
    (h : Runs a n x cs y) : Leads cs x.1 y.1 := by
  induction h with
  | nil => exact .nil
  | cons first _ ih => exact first.leads.append ih

/-- No run goes on from a place where no transition can be made. -/
theorem Runs.le_of_stuck {a : Automaton} {n k : Nat} {x y z : World × String}
    {cs ds : List Command} (h : Runs a n x cs y) (hy : ∀ cs z, ¬ Makes a y cs z)
    (h' : Runs a k x ds z) : k ≤ n := by
  induction h generalizing k ds with
  | nil =>
    cases h' with
    | nil => exact Nat.le_refl _
    | cons first _ => exact (hy _ _ first).elim
  | cons first _ ih =>
    cases h' with
    | nil => exact Nat.zero_le _
    | cons first' rest =>
      cases first.unique first'
      exact Nat.succ_le_succ (ih hy rest)

/-! ### how a run ends -/

/-- Why a run ends at a world and a state when it may make `left` more transitions and `full` is
what is said of a run that may make none: its fault, and the world it leaves. Of a transition that
cannot be made, `done` are the actions that have been done and `rest` are the others. -/
inductive Ending (a : Automaton) (full : Fault) (left : Nat) (v : World) (c : String) :
    (done rest : List Command) → Option Fault → World → Prop
  | stopped (stop : c = a.stop) : Ending a full left v c [] [] none v
  | spent (going : c ≠ a.stop) (none : left = 0) : Ending a full left v c [] [] (some full) v
  | lost (going : c ≠ a.stop) (more : left ≠ 0) (unknown : ∀ s ∈ a.states, s.id ≠ c) :
      Ending a full left v c [] [] (some (lostFault (some c))) v
  | stuck {s : State} (going : c ≠ a.stop) (more : left ≠ 0) (state : a.state? c = some s)
      (unfit : ∀ t ∈ s.transitions, ¬ t.Fits v) :
      Ending a full left v c [] [] (some (a.stuckFault v c)) v
  | blocked {s : State} {t : Transition} {done rest : List Command} {b : Command} {u : World}
      (going : c ≠ a.stop) (more : left ≠ 0) (state : a.state? c = some s)
      (first : FirstFit v s.transitions t) (actions : t.actions = done ++ b :: rest)
      (leads : Leads done v u) (block : b.apply u = Option.none) :
      Ending a full left v c done (b :: rest) (some (blockedFault b u (some c))) u

/-- The phrases of a world are those of the readings that are true. -/
theorem mem_phrases_iff {w : World} {p : String} :
    p ∈ w.phrases ↔ ∃ d : Detector, d.read w ∧ d.phrase = p := by
  have hall : ∀ d : Detector, d ∈ Detector.all := by
    intro d
    cases d <;> decide
  simp only [World.phrases, List.mem_map, List.mem_filter, hall, true_and]

theorem state?_eq_none_iff {a : Automaton} {id : String} :
    a.state? id = none ↔ ∀ s ∈ a.states, s.id ≠ id := by
  simp only [state?, List.find?_eq_none, beq_iff_eq, ne_eq]

namespace Ending

variable {a : Automaton} {full : Fault} {left : Nat} {u v : World} {c : String}
  {done rest : List Command} {fault : Option Fault}

/-- A run that may go on ends only where no transition can be made. -/
theorem not_makes (h : Ending a full left v c done rest fault u) (hleft : left ≠ 0)
    (cs : List Command) (y : World × String) : ¬ Makes a (v, c) cs y := by
  rintro ⟨going, state, first, acts⟩
  cases h with
  | stopped stop => exact going stop
  | spent _ none => exact hleft none
  | lost _ _ unknown =>
    rw [state?_eq_none_iff.mpr unknown] at state
    cases state
  | stuck _ _ state' unfit =>
    cases state.symm.trans state'
    obtain ⟨fits, before, after, e, _⟩ := first
    exact unfit _ (e ▸ List.mem_append_right _ List.mem_cons_self) fits
  | blocked _ _ state' first' actions leads block =>
    cases state.symm.trans state'
    cases first.unique first'
    exact (actions ▸ acts).not_blocked leads block

theorem leads (h : Ending a full left v c done rest fault u) : Leads done v u := by
  cases h with
  | stopped | spent | lost | stuck => exact .nil
  | blocked _ _ _ _ _ leads _ => exact leads

theorem rest_blocked (h : Ending a full left v c done rest fault u) :
    ∀ b, rest.head? = some b → b.apply u = none := by
  intro b hb
  cases h with
  | stopped | spent | lost | stuck => cases hb
  | blocked _ _ _ _ _ _ block =>
    cases hb
    exact block

theorem fault_eq_none_iff (h : Ending a full left v c done rest fault u) :
    fault = none ↔ c = a.stop := by
  cases h with
  | stopped stop => exact ⟨fun _ => stop, fun _ => rfl⟩
  | spent going | lost going | stuck going | blocked going =>
    exact ⟨fun e => (Option.some_ne_none _ e).elim, fun e => absurd e going⟩

theorem kind_eq_limitExceeded_iff (hfull : full.kind = .limitExceeded)
    (h : Ending a full left v c done rest fault u) :
    fault.map Fault.kind = some .limitExceeded ↔ c ≠ a.stop ∧ left = 0 := by
  cases h with
  | stopped stop => exact ⟨fun e => (nomatch e), fun e => absurd stop e.1⟩
  | spent going none => exact ⟨fun _ => ⟨going, none⟩, fun _ => congrArg some hfull⟩
  | lost _ more | stuck _ more | blocked _ more =>
    exact ⟨fun e => (nomatch e), fun e => absurd e.2 more⟩

/-- A run that is stuck says what is read where it ends. -/
theorem stuck_fault (hfull : full.kind = .limitExceeded)
    (h : Ending a full left v c done rest fault u) (f : Fault) (hf : fault = some f)
    (hk : f.kind = .stuckState) :
    u = v ∧ f.stateId = some c ∧
      ∀ p, p ∈ f.detectors ↔ ∃ d : Detector, d.read v ∧ d.phrase = p := by
  cases h with
  | stopped => cases hf
  | stuck =>
    cases hf
    exact ⟨rfl, rfl, fun p => mem_phrases_iff⟩
  | spent =>
    cases hf
    exact FaultKind.noConfusion (hfull.symm.trans hk)
  | lost | blocked =>
    cases hf
    cases hk

end Ending

/-! ### one transition of a program that is fit for it -/

theorem flaw?_eq_none_iff {a : Automaton} : a.flaw? = none ↔ a.WellFormed := by
  unfold flaw? WellFormed
  cases a.state? a.stop with
  | none => simp only [reduceCtorEq, false_and, exists_false]
  | some s => simp only [List.isEmpty_iff, ite_eq_left_iff, reduceCtorEq, imp_false,
      Classical.not_not, Option.some.injEq, exists_eq_left']

/-- What can be wrong with a state of a program that has a stop state. -/
theorem structuralFault?_of_stop {a : Automaton} (h : (a.state? a.stop).isSome = true)
    (state : Option String) :
    a.structuralFault? state
      = if (state.bind a.state?).isNone then some (lostFault state) else none := by
  have hne : a.states.isEmpty = false := by
    cases hstates : a.states with
    | nil =>
      rw [state?, hstates] at h
      cases h
    | cons => rfl
  have hstop : (a.state? a.stop).isNone = false := by
    rw [Option.isNone_eq_false_iff, h]
  simp only [structuralFault?, hne, hstop, Bool.false_eq_true, ↓reduceIte]

/-- The only thing that can be wrong with a state of a valid program is that there is none. -/
theorem structuralFault?_eq {a : Automaton} (h : a.flaw? = none) (id : String) :
    a.structuralFault? (some id)
      = if (a.state? id).isNone then some (lostFault (some id)) else none := by
  obtain ⟨s, hs, _⟩ := flaw?_eq_none_iff.mp h
  exact structuralFault?_of_stop (by rw [hs]; rfl) (some id)

/-- **What one step of a run does**: it makes a transition, or ends the run. -/
theorem step_cases {a : Automaton} (h : a.flaw? = none) (w : World) {id : String}
    (hid : id ≠ a.stop) (full : Fault) (left : Nat) :
    (∃ cs, Makes a (w, id) cs ((a.step w id).world, (a.step w id).next)
        ∧ (a.step w id).fault = none) ∨
      ∃ done rest f, (a.step w id).fault = some f ∧
        Ending a full (left + 1) w id done rest (some f) (a.step w id).world := by
  have hstruct := structuralFault?_eq h id
  have hmore : left + 1 ≠ 0 := Nat.succ_ne_zero left
  cases hs : a.state? id with
  | none =>
    simp only [hs, Option.isNone_none, ↓reduceIte] at hstruct
    rw [step_of_structural hstruct]
    exact .inr ⟨[], [], _, rfl, .lost hid hmore (state?_eq_none_iff.mp hs)⟩
  | some s =>
    simp only [hs, Option.isNone_some, Bool.false_eq_true, ↓reduceIte] at hstruct
    have htrans : a.transition? w id = s.transitions.find? fun t => t.matches w := by
      rw [transition?, if_neg hid, hs]
      rfl
    cases ht : s.transitions.find? (fun t => t.matches w) with
    | none =>
      rw [step_of_stuck hstruct hid (htrans.trans ht)]
      exact .inr ⟨[], [], _, rfl, .stuck hid hmore hs (find?_eq_none_iff.mp ht)⟩
    | some t =>
      cases hact : act t.actions w with
      | mk u b =>
        cases b with
        | none =>
          rw [step_of_acted hstruct hid (htrans.trans ht) hact]
          exact .inl ⟨_, .mk hid hs (firstFit_iff.mpr ht) (act_eq_none_iff.mp hact), rfl⟩
        | some b =>
          obtain ⟨done, rest, hd, hleads, hb⟩ := exists_of_act_eq_some hact
          rw [step_of_blocked hstruct hid (htrans.trans ht) hact]
          exact .inr ⟨done, b :: rest, _, rfl,
            .blocked hid hmore hs (firstFit_iff.mpr ht) hd hleads hb⟩

/-! ### the whole run -/

/-- **A run from a state makes transitions as long as it can**, and ends for one of the reasons. -/
theorem runFrom_runs {a : Automaton} (h : a.flaw? = none) (b : Budget) (left steps : Nat)
    (w : World) (id : String) :
    ∃ n cs v c done rest, Runs a n (w, id) cs (v, c) ∧ n ≤ left ∧
      (a.runFrom b left steps w id).steps = steps + n ∧
      (a.runFrom b left steps w id).state = some c ∧
      Ending a b.fault (left - n) v c done rest (a.runFrom b left steps w id).fault
        (a.runFrom b left steps w id).world := by
  fun_induction runFrom a b left steps w id with
  | case1 left steps w =>
    exact ⟨0, [], w, a.stop, [], [], .nil, Nat.zero_le _, rfl, rfl, .stopped rfl⟩
  | case2 steps w id hid =>
    exact ⟨0, [], w, id, [], [], .nil, Nat.le_refl _, rfl, rfl, .spent hid rfl⟩
  | case3 steps w id hid left s f hf =>
    rcases step_cases h w hid b.fault left with ⟨_, -, hfine⟩ | ⟨done, rest, f', hf', hend⟩
    · cases hf.symm.trans hfine
    · cases hf.symm.trans hf'
      exact ⟨0, [], w, id, done, rest, .nil, Nat.zero_le _, rfl, rfl, hend⟩
  | case4 steps w id hid left s hf ih =>
    rcases step_cases h w hid b.fault left with ⟨cs, hmakes, -⟩ | ⟨_, _, f, hf', -⟩
    · obtain ⟨n, ds, v, c, done, rest, hruns, hle, hsteps, hstate, hend⟩ := ih
      refine ⟨n + 1, cs ++ ds, v, c, done, rest, .cons hmakes hruns, Nat.succ_le_succ hle,
        by omega, hstate, ?_⟩
      rwa [Nat.succ_sub_succ]
    · cases hf.symm.trans hf'

/-- A run that may go on but cannot is the longest. -/
theorem Runs.longest {a : Automaton} {m n : Nat} {x y : World × String} {cs : List Command}
    (h : Runs a n x cs y) (hle : n ≤ m) (hstuck : m - n ≠ 0 → ∀ cs z, ¬ Makes a y cs z) :
    Longest a m x n cs y := by
  refine ⟨h, hle, fun k ds z hk hruns => ?_⟩
  by_cases hnm : m - n = 0
  · omega
  · exact h.le_of_stuck (hstuck hnm) hruns

/-- What is true of the outcome of a run from a world and a state with a limit, when the longest
run from there makes `n` transitions, does the commands `cs`, and ends at `v` and `c`. -/
structure Account (a : Automaton) (m : Nat) (w : World) (s : String) (r : Outcome) (n : Nat)
    (cs done rest : List Command) (v : World) (c : String) : Prop where
  longest : a.Longest m (w, s) n cs (v, c)
  steps : r.steps = n
  state : r.state = some c
  ending : a.Ending (.limitExceeded m "steps") (m - n) v c done rest r.fault r.world
  stopped : r.fault = none ↔ c = a.stop
  spent : r.fault.map Fault.kind = some .limitExceeded ↔ c ≠ a.stop ∧ n = m
  stuck : ∀ f, r.fault = some f → f.kind = .stuckState →
    r.world = v ∧ f.stateId = some c ∧
      ∀ p, p ∈ f.detectors ↔ ∃ d : Detector, d.read v ∧ d.phrase = p
  /-- the actions that were done, given to a runner as a list of commands -/
  replayed : ((⟨cs ++ done, 0, none⟩ : Runner).skip w).2.world = r.world ∧
    ((⟨cs ++ done, 0, none⟩ : Runner).skip w).2.fault = none
  /-- the same with the transition that could not be made -/
  reported : ((⟨cs ++ (done ++ rest), 0, none⟩ : Runner).skip w).2.world = r.world ∧
    ((⟨cs ++ (done ++ rest), 0, none⟩ : Runner).skip w).2.fault
      = rest.head?.map fun b => b.blocked r.world

/-- **The run of a valid program is its longest run within the limit.** It has no fault just when it
is at the stop state; else it has spent its limit, or is at an unknown state, or no transition fits,
or an action of the first that fits is blocked, those before it having been done. A runner that is
given the commands of the run leaves the same world. -/
theorem run_is_longest (a : Automaton) (h : a.flaw? = none) (w : World) (start : Option String)
    (s : String) (hs : (start <|> a.start) = some s) (m : Nat) :
    ∃ n cs done rest v c, a.Account m w s (a.run w start (some m)) n cs done rest v c := by
  have hrun : a.run w start (some m) = a.runFrom ⟨some m, "steps", 0⟩ m 0 w s := by
    rw [run, hs]
    rfl
  obtain ⟨n, cs, v, c, done, rest, hruns, hle, hsteps, hstate, hend⟩ :=
    runFrom_runs h ⟨some m, "steps", 0⟩ m 0 w s
  rw [← hrun] at hsteps hstate hend
  have hleads := hruns.leads.append hend.leads
  have hnm : m - n = 0 ↔ n = m := by omega
  refine ⟨n, cs, done, rest, v, c, ?_⟩
  constructor
  case longest => exact hruns.longest hle hend.not_makes
  case steps => exact hsteps.trans (Nat.zero_add n)
  case state => exact hstate
  case ending => exact hend
  case stopped => exact hend.fault_eq_none_iff
  case spent =>
    exact (Ending.kind_eq_limitExceeded_iff rfl hend).trans (and_congr_right fun _ => hnm)
  case stuck => exact Ending.stuck_fault rfl hend
  case replayed =>
    have hnil : ∀ b, ([] : List Command).head? = some b →
        b.apply (a.run w start (some m)).world = none := by
      intro b hb
      cases hb
    have hdone := Runner.skip_of_leads hleads hnil
    rwa [List.append_nil] at hdone
  case reported =>
    rw [← List.append_assoc]
    exact Runner.skip_of_leads hleads hend.rest_blocked

/-- a row with a clover under the character, a mushroom before it, and a tree at the end -/
def lane : World where
  width := 6
  height := 1
  grid := [[.clover, .mushroom, .empty, .empty, .empty, .tree]]
  character := { position := ⟨0, 0⟩, direction := .east }

/-- picks clovers, and else goes two steps at a time unless there is a tree -/
def walker : Automaton where
  states :=
    [stopState,
     { id := "walk", name := "Walk", transitions :=
        [⟨"pick", "walk", [(.onLeaf, some true), (.treeLeft, none)], [.pickClover]⟩,
         ⟨"go", "walk", [(.treeFront, some false)], [.moveForward, .moveForward]⟩,
         ⟨"end", "stop", [], []⟩] }]
  start := some "walk"

/-- The clover is picked, the mushroom is pushed up to the tree, and the second step of the third
transition is blocked. -/
theorem walker_account :
    walker.flaw? = none ∧ (none <|> walker.start) = some "walk" ∧
      (walker.run lane none (some 10)).steps = 2 ∧
      (walker.run lane none (some 10)).world.grid
        = [[.empty, .empty, .empty, .empty, .mushroom, .tree]] ∧
      (walker.run lane none (some 10)).fault.map Fault.kind = some .blockedAction ∧
      ∃ n cs done rest v c, walker.Account 10 lane "walk" (walker.run lane none (some 10))
        n cs done rest v c :=
  ⟨by decide, rfl, by decide +kernel, by decide +kernel, by decide +kernel,
    run_is_longest walker (by decide) lane none "walk" rfl 10⟩

end Ladybug.Automaton

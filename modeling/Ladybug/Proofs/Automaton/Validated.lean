import Ladybug.Proofs.Automaton.Edited

/-!
# Runs of programs that have been validated

Validation looks at the start state and for any transitions at all, but not at where they lead. So
the run of a validated program may come to an id that no state has, and this is the only fault that
it can have besides those of its transitions and of the limit.

* `Strays`            a run comes within its limit to an id that no state has
* `Account.of_strays`, `Account.kind_mem_or_strays`   then it is lost there, and only then
* `validated_run`     how the run of a validated program ends
* `astray_lost`       a program that is validated and is lost all the same
-/

namespace Ladybug.Automaton

variable {a : Automaton}

/-- Less than `m` transitions lead from a world and the state `s` to the id `c`, which no state
has. -/
def Strays (a : Automaton) (m : Nat) (w : World) (s c : String) : Prop :=
  ∃ n cs v, n < m ∧ a.Runs n (w, s) cs (v, c) ∧ c ∉ stateIds a.states

/-! ### states that are there -/

theorem stop_mem_of_flawless (h : a.flaw? = none) : a.stop ∈ stateIds a.states := by
  obtain ⟨s, hs, -⟩ := flaw?_eq_none_iff.mp h
  exact mem_stateIds_of_state? hs

/-- A validated program has a start state. -/
theorem start_of_validate (h : a.validate = none) :
    ∃ s, a.start = some s ∧ s ∈ stateIds a.states := by
  unfold validate at h
  split at h
  · cases h
  · cases h
  · rename_i s _ hs
    cases hu : a.state? s with
    | none =>
      rw [hu] at h
      cases h
    | some u => exact ⟨s, hs, mem_stateIds_of_state? hu⟩

/-- A run strays only through a transition that leads nowhere. -/
theorem Aimed.not_strays (h : a.Aimed) {m : Nat} {w : World} {s : String}
    (hs : s ∈ stateIds a.states) (c : String) : ¬ a.Strays m w s c := by
  rintro ⟨n, cs, v, -, hruns, hc⟩
  exact hc (hruns.mem_stateIds h hs)

/-! ### runs that come to an unknown id -/

/-- So many transitions from one place lead to one place. -/
theorem Runs.unique {n : Nat} {x y z : World × String} {cs ds : List Command}
    (h₁ : Runs a n x cs y) (h₂ : Runs a n x ds z) : y = z := by
  induction h₁ generalizing ds z with
  | nil =>
    cases h₂
    rfl
  | cons first _ ih =>
    cases h₂ with
    | cons first' rest =>
      cases first.unique first'
      exact ih rest

theorem not_makes_of_unknown {c : String} (hc : c ∉ stateIds a.states) (v : World)
    (cs : List Command) (y : World × String) : ¬ Makes a (v, c) cs y := by
  rintro ⟨_, state, _, _⟩
  exact hc (mem_stateIds_of_state? state)

/-- At an id that no state has, a run is lost unless it may make no more transitions. -/
theorem Ending.of_unknown {full : Fault} {left : Nat} {u v : World} {c : String}
    {done rest : List Command} {fault : Option Fault} (hstop : a.stop ∈ stateIds a.states)
    (hc : c ∉ stateIds a.states) (h : Ending a full left v c done rest fault u) :
    fault = some (if left = 0 then full else lostFault (some c)) := by
  cases h with
  | stopped stop => exact absurd (stop ▸ hstop) hc
  | spent _ none => rw [if_pos none]
  | lost _ more _ => rw [if_neg more]
  | stuck _ _ state _ => exact absurd (mem_stateIds_of_state? state) hc
  | blocked _ _ state _ _ _ _ => exact absurd (mem_stateIds_of_state? state) hc

namespace Account

variable {m n : Nat} {w v : World} {s c : String} {r : Outcome} {cs done rest : List Command}

/-- A run that strays ends where it has come to. -/
theorem of_strays (h : a.Account m w s r n cs done rest v c)
    (hstop : a.stop ∈ stateIds a.states) {d : String} (hd : a.Strays m w s d) :
    r.state = some d ∧ r.fault = some (lostFault (some d)) := by
  obtain ⟨k, ds, u, hk, hruns, hunknown⟩ := hd
  have hlow : k ≤ n := h.longest.longest k ds (u, d) (Nat.le_of_lt hk) hruns
  have hhigh : n ≤ k := hruns.le_of_stuck (not_makes_of_unknown hunknown u) h.longest.runs
  obtain rfl : k = n := Nat.le_antisymm hlow hhigh
  cases hruns.unique h.longest.runs
  have hfault := h.ending.of_unknown hstop hunknown
  rw [if_neg (by omega)] at hfault
  exact ⟨h.state, hfault⟩

/-- A run that has a fault of any other kind than those of transitions and of the limit has
strayed. -/
theorem kind_mem_or_strays (h : a.Account m w s r n cs done rest v c)
    (hstop : a.stop ∈ stateIds a.states) {f : Fault} (hf : r.fault = some f) :
    f.kind ∈ runFaults ∨ ∃ d, a.Strays m w s d ∧ f = lostFault (some d) := by
  by_cases hc : c ∈ stateIds a.states
  · exact .inl (h.ending.kind_mem rfl hc f hf)
  · have hfault := h.ending.of_unknown hstop hc
    rw [hf, Option.some.injEq] at hfault
    by_cases hleft : m - n = 0
    · rw [if_pos hleft] at hfault
      rw [hfault]
      exact .inl List.mem_cons_self
    · rw [if_neg hleft] at hfault
      exact .inr ⟨c, ⟨n, cs, v, by omega, h.longest.runs, hc⟩, hfault⟩

end Account

/-- **The run of a validated program** has no fault just when it ends at the stop state. Else the
fault is one of its transitions or of the limit, or the run has come to an id that no state has, and
is lost there. It cannot come to one when every transition leads to a state of the program. -/
theorem validated_run (h : a.flaw? = none) (hready : a.validate = none) (w : World) (m : Nat) :
    ∃ s, a.start = some s ∧
      ((a.run w none (some m)).fault = none ↔ (a.run w none (some m)).state = some a.stop) ∧
      (∀ f, (a.run w none (some m)).fault = some f →
        f.kind ∈ [FaultKind.limitExceeded, .stuckState, .blockedAction] ∨
          ∃ c, a.Strays m w s c ∧ f = lostFault (some c)) ∧
      (∀ c, a.Strays m w s c → (a.run w none (some m)).state = some c ∧
        (a.run w none (some m)).fault = some (lostFault (some c))) ∧
      (a.Aimed → ∀ f, (a.run w none (some m)).fault = some f →
        f.kind ∈ [FaultKind.limitExceeded, .stuckState, .blockedAction]) := by
  have hstop := stop_mem_of_flawless h
  obtain ⟨s, hs, hmem⟩ := start_of_validate hready
  obtain ⟨n, cs, done, rest, v, c, account⟩ := run_is_longest a h w none s hs m
  have hkinds (f : Fault) (hf : (a.run w none (some m)).fault = some f) :=
    account.kind_mem_or_strays hstop hf
  refine ⟨s, hs, ?_, hkinds, fun d hd => account.of_strays hstop hd, fun haimed f hf => ?_⟩
  · rw [account.stopped, account.state, Option.some.injEq]
  · rcases hkinds f hf with hkind | ⟨d, hd, -⟩
    · exact hkind
    · exact absurd hd (haimed.not_strays hmem d)

/-- The walk ends with an action that is blocked. -/
theorem walker_validated :
    walker.flaw? = none ∧ walker.validate = none ∧ walker.Aimed ∧
      ∃ f, (walker.run lane none (some 10)).fault = some f ∧
        f.kind ∈ [FaultKind.limitExceeded, .stuckState, .blockedAction] := by
  have hflaw : walker.flaw? = none := by decide
  have hready : walker.validate = none := by decide
  have haimed : walker.Aimed := by
    unfold Aimed
    decide
  obtain ⟨s, -, -, -, -, hkinds⟩ := validated_run hflaw hready lane 10
  have hfault : (walker.run lane none (some 10)).fault.isSome = true := by decide +kernel
  obtain ⟨f, hf⟩ := Option.isSome_iff_exists.mp hfault
  exact ⟨hflaw, hready, haimed, f, hf, hkinds haimed f hf⟩

/-- a state that is left for one that is not there -/
def astray : Automaton where
  states :=
    [stopState,
     { id := "go", name := "Go", transitions := [⟨"leave", "ghost", [], [.turnLeft]⟩] }]
  start := some "go"

/-- **Validation does not keep a run from being lost.** -/
theorem astray_lost :
    astray.flaw? = none ∧ astray.validate = none ∧ lane.Valid ∧
      ∃ f, (astray.run lane none (some 10)).fault = some f ∧ f.kind = .structural := by
  have hvalid : lane.Valid := by
    constructor
    case placed => exact .inr (by decide)
    all_goals decide
  refine ⟨by decide, by decide, hvalid, lostFault (some "ghost"), ?_, rfl⟩
  decide +kernel

end Ladybug.Automaton

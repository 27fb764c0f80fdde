import Ladybug.Proofs.Automaton.Reported
import Mathlib.Data.List.Induction

/-!
# The phases of a run, whoever drives it

A caller may ask for phases and for the rest of a run in any order, and may show another world each
time than the one that it was given. Whatever it does, a run goes through its phases in order, and
comes to its end.

* `Sequencer.Request`       what a caller asks for
* `Sequencer.Does`          what one request may do
* `Sequencer.Kept`          what holds of a run between two requests
* `Sequencer.doing_serve`   every request does one of these things, and keeps that
* `Sequencer.Made`          the transitions that requests have found or made
* `Sequencer.Executing`     the requests that a transition in progress has had
* `Sequencer.requests_keep_protocol`   any number of requests
-/

namespace Ladybug.Automaton

/-! ### how far a whole run goes -/

section

variable (a : Automaton) (w : World)

/-- A run from a state is in a state, and makes no more transitions than it may. -/
theorem runFrom_within (b : Budget) (left n : Nat) (id : String) :
    (a.runFrom b left n w id).steps ≤ n + left ∧
      (a.runFrom b left n w id).state.isSome = true := by
  fun_induction runFrom a b left n w id with
  | case1 => exact ⟨Nat.le_add_right .., rfl⟩
  | case2 n => exact ⟨Nat.le_refl n, rfl⟩
  | case3 => exact ⟨Nat.le_add_right .., rfl⟩
  | case4 n w id _ left s _ ih =>
    obtain ⟨hle, hstate⟩ := ih
    exact ⟨by omega, hstate⟩

theorem run_within (start : Option String) (m : Nat) :
    (a.run w start (some m)).steps ≤ m ∧
      ((a.run w start (some m)).state = none → a.start = none) := by
  unfold run
  cases hs : (start <|> a.start) with
  | none => exact ⟨Nat.zero_le m, fun _ => start_eq_none hs⟩
  | some id =>
    obtain ⟨hle, hstate⟩ := a.runFrom_within w ⟨some m, "steps", 0⟩ m 0 id
    rw [Nat.zero_add] at hle
    exact ⟨hle, fun hnone => absurd hnone (Option.isSome_iff_ne_none.mp hstate)⟩

end

namespace Sequencer

/-! ### requests -/

/-- what a caller asks for, with the world that it shows -/
inductive Request where
  | advance (w : World)
  | skip (w : World)
deriving DecidableEq, Repr

def Request.world : Request → World
  | .advance w | .skip w => w

def serve (s : Sequencer) : Request → Sequencer × World
  | .advance w => s.advance w
  | .skip w => s.skip w

/-- A run after some requests; what becomes of the worlds that they give is the caller's concern. -/
def served (s : Sequencer) (cs : List Request) : Sequencer := cs.foldl (fun s c => (s.serve c).1) s

/-- A run that goes on has no transition in progress. -/
def Rests (s : Sequencer) : Prop := s.stage = .idle ∨ ∃ t, s.stage = .arrow t

/-- where a run stands -/
structure At (s : Sequencer) (stage : Stage) (state previous : Option String) : Prop where
  stage : s.stage = stage
  state : s.state = state
  previous : s.previous = previous

/-- Why a run of at most `m` transitions ends where it looks for the next one. -/
inductive Ends (a : Automaton) (m : Nat) (s : Sequencer) (w : World) : Option Fault → Prop
  | structural {f : Fault} (fault : a.structuralFault? s.state = some f) : Ends a m s w (some f)
  | stopped (stop : s.state = some a.stop) : Ends a m s w none
  | stuck {id : String} (state : s.state = some id) (going : id ≠ a.stop)
      (unfit : a.transition? w id = none) : Ends a m s w (some (a.stuckFault w id))
  | spent {id : String} {t : Transition} (state : s.state = some id) (going : id ≠ a.stop)
      (found : a.transition? w id = some t) (full : s.steps = m) :
      Ends a m s w (some (spentFault m))

/-- **What one request may do to a run `s`**: the run and the world that it gives, and the number of
transitions that it has found or made. -/
inductive Does (a : Automaton) (m : Nat) (s : Sequencer) : Request → Sequencer × World → Nat → Prop
  | finds {s' : Sequencer} {w : World} {id : String} {t : Transition} (rests : s.Rests)
      (less : s.steps < m) (state : s.state = some id) (going : id ≠ a.stop)
      (found : a.transition? w id = some t) (now : s'.At (.found t) s.state s.previous) :
      Does a m s (.advance w) (s', w) 1
  | ends {s' : Sequencer} {w : World} {f : Option Fault} (rests : s.Rests) (why : Ends a m s w f)
      (now : s'.At (.finished none f) s.state s.previous) : Does a m s (.advance w) (s', w) 0
  | acts {s' : Sequencer} {w v : World} {t : Transition} {i : Nat} {c : Command}
      (pending : s.pending? = some (t, i)) (action : t.actions[i]? = some c)
      (acts : c.apply w = some v) (now : s'.At (.acting t i) s.state s.previous) :
      Does a m s (.advance w) (s', v) 0
  | blocks {s' : Sequencer} {w : World} {t : Transition} {i : Nat} {c : Command}
      (pending : s.pending? = some (t, i)) (action : t.actions[i]? = some c)
      (block : c.apply w = none)
      (now : s'.At (.finished (some (t, i)) (some (blockedFault c w s.state))) s.state s.previous) :
      Does a m s (.advance w) (s', w) 0
  | arrives {s' : Sequencer} {w : World} {t : Transition}
      (pending : s.pending? = some (t, t.actions.length))
      (now : s'.At (.arrow t) (some t.target) s.state) : Does a m s (.advance w) (s', w) 0
  | runs {s' : Sequencer} {w : World} {r : Outcome} (rests : s.Rests)
      (rest : r = a.run w s.state (some (m - s.steps)))
      (now : s'.At (.finished none r.fault) r.state s.previous) :
      Does a m s (.skip w) (s', r.world) r.steps
  | completes {s' : Sequencer} {w v : World} {t : Transition} {i : Nat} {r : Outcome}
      (pending : s.pending? = some (t, i)) (acts : act (t.actions.drop i) w = (v, none))
      (rest : r = a.run v (some t.target) (some (m - s.steps)))
      (now : s'.At (.finished none r.fault) r.state s.state) :
      Does a m s (.skip w) (s', r.world) r.steps
  | breaks {s' : Sequencer} {w v : World} {t : Transition} {i j : Nat} {c : Command}
      (pending : s.pending? = some (t, i)) (acts : act (t.actions.drop i) w = (v, some c))
      (le : i ≤ j) (action : t.actions[j]? = some c)
      (now : s'.At (.finished (some (t, j)) (some (blockedFault c v s.state))) s.state s.previous) :
      Does a m s (.skip w) (s', v) 0
  | stays {c : Request} (finished : s.finished = true) : Does a m s c (s, c.world) 0

/-- What holds of a run of an automaton with a limit between any two requests. -/
structure Kept (a : Automaton) (m : Nat) (s : Sequencer) : Prop where
  ready : Ready a m s
  within : s.steps ≤ m
  counted : s.finished = false → s.budget = ⟨some m, "steps", s.steps⟩

/-- A request does one of the things that it may, counts what it does, and keeps what holds. -/
structure Doing (a : Automaton) (m : Nat) (s : Sequencer) (c : Request) (x : Sequencer × World)
    (n : Nat) : Prop where
  does : Does a m s c x n
  steps : x.1.steps = s.steps + n
  kept : Kept a m x.1

section

variable {a : Automaton} {m i : Nat} {s : Sequencer} {t : Transition}

theorem Rests.goes (h : s.Rests) : s.finished = false := by
  rcases h with hst | ⟨t, hst⟩ <;> simp only [finished, hst, Stage.isFinished]

theorem Kept.counting (h : Kept a m s) (hf : s.finished = false) : Counted a m s :=
  ⟨h.ready.program, h.counted hf, h.within⟩

theorem Kept.left_eq (h : Kept a m s) (hf : s.finished = false) : left m s = m - s.steps := by
  simp only [left, h.counted hf]
  omega

/-- The next action is one of the actions, or comes after the last one. -/
theorem Kept.index_le (h : Kept a m s) (hp : s.pending? = some (t, i)) :
    i ≤ t.actions.length := by
  rcases stage_of_pending hp with ⟨-, rfl⟩ | ⟨k, hst, rfl⟩
  · exact Nat.zero_le _
  · exact h.ready.inside t k hst

/-! ### one request -/

/-- Looking for a transition. -/
theorem doing_find (h : Kept a m s) (hr : s.Rests) (w : World) :
    ∃ n, Doing a m s (.advance w) (s.find w, w) n := by
  have hready := ready_find h.ready w
  -- however the run ends here, nothing but its stage and its budget changes
  have hends {f : Option Fault} {b : Budget} (why : Ends a m s w f)
      (e : s.find w = finish { s with budget := b } f) :
      ∃ n, Doing a m s (.advance w) (s.find w, w) n := by
    rw [e] at hready ⊢
    exact ⟨0, .ends hr why ⟨rfl, rfl, rfl⟩, rfl, hready, h.within, nofun⟩
  cases hs : a.structuralFault? s.state with
  | some f => exact hends (.structural hs) (find_of_structural h.ready.program hs)
  | none =>
    obtain ⟨id, hid⟩ := exists_of_structuralFault? hs
    by_cases hstop : id = a.stop
    · rw [hstop] at hid
      exact hends (.stopped hid) (find_of_stop h.ready.program hs hid)
    · cases ht : a.transition? w id with
      | none => exact hends (.stuck hid hstop ht) (find_of_stuck h.ready.program hs hid hstop ht)
      | some t =>
        have hfind := find_of_transition h.ready.program hs hid hstop ht
        have hleft := h.left_eq hr.goes
        have hfault : s.budget.charge.fault = spentFault m := by
          rw [h.counted hr.goes]
          rfl
        by_cases hlt : s.steps < m
        · rw [if_neg fun e => by have := (exhausted_charge_iff h.ready).mp e; omega] at hfind
          rw [hfind] at hready ⊢
          refine ⟨1, .finds hr hlt hid hstop ht ⟨rfl, rfl, rfl⟩, rfl, hready, hlt, fun _ => ?_⟩
          exact (h.counting hr.goes).charge
        · rw [if_pos ((exhausted_charge_iff h.ready).mpr (by omega)), hfault] at hfind
          exact hends (.spent hid hstop ht (by have := h.within; omega)) hfind

/-- The next action, or the arrow after the last one. -/
theorem doing_actAt (h : Kept a m s) (hp : s.pending? = some (t, i)) (w : World) :
    ∃ n, Doing a m s (.advance w) (s.actAt w t i) n := by
  have hready := ready_actAt h.ready w t i
  have hcounted := h.counted (finished_of_pending hp)
  cases hi : t.actions[i]? with
  | none =>
    obtain rfl : i = t.actions.length :=
      Nat.le_antisymm (h.index_le hp) (List.getElem?_eq_none_iff.mp hi)
    rw [actAt_of_none hi] at hready ⊢
    exact ⟨0, .arrives hp ⟨rfl, rfl, rfl⟩, rfl, hready, h.within, fun _ => hcounted⟩
  | some c =>
    cases hc : c.apply w with
    | none =>
      rw [actAt_of_blocked hi hc] at hready ⊢
      exact ⟨0, .blocks hp hi hc ⟨rfl, rfl, rfl⟩, rfl, hready, h.within, nofun⟩
    | some v =>
      rw [actAt_of_acting hi hc] at hready ⊢
      exact ⟨0, .acts hp hi hc ⟨rfl, rfl, rfl⟩, rfl, hready, h.within, fun _ => hcounted⟩

/-- A run that is finished by a whole run of what is left. -/
theorem kept_of_run {s' : Sequencer} {w : World} {state : Option String} (h : Kept a m s)
    (hp : s'.program = some a) (hl : s'.budget.limit = some m) (hf : s'.finished = true)
    (hstate : s'.state = (a.run w state (some (m - s.steps))).state)
    (hsteps : s'.steps = s.steps + (a.run w state (some (m - s.steps))).steps) :
    Kept a m s' := by
  obtain ⟨hle, hhome⟩ := a.run_within w state (m - s.steps)
  have hwithin := h.within
  refine ⟨⟨hp, hl, fun hnone => hhome (hstate.symm.trans hnone), fun t i hst => ?_⟩, by omega,
    fun hgoes => ?_⟩
  · rw [finished, hst] at hf
    cases hf
  · rw [hf] at hgoes
    cases hgoes

/-- The rest of the run at once. -/
theorem doing_skip (h : Kept a m s) (w : World) :
    ∃ n, Doing a m s (.skip w) (s.skip w) n := by
  cases hf : s.finished with
  | true =>
    rw [skip_eq_self w hf]
    exact ⟨0, .stays hf, rfl, h⟩
  | false =>
    cases hp : s.pending? with
    | none =>
      rw [(h.counting hf).skip_eq hp hf]
      exact ⟨_, .runs (stage_of_resting hp hf) rfl ⟨rfl, rfl, rfl⟩, rfl,
        kept_of_run h h.ready.program h.ready.limit rfl rfl rfl⟩
    | some p =>
      obtain ⟨t, i⟩ := p
      obtain ⟨j, hblocked, hj⟩ :=
        actFrom_eq (t := t) t.actions.length i (Nat.le_add_left ..) s w
      rw [← settle_of_pending hp] at hj
      rcases hact : act (t.actions.drop i) w with ⟨v, blocked⟩
      rw [hact] at hblocked hj
      cases blocked with
      | none =>
        have hcounted : Counted a m (s.arrowed t) :=
          ⟨h.ready.program, h.counted hf, h.within⟩
        have hskip : s.skip w = (s.arrowed t).skip v := skip_congr hj
        rw [hskip, hcounted.skip_eq rfl rfl]
        exact ⟨_, .completes hp hact rfl ⟨rfl, rfl, rfl⟩, rfl,
          kept_of_run h h.ready.program h.ready.limit rfl rfl rfl⟩
      | some c =>
        obtain ⟨hle, hget⟩ := hblocked c rfl
        rw [skip_of_finished (by rw [hj]; rfl), hj]
        refine ⟨0, .breaks hp hact hle hget ⟨rfl, rfl, rfl⟩, rfl, ?_, h.within, nofun⟩
        exact ⟨h.ready.program, h.ready.limit, h.ready.homeless, nofun⟩

/-- **Every request does one of the things that it may.** -/
theorem doing_serve (h : Kept a m s) (c : Request) : ∃ n, Doing a m s c (s.serve c) n := by
  cases c with
  | skip w => exact doing_skip h w
  | advance w =>
    show ∃ n, Doing a m s (.advance w) (s.advance w) n
    cases hf : s.finished with
    | true =>
      rw [advance_of_finished hf]
      exact ⟨0, .stays hf, rfl, h⟩
    | false =>
      cases hp : s.pending? with
      | none =>
        rw [advance_of_resting hp hf]
        exact doing_find h (stage_of_resting hp hf) w
      | some p =>
        rw [advance_of_pending hp]
        exact doing_actAt h hp w

end

/-! ### all requests -/

/-- Requests one after the other, and the number of transitions that they have found or made. -/
inductive Made (a : Automaton) (m : Nat) (s : Sequencer) : List Request → Nat → Prop
  | nil : Made a m s [] 0
  | snoc {cs : List Request} {c : Request} {n k : Nat} (before : Made a m s cs n)
      (last : Does a m (s.served cs) c ((s.served cs).serve c) k) : Made a m s (cs ++ [c]) (n + k)

/-- The last requests: one has found a transition, and each of the others has done one of its first
`i` actions, one after the other. -/
inductive Executing (s : Sequencer) (t : Transition) : List Request → Nat → Prop
  | found {cs : List Request} {w : World} (rests : (s.served cs).Rests)
      (stage : (s.served (cs ++ [.advance w])).stage = .found t) :
      Executing s t (cs ++ [.advance w]) 0
  | acted {cs : List Request} {i : Nat} {w v : World} {c : Command} (before : Executing s t cs i)
      (action : t.actions[i]? = some c) (acts : c.apply w = some v)
      (gives : ((s.served cs).advance w).2 = v)
      (stage : (s.served (cs ++ [.advance w])).stage = .acting t i) :
      Executing s t (cs ++ [.advance w]) (i + 1)

theorem served_concat (s : Sequencer) (cs : List Request) (c : Request) :
    s.served (cs ++ [c]) = ((s.served cs).serve c).1 := by
  rw [served, served, List.foldl_append]
  rfl

theorem kept_ofProgram (a : Automaton) (start : Option String) (m : Nat) :
    Kept a m (ofProgram a start (some m)) :=
  ⟨ready_ofProgram a start m, Nat.zero_le m, fun _ => rfl⟩

section

variable {a : Automaton} {m : Nat} {s : Sequencer} {t : Transition}

theorem kept_served (h : Kept a m s) (cs : List Request) : Kept a m (s.served cs) := by
  induction cs using List.reverseRecOn with
  | nil => exact h
  | append_singleton cs c ih =>
    obtain ⟨n, hdoing⟩ := doing_serve ih c
    rw [served_concat]
    exact hdoing.kept

theorem made_served (h : Kept a m s) (hs : s.steps = 0) (cs : List Request) :
    Made a m s cs (s.served cs).steps := by
  induction cs using List.reverseRecOn with
  | nil =>
    show Made a m s [] s.steps
    rw [hs]
    exact .nil
  | append_singleton cs c ih =>
    obtain ⟨n, hdoing⟩ := doing_serve (kept_served h cs) c
    rw [served_concat, hdoing.steps]
    exact .snoc ih hdoing.does

/-- A transition in progress has been found by a request, and its actions so far have been done by
the requests after that one. -/
theorem executing_served (h : Kept a m s) (hs : s.stage = .idle) (cs : List Request) :
    ∀ t i, (s.served cs).pending? = some (t, i) → Executing s t cs i := by
  induction cs using List.reverseRecOn with
  | nil =>
    intro t i hp
    rcases stage_of_pending hp with ⟨hst, -⟩ | ⟨k, hst, -⟩ <;> cases hs.symm.trans hst
  | append_singleton cs c ih =>
    intro t i hp
    obtain ⟨n, hdoes, -, -⟩ := doing_serve (kept_served h cs) c
    have hstage := stage_of_pending hp
    rw [served_concat] at hstage
    generalize hx : (s.served cs).serve c = x at hdoes hstage
    -- a transition is in progress after it has been found, and after each of its actions
    cases hdoes with
    | finds rests _ _ _ _ now =>
      rw [now.stage] at hstage
      rcases hstage with ⟨hst, rfl⟩ | ⟨k, hst, -⟩
      · cases hst
        exact .found rests (by rw [served_concat, hx, now.stage])
      · cases hst
    | acts pending action acts now =>
      rw [now.stage] at hstage
      rcases hstage with ⟨hst, -⟩ | ⟨k, hst, rfl⟩
      · cases hst
      · cases hst
        exact .acted (ih _ _ pending) action acts (congrArg Prod.snd hx)
          (by rw [served_concat, hx, now.stage])
    | ends _ _ now | blocks _ _ _ now | arrives _ now | runs _ _ now | completes _ _ _ now
    | breaks _ _ _ _ now =>
      rw [now.stage] at hstage
      rcases hstage with ⟨hst, -⟩ | ⟨k, hst, -⟩ <;> cases hst
    | stays hf =>
      rw [served_concat, hx] at hp
      rw [finished_of_pending hp] at hf
      cases hf

/-- The arrow is shown when all actions have been done. -/
theorem executed_served (h : Kept a m s) (hs : s.stage = .idle) {cs : List Request}
    (hst : (s.served cs).stage = .arrow t) :
    ∃ before w, cs = before ++ [.advance w] ∧ Executing s t before t.actions.length := by
  cases cs using List.reverseRecOn with
  | nil => cases hs.symm.trans hst
  | append_singleton cs c =>
    obtain ⟨n, hdoes, -, -⟩ := doing_serve (kept_served h cs) c
    rw [served_concat] at hst
    generalize (s.served cs).serve c = x at hdoes hst
    cases hdoes with
    | arrives pending now =>
      cases now.stage.symm.trans hst
      exact ⟨cs, _, rfl, executing_served h hs cs _ _ pending⟩
    | finds _ _ _ _ _ now | acts _ _ _ now | ends _ _ now | blocks _ _ _ now | runs _ _ now
    | completes _ _ _ now | breaks _ _ _ _ now => cases now.stage.symm.trans hst
    | stays hf =>
      rw [finished, show (s.served cs).stage = .arrow t from hst] at hf
      cases hf

theorem serve_of_finished (hf : s.finished = true) (c : Request) : (s.serve c).1 = s := by
  cases c with
  | advance w =>
    show (s.advance w).1 = s
    rw [advance_of_finished hf]
  | skip w =>
    show (s.skip w).1 = s
    rw [skip_eq_self w hf]

theorem served_of_finished (hf : s.finished = true) (cs : List Request) : s.served cs = s := by
  induction cs with
  | nil => rfl
  | cons c cs ih =>
    show ((s.serve c).1).served cs = s
    rw [serve_of_finished hf, ih]

theorem work_eq_zero_iff : work a m s = 0 ↔ s.finished = true := by
  unfold work finished
  cases s.stage <;> simp only [Stage.isFinished, Nat.add_eq_zero_iff, reduceCtorEq, and_false,
    Nat.succ_ne_self, Bool.false_eq_true]

/-- Every request leaves less to do. -/
theorem work_serve (h : Kept a m s) (hf : s.finished = false) (c : Request) :
    work a m (s.serve c).1 < work a m s := by
  cases c with
  | advance w => exact work_advance h.ready w hf
  | skip w =>
    have hnone : work a m (s.skip w).1 = 0 := work_eq_zero_iff.mpr (finished_skip s w)
    show work a m (s.skip w).1 < work a m s
    rw [hnone]
    refine Nat.pos_of_ne_zero fun hzero => ?_
    rw [work_eq_zero_iff.mp hzero] at hf
    cases hf

/-- As many requests as there is work come to the end. -/
theorem finished_served (h : Kept a m s) (cs : List Request) (hcs : work a m s ≤ cs.length) :
    (s.served cs).finished = true := by
  induction cs generalizing s with
  | nil => exact work_eq_zero_iff.mp (Nat.le_zero.mp hcs)
  | cons c cs ih =>
    cases hf : s.finished with
    | true =>
      rw [served_of_finished hf]
      exact hf
    | false =>
      obtain ⟨n, hdoing⟩ := doing_serve h c
      have hless := work_serve h hf c
      rw [List.length_cons] at hcs
      exact ih hdoing.kept (Nat.le_of_lt_succ (Nat.lt_of_lt_of_le hless hcs))

end

/-- **Whoever drives a run, it keeps to its phases.** After any requests, with whatever worlds,
each request does one of the things that it may. The transition in progress has had a request for
each of its actions that is done, and the arrow is shown after all of them. The steps are the
transitions that requests have found or made, never more than `m`. For each transition that may be
made there are no more requests than two and its actions until the run is finished, and skipping
finishes it at once. -/
theorem requests_keep_protocol (a : Automaton) (start : Option String) (m : Nat)
    (cs : List Request) :
    let begun := ofProgram a start (some m)
    let s := begun.served cs
    (∀ c, ∃ n, Does a m s c (s.serve c) n) ∧
    (∀ t i, s.pending? = some (t, i) → i ≤ t.actions.length ∧ Executing begun t cs i) ∧
    (∀ t, s.stage = .arrow t →
      ∃ before w, cs = before ++ [.advance w] ∧ Executing begun t before t.actions.length) ∧
    Made a m begun cs s.steps ∧ s.steps ≤ m ∧
    (∃ b, Budget.ofLimit? s.budget.remaining "steps" = .ok b) ∧
    (∀ w, (s.skip w).1.finished = true) ∧
    (m * (a.longest + 2) < cs.length → s.finished = true) := by
  intro begun s
  have hbegun := kept_ofProgram a start m
  have hkept : Kept a m s := kept_served hbegun cs
  refine ⟨fun c => ?_, fun t i hp => ?_, fun t hst => ?_, ?_, hkept.within, ?_, finished_skip s,
    fun hcs => ?_⟩
  · obtain ⟨n, hdoing⟩ := doing_serve hkept c
    exact ⟨n, hdoing.does⟩
  · exact ⟨hkept.index_le hp, executing_served hbegun rfl cs t i hp⟩
  · exact executed_served hbegun rfl hst
  · exact made_served hbegun rfl cs
  · have hnonneg : ¬ max 0 (Int.ofNat m - s.budget.count) < 0 := by omega
    rw [Budget.remaining, hkept.ready.limit]
    exact ⟨_, if_neg hnonneg⟩
  · have hleft : left m begun = m := by
      simp only [left, begun, ofProgram]
      omega
    apply finished_served hbegun
    show left m begun * (a.longest + 2) + 1 ≤ cs.length
    rw [hleft]
    exact hcs

/-- The clover for which a transition was found is not there when it is to be picked. -/
example : (served (ofProgram walker none (some 10)) [.advance lane, .advance spot]).stage.name
    = "finished" := by decide

end Sequencer

end Ladybug.Automaton

import Ladybug.Proofs.World.Hindered
import Ladybug.Proofs.World.Leads

/-!
# A list of commands, step by step or at once

A runner may be asked for one command or for all that are left, in any order. Skipping is a number
of steps, so a run is the same however it is asked for: the commands are applied one after the other
up to the first that cannot act, and what comes then changes nothing.

* `Runner.Ask`, `Runner.ask`   what is asked of a runner during a run
* `Course`                     a run, with the commands that have been applied
* `Runner.ask_agrees`          what is answered is what the runner says of itself
* `Course.Stands`              the invariant: how far a run has come
* `Stands.step`, `Stands.after`   one step, and any questions
* `Course.exists_steps`        skipping is a number of steps
* `Course.Over`                a run that is over
* `runs_alike`                 all of this together
-/

namespace Ladybug

open Command (Leads)

theorem Command.Leads.foldl_after {cs : List Command} {w v : World} (h : Leads cs w v) :
    cs.foldl (fun w c => c.after w) w = v := by
  induction h with
  | nil => rfl
  | cons first _ ih =>
    rw [List.foldl_cons, after, first]
    exact ih

namespace Runner

/-! ### questions and answers -/

/-- What is asked of a runner during a run. -/
inductive Ask where
  | step
  | skip
deriving DecidableEq, Repr

/-- the answer, and the runner after it -/
def ask (r : Runner) (w : World) : Ask → Runner × CommandStep
  | .step => r.step w
  | .skip => r.skip w

/-- the commands that the steps of `stepAll` apply -/
def appliedAll : (fuel : Nat) → Runner → CommandStep → List Command
  | 0, _, _ => []
  | fuel + 1, r, s =>
    if s.done then []
    else
      let (r, s) := r.step s.world
      s.command.toList ++ appliedAll fuel r s

/-- the commands that are applied for an answer, whether or not they act -/
def applied (r : Runner) (w : World) : Ask → List Command
  | .step => (r.step w).2.command.toList
  | .skip => appliedAll (r.commands.length - r.taken) r ⟨w, r.place, none, r.done, r.fault⟩

/-- An answer says what the runner says of itself after it. -/
structure Agrees (r : Runner) (s : CommandStep) : Prop where
  place : s.place = r.place
  done : s.done = r.done
  fault : s.fault = r.fault

theorem step_agrees (r : Runner) (w : World) : Agrees (r.step w).1 (r.step w).2 := by
  unfold step
  split
  case h_1 f hf => exact ⟨rfl, by rw [done, hf]; rfl, hf.symm⟩
  case h_2 hf =>
    split
    case h_1 hend =>
      refine ⟨rfl, ?_, hf.symm⟩
      simp [done, List.getElem?_eq_none_iff.mp hend]
    case h_2 c _ =>
      dsimp only
      split
      case h_1 => exact ⟨rfl, rfl, rfl⟩
      case h_2 => exact ⟨rfl, rfl, hf.symm⟩

theorem stepAll_agrees (fuel : Nat) {r : Runner} {s : CommandStep} (h : Agrees r s) :
    Agrees (stepAll fuel r s).1 (stepAll fuel r s).2 := by
  induction fuel generalizing r s with
  | zero => exact h
  | succ fuel ih =>
    rw [stepAll]
    split
    · exact h
    · exact ih (step_agrees r s.world)

/-- **An answer says what the runner says of itself**: its place, its fault, and whether it is
done. -/
theorem ask_agrees (r : Runner) (w : World) (a : Ask) : Agrees (r.ask w a).1 (r.ask w a).2 := by
  cases a with
  | step => exact step_agrees r w
  | skip => exact stepAll_agrees _ ⟨rfl, rfl, rfl⟩

/-- A runner that is done answers in one way only. -/
theorem ask_of_done {r : Runner} (h : r.done = true) (w : World) (a : Ask) :
    r.ask w a = (r, ⟨w, r.place, none, true, r.fault⟩) := by
  cases a with
  | step =>
    show r.step w = _
    unfold step
    cases hf : r.fault with
    | some f => rfl
    | none =>
      have hend : r.commands[r.taken]? = none := by
        rw [done, hf] at h
        rw [List.getElem?_eq_none_iff]
        simpa using h
      simp only [hend]
  | skip =>
    show r.skip w = _
    rw [skip, stepAll_of_done _ _ h, h]

/-- A step of a runner that is not done takes one command. -/
theorem step_of_not_done {r : Runner} (h : r.done = false) (w : World) :
    (r.step w).1.commands = r.commands ∧ (r.step w).1.taken = r.taken + 1 := by
  rw [done, Bool.or_eq_false_iff, Option.isSome_eq_false_iff, Option.isNone_iff_eq_none,
    decide_eq_false_iff_not, Nat.not_le] at h
  unfold step
  rw [h.1, List.getElem?_eq_getElem h.2]
  dsimp only
  split <;> exact ⟨rfl, rfl⟩

theorem done_stepAll {fuel : Nat} {r : Runner} {s : CommandStep} (h : Agrees r s)
    (hfuel : r.commands.length ≤ r.taken + fuel) : (stepAll fuel r s).1.done = true := by
  induction fuel generalizing r s with
  | zero =>
    show (r.fault.isSome || decide (r.commands.length ≤ r.taken)) = true
    rw [decide_eq_true (by omega), Bool.or_true]
  | succ fuel ih =>
    rw [stepAll]
    split
    case isTrue hdone => exact h.done ▸ hdone
    case isFalse hdone =>
      have hnot : r.done = false := by
        rw [← h.done]
        exact Bool.eq_false_iff.mpr hdone
      obtain ⟨hcommands, htaken⟩ := step_of_not_done hnot s.world
      have hleft : (r.step s.world).1.commands.length ≤ (r.step s.world).1.taken + fuel := by
        rw [hcommands, htaken]
        omega
      exact ih (step_agrees r s.world) hleft

theorem done_skip (r : Runner) (w : World) : (r.skip w).1.done = true :=
  done_stepAll ⟨rfl, rfl, rfl⟩ (by omega)

end Runner

/-! ### runs -/

open Runner (Ask)

/-- A run: the runner, the world of its last answer, and the commands applied so far. -/
structure Course where
  runner : Runner
  world : World
  applied : List Command

namespace Course

def next (x : Course) (a : Ask) : Course where
  runner := (x.runner.ask x.world a).1
  world := (x.runner.ask x.world a).2.world
  applied := x.applied ++ x.runner.applied x.world a

def after (x : Course) (asks : List Ask) : Course := asks.foldl next x

/-- A run as it begins, the runner being new or set back. -/
def start (r : Runner) (w : World) : Course := ⟨r.reset, w, []⟩

/-- Skipping is a number of steps. -/
theorem exists_steps (fuel : Nat) (r : Runner) (s : CommandStep) (before : List Command) :
    ∃ n, after ⟨r, s.world, before⟩ (List.replicate n .step)
      = ⟨(Runner.stepAll fuel r s).1, (Runner.stepAll fuel r s).2.world,
          before ++ Runner.appliedAll fuel r s⟩ := by
  induction fuel generalizing r s before with
  | zero => exact ⟨0, by rw [Runner.appliedAll, List.append_nil]; rfl⟩
  | succ fuel ih =>
    rw [Runner.stepAll, Runner.appliedAll]
    split
    · exact ⟨0, by rw [List.append_nil]; rfl⟩
    · obtain ⟨n, hn⟩ := ih (r.step s.world).1 (r.step s.world).2
        (before ++ (r.step s.world).2.command.toList)
      refine ⟨n + 1, ?_⟩
      rw [List.append_assoc] at hn
      exact hn

theorem exists_steps_skip (x : Course) : ∃ n, x.next .skip = x.after (List.replicate n .step) := by
  obtain ⟨n, hn⟩ := exists_steps (x.runner.commands.length - x.runner.taken) x.runner
    ⟨x.world, x.runner.place, none, x.runner.done, x.runner.fault⟩ x.applied
  exact ⟨n, hn.symm⟩

theorem after_of_done {x : Course} (h : x.runner.done = true) (asks : List Ask) :
    (x.after asks).runner = x.runner ∧ (x.after asks).world = x.world := by
  induction asks generalizing x with
  | nil => exact ⟨rfl, rfl⟩
  | cons a asks ih =>
    have hnext := Runner.ask_of_done h x.world a
    have hrunner : (x.next a).runner = x.runner := by rw [next, hnext]
    have hworld : (x.next a).world = x.world := by rw [next, hnext]
    have hrest := ih (x := x.next a) (by rw [hrunner, h])
    rw [hrunner, hworld] at hrest
    exact hrest

/-! ### the invariant -/

/-- the commands of a run: those that act, and the first that does not -/
def whole (done rest : List Command) : List Command := done ++ rest.head?.toList

/-- How far a run has come: some of the commands have acted, or the first that cannot act has been
reached. -/
inductive Stands (done rest : List Command) (w v : World) : Course → Prop
  | underway {past left : List Command} {u : World} (split : past ++ left = done)
      (before : Leads past w u) (ahead : Leads left u v) :
      Stands done rest w v ⟨⟨done ++ rest, past.length, none⟩, u, past⟩
  | stopped {b : Command} (head : rest.head? = some b) :
      Stands done rest w v ⟨⟨done ++ rest, done.length + 1, some (b.blocked v)⟩, v, done ++ [b]⟩

section
variable {done rest : List Command} {w v : World} {x : Course}

theorem Stands.start (r : Runner) (hcommands : r.commands = done ++ rest)
    (hdone : Leads done w v) : Stands done rest w v (start r w) := by
  rw [Course.start, Runner.reset, hcommands]
  exact .underway (List.nil_append done) .nil hdone

/-- A run that is done has applied the commands up to the first that cannot act. -/
theorem Stands.of_done (h : Stands done rest w v x) (hdone : x.runner.done = true) :
    x.world = v ∧ x.applied = whole done rest ∧
      x.runner.place = (whole done rest).length - 1 ∧
      x.runner.fault = rest.head?.map fun b => b.blocked v := by
  cases h with
  | @underway past left u split before ahead =>
    have hlength : (done ++ rest).length ≤ past.length := by
      simpa [Runner.done] using hdone
    rw [← split, List.length_append, List.length_append] at hlength
    obtain rfl : left = [] := List.eq_nil_of_length_eq_zero (by omega)
    obtain rfl : rest = [] := List.eq_nil_of_length_eq_zero (by omega)
    cases ahead
    rw [List.append_nil] at split
    subst split
    exact ⟨rfl, (List.append_nil past).symm, by simp [whole, Runner.place], rfl⟩
  | stopped head => simp [whole, head, Runner.place]

/-- **One step.** Unless the run is done, one more command is applied. -/
theorem Stands.step (h : Stands done rest w v x)
    (hrest : ∀ b, rest.head? = some b → b.apply v = none) :
    Stands done rest w v (x.next .step) ∧
      (x.runner.done = false → (x.next .step).applied.length = x.applied.length + 1) := by
  by_cases hend : x.runner.done = true
  · have hask := Runner.ask_of_done hend x.world .step
    have hstep : x.runner.step x.world = _ := hask
    have hsame : x.next .step = x := by
      simp only [next, hask, Runner.applied, hstep, Option.toList_none, List.append_nil]
    exact ⟨hsame.symm ▸ h, fun hnot => absurd hend (by simp [hnot])⟩
  cases h with
  | stopped head => exact absurd rfl hend
  | @underway past left u split before ahead =>
    have hdrop : (done ++ rest).drop past.length = left ++ rest := by
      rw [← split, List.append_assoc, List.drop_left]
    cases ahead with
    | nil =>
      cases hb : rest.head? with
      | none =>
        rw [List.head?_eq_none_iff] at hb
        rw [List.append_nil] at split
        exact absurd (by simp [Runner.done, hb, split]) hend
      | some b =>
        obtain ⟨behind, rfl⟩ := List.head?_eq_some_iff.mp hb
        rw [List.append_nil] at split
        subst split
        have hstep := Runner.step_of_block (r := ⟨past ++ b :: behind, past.length, none⟩) rfl
          hdrop (hrest b rfl)
        have hnext : next ⟨⟨past ++ b :: behind, past.length, none⟩, v, past⟩ .step
            = ⟨⟨past ++ b :: behind, past.length + 1, some (b.blocked v)⟩, v, past ++ [b]⟩ := by
          simp only [next, Runner.ask, Runner.applied, hstep, Option.toList_some]
        rw [hnext]
        exact ⟨.stopped rfl, fun _ => List.length_append⟩
    | @cons c left _ u' _ first later =>
      have hstep := Runner.step_of_act (r := ⟨done ++ rest, past.length, none⟩) rfl hdrop first
      have hnext : next ⟨⟨done ++ rest, past.length, none⟩, u, past⟩ .step
          = ⟨⟨done ++ rest, (past ++ [c]).length, none⟩, u', past ++ [c]⟩ := by
        simp only [next, Runner.ask, Runner.applied, hstep, Option.toList_some, List.length_append,
          List.length_singleton]
      rw [hnext]
      refine ⟨.underway ?_ (before.append (.cons first .nil)) later, fun _ => List.length_append⟩
      rw [List.append_assoc]
      exact split

variable (hrest : ∀ b, rest.head? = some b → b.apply v = none)
include hrest

theorem Stands.steps (h : Stands done rest w v x) (n : Nat) :
    Stands done rest w v (x.after (List.replicate n .step)) := by
  induction n generalizing x with
  | zero => exact h
  | succ n ih => exact ih (h.step hrest).1

/-- **Any questions**: the run stands where steps lead to. -/
theorem Stands.after (h : Stands done rest w v x) (asks : List Ask) :
    Stands done rest w v (x.after asks) := by
  induction asks generalizing x with
  | nil => exact h
  | cons a asks ih =>
    cases a with
    | step => exact ih (h.step hrest).1
    | skip =>
      obtain ⟨n, hn⟩ := x.exists_steps_skip
      refine ih ?_
      rw [hn]
      exact h.steps hrest n

/-- Enough questions, or one that skips, end a run. -/
theorem Stands.done_after (h : Stands done rest w v x) {asks : List Ask}
    (hasks : .skip ∈ asks ∨ (whole done rest).length ≤ x.applied.length + asks.length) :
    (x.after asks).runner.done = true := by
  induction asks generalizing x with
  | nil =>
    have hlength : (whole done rest).length ≤ x.applied.length := by simpa using hasks
    cases h with
    | @underway past left u split before ahead =>
      rw [whole, ← split, List.length_append, List.length_append] at hlength
      dsimp only at hlength
      obtain rfl : left = [] := List.eq_nil_of_length_eq_zero (by omega)
      have hhead : rest.head? = none :=
        Option.toList_eq_nil_iff.mp (List.eq_nil_of_length_eq_zero (by omega))
      rw [List.head?_eq_none_iff] at hhead
      rw [List.append_nil] at split
      simp [Course.after, Runner.done, hhead, split]
    | stopped head => rfl
  | cons a asks ih =>
    by_cases hend : (x.next a).runner.done = true
    · show ((x.next a).after asks).runner.done = true
      rw [(after_of_done hend asks).1, hend]
    cases a with
    | skip => exact absurd (Runner.done_skip x.runner x.world) hend
    | step =>
      obtain ⟨hnext, hone⟩ := h.step hrest
      have hnot : x.runner.done = false := by
        refine Bool.eq_false_iff.mpr fun hdone => hend ?_
        rw [next, Runner.ask_of_done hdone, hdone]
      refine ih hnext (hasks.imp (fun hm => ?_) fun hlength => ?_)
      · simpa using hm
      · rw [hone hnot]
        rw [List.length_cons] at hlength
        omega

/-- What has been applied, at any time. -/
theorem Stands.applied (h : Stands done rest w v x) (hdone : Leads done w v) :
    x.applied <+: whole done rest ∧ x.world = x.applied.foldl (fun w c => c.after w) w := by
  cases h with
  | @underway past left u split before ahead =>
    refine ⟨⟨left ++ rest.head?.toList, ?_⟩, before.foldl_after.symm⟩
    rw [whole, ← split]
    exact (List.append_assoc past left _).symm
  | @stopped b head =>
    refine ⟨⟨[], by simp [whole, head]⟩, ?_⟩
    rw [List.foldl_append, hdone.foldl_after]
    exact (Command.apply_eq_none_iff.mp (hrest b head)).symm

end

/-! ### the whole run -/

/-- A run that is over: all commands up to the first that cannot act have been applied, the place is
that of the last of them, the fault is the report of the one that could not act; and whatever is
asked from then on, the answer is the same. -/
structure Over (done rest : List Command) (v : World) (x : Course) : Prop where
  applied : x.applied = done ++ rest.head?.toList
  world : x.world = v
  place : x.runner.place = if rest.isEmpty then (done.length : Int) - 1 else done.length
  fault : x.runner.fault = rest.head?.map fun b => b.blocked v
  stays : ∀ (more : List Ask) (a : Ask), (x.after more).runner.ask (x.after more).world a
    = (x.runner, ⟨v, x.runner.place, none, true, x.runner.fault⟩)

theorem Stands.over {done rest : List Command} {w v : World} {x : Course}
    (h : Stands done rest w v x) (hdone : x.runner.done = true) : Over done rest v x := by
  obtain ⟨hworld, happlied, hplace, hfault⟩ := h.of_done hdone
  refine ⟨happlied, hworld, ?_, hfault, fun more a => ?_⟩
  · rw [hplace]
    cases rest with
    | nil => simp [whole]
    | cons b behind => simp [whole]
  · obtain ⟨hrunner, hsame⟩ := after_of_done hdone more
    rw [hrunner, hsame, Runner.ask_of_done hdone, hworld]

end Course

open Course in
/-- **A list of commands runs alike however it is asked for.** The commands part at the first that
would leave the world as it is. At any time the commands of the first part have been applied in
order, once each, up to some place, and none behind the parting one; the world is what they make of
the first one; and each answer says what the runner says of itself. After a question that skips, or
enough questions, the run is over. -/
theorem Runner.runs_alike (r : Runner) (w : World) :
    ∃ done rest, r.commands = done ++ rest ∧
      let v := done.foldl (fun w c => c.after w) w
      Leads done w v ∧ (∀ b, rest.head? = some b → b.after v = v) ∧
        ∀ asks : List Ask,
          let x := (Course.start r w).after asks
          x.applied <+: done ++ rest.head?.toList ∧
            x.world = x.applied.foldl (fun w c => c.after w) w ∧
            (∀ a, Agrees (x.runner.ask x.world a).1 (x.runner.ask x.world a).2) ∧
            (.skip ∈ asks ∨ (done ++ rest.head?.toList).length ≤ asks.length →
              Course.Over done rest v x) := by
  obtain ⟨done, rest, v, hcommands, hleads, hrest⟩ := Command.exists_leads r.commands w
  refine ⟨done, rest, hcommands, ?_⟩
  rw [hleads.foldl_after]
  have hstart : Course.Stands done rest w v (Course.start r w) := .start r hcommands hleads
  refine ⟨hleads, fun b hb => Command.apply_eq_none_iff.mp (hrest b hb), fun asks => ?_⟩
  have hstands := hstart.after hrest asks
  obtain ⟨happlied, hworld⟩ := hstands.applied hrest hleads
  refine ⟨happlied, hworld, Runner.ask_agrees _ _, fun hasks => hstands.over ?_⟩
  refine hstart.done_after hrest (hasks.imp_right fun hlength => ?_)
  show _ ≤ List.length [] + _
  rw [List.length_nil, Nat.zero_add]
  exact hlength

end Ladybug

import Ladybug.Runner

/-!
# Commands that all act

* `Command.Leads`          commands lead from one world to another, each of them acting
* `Command.worldAt`        the world after the first of them
* `Runner.acted`           the commands that a runner has done
* `Runner.skip_acted`      a runner does the commands up to the first that cannot act
-/

namespace Ladybug

/-- The commands act one after the other, and lead from the first world to the second. -/
inductive Command.Leads : List Command → World → World → Prop
  | nil {w : World} : Leads [] w w
  | cons {c : Command} {cs : List Command} {u v w : World} (first : c.apply u = some v)
      (rest : Leads cs v w) : Leads (c :: cs) u w

namespace Command.Leads

theorem append {cs ds : List Command} {u v w : World} (h₁ : Leads cs u v) (h₂ : Leads ds v w) :
    Leads (cs ++ ds) u w := by
  induction h₁ with
  | nil => exact h₂
  | cons first _ ih => exact .cons first (ih h₂)

theorem unique {cs : List Command} {u v w : World} (h₁ : Leads cs u v) (h₂ : Leads cs u w) :
    v = w := by
  induction h₁ with
  | nil =>
    cases h₂ with
    | nil => rfl
  | cons first _ ih =>
    cases h₂ with
    | cons first' rest =>
      cases first.symm.trans first'
      exact ih rest

/-- Commands that act do not stop before a command that does not. -/
theorem not_blocked {done rest : List Command} {b : Command} {u v w : World}
    (h : Leads (done ++ b :: rest) u w) (hdone : Leads done u v) : b.apply v ≠ none := by
  induction hdone with
  | nil =>
    cases h with
    | cons first _ =>
      rw [first]
      exact Option.some_ne_none _
  | cons first' _ ih =>
    cases h with
    | cons first rest =>
      cases first.symm.trans first'
      exact ih rest

end Command.Leads

/-- the world after the first `n` of some commands -/
def Command.worldAt (w : World) : List Command → (n : Nat) → World
  | c :: cs, n + 1 => worldAt ((c.apply w).getD w) cs n
  | _, _ => w

theorem Command.worldAt_succ {c : Command} {v w : World} (h : c.apply w = some v)
    (cs : List Command) (n : Nat) : worldAt w (c :: cs) (n + 1) = worldAt v cs n := by
  rw [worldAt, h, Option.getD_some]

/-- Commands act up to the first that cannot, or to the end. -/
theorem Command.exists_leads (cs : List Command) (w : World) :
    ∃ done rest v, cs = done ++ rest ∧ Leads done w v ∧
      ∀ b, rest.head? = some b → b.apply v = none := by
  induction cs generalizing w with
  | nil => exact ⟨[], [], w, rfl, .nil, nofun⟩
  | cons c cs ih =>
    cases hc : c.apply w with
    | none =>
      refine ⟨[], c :: cs, w, rfl, .nil, fun b hb => ?_⟩
      cases hb
      exact hc
    | some v =>
      obtain ⟨done, rest, v', rfl, hdone, hrest⟩ := ih v
      exact ⟨c :: done, rest, v', rfl, .cons hc hdone, hrest⟩

namespace Runner

open Command (Leads)

/-- the commands that a runner has done: those taken, but for the one that ended the run -/
def acted (r : Runner) : List Command :=
  r.commands.take (if r.fault.isSome then r.taken - 1 else r.taken)

theorem stepAll_of_done {s : CommandStep} (fuel : Nat) (r : Runner) (h : s.done = true) :
    stepAll fuel r s = (r, s) := by
  cases fuel with
  | zero => rfl
  | succ fuel => rw [stepAll, if_pos h]

section

variable {r : Runner} {c : Command} {cs : List Command}

theorem taken_lt (hd : r.commands.drop r.taken = c :: cs) : r.taken < r.commands.length := by
  have hl := congrArg List.length hd
  simp only [List.length_drop, List.length_cons] at hl
  omega

theorem getElem?_taken (hd : r.commands.drop r.taken = c :: cs) :
    r.commands[r.taken]? = some c := by
  rw [← List.head?_drop, hd]
  rfl

theorem step_of_act {v w : World} (hf : r.fault = none)
    (hd : r.commands.drop r.taken = c :: cs) (hc : c.apply v = some w) :
    r.step v = ({ r with taken := r.taken + 1 },
      ⟨w, r.taken, some c, decide (r.commands.length ≤ r.taken + 1), none⟩) := by
  have hget := getElem?_taken hd
  simp only [step, hf, hget, hc, place, done, Option.isSome_none, Bool.false_or]
  congr
  omega

theorem step_of_block {v : World} (hf : r.fault = none)
    (hd : r.commands.drop r.taken = c :: cs) (hc : c.apply v = none) :
    r.step v = ({ r with taken := r.taken + 1, fault := some (c.blocked v) },
      ⟨v, r.taken, some c, true, some (c.blocked v)⟩) := by
  have hget := getElem?_taken hd
  simp only [step, hf, hget, hc, place]
  congr
  omega

/-- While there is a command left, another step is made. -/
theorem stepAll_of_drop {s : CommandStep} {fuel : Nat} (hd : r.commands.drop r.taken = c :: cs)
    (hs : s.done = decide (r.commands.length ≤ r.taken)) (hfuel : (c :: cs).length ≤ fuel) :
    ∃ more, cs.length ≤ more ∧
      stepAll fuel r s = stepAll more (r.step s.world).1 (r.step s.world).2 := by
  have hdone : ¬ s.done = true := by
    rw [hs, decide_eq_true_iff, Nat.not_le]
    exact taken_lt hd
  cases fuel with
  | zero => exact absurd hfuel (Nat.not_succ_le_zero _)
  | succ more =>
    refine ⟨more, Nat.le_of_succ_le_succ hfuel, ?_⟩
    rw [stepAll, if_neg hdone]

end

/-- What is left of a runner's list acts up to a command that cannot, or up to the end. -/
theorem stepAll_of_leads {done rest : List Command} {u v : World} (h : Leads done u v)
    (hrest : ∀ b, rest.head? = some b → b.apply v = none) (fuel : Nat) (r : Runner)
    (s : CommandStep) (hu : s.world = u) (hf : r.fault = none) (hs : s.fault = none)
    (hsd : s.done = decide (r.commands.length ≤ r.taken))
    (hd : r.commands.drop r.taken = done ++ rest) (hfuel : (done ++ rest).length ≤ fuel) :
    (stepAll fuel r s).2.world = v ∧
      (stepAll fuel r s).2.fault = rest.head?.map (fun b => b.blocked v) ∧
      (stepAll fuel r s).1.acted = r.commands.take r.taken ++ done := by
  induction h generalizing fuel r s with
  | nil =>
    cases rest with
    | nil =>
      have hdone : s.done = true := by
        rw [hsd, decide_eq_true_iff]
        exact List.drop_eq_nil_iff.mp hd
      rw [stepAll_of_done _ _ hdone, acted, hf, List.append_nil]
      exact ⟨hu, hs, rfl⟩
    | cons b rest =>
      obtain ⟨more, -, hmore⟩ := stepAll_of_drop hd hsd hfuel
      rw [hmore, hu, step_of_block hf hd (hrest b rfl), stepAll_of_done _ _ rfl, List.append_nil]
      exact ⟨rfl, rfl, rfl⟩
  | @cons c cs _ _ _ first _ ih =>
    obtain ⟨more, hle, hmore⟩ := stepAll_of_drop hd hsd hfuel
    have htake : r.commands.take (r.taken + 1) = r.commands.take r.taken ++ [c] := by
      rw [List.take_add, hd]
      rfl
    have hdrop : r.commands.drop (r.taken + 1) = cs ++ rest := by
      rw [← List.drop_drop, hd]
      rfl
    have hlater := ih hrest more { r with taken := r.taken + 1 }
      ⟨_, r.taken, some c, decide (r.commands.length ≤ r.taken + 1), none⟩ rfl hf rfl rfl hdrop hle
    rw [htake, List.append_assoc] at hlater
    rw [hmore, hu, step_of_act hf hd first]
    exact hlater

/-- **A runner does the commands of its list up to the first that cannot act, which it reports.** -/
theorem skip_acted {done rest : List Command} {u v : World} (h : Leads done u v)
    (hrest : ∀ b, rest.head? = some b → b.apply v = none) :
    ((⟨done ++ rest, 0, none⟩ : Runner).skip u).2.world = v ∧
      ((⟨done ++ rest, 0, none⟩ : Runner).skip u).2.fault =
        rest.head?.map (fun b => b.blocked v) ∧
      ((⟨done ++ rest, 0, none⟩ : Runner).skip u).1.acted = done :=
  stepAll_of_leads h hrest _ _ _ rfl rfl rfl rfl rfl (Nat.le_refl _)

theorem skip_of_leads {done rest : List Command} {u v : World} (h : Leads done u v)
    (hrest : ∀ b, rest.head? = some b → b.apply v = none) :
    ((⟨done ++ rest, 0, none⟩ : Runner).skip u).2.world = v ∧
      ((⟨done ++ rest, 0, none⟩ : Runner).skip u).2.fault =
        rest.head?.map fun b => b.blocked v := by
  obtain ⟨hworld, hfault, _⟩ := skip_acted h hrest
  exact ⟨hworld, hfault⟩

end Runner

end Ladybug

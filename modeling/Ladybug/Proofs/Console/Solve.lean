import Ladybug.Console.Run
import Ladybug.Proofs.Progress.Attempts
import Ladybug.Proofs.Progress.Held
import Ladybug.Proofs.Scenario.Solved

/-!
# Attempts on a scenario, from the command line

A list of commands is read, run and looked at before anything is written: commands that are not
allowed, one that cannot act, and a goal that is missed each end the attempt, with the files as they
were.

* `Store.exists_complete`        a solution that is recorded in a file
* `solve_of_solves`, `solve_of_not_solves`   what an attempt comes to
* `solve_records_solutions`     solutions are recorded, and nothing else is
-/

namespace Ladybug

open Command (Leads)

/-! ### the record of a solution -/

namespace Store

/-- A store in a file stays in that file. -/
theorem exists_save_eq (files : Files) (path : Path) (p : Progress) :
    ∃ files', ((file files path).save p).1 = file files' path := by
  unfold save
  dsimp only
  split
  · exact ⟨_, rfl⟩
  · unfold writeFile
    split_ifs
    · exact ⟨_, rfl⟩
    · exact ⟨_, rfl⟩
    · split <;> exact ⟨_, rfl⟩
    · split <;> exact ⟨_, rfl⟩

/-- **A solution is recorded** in a file that can be read and written. -/
theorem exists_complete {files : Files} {path : Path} {records : List Progress}
    (hload : (file files path).load = .ok records)
    (hclear : (file files path).clear.2 = .ok ()) {a : Attempt} (ha : a.Legible)
    (hcounts : a.Counts) :
    let p := Progress.completed a.scenario a.commands.toNat a.time (ofScenario? records a.scenario)
    ∃ files', (file files path).complete a.scenario a.commands a.time = (file files' path, .ok p) ∧
      (file files path).save p = (file files' path, .ok ()) ∧
      (file files path).Overwrites (file files' path) p := by
  intro p
  have hrecords := legible_of_load hload
  obtain ⟨hlegible, hcomplete⟩ := complete_of_load hload hrecords ha hcounts
  obtain ⟨s', hsaved, hover⟩ := (keeps_file hload hclear).overwrites hrecords hlegible
  obtain ⟨files', hfiles⟩ := exists_save_eq files path p
  rw [hsaved] at hfiles
  obtain rfl : s' = file files' path := hfiles
  refine ⟨files', ?_, hsaved, hover⟩
  rw [hcomplete, hsaved]
  rfl

end Store

namespace Console

/-! ### what an attempt comes to -/

section
variable {settings : Settings} {fs : Files} {now : Instant} {scenario : Scenario} {commands : Path}
  {w v : World} {cs : List Command}

theorem attempt_of_leads (hleads : Leads cs w v) :
    attempt settings fs now scenario w cs =
      if scenario.solvedBy v then
        record settings fs now scenario cs.length (finish v none .text).out
      else
        (fs, { finish v none .text with
          err := Reply.line ("Goal not reached: " ++ scenario.goal.description), exit := 1 }) := by
  have hnone : ∀ b, ([] : List Command).head? = some b → b.apply v = none := nofun
  obtain ⟨hworld, hfault⟩ := Runner.skip_of_leads hleads hnone
  rw [List.append_nil] at hworld hfault
  unfold attempt
  dsimp only
  rw [hworld, hfault]
  cases scenario.solvedBy v <;> rfl

theorem attempt_of_blocked {done rest : List Command} {b : Command} (hleads : Leads done w v)
    (hblocked : b.apply v = none) :
    attempt settings fs now scenario w (done ++ b :: rest)
      = (fs, finish v (some (b.blocked v)) .text) := by
  have hhead : ∀ c, (b :: rest).head? = some c → c.apply v = none := by
    rintro c ⟨⟩
    exact hblocked
  obtain ⟨hworld, hfault⟩ := Runner.skip_of_leads hleads hhead
  unfold attempt
  dsimp only
  rw [hworld, hfault]
  rfl

theorem loadCommands_of_read {text : String} (htext : fs.readText commands = .ok text)
    (hcs : Exchange.readCommands text = .ok cs) : loadCommands fs commands = .ok cs := by
  rw [loadCommands, readFile, htext, ok_bind, hcs]
  rfl

variable (hscenario : scenario ∈ Scenario.builtin) (hload : loadCommands fs commands = .ok cs)
include hscenario hload

/-- What is allowed is tried on the first world. -/
theorem solve_of_start (hstart : scenario.start = .ok w) :
    solve settings fs now scenario.id commands =
      if scenario.allows cs then attempt settings fs now scenario w cs
      else (fs, .wrong (onlyAllows scenario)) := by
  simp only [solve, Scenario.named?_builtin hscenario, prepare, hload, ok_bind, hstart]
  cases scenario.allows cs <;> rfl

/-- A solution is recorded. -/
theorem solve_of_solves (h : scenario.Solves cs) :
    ∃ out, solve settings fs now scenario.id commands
      = record settings fs now scenario cs.length out := by
  obtain ⟨w, v, hstart, hleads, -⟩ := h.reached
  obtain ⟨_, hstart', hw⟩ := Scenario.start_builtin hscenario
  cases hstart.symm.trans hstart'
  obtain ⟨hallows, hsolved⟩ := (Scenario.solves_iff hstart hw hleads).mp h
  refine ⟨(finish v none .text).out, ?_⟩
  rw [solve_of_start hscenario hload hstart, if_pos hallows, attempt_of_leads hleads,
    if_pos hsolved]

/-- **Whatever is no solution is refused, and all files stay.** -/
theorem solve_of_not_solves (h : ¬ scenario.Solves cs) :
    ∃ reply : Reply, solve settings fs now scenario.id commands = (fs, reply) ∧
      reply.exit = 1 ∧ reply.failure = none := by
  obtain ⟨w, hstart, hw⟩ := Scenario.start_builtin hscenario
  rw [solve_of_start hscenario hload hstart]
  cases hallows : scenario.allows cs with
  | false => exact ⟨_, rfl, rfl, rfl⟩
  | true =>
    rw [if_pos rfl]
    obtain ⟨done, rest, v, rfl, hleads, hrest⟩ := Command.exists_leads cs w
    cases rest with
    | nil =>
      rw [List.append_nil] at h hallows ⊢
      have hmissed : ¬ scenario.solvedBy v = true := fun hsolved =>
        h ((Scenario.solves_iff hstart hw hleads).mpr ⟨hallows, hsolved⟩)
      rw [attempt_of_leads hleads, if_neg hmissed]
      exact ⟨_, rfl, rfl, rfl⟩
    | cons b rest =>
      rw [attempt_of_blocked hleads (hrest b rfl)]
      exact ⟨_, rfl, rfl, rfl⟩

end

/-! ### solutions are recorded, and nothing else is -/

/-- **Progress is recorded for solutions alone.** A list of commands is tried on one of the
scenarios that come with the program, where the file of progress can be read and, as clearing shows,
written; the number of the commands and the time can be written down. If the list solves the
scenario, the attempt succeeds, and the best of it and of the record that was there takes the place
of that record, the others staying. Otherwise it fails and all files are as before. -/
theorem solve_records_solutions (settings : Settings) {fs : Files} {now : Instant}
    {scenario : Scenario} {commands : Path} {text : String} {cs : List Command}
    {records : List Progress} (hscenario : scenario ∈ Scenario.builtin)
    (htext : fs.readText commands = .ok text) (hcs : Exchange.readCommands text = .ok cs)
    (hload : (Store.file fs (progressPath settings.dataRoot)).load = .ok records)
    (hclear : (Store.file fs (progressPath settings.dataRoot)).clear.2 = .ok ())
    (hshort : Decimal.isLong cs.length = false) (hnow : now.Proper) :
    let path := progressPath settings.dataRoot
    let p := Progress.completed scenario.id cs.length now
      (Store.ofScenario? records scenario.id)
    (scenario.Solves cs → ∃ fs' reply,
      solve settings fs now scenario.id commands = (fs', reply) ∧
        reply.exit = 0 ∧ reply.failure = none ∧
        (Store.file fs path).save p = (Store.file fs' path, .ok ()) ∧
        (Store.file fs path).Overwrites (Store.file fs' path) p) ∧
    (¬ scenario.Solves cs → ∃ reply : Reply,
      solve settings fs now scenario.id commands = (fs, reply) ∧
        reply.exit = 1 ∧ reply.failure = none) := by
  intro path p
  have hcommands := loadCommands_of_read htext hcs
  refine ⟨fun hsolves => ?_, solve_of_not_solves hscenario hcommands⟩
  obtain ⟨hnamed, hmark⟩ := Scenario.id_builtin hscenario
  have hwhole := Text.whole_of_not_mem hmark
  have hcounts : Attempt.Counts ⟨scenario.id, cs.length, now⟩ :=
    ⟨hnamed, hwhole.noHalf, Int.natCast_nonneg cs.length⟩
  have hlegible : Attempt.Legible ⟨scenario.id, cs.length, now⟩ := ⟨hwhole.sound, hshort, hnow⟩
  obtain ⟨fs', hcomplete, hsaved, hover⟩ := Store.exists_complete hload hclear hlegible hcounts
  obtain ⟨out, hsolve⟩ : ∃ out, solve settings fs now scenario.id commands
      = record settings fs now scenario cs.length out :=
    solve_of_solves hscenario hcommands hsolves
  have hcomplete : (Store.file fs path).complete scenario.id cs.length now
      = (Store.file fs' path, .ok p) := hcomplete
  obtain ⟨shown, hrecord⟩ : ∃ shown : String,
      record settings fs now scenario cs.length out = (fs', { out := shown }) := by
    rw [record, hcomplete]
    exact ⟨_, rfl⟩
  exact ⟨fs', { out := shown }, hsolve.trans hrecord, rfl, rfl, hsaved, hover⟩

/-- some commands, and a file with a record of the first scenario and one of another -/
def desk (moves : String) : Files :=
  let progress := "\x7b\"progress\": [\x7b\"scenario_id\": \"level-1-first-steps\", \"stars\": 1, "
    ++ "\"best_command_count\": 12\x7d, \x7b\"scenario_id\": \"hedge\"\x7d]\x7d"
  ⟨[(["moves.json"], .file (Text.encode moves.toList)),
    (["progress.json"], .file (Text.encode progress.toList))]⟩

/-- the records that it has -/
def deskRecords : List Progress :=
  [{ scenario := "level-1-first-steps", stars := 1, best := some 12 }, { scenario := "hedge" }]

/-- Two steps reach the goal, and one does not. -/
theorem firstSteps_recorded :
    let settings : Settings := { dataRoot := Path.ofText "" }
    let path := progressPath settings.dataRoot
    let moves := Path.ofText "moves.json"
    let one := "[\"MOVE_FORWARD\"]"
    let two := "[\"MOVE_FORWARD\", \"MOVE_FORWARD\"]"
    let id := Scenario.firstSteps.id
    (∃ fs' reply, solve settings (desk two) (Store.noon 1) id moves = (fs', reply) ∧
      reply.exit = 0 ∧ (Store.file fs' path).load
        = .ok [{ scenario := "hedge" }, ⟨id, true, 3, some 2, some (Store.noon 1)⟩]) ∧
    ∃ reply, solve settings (desk one) (Store.noon 1) id moves = (desk one, reply) ∧
      reply.exit = 1 := by
  intro settings path moves one two id
  have hbuiltin : Scenario.firstSteps ∈ Scenario.builtin := List.mem_cons_self
  have hnoon : (Store.noon 1).Proper := Store.proper_noon (by decide)
  have hshort (cs : List Command) (h : cs.length < 10) : Decimal.isLong cs.length = false :=
    Json.not_isLong h
  have htext : ∀ s ∈ [one, two], (desk s).readText moves = .ok s := by decide +kernel
  have hread : Exchange.readCommands one = .ok [.moveForward] ∧
      Exchange.readCommands two = .ok [.moveForward, .moveForward] := by decide +kernel
  have hload : ∀ s ∈ [one, two], (Store.file (desk s) path).load = .ok deskRecords := by
    decide +kernel
  have hclear : ∀ s ∈ [one, two], (Store.file (desk s) path).clear.2 = .ok () := by
    decide +kernel
  -- the first world, and those that the commands lead to
  let w := Scenario.firstSteps.layout.made
  have hstart : Scenario.firstSteps.start = .ok w := by decide +kernel
  have hvalid : w.Valid := by
    obtain ⟨_, hstart', hw⟩ := Scenario.start_builtin hbuiltin
    cases hstart.symm.trans hstart'
    exact hw
  have hone : Leads [.moveForward] w (w.moveTo ⟨2, 3⟩) := .cons (by decide +kernel) .nil
  have htwo : Leads [.moveForward, .moveForward] w ((w.moveTo ⟨2, 3⟩).moveTo ⟨2, 2⟩) :=
    hone.append (.cons (by decide +kernel) .nil)
  have hsolves : Scenario.firstSteps.Solves [.moveForward, .moveForward] :=
    (Scenario.solves_iff hstart hvalid htwo).mpr (by decide +kernel)
  have hfails : ¬ Scenario.firstSteps.Solves [.moveForward] := fun h =>
    absurd ((Scenario.solves_iff hstart hvalid hone).mp h) (by decide +kernel)
  constructor
  · obtain ⟨fs', reply, hsolve, hexit, -, -, hover⟩ := (solve_records_solutions settings
      hbuiltin (htext two (by simp)) hread.2 (hload two (by simp)) (hclear two (by simp))
      (hshort _ (by decide)) hnoon).1 hsolves
    refine ⟨fs', reply, hsolve, hexit, ?_⟩
    rw [hover.last, hload two (by simp)]
    rfl
  · obtain ⟨reply, hsolve, hexit, -⟩ := (solve_records_solutions settings
      hbuiltin (htext one (by simp)) hread.1 (hload one (by simp)) (hclear one (by simp))
      (hshort _ (by decide)) hnoon).2 hfails
    exact ⟨reply, hsolve, hexit⟩

end Console

end Ladybug

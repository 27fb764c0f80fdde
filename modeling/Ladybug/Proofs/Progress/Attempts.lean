import Ladybug.Proofs.Progress.Saved

/-!
# The best of all solutions

A solution changes the record of its scenario by what was recorded before. Since fewer commands never
earn fewer stars, what is left is the least number of commands, its stars, and the last time. A store
in a file reads all records again for every solution, and ends with the same ones as a store in
memory.

* `Attempt`            a call that records a solution, or is refused
* `summary`            the record of a scenario after some calls
* `summary_concat`     one more call changes it as the code does
* `Kept`               the invariant: the records of a store are the summaries
* `Kept.complete`, `Kept.refused`   one call
* `exists_kept`        all of them
* `Remembers`          what a store gives back
* `completions_kept`   both stores remember the same
-/

namespace Ladybug

/-! ### stars -/

theorem starsFor_anti {m n : Int} (h : m ≤ n) : starsFor n ≤ starsFor m := by
  unfold starsFor
  split_ifs <;> omega

theorem starsFor_min (m n : Int) : starsFor (min m n) = max (starsFor m) (starsFor n) := by
  rcases Int.le_total m n with h | h
  · rw [Int.min_eq_left h, Nat.max_eq_left (starsFor_anti h)]
  · rw [Int.min_eq_right h, Nat.max_eq_right (starsFor_anti h)]

theorem starsFor_le (m : Int) : starsFor m ≤ mostStars := by
  unfold starsFor
  split_ifs <;> decide

/-! ### calls -/

/-- A call that records a solution, or is refused. -/
structure Attempt where
  scenario : String
  commands : Int
  time : Instant
deriving DecidableEq, Repr

namespace Attempt

/-- A call that is not refused: the scenario has a name without halves, and the commands have been
counted. -/
def Counts (a : Attempt) : Prop :=
  a.scenario.isEmpty = false ∧ Text.hasHalf a.scenario = false ∧ 0 ≤ a.commands

instance : DecidablePred Counts := fun _ => inferInstanceAs (Decidable (_ ∧ _ ∧ _))

/-- What the call says can be read again: its name is a text, its count has not too many digits, and
its time is one of the calendar. -/
structure Legible (a : Attempt) : Prop where
  sound : Text.Sound a.scenario.toList
  short : Decimal.isLong a.commands = false
  proper : a.time.Proper

end Attempt

/-- the calls that record a solution of a scenario -/
def solutions (scenario : String) (attempts : List Attempt) : List Attempt :=
  attempts.filter fun a => a.Counts ∧ a.scenario = scenario

/-- The record of a scenario after some calls: the least number of commands, its stars, and the last
time. -/
def summary (scenario : String) (attempts : List Attempt) : Option Progress := do
  let least : Nat ← ((solutions scenario attempts).map fun a => a.commands.toNat).min?
  let last ← (solutions scenario attempts).getLast?
  some
    { scenario, done := true, stars := starsFor least, best := some least,
      completedAt := some last.time }

section
variable {scenario : String} {attempts : List Attempt} {a : Attempt}

theorem solutions_concat (h : a.Counts ∧ a.scenario = scenario) :
    solutions scenario (attempts ++ [a]) = solutions scenario attempts ++ [a] := by
  rw [solutions, List.filter_append, List.filter_singleton, decide_eq_true h]
  rfl

theorem solutions_concat_of_not (h : ¬ (a.Counts ∧ a.scenario = scenario)) :
    solutions scenario (attempts ++ [a]) = solutions scenario attempts := by
  rw [solutions, List.filter_append, List.filter_singleton, decide_eq_false h]
  exact List.append_nil _

theorem min?_concat (ns : List Nat) (n : Nat) :
    (ns ++ [n]).min? = some (ns.min?.elim n (min n)) := by
  cases ns with
  | nil => rfl
  | cons m ms =>
    rw [List.cons_append, List.min?_cons', List.foldl_append, List.min?_cons']
    exact congrArg some (Nat.min_comm _ n)

/-- **One more call changes the record of its scenario alone**, and as the code does. -/
theorem summary_concat : summary scenario (attempts ++ [a]) =
    if a.Counts ∧ a.scenario = scenario then
      some (Progress.completed scenario a.commands.toNat a.time (summary scenario attempts))
    else summary scenario attempts := by
  by_cases h : a.Counts ∧ a.scenario = scenario
  · rw [if_pos h, summary, solutions_concat h, List.map_append, List.map_singleton, min?_concat,
      List.getLast?_concat]
    cases hs : solutions scenario attempts using List.reverseRecOn with
    | nil =>
      have hnone : summary scenario attempts = none := by rw [summary, hs]; rfl
      simp [hnone, Progress.completed]
    | append_singleton before last =>
      obtain ⟨least, hleast⟩ : ∃ least,
          ((before ++ [last]).map fun a => a.commands.toNat).min? = some least := by
        rw [List.map_append, List.map_singleton, min?_concat]
        exact ⟨_, rfl⟩
      have hsome : summary scenario attempts = some
          { scenario, done := true, stars := starsFor least, best := some least,
            completedAt := some last.time } := by
        rw [summary, hs, hleast, List.getLast?_concat]
        rfl
      rw [hleast, hsome]
      simp [Progress.completed, starsFor_min]
  · rw [if_neg h, summary, solutions_concat_of_not h, summary]

theorem summary_isSome :
    (summary scenario attempts).isSome ↔ ∃ a ∈ attempts, a.Counts ∧ a.scenario = scenario := by
  induction attempts using List.reverseRecOn with
  | nil => simp [summary, solutions]
  | append_singleton before last ih =>
    rw [summary_concat]
    by_cases h : last.Counts ∧ last.scenario = scenario
    · simp [h]
    · rw [if_neg h, ih]
      simp [or_and_right, exists_or, h]

end

/-! ### the invariant -/

/-- The records after a solution can be saved if those before it could. -/
theorem Attempt.Legible.completed {a : Attempt} (h : a.Legible) (hcounts : a.Counts)
    {previous : Option Progress} (hprevious : ∀ p ∈ previous, p.Legible) :
    (Progress.completed a.scenario a.commands.toNat a.time previous).Legible where
  whole := ⟨h.sound, hcounts.2.1⟩
  named := hcounts.1
  stars_le := by
    cases previous with
    | none => exact Nat.max_le.mpr ⟨starsFor_le _, Nat.zero_le _⟩
    | some p => exact Nat.max_le.mpr ⟨starsFor_le _, (hprevious p rfl).stars_le⟩
  best_short := by
    have hcommands : ((a.commands.toNat : Nat) : Int) = a.commands := Int.toNat_of_nonneg hcounts.2.2
    have hshort : Decimal.isLong (a.commands.toNat : Nat) = false := by rw [hcommands, h.short]
    rintro n ⟨⟩
    split
    · rename_i m hm
      obtain ⟨p, hp, hbest⟩ := Option.bind_eq_some_iff.mp hm
      have hbefore := (hprevious p hp).best_short m hbest
      rcases min_choice a.commands.toNat m with hmin | hmin
      · simpa only [hmin] using hshort
      · simpa only [hmin] using hbefore
    · exact hshort
  time_proper := by
    rintro _ ⟨⟩
    exact h.proper

namespace Store

/-- the store after some calls -/
def after (s : Store) (attempts : List Attempt) : Store :=
  attempts.foldl (fun s a => (s.complete a.scenario a.commands a.time).1) s

theorem after_concat (s : Store) (attempts : List Attempt) (a : Attempt) :
    s.after (attempts ++ [a])
      = ((s.after attempts).complete a.scenario a.commands a.time).1 := by
  rw [after, List.foldl_append]
  rfl

/-- A call that is not refused looks for the record that is there and saves the next one. -/
theorem complete_of_counts {a : Attempt} (h : a.Counts) (s : Store) :
    s.complete a.scenario a.commands a.time =
      match s.get a.scenario with
      | .error e => (s, .error e)
      | .ok previous =>
        let p := Progress.completed a.scenario a.commands.toNat a.time previous
        ((s.save p).1, (s.save p).2.map fun _ => p) := by
  have hpos : ¬ a.commands < 0 := Int.not_lt.mpr h.2.2
  simp only [Store.complete, h.1, if_neg hpos, Intake.someText_of h.1 h.2.1, Intake.under,
    Bool.false_eq_true, ↓reduceIte]
  cases s.get a.scenario <;> rfl

/-- What is saved for a call that is not refused, if what was there can be saved. -/
theorem complete_of_load {s : Store} {records : List Progress} (hload : s.load = .ok records)
    (hrecords : ∀ p ∈ records, p.Legible) {a : Attempt} (ha : a.Legible) (hcounts : a.Counts) :
    let p := Progress.completed a.scenario a.commands.toNat a.time (ofScenario? records a.scenario)
    p.Legible ∧
      s.complete a.scenario a.commands a.time = ((s.save p).1, (s.save p).2.map fun _ => p) := by
  have hprevious : ∀ q ∈ ofScenario? records a.scenario, q.Legible := fun q hq =>
    hrecords q (List.mem_of_find?_eq_some hq)
  refine ⟨ha.completed hcounts hprevious, ?_⟩
  rw [complete_of_counts hcounts, get_of_load hload]
  rfl

/-- The records that a store keeps are those of the scenarios solved. -/
structure Kept (place : Progress → List Progress → List Progress) (s : Store)
    (attempts : List Attempt) (records : List Progress) : Prop where
  keeps : Keeps place s records
  scenarios : (records.map Progress.scenario).Nodup
  found : ∀ scenario, ofScenario? records scenario = summary scenario attempts
  legible : ∀ p ∈ records, p.Legible

section
variable {place : Progress → List Progress → List Progress} {s : Store}
  {attempts : List Attempt} {records : List Progress}

theorem Kept.get (h : Kept place s attempts records) (scenario : String) :
    s.get scenario = .ok (summary scenario attempts) := by
  rw [h.keeps.get, h.found]

/-- **A call that records a solution** gives the record that is found afterwards. -/
theorem Kept.complete (h : Kept place s attempts records) {a : Attempt} (hlegible : a.Legible)
    (hcounts : a.Counts) : ∃ s' p records', s.complete a.scenario a.commands a.time = (s', .ok p)
      ∧ summary a.scenario (attempts ++ [a]) = some p
      ∧ Kept place s' (attempts ++ [a]) records' := by
  let p := Progress.completed a.scenario a.commands.toNat a.time (summary a.scenario attempts)
  have hprevious : ∀ q ∈ summary a.scenario attempts, q.Legible := by
    rw [← h.found]
    exact fun q hq => h.legible q (List.mem_of_find?_eq_some hq)
  have hplaced : ∀ q ∈ place p records, q.Legible :=
    h.keeps.placing.forall_mem (hlegible.completed hcounts hprevious) h.legible
  have hnext (scenario : String) : summary scenario (attempts ++ [a])
      = if a.scenario = scenario then some p else summary scenario attempts := by
    rw [summary_concat]
    by_cases hscenario : a.scenario = scenario
    · rw [if_pos ⟨hcounts, hscenario⟩, if_pos hscenario, ← hscenario]
    · rw [if_neg fun hboth => hscenario hboth.2, if_neg hscenario]
  obtain ⟨s', hsaved, hkeeps⟩ := h.keeps.save hplaced
  refine ⟨s', p, place p records, ?_, by rw [hnext, if_pos rfl], hkeeps,
    h.keeps.placing.scenarios p records h.scenarios, fun scenario => ?_, hplaced⟩
  · simp only [complete_of_counts hcounts, h.get, hsaved, p]
    rfl
  · rw [h.keeps.placing.found, h.found, hnext]
    rfl

/-- **A call that is refused** changes nothing. -/
theorem Kept.refused (h : Kept place s attempts records) {a : Attempt} (hrefused : ¬ a.Counts) :
    (∃ e, s.complete a.scenario a.commands a.time = (s, .error e))
      ∧ Kept place s (attempts ++ [a]) records := by
  constructor
  · unfold Store.complete
    rw [h.get]
    split_ifs with hempty hneg
    · exact ⟨_, rfl⟩
    · exact ⟨_, rfl⟩
    · have hhalf : Text.hasHalf a.scenario = true := by
        rw [Bool.not_eq_true] at hempty
        exact (Bool.not_eq_false _).mp fun hhalf => hrefused ⟨hempty, hhalf, Int.not_lt.mp hneg⟩
      rw [Intake.someText, Intake.text, ok_bind, hhalf]
      exact ⟨_, rfl⟩
  · have hsame (scenario : String) :
        summary scenario (attempts ++ [a]) = summary scenario attempts := by
      rw [summary_concat, if_neg fun hboth => hrefused hboth.1]
    exact ⟨h.keeps, h.scenarios, fun scenario => (h.found scenario).trans (hsame scenario).symm,
      h.legible⟩

theorem exists_kept (h : Keeps place s []) (hlegible : ∀ a ∈ attempts, a.Legible) :
    ∃ records, Kept place (s.after attempts) attempts records := by
  induction attempts using List.reverseRecOn with
  | nil => exact ⟨[], h, List.nodup_nil, fun scenario => rfl, fun p hp => nomatch hp⟩
  | append_singleton before last ih =>
    obtain ⟨hbefore, hlast⟩ := List.forall_mem_append.mp hlegible
    obtain ⟨records, hkept⟩ := ih hbefore
    rw [after_concat]
    by_cases hcounts : last.Counts
    · obtain ⟨s', p, records', hcomplete, -, hkept'⟩ :=
        hkept.complete (List.forall_mem_singleton.mp hlast) hcounts
      exact ⟨records', by rwa [hcomplete]⟩
    · obtain ⟨⟨e, hcomplete⟩, hkept'⟩ := hkept.refused hcounts
      exact ⟨records, by rwa [hcomplete]⟩

end

/-! ### what stores give back -/

/-- After some calls a store has one record for each scenario solved, and gives it back. -/
structure Remembers (s : Store) (attempts : List Attempt) (records : List Progress) : Prop where
  load : s.load = .ok records
  scenarios : (records.map Progress.scenario).Nodup
  solved : ∀ scenario, scenario ∈ records.map Progress.scenario ↔
    ∃ a ∈ attempts, a.Counts ∧ a.scenario = scenario
  get : ∀ scenario, s.get scenario = .ok (summary scenario attempts)

/-- After some calls another one gives the record that is stored then, or is refused and changes
nothing. The records of other scenarios stay. -/
structure Answers (s : Store) (before : List Attempt) (a : Attempt) : Prop where
  stored : a.Counts → ∃ p,
    (s.after before).complete a.scenario a.commands a.time = (s.after (before ++ [a]), .ok p)
      ∧ (s.after (before ++ [a])).get a.scenario = .ok (some p)
  refused : ¬ a.Counts → ∃ e,
    (s.after before).complete a.scenario a.commands a.time = (s.after before, .error e)
  others : ∀ scenario, scenario ≠ a.scenario →
    (s.after (before ++ [a])).get scenario = (s.after before).get scenario

section
variable {place : Progress → List Progress → List Progress} {s : Store}
  {attempts : List Attempt} {records : List Progress}

theorem Kept.remembers (h : Kept place s attempts records) : s.Remembers attempts records where
  load := h.keeps.load
  scenarios := h.scenarios
  get := h.get
  solved scenario := by
    rw [← summary_isSome, ← h.found, ofScenario?, List.find?_isSome]
    simp

theorem Kept.mem_iff (h : Kept place s attempts records) {p : Progress} :
    p ∈ records ↔ summary p.scenario attempts = some p := by
  rw [mem_iff_ofScenario? h.scenarios, h.found]

theorem answers_of_keeps (h : Keeps place s []) {before : List Attempt} {a : Attempt}
    (hbefore : ∀ b ∈ before, b.Legible) (ha : a.Legible) : s.Answers before a := by
  obtain ⟨records, hkept⟩ := exists_kept h hbefore
  constructor
  case stored =>
    intro hcounts
    obtain ⟨s', p, records', hcomplete, hsummary, hkept'⟩ := hkept.complete ha hcounts
    have hafter : s.after (before ++ [a]) = s' := by rw [after_concat, hcomplete]
    exact ⟨p, by rw [hafter, hcomplete], by rw [hafter, hkept'.get, hsummary]⟩
  case refused => exact fun hrefused => (hkept.refused hrefused).1
  case others =>
    intro scenario hne
    have hlegible := List.forall_mem_append.mpr ⟨hbefore, List.forall_mem_singleton.mpr ha⟩
    obtain ⟨records', hkept'⟩ := exists_kept h hlegible
    rw [hkept.get, hkept'.get, summary_concat, if_neg fun hboth => hne hboth.2.symm]

end

/-- **Both stores keep the best of all solutions.** In memory and in a file that was empty and can be
written, there is one record for each scenario solved, the same ones in both: with the least number
of commands, its stars and the last time. Each call gives the record that is stored, and the
records of other scenarios stay. -/
theorem completions_kept {files : Files} {path : Path}
    (hempty : (Store.file files path).load = .ok [])
    (hclear : (Store.file files path).clear.2 = .ok ())
    {attempts : List Attempt} (hlegible : ∀ a ∈ attempts, a.Legible) :
    (∃ mine theirs, ((Store.memory []).after attempts).Remembers attempts mine
      ∧ ((Store.file files path).after attempts).Remembers attempts theirs ∧ mine.Perm theirs)
    ∧ ∀ s ∈ [Store.memory [], Store.file files path], ∀ before a rest,
        attempts = before ++ a :: rest → s.Answers before a := by
  have hmemory : Keeps put (.memory []) [] := .memory []
  have hfile := keeps_file hempty hclear
  obtain ⟨mine, hmine⟩ := exists_kept hmemory hlegible
  obtain ⟨theirs, htheirs⟩ := exists_kept hfile hlegible
  refine ⟨⟨mine, theirs, hmine.remembers, htheirs.remembers, ?_⟩, ?_⟩
  · refine (List.perm_ext_iff_of_nodup (hmine.scenarios.of_map _) (htheirs.scenarios.of_map _)).mpr
      fun p => ?_
    rw [hmine.mem_iff, htheirs.mem_iff]
  · rintro s hs before a rest rfl
    obtain ⟨hbefore, ha⟩ := List.forall_mem_append.mp hlegible
    have ha := (List.forall_mem_cons.mp ha).1
    rcases List.mem_pair.mp hs with rfl | rfl
    · exact answers_of_keeps hmemory hbefore ha
    · exact answers_of_keeps hfile hbefore ha

/-- noon on some day in May -/
def noon (day : Nat) : Instant :=
  { date := ⟨2025, 5, day⟩, hour := 12, minute := 0, second := 0, micro := 0, offset := some 0 }

theorem proper_noon {day : Nat} (hday : 1 ≤ day ∧ day ≤ 31) : (noon day).Proper where
  date := ⟨show 1 ≤ 5 by decide, show 5 ≤ 12 by decide, hday.1, hday.2⟩
  year_pos := show 1 ≤ 2025 by decide
  year_lt := show 2025 < 10000 by decide
  hour_lt := show 12 < 24 by decide
  minute_lt := show 0 < 60 by decide
  second_lt := show 0 < 60 by decide
  micro_lt := show 0 < 1000000 by decide
  offset_lt := show ∀ m ∈ some (0 : Int), m.natAbs < 1440 by decide

/-- a scenario solved twice, the second time with more commands, and another one between -/
def evening : List Attempt := [⟨"hedge", 7, noon 1⟩, ⟨"pond", 4, noon 2⟩, ⟨"hedge", 9, noon 3⟩]

/-- The better solution is kept, with the time of the later one. -/
theorem evening_kept :
    let book := Store.file {} (Path.ofText "data/progress.json")
    book.load = .ok [] ∧ book.clear.2 = .ok () ∧ (∀ a ∈ evening, a.Legible) ∧
      (book.after evening).get "hedge" = .ok (some ⟨"hedge", true, 2, some 7, some (noon 3)⟩) := by
  intro book
  have hempty : book.load = .ok [] := by rfl
  have hclear : book.clear.2 = .ok () := by rfl
  have hlegible : ∀ a ∈ evening, a.Legible := by
    simp only [evening, List.forall_mem_cons]
    refine ⟨⟨Text.sound_of_not_mem (by decide), Json.not_isLong ?_, proper_noon (by decide)⟩,
      ⟨Text.sound_of_not_mem (by decide), Json.not_isLong ?_, proper_noon (by decide)⟩,
      ⟨Text.sound_of_not_mem (by decide), Json.not_isLong ?_, proper_noon (by decide)⟩,
      List.forall_mem_nil _⟩
    all_goals decide
  obtain ⟨⟨mine, theirs, -, htheirs, -⟩, -⟩ := completions_kept hempty hclear hlegible
  exact ⟨hempty, hclear, hlegible, (htheirs.get "hedge").trans (by decide)⟩

end Store

end Ladybug

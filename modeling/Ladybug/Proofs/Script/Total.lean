import Ladybug.Proofs.Script.Depth
import Ladybug.Proofs.Script.Followed
import Ladybug.Proofs.Script.Surroundings

/-!
# Reading always ends, with a program or a mistake

* `settled`          a program or a mistake, as something that reading ends with
* `tokenize_eq`      the stack of columns is never empty
* `findFrom_eq`      a header is looked for in the cells that there are
* `compile_total`    every text is a program or has a mistake
-/

namespace Ladybug.Script

open Cursor

variable {α : Type}

/-- What is read or a mistake, as something that reading with a cursor comes to. -/
def settled (r : Except Mistake α) : Checked α := r.mapError .mistake

/-! ### lines -/

/-- a state of laying out lines with its columns on a stack -/
def Lines.stacked (s : Lines) : Laying := ⟨s.done, s.columns ++ [0], s.depth, s.line⟩

theorem top_append (columns : List Nat) :
    top (columns ++ [0]) = pure (Lines.column columns) := by
  cases columns <;> rfl

theorem leave_append (t : Token) (columns : List Nat) (out : List Token) :
    Cursor.leave t (columns ++ [0]) out = pure ((Lines.leave t.column columns).2 ++ [0],
      List.replicate (Lines.leave t.column columns).1 ⟨.dedent, "", t.line, t.column⟩ ++ out) := by
  induction columns generalizing out with
  | nil => exact if_neg (Nat.not_lt_zero _)
  | cons c columns ih =>
    rw [List.cons_append, Cursor.leave, Lines.leave]
    split
    · rw [ih]
      simp [List.replicate_succ']
    · rfl

theorem indent_append (t : Token) (columns : List Nat) (out : List Token) :
    indent t (columns ++ [0]) out = settled ((Lines.indentation columns t).map fun laid =>
      (laid.2 ++ [0], laid.1 ++ out)) := by
  rw [indent, Lines.indentation, top_append, pure_bind]
  by_cases hdeeper : Lines.column columns < t.column
  · simp only [if_pos hdeeper]
    rw [← List.cons_append, leave_append, pure_bind, Lines.leave, if_neg (Nat.lt_irrefl _)]
    dsimp only
    rw [top_append, pure_bind, Lines.column, List.headD_cons, if_neg (not_not.mpr rfl)]
    rfl
  · simp only [if_neg hdeeper]
    rw [leave_append, pure_bind]
    dsimp only
    rw [top_append, pure_bind]
    by_cases h : t.column = Lines.column (Lines.leave t.column columns).2
    · rw [if_neg (not_not.mpr h), if_pos h]
      rfl
    · rw [if_pos h, if_neg h]
      rfl

theorem layoutStep_stacked (indented : Bool) (s : Lines) (t : Token) :
    layoutStep indented s.stacked t = settled ((Lines.step indented s t).map Lines.stacked) := by
  obtain ⟨done, columns, depth, line⟩ := s
  rw [Lines.stacked, layoutStep, Lines.step]
  dsimp only
  by_cases hline : depth = 0 ∧ line < t.line
  · rw [if_pos hline, if_pos hline]
    cases indented with
    | false => cases done <;> rfl
    | true =>
      cases done <;>
        simp only [List.isEmpty_nil, List.isEmpty_cons, Bool.not_true, Bool.not_false, if_true,
          indent_append, List.append_nil, List.append_assoc]
      all_goals
        cases Lines.indentation columns t with
        | error m => rfl
        | ok laid => rfl
  · rw [if_neg hline, if_neg hline]
    rfl

theorem foldlM_stacked (indented : Bool) (ts : List Token) (s : Lines) :
    ts.foldlM (layoutStep indented) s.stacked =
      settled ((ts.foldlM (Lines.step indented) s).map Lines.stacked) := by
  induction ts generalizing s with
  | nil => rfl
  | cons t ts ih =>
    rw [List.foldlM_cons, List.foldlM_cons, layoutStep_stacked]
    cases Lines.step indented s t with
    | error m => rfl
    | ok s => exact ih s

theorem done_ne_nil_of_step {indented : Bool} {s s' : Lines} {t : Token}
    (h : Lines.step indented s t = .ok s') : s'.done ≠ [] := by
  grind [Lines.step]

/-- There are no blocks before the first token. -/
theorem columns_eq_nil {indented : Bool} {ts : List Token} {s s' : Lines}
    (h : ts.foldlM (Lines.step indented) s = .ok s') (hs : s.done = [] → s.columns = [])
    (hdone : s'.done = []) : s'.columns = [] := by
  induction ts generalizing s with
  | nil =>
    cases h
    exact hs hdone
  | cons t ts ih =>
    rw [List.foldlM_cons] at h
    cases hstep : Lines.step indented s t with
    | error m =>
      rw [hstep] at h
      cases h
    | ok next =>
      rw [hstep] at h
      exact ih h fun hnil => absurd hnil (done_ne_nil_of_step hstep)

theorem layout_eq (indented : Bool) (ts : List Token) :
    layout indented ts = settled (withLines indented ts) := by
  rw [layout, withLines, show ({} : Laying) = ({} : Lines).stacked from rfl, foldlM_stacked]
  cases hs : ts.foldlM (Lines.step indented) {} with
  | error m => rfl
  | ok s =>
    have hcolumns := columns_eq_nil hs fun _ => rfl
    obtain ⟨done, columns, depth, line⟩ := s
    cases done with
    | nil =>
      obtain rfl := hcolumns rfl
      rfl
    | cons t done =>
      simp [settled, Except.mapError, Except.map, Lines.stacked, Lines.finish]

theorem tokenize_eq (d : Dialect) (source : String) :
    Cursor.tokenize d source = settled (tokenize d source) := by
  cases d with
  | braced => rfl
  | functional => rfl
  | indented => exact layout_eq true _
  | ended => exact layout_eq false _

section

variable {ts : List Token} {d : Dialect}

/-! ### the entry routine -/

theorem startsWith_cons (f : Kind × String) (fs : List (Kind × String)) (t : Token)
    (ts : List Token) : startsWith (f :: fs) (t :: ts) = ((t.kind, t.text) == f && startsWith fs ts) :=
  rfl

theorem length_le_of_startsWith {pattern : List (Kind × String)} {ts : List Token}
    (h : startsWith pattern ts = true) : pattern.length ≤ ts.length := by
  have hlength := congrArg List.length (beq_iff_eq.mp h)
  rw [List.length_map, List.length_take] at hlength
  omega

theorem startsWith_both (pattern more : List (Kind × String)) (ts : List Token) :
    startsWith (pattern ++ more) ts =
      (startsWith pattern ts && startsWith more (ts.drop pattern.length)) := by
  induction pattern generalizing ts with
  | nil => rfl
  | cons f fs ih =>
    cases ts with
    | nil => rfl
    | cons t ts =>
      rw [List.cons_append, startsWith_cons, startsWith_cons, ih, Bool.and_assoc]
      rfl

theorem matchesFrom_eq {i : Nat} {pattern : List (Kind × String)}
    (h : i + pattern.length ≤ ts.length + 1) :
    matchesFrom ts i pattern = pure (startsWith pattern (ts.drop i)) := by
  induction pattern generalizing i with
  | nil => rfl
  | cons f fs ih =>
    rw [List.length_cons] at h
    have hi : i ≤ ts.length := by omega
    rw [matchesFrom, cell_eq hi, pure_bind, ← List.head?_drop]
    obtain ⟨hts, -⟩ | ⟨t, hts, -⟩ := drop_cases hi
    · rw [hts]
      rfl
    · rw [hts, startsWith_cons, List.head?_cons]
      by_cases ht : (t.kind, t.text) = f
      · simp [ht, ih (i := i + 1) (by omega)]
      · simp [ht, beq_false_of_ne ht]

theorem matchesAt_eq {i : Nat} (hi : i ≤ ts.length) (pattern : List (Kind × String)) :
    matchesAt ts i pattern = pure (startsWith pattern (ts.drop i)) := by
  rw [matchesAt]
  split
  · rename_i hlong
    have hno : startsWith pattern (ts.drop i) = false := by
      refine Bool.eq_false_iff.mpr fun h => ?_
      have hlength := length_le_of_startsWith h
      rw [List.length_drop] at hlength
      omega
    rw [hno]
  · exact matchesFrom_eq (by omega)

theorem length_le_of_startsWith_drop {i : Nat} (hi : i ≤ ts.length)
    {pattern : List (Kind × String)} (h : startsWith pattern (ts.drop i) = true) :
    i + pattern.length ≤ ts.length := by
  have hlength := length_le_of_startsWith h
  rw [List.length_drop] at hlength
  omega

/-- a pattern with a colon after it -/
theorem matchesColon_eq {i : Nat} (hi : i ≤ ts.length) (pattern : List (Kind × String)) :
    (do
      if ← matchesAt ts i pattern then
        return (← cell ts (i + pattern.length)).any (·.isOp ":")
      else return false) =
    (pure (startsWith (pattern ++ [(.op, ":")]) (ts.drop i)) : Checked Bool) := by
  rw [matchesAt_eq hi, pure_bind, startsWith_both]
  cases h : startsWith pattern (ts.drop i) with
  | false => rfl
  | true =>
    rw [if_pos rfl, cell_eq (length_le_of_startsWith_drop hi h), pure_bind, List.drop_drop,
      ← List.head?_drop, Bool.true_and]
    cases ts.drop (i + pattern.length) with
    | nil => rfl
    | cons t ts =>
      rw [startsWith_cons]
      exact congrArg pure (Bool.and_true _).symm

theorem bodyAt_eq (d : Dialect) {i : Nat} (hi : i ≤ ts.length) :
    bodyAt d ts i = pure ((header? d (ts.drop i)).map fun h => i + h.2) := by
  cases d with
  | braced =>
    simp only [bodyAt, matchesAt_eq hi, pure_bind, header?, headers, List.find?_singleton]
    cases startsWith _ (ts.drop i) <;> rfl
  | functional =>
    simp only [bodyAt, matchesAt_eq hi, pure_bind, header?, headers, List.find?_singleton]
    cases startsWith _ (ts.drop i) <;> rfl
  | indented =>
    simp only [bodyAt, matchesColon_eq hi, pure_bind, List.cons_append, List.nil_append, header?,
      headers, List.find?_cons, List.find?_nil]
    cases startsWith _ (ts.drop i) with
    | true => rfl
    | false => cases startsWith _ (ts.drop i) <;> rfl
  | ended =>
    have hparens := startsWith_both [(.name, "def"), (.name, Dialect.ended.entryName)]
      [(.op, "("), (.op, ")")] (ts.drop i)
    simp only [List.cons_append, List.nil_append] at hparens
    simp only [bodyAt, matchesAt_eq hi, pure_bind, header?, headers, List.find?_cons,
      List.find?_nil, hparens]
    cases hname : startsWith [(.name, "def"), (.name, Dialect.ended.entryName)] (ts.drop i) with
    | false => rfl
    | true =>
      have hi' : i + 2 ≤ ts.length := length_le_of_startsWith_drop hi hname
      rw [if_pos rfl, matchesAt_eq hi', pure_bind, ← List.drop_drop, Bool.true_and]
      cases startsWith [(.op, "("), (.op, ")")] ((ts.drop i).drop 2) <;> rfl

/-- Every body begins in a cell. -/
theorem add_le_of_header? {i : Nat} (hi : i ≤ ts.length) {h : List (Kind × String) × Nat}
    (hh : header? d (ts.drop i) = some h) : i + h.2 ≤ ts.length := by
  have hbody : h.2 ≤ h.1.length := by
    have hmem := List.mem_of_find?_eq_some hh
    cases d <;> simp only [headers, List.mem_cons, List.not_mem_nil, or_false] at hmem
    case braced | functional => subst hmem; decide
    case indented | ended => obtain rfl | rfl := hmem <;> decide
  rw [header?] at hh
  have hstarts := List.find?_some hh
  have := length_le_of_startsWith_drop hi hstarts
  omega

theorem findFrom_eq (d : Dialect) {n i : Nat} (h : i + n = ts.length + 1) :
    ∃ o : Option Nat, findFrom d ts n i = pure o ∧ entryBody? d (ts.drop i) = o.map (ts.drop ·) ∧
      ∀ j ∈ o, j ≤ ts.length := by
  induction n generalizing i with
  | zero =>
    refine ⟨none, rfl, ?_, nofun⟩
    rw [List.drop_eq_nil_of_le (by omega)]
    rfl
  | succ n ih =>
    have hi : i ≤ ts.length := by omega
    rw [findFrom, bodyAt_eq d hi, pure_bind]
    cases hhere : header? d (ts.drop i) with
    | some header =>
      refine ⟨some (i + header.2), rfl, ?_, ?_⟩
      · rw [Option.map_some, ← List.drop_drop]
        obtain ⟨hts, -⟩ | ⟨t, hts, -⟩ := drop_cases hi
        · rw [hts] at hhere
          cases d <;> cases hhere
        · rw [hts] at hhere ⊢
          rw [header?] at hhere
          rw [entryBody?, hhere]
      · rintro _ ⟨⟩
        exact add_le_of_header? hi hhere
    | none =>
      obtain ⟨o, hfind, hbody, hmem⟩ := ih (i := i + 1) (by omega)
      refine ⟨o, hfind, ?_, hmem⟩
      obtain ⟨hts, rfl⟩ | ⟨t, hts, -⟩ := drop_cases hi
      · rw [← hbody, hts, List.drop_eq_nil_of_le (Nat.le_succ _)]
      · rw [hts, header?] at hhere
        rw [← hbody, hts, entryBody?, hhere]

end

/-! ### texts -/

theorem withLines_ne_tooDeep (indented : Bool) (ts : List Token) :
    withLines indented ts ≠ .error .tooDeep := by
  have hstep (s : Lines) (t : Token) : Lines.step indented s t ≠ .error .tooDeep := by
    grind [Lines.step, Lines.indentation]
  have hsteps (s : Lines) : ts.foldlM (Lines.step indented) s ≠ .error .tooDeep := by
    induction ts generalizing s with
    | nil => simp [pure, Except.pure]
    | cons t ts ih =>
      rw [List.foldlM_cons]
      cases hs : Lines.step indented s t with
      | error m => exact fun h => hstep s t (hs.trans h)
      | ok s => exact ih s
  rw [withLines]
  split
  · rename_i m hs
    rintro ⟨⟩
    exact hsteps {} hs
  · simp

theorem tokenize_ne_tooDeep (d : Dialect) (source : String) :
    tokenize d source ≠ .error .tooDeep := by
  cases d with
  | braced => simp [tokenize]
  | functional => simp [tokenize]
  | indented => exact withLines_ne_tooDeep true _
  | ended => exact withLines_ne_tooDeep false _

/-- The cursor comes to what is read with some depth. -/
theorem program_settles (d : Dialect) (source : String) : ∃ n, parse d n source ≠ .error .tooDeep ∧
    Settles (fun fuel => Cursor.program fuel d source) (settled (parse d n source)) := by
  cases hts : tokenize d source with
  | error m =>
    refine ⟨0, ?_, 0, fun fuel _ => ?_⟩
    · rw [parse, hts]
      rintro ⟨⟩
      exact tokenize_ne_tooDeep d source hts
    · dsimp only
      rw [parse, Cursor.program, tokenize_eq, hts]
      rfl
  | ok ts =>
    have hcells : 0 + (ts.length + 1) = ts.length + 1 := Nat.zero_add _
    obtain ⟨o, hfind, hbody, hmem⟩ := findFrom_eq d hcells
    rw [List.drop_zero] at hbody
    refine ⟨ts.length + 1, ?_⟩
    simp only [Cursor.program, tokenize_eq, hts, show settled (.ok ts) = pure ts from rfl,
      pure_bind, findEntry, hfind, parse, parseTokens, hbody]
    cases o with
    | none => exact ⟨by simp, .const _⟩
    | some i =>
      have hi : i ≤ ts.length := hmem i rfl
      have hcell : (ts[i]?.map Token.line).getD (endLine ts) =
          Setting.lineOf ⟨d, endLine ts⟩ (ts.drop i) := by
        rw [← List.head?_drop]
        cases ts.drop i <;> rfl
      have h := entry_follows (x := { dialect := d, lastLine := endLine ts, tokens := ts })
        (ts.length + 1) i hi (by dsimp only; omega)
      dsimp only [Option.map_some] at h ⊢
      simp only [cell_eq hi, pure_bind, hcell]
      generalize entry _ _ (ts.drop i) = out at h ⊢
      cases h with
      | mistake hm h =>
        obtain ⟨n, h⟩ := h
        refine ⟨fun h' => hm (Except.error.inj h'), n, fun fuel hfuel => ?_⟩
        dsimp only at h ⊢
        rw [h fuel hfuel]
        rfl
      | ok hij hj h =>
        obtain ⟨n, h⟩ := h
        refine ⟨by simp, n, fun fuel hfuel => ?_⟩
        dsimp only at h ⊢
        rw [h fuel hfuel]
        rfl

/-- **Every text is a program or has a mistake, in every dialect.** With enough fuel the cursor always
comes to an end, in a cell and with an open block. What it comes to is what texts are compiled to, if
they are not nested too deeply, and what is read with any depth that is great enough. -/
theorem compile_total (source name : String) : ∃ r, r ≠ .error .tooDeep ∧
    Settles (fun fuel => Cursor.compile fuel source name) (settled r) ∧
    Upto (compile source name) r ∧
      ∀ d, Dialect.ofName? name = some d → ∃ n, ∀ depth ≥ n, parse d depth source = r := by
  simp only [Cursor.compile, compile]
  cases hd : Dialect.ofName? name with
  | none => exact ⟨.error (.unknownDialect name), by simp, .const _, .refl _, by simp⟩
  | some d =>
    obtain ⟨n, hr, hprogram⟩ := program_settles d source
    have hparse (depth : Nat) (h : n ≤ depth) : parse d depth source = parse d n source :=
      ((parse_upto d h source).resolve_left hr).symm
    refine ⟨parse d n source, hr, hprogram, ?_, ?_⟩
    · rw [← hparse (max n nestingLimit) (le_max_left _ _)]
      exact parse_upto d (le_max_right _ _) source
    · rintro _ ⟨⟩
      exact ⟨n, hparse⟩

end Ladybug.Script

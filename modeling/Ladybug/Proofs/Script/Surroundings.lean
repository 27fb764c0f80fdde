import Ladybug.Proofs.Script.Conditions
import Ladybug.Proofs.Script.Local

/-!
# What stands around the entry routine

* `NoHeader`          no entry routine begins at one of the first tokens
* `Closed`            the body of an entry routine, read to the token that closes it
* `entry_closed`      every body that is read is closed, if not by the end of the script
* `parseTokens_surrounded`   two scripts around one routine are the same program
* `surrounds_of_parseTokens`   what the surroundings of a program look like
-/

namespace Ladybug.Script

/-- the header of an entry routine, if one begins here -/
def header? (d : Dialect) (ts : List Token) : Option (List (Kind × String) × Nat) :=
  (headers d).find? fun h => startsWith h.1 ts

/-- No entry routine begins at one of the first `n` tokens. -/
def NoHeader (d : Dialect) (n : Nat) (ts : List Token) : Prop :=
  ∀ k < n, header? d (ts.drop k) = none

/-- simple statements with semicolons between them, without the end of their line -/
def Indents.line (s : Setting) : Parser (List Stmt) :=
  after (simple s) fun first bound => simplesFrom s bound first.reverse

/-- The body of an entry routine is read up to the token that closes it: a brace, the end of the
indentation or of the line, or a word. -/
inductive Closed (s : Setting) (depth : Nat) : List Token → List Stmt → List Token → Prop where
  | brace {t c : Token} {ts rest : List Token} {stmts : List Stmt}
      (hd : s.dialect.hasBraces = true) (ht : t.isOp "\x7b" = true)
      (h : repeated (Braces.more s) (Braces.statement s depth) ts = .ok (stmts, c :: rest))
      (hc : c.isOp "\x7d" = true) : Closed s depth (t :: ts) stmts rest
  | dedent {t n i c : Token} {ts rest : List Token} {stmts : List Stmt}
      (hd : s.dialect = .indented) (ht : t.isOp ":" = true) (hn : n.kind = .newline)
      (hi : i.kind = .indent)
      (h : repeated Indents.more (Indents.statement s depth) ts = .ok (stmts, c :: rest))
      (hc : c.kind = .dedent) : Closed s depth (t :: n :: i :: ts) stmts rest
  | lineEnd {t c : Token} {ts rest : List Token} {stmts : List Stmt}
      (hd : s.dialect = .indented) (ht : t.isOp ":" = true)
      (hn : Indents.isKind .newline ts = false)
      (h : Indents.line s ts = .ok (stmts, c :: rest)) (hc : c.kind = .newline) :
      Closed s depth (t :: ts) stmts rest
  | word {c : Token} {ts rest : List Token} {stmts : List Stmt}
      (hd : s.dialect = .ended)
      (h : Ends.body s (Ends.statement s depth) ts = .ok (stmts, c :: rest))
      (hc : c.isName "end" = true) : Closed s depth ts stmts rest

section

variable {s : Setting} {depth : Nat} {ts rest : List Token} {stmts : List Stmt}

theorem Indents.simples_eq_line (s : Setting) (ts : List Token) : simples s ts =
    andThen (line s) (fun stmts =>
      andThen (take (·.kind == .newline) (s.wanted .lineEnd)) fun _ => give stmts) ts := by
  rw [simples_pieces, after, andThen, andThen, line, after, andThen]
  rcases simple s ts with _ | ⟨first, mid⟩ <;> rfl

theorem Closed.entry (h : Closed s depth ts stmts rest) :
    entry s depth ts = .ok (stmts, rest) := by
  obtain ⟨d, l⟩ := s
  cases h with
  | @brace t c ts rest stmts hd ht h hc =>
    have hread : Braces.entry ⟨d, l⟩ depth (t :: ts) = .ok (stmts, rest) := by
      simp [Braces.entry, Setting.expect, ht, Braces.blockRest, h]
    cases d with
    | braced => exact hread
    | functional => exact hread
    | indented => cases hd
    | ended => cases hd
  | dedent hd ht hn hi h hc =>
    cases hd
    simp [Script.entry, Indents.entry, Setting.expect, ht, Indents.suite, Indents.isKind, hn, hi, h]
  | lineEnd hd ht hn h hc =>
    cases hd
    simp [Script.entry, Indents.entry, Setting.expect, ht, Indents.suite, hn,
      Indents.simples_eq_line, andThen, h, take, hc, give]
  | word hd h hc =>
    cases hd
    simp [Script.entry, Ends.entry, Ends.block, h, Ends.close, acceptName, hc]

/-- Statements are repeated until no more may follow. -/
theorem repeated_stops {more : List Token → Except Mistake Bool} (hnil : more [] ≠ .ok true)
    {item : Parser (List Stmt)} (hitem : Takes item item)
    (h : repeated more item ts = .ok (stmts, rest)) : more rest = .ok false := by
  have hfrom : ∀ bound done ts, ts.length ≤ bound.length →
      repeatedFrom more item bound done ts = .ok (stmts, rest) → more rest = .ok false := by
    intro bound
    induction bound with
    | nil =>
      intro done ts hbound h
      obtain rfl := List.length_eq_zero_iff.mp (Nat.le_zero.mp hbound)
      unfold repeatedFrom at h
      rcases hmore : more [] with _ | ⟨_ | _⟩
      · simp [hmore] at h
      · rw [hmore] at h
        cases h
        exact hmore
      · exact absurd hmore hnil
    | cons b bound ih =>
      intro done ts hbound h
      unfold repeatedFrom at h
      rcases hmore : more ts with _ | ⟨_ | _⟩
      · simp [hmore] at h
      · rw [hmore] at h
        cases h
        exact hmore
      · simp only [hmore] at h
        split at h
        · cases h
        · rename_i stmts' mid hread
          obtain ⟨used, hused, rfl, -⟩ := hitem hread
          have hpos : 0 < used.length := List.length_pos_iff.mpr (hused trivial)
          rw [List.length_append, List.length_cons] at hbound
          exact ih _ mid (by omega) h
  exact hfrom ts [] ts (Nat.le_refl _) h

theorem Braces.entry_closed (hd : s.dialect.hasBraces = true)
    (h : Braces.entry s depth ts = .ok (stmts, rest)) : Closed s depth ts stmts rest := by
  rw [Braces.entry] at h
  split at h
  · cases h
  · rename_i ts' hopen
    obtain ⟨t, ht, rfl⟩ := expect_eq_ok_iff.mp hopen
    rw [blockRest] at h
    split at h
    · rename_i body mid hread
      cases h
      have hnil : more s [] ≠ .ok true := by simp [more]
      have hstop := repeated_stops hnil statement_local hread
      cases mid with
      | nil => cases hstop
      | cons c mid => exact .brace hd ht hread (by simpa [more] using hstop)
    · cases h

theorem Indents.isKind_eq_true {kind : Kind} (h : isKind kind ts = true) :
    ∃ t more, ts = t :: more ∧ t.kind = kind := by
  cases ts with
  | nil => cases h
  | cons t more => exact ⟨t, more, rfl, by simpa [isKind] using h⟩

theorem Indents.entry_closed (hd : s.dialect = .indented)
    (h : Indents.entry s depth ts = .ok (stmts, rest)) :
    Closed s depth ts stmts rest ∨ rest = [] := by
  rw [Indents.entry] at h
  split at h
  · cases h
  · rename_i ts' hopen
    obtain ⟨t, ht, rfl⟩ := expect_eq_ok_iff.mp hopen
    rw [suite] at h
    split at h
    · rename_i hline
      obtain ⟨n, ts, rfl, hn⟩ := isKind_eq_true hline
      simp only [List.drop_succ_cons, List.drop_zero] at h
      split at h
      · rename_i hindent
        obtain ⟨i, ts, rfl, hi⟩ := isKind_eq_true hindent
        simp only [List.drop_succ_cons, List.drop_zero] at h
        split at h
        · cases h
        · rename_i body mid hread
          cases h
          cases mid with
          | nil => exact .inr rfl
          | cons c mid =>
            have hstop := repeated_stops sees_more.nil statement_local hread
            exact .inl (.dedent hd ht hn hi hread (by simpa [more] using hstop))
      · cases h
    · rename_i hline
      rw [simples_eq_line, andThen] at h
      split at h
      · cases h
      · rename_i stmts' mid hread
        cases mid with
        | nil => cases h
        | cons c mid =>
          by_cases hc : c.kind = .newline
          · rw [andThen, take, if_pos (by simpa using hc)] at h
            cases h
            exact .inl (.lineEnd hd ht (by simpa using hline) hread hc)
          · simp [andThen, take, hc] at h

theorem Ends.entry_closed (hd : s.dialect = .ended)
    (h : Ends.entry s depth ts = .ok (stmts, rest)) : Closed s depth ts stmts rest := by
  rw [Ends.entry, block] at h
  split at h
  · cases h
  · rename_i b mid hread
    split at h
    · cases h
    · rename_i ts' hclose
      cases h
      rw [close] at hclose
      split at hclose
      · rename_i hend
        cases hclose
        obtain ⟨c, hc, rfl⟩ := acceptName_eq_some_iff.mp hend
        exact .word hd hread hc
      · cases hclose

/-- The reading of a body, whatever the script is in which it ends. -/
theorem entry_closed (h : entry s depth ts = .ok (stmts, rest)) :
    Closed s depth ts stmts rest ∨ s.dialect = .indented ∧ rest = [] := by
  obtain ⟨d, l⟩ := s
  cases d with
  | braced => exact .inl (Braces.entry_closed rfl h)
  | functional => exact .inl (Braces.entry_closed rfl h)
  | indented => exact (Indents.entry_closed rfl h).imp_right fun h => ⟨rfl, h⟩
  | ended => exact .inl (Ends.entry_closed rfl h)

end

/-! ### one routine in two scripts -/

section

variable {d : Dialect} {l depth : Nat} {ts rest : List Token} {stmts : List Stmt}

theorem Local.before {α : Type} {p q : Parser α} (h : Local p q) {a : α} {c : Token}
    (hread : p ts = .ok (a, c :: rest)) :
    ∃ used, ts = used ++ c :: rest ∧ ∀ rest', q (used ++ c :: rest') = .ok (a, c :: rest') := by
  obtain ⟨used, -, hused, hq⟩ := h hread
  exact ⟨used, hused, fun rest' => hq _ rfl⟩

/-- A closed body is the same body before other tokens. -/
theorem Closed.surrounded (h : Closed ⟨d, l⟩ depth ts stmts rest) (l' : Nat) :
    ∃ used, used ≠ [] ∧ ts = used ++ rest ∧
      ∀ rest', Closed ⟨d, l'⟩ depth (used ++ rest') stmts rest' := by
  cases h with
  | @brace t c _ _ _ hd ht h hc =>
    have hlocal : Local (repeated (Braces.more ⟨d, l⟩) (Braces.statement ⟨d, l⟩ depth))
        (repeated (Braces.more ⟨d, l'⟩) (Braces.statement ⟨d, l'⟩ depth)) :=
      repeated_local Braces.sees_more nofun Braces.statement_local
    obtain ⟨used, rfl, hread⟩ := hlocal.before h
    refine ⟨t :: used ++ [c], by simp, by simp, fun rest' => ?_⟩
    simpa using Closed.brace (s := ⟨d, l'⟩) hd ht (hread rest') hc
  | @dedent t n i c _ _ _ hd ht hn hi h hc =>
    have hlocal : Local (repeated Indents.more (Indents.statement ⟨d, l⟩ depth))
        (repeated Indents.more (Indents.statement ⟨d, l'⟩ depth)) :=
      repeated_local Indents.sees_more Indents.sees_more.nil Indents.statement_local
    obtain ⟨used, rfl, hread⟩ := hlocal.before h
    refine ⟨t :: n :: i :: used ++ [c], by simp, by simp, fun rest' => ?_⟩
    simpa using Closed.dedent (s := ⟨d, l'⟩) hd ht hn hi (hread rest') hc
  | @lineEnd t c _ _ _ hd ht hn h hc =>
    have hlocal : Local (Indents.line ⟨d, l⟩) (Indents.line ⟨d, l'⟩) :=
      Indents.simple_local.after fun first => Indents.simplesFrom_local first.reverse
    obtain ⟨used, rfl, hread⟩ := hlocal.before h
    refine ⟨t :: used ++ [c], by simp, by simp, fun rest' => ?_⟩
    have hn' : Indents.isKind .newline (used ++ c :: rest') = false := by
      cases used <;> exact hn
    simpa using Closed.lineEnd (s := ⟨d, l'⟩) hd ht hn' (hread rest') hc
  | @word c _ _ _ hd h hc =>
    have hlocal : Local (Ends.body ⟨d, l⟩ (Ends.statement ⟨d, l⟩ depth))
        (Ends.body ⟨d, l'⟩ (Ends.statement ⟨d, l'⟩ depth)) := Ends.body_local Ends.statement_local
    obtain ⟨used, rfl, hread⟩ := hlocal.before h
    refine ⟨used ++ [c], by simp, by simp, fun rest' => ?_⟩
    simpa using Closed.word (s := ⟨d, l'⟩) hd (hread rest') hc

theorem entryBody?_of_header {before : List Token} {h : List (Kind × String) × Nat}
    (hbefore : NoHeader d before.length (before ++ ts)) (hts : header? d ts = some h) :
    entryBody? d (before ++ ts) = some (ts.drop h.2) := by
  induction before with
  | nil =>
    cases ts with
    | nil => cases d <;> cases hts
    | cons t ts =>
      rw [header?] at hts
      rw [List.nil_append, entryBody?, hts]
  | cons t before ih =>
    have hhere := hbefore 0 (Nat.zero_lt_succ _)
    rw [List.drop_zero, List.cons_append, header?] at hhere
    rw [List.cons_append, entryBody?, hhere]
    exact ih fun k hk => hbefore (k + 1) (Nat.succ_lt_succ hk)

theorem startsWith_append {pattern : List (Kind × String)} (h : pattern.length ≤ ts.length)
    (rest : List Token) : startsWith pattern (ts ++ rest) = startsWith pattern ts := by
  rw [startsWith, startsWith, List.take_append_of_le_length h]

theorem getElem?_of_startsWith {pattern : List (Kind × String)} (h : startsWith pattern ts = true)
    {k : Nat} {f : Kind × String} (hk : pattern[k]? = some f) :
    ∃ t, ts[k]? = some t ∧ (t.kind, t.text) = f := by
  rw [startsWith, beq_iff_eq] at h
  rw [← h, List.getElem?_map, Option.map_eq_some_iff] at hk
  obtain ⟨t, ht, hf⟩ := hk
  rw [List.getElem?_take] at ht
  split at ht
  · exact ⟨t, ht, hf⟩
  · cases ht

/-- A body does not begin with a parenthesis. -/
theorem Ends.entry_open {s : Setting} {t : Token} (ht : t.isOp "(" = true) :
    Ends.entry s depth (t :: ts) ≠ .ok (stmts, rest) := by
  rw [eq_of_isOp ht]
  cases depth <;>
    simp [Ends.entry, block, body, skip, isSeparator, Token.isOp, repeated, repeatedFrom, more,
      Token.isNameIn, separated, statement, Token.isName]

/-- A header is no longer than what comes before the body and the first token of it. -/
theorem length_header {h : List (Kind × String) × Nat} (hh : h ∈ headers d) :
    h.1.length ≤ h.2 + 1 := by
  cases d <;> simp only [headers, List.mem_cons, List.not_mem_nil, or_false] at hh
  case braced | functional => simp [hh]
  all_goals obtain rfl | rfl := hh <;> simp

/-- The header of a routine does not depend on what comes after the first token of its body. -/
theorem header?_surrounded {routine rest' : List Token} {h : List (Kind × String) × Nat}
    (hroutine : header? d (routine ++ rest) = some h) (hlength : h.2 < routine.length)
    (hlong : ∀ x ∈ headers d, routine.length < x.1.length →
      startsWith x.1 (routine ++ rest') = false) :
    header? d (routine ++ rest') = some h := by
  rw [header?, List.find?_eq_some_iff_append] at hroutine ⊢
  obtain ⟨hstarts, others, more, hheaders, hothers⟩ := hroutine
  have hh : h ∈ headers d := by rw [hheaders]; simp
  have hshort : h.1.length ≤ routine.length := (length_header hh).trans hlength
  refine ⟨?_, others, more, hheaders, fun x hx => ?_⟩
  · rwa [startsWith_append hshort] at hstarts ⊢
  · have hx' : x ∈ headers d := by rw [hheaders]; simp [hx]
    have hno := hothers x hx
    by_cases hxlong : x.1.length ≤ routine.length
    · rwa [startsWith_append hxlong] at hno ⊢
    · rw [hlong x hx' (Nat.lt_of_not_le hxlong)]
      rfl

/-- A pattern longer than some tokens does not begin there if one of them is not what it says. -/
theorem startsWith_eq_false {pattern : List (Kind × String)} {k : Nat} {t : Token}
    {f : Kind × String} (ht : ts[k]? = some t) (hf : pattern[k]? = some f)
    (hne : (t.kind, t.text) ≠ f) (rest : List Token) : startsWith pattern (ts ++ rest) = false := by
  rw [Bool.eq_false_iff]
  intro hstarts
  obtain ⟨t', ht', rfl⟩ := getElem?_of_startsWith hstarts hf
  rw [List.getElem?_append_left (List.getElem?_eq_some_iff.mp ht).1, ht] at ht'
  cases ht'
  exact hne rfl

/-- Where a routine with a closed body begins, no longer header does. -/
theorem longer_header {s : Setting} (hs : s.dialect = d) {routine used rest' : List Token}
    {h : List (Kind × String) × Nat} (hroutine : header? d (routine ++ rest) = some h)
    (hused : used ≠ []) (hdrop : routine.drop h.2 = used)
    (hread : entry s depth (used ++ rest) = .ok (stmts, rest))
    {x : List (Kind × String) × Nat} (hx : x ∈ headers d) (hlong : routine.length < x.1.length) :
    startsWith x.1 (routine ++ rest') = false := by
  have hlength : routine.length = h.2 + used.length := by
    have hpos := List.length_pos_iff.mpr hused
    rw [← hdrop, List.length_drop] at hpos ⊢
    omega
  have hpos := List.length_pos_iff.mpr hused
  have hh : h ∈ headers d := List.mem_of_find?_eq_some hroutine
  have hstarts := List.find?_some hroutine
  cases d <;> simp only [headers, List.mem_cons, List.not_mem_nil, or_false] at hx hh
  case braced | functional =>
    subst hx hh
    simp at hlong hlength
    omega
  case indented =>
    obtain rfl | rfl := hx <;> obtain rfl | rfl := hh <;> simp at hlong hlength <;>
      try omega
    obtain ⟨t, ht, hf⟩ := getElem?_of_startsWith hstarts (k := 3) rfl
    rw [List.getElem?_append_left (by omega)] at ht
    exact startsWith_eq_false ht rfl (by rw [hf]; simp) rest'
  case ended =>
    obtain rfl | rfl := hx <;> obtain rfl | rfl := hh <;> simp at hlong hlength <;>
      try omega
    obtain ⟨t, more, rfl⟩ := List.exists_cons_of_ne_nil hused
    have ht : routine[2]? = some t := by
      rw [← List.head?_drop, hdrop, List.head?_cons]
    have hentry : Ends.entry s depth (t :: (more ++ rest)) = .ok (stmts, rest) := by
      rwa [entry, hs] at hread
    refine startsWith_eq_false ht rfl (fun hopen => ?_) rest'
    exact Ends.entry_open (by simpa [Token.isOp] using hopen) hentry

/-- The tokens of a script: those before its entry routine, the routine up to the token that closes
it, and the rest. -/
structure Surrounds (d : Dialect) (depth : Nat) (before routine rest : List Token)
    (stmts : List Stmt) : Prop where
  first : NoHeader d before.length (before ++ (routine ++ rest))
  closed : ∃ h, header? d (routine ++ rest) = some h ∧
    Closed ⟨d, endLine (before ++ (routine ++ rest))⟩ depth ((routine ++ rest).drop h.2) stmts rest

theorem parseTokens_of_header {before : List Token} {h : List (Kind × String) × Nat}
    (hbefore : NoHeader d before.length (before ++ ts)) (hts : header? d ts = some h)
    (hread : entry ⟨d, endLine (before ++ ts)⟩ depth (ts.drop h.2) = .ok (stmts, rest)) :
    parseTokens d depth (before ++ ts) =
      .ok ⟨stmts, Setting.lineOf ⟨d, endLine (before ++ ts)⟩ (ts.drop h.2)⟩ := by
  rw [parseTokens, entryBody?_of_header hbefore hts]
  simp only [hread]

/-- **Two scripts around the same entry routine are the same program.** -/
theorem parseTokens_surrounded {before before' routine rest' : List Token}
    (hscript : Surrounds d depth before routine rest stmts)
    (hbefore' : NoHeader d before'.length (before' ++ (routine ++ rest'))) :
    ∃ line, parseTokens d depth (before ++ (routine ++ rest)) = .ok ⟨stmts, line⟩ ∧
      parseTokens d depth (before' ++ (routine ++ rest')) = .ok ⟨stmts, line⟩ := by
  obtain ⟨h, hheader, hclosed⟩ := hscript.closed
  obtain ⟨used, hused, hbody, hread⟩ :=
    hclosed.surrounded (endLine (before' ++ (routine ++ rest')))
  have hlength : h.2 < routine.length := by
    have hlengths := congrArg List.length hbody
    have hpos := List.length_pos_iff.mpr hused
    simp only [List.length_drop, List.length_append] at hlengths
    omega
  have hdrop (more : List Token) : (routine ++ more).drop h.2 = routine.drop h.2 ++ more :=
    List.drop_append_of_le_length hlength.le
  have hroutine : routine.drop h.2 = used := by
    rw [hdrop] at hbody
    exact List.append_cancel_right hbody
  have hheader' : header? d (routine ++ rest') = some h := by
    refine header?_surrounded hheader hlength fun x hx hlong => ?_
    exact longer_header rfl hheader hused hroutine (hbody ▸ hclosed.entry) hx hlong
  obtain ⟨t, used', hcons⟩ := List.exists_cons_of_ne_nil hused
  refine ⟨t.line, ?_, ?_⟩
  · rw [parseTokens_of_header hscript.first hheader hclosed.entry, hbody, hcons]
    rfl
  · have hentry := (hread rest').entry
    rw [← hroutine, ← hdrop] at hentry
    rw [parseTokens_of_header hbefore' hheader' hentry, hdrop, hroutine, hcons]
    rfl

/-- The routine moves once, in a class or after an import and before a method of the same name. -/
theorem moves_surrounded :
    let routine : List Token := [⟨.name, "void", 1, 0⟩, ⟨.name, "myProgram", 1, 5⟩,
      ⟨.op, "(", 1, 14⟩, ⟨.op, ")", 1, 15⟩, ⟨.op, "\x7b", 1, 17⟩, ⟨.name, "kara", 1, 19⟩,
      ⟨.op, ".", 1, 23⟩, ⟨.name, "move", 1, 24⟩, ⟨.op, "(", 1, 28⟩, ⟨.op, ")", 1, 29⟩,
      ⟨.op, ";", 1, 30⟩, ⟨.op, "\x7d", 1, 32⟩]
    let before : List Token := [⟨.name, "class", 0, 0⟩, ⟨.op, "\x7b", 0, 6⟩]
    let rest : List Token := [⟨.op, "\x7d", 2, 0⟩]
    let before' : List Token := [⟨.name, "import", 0, 0⟩]
    let rest' : List Token := [⟨.name, "void", 2, 0⟩, ⟨.name, "myProgram", 2, 5⟩]
    Surrounds .braced 2 before routine rest [.command .moveForward 1] ∧
    NoHeader .braced 1 (before' ++ (routine ++ rest')) ∧
    ∃ line, parseTokens .braced 2 (before ++ (routine ++ rest)) =
        .ok ⟨[.command .moveForward 1], line⟩ ∧
      parseTokens .braced 2 (before' ++ (routine ++ rest')) =
        .ok ⟨[.command .moveForward 1], line⟩ := by
  intro routine before rest before' rest'
  have hfirst : NoHeader .braced before.length (before ++ (routine ++ rest)) := by
    intro k hk
    match k, hk with
    | 0, _ => rfl
    | 1, _ => rfl
  have hscript : Surrounds .braced 2 before routine rest [.command .moveForward 1] :=
    ⟨hfirst, _, rfl, .brace rfl rfl rfl rfl⟩
  have hbefore : NoHeader .braced before'.length (before' ++ (routine ++ rest')) := by
    intro k hk
    match k, hk with
    | 0, _ => rfl
  exact ⟨hscript, hbefore, parseTokens_surrounded hscript hbefore⟩

/-! ### every routine is read to its end -/

theorem header_of_entryBody? {body : List Token} (h : entryBody? d ts = some body) :
    ∃ before tail h, ts = before ++ tail ∧ NoHeader d before.length ts ∧
      header? d tail = some h ∧ body = tail.drop h.2 := by
  induction ts with
  | nil => cases h
  | cons t ts ih =>
    rw [entryBody?] at h
    split at h
    · rename_i h' hfind
      cases h
      exact ⟨[], t :: ts, h', rfl, nofun, hfind, rfl⟩
    · rename_i hnone
      obtain ⟨before, tail, h', rfl, hbefore, hheader, rfl⟩ := ih h
      refine ⟨t :: before, tail, h', rfl, fun k hk => ?_, hheader, rfl⟩
      cases k with
      | zero => exact hnone
      | succ k => exact hbefore k (Nat.lt_of_succ_lt_succ hk)

/-- A script that is a program stands around its entry routine, if the indentation of it does not end
with the script only. -/
theorem surrounds_of_parseTokens {line : Nat} (h : parseTokens d depth ts = .ok ⟨stmts, line⟩) :
    (∃ before routine rest, ts = before ++ (routine ++ rest) ∧
      Surrounds d depth before routine rest stmts) ∨
    d = .indented ∧ ∃ body, entryBody? d ts = some body ∧
      entry ⟨d, endLine ts⟩ depth body = .ok (stmts, []) := by
  rw [parseTokens] at h
  split at h
  · cases h
  · rename_i body hbody
    simp only at h
    split at h
    · cases h
    · rename_i stmts' rest hread
      cases h
      obtain ⟨before, tail, h, rfl, hbefore, hheader, rfl⟩ := header_of_entryBody? hbody
      rcases entry_closed hread with hclosed | ⟨hd, rfl⟩
      · obtain ⟨used, -, hused, -⟩ := hclosed.surrounded 0
        have htail : tail.take h.2 ++ used ++ rest = tail := by
          rw [List.append_assoc, ← hused, List.take_append_drop]
        refine .inl ⟨before, tail.take h.2 ++ used, rest, by rw [htail], ?_, h, ?_, ?_⟩
        · rwa [htail]
        · rwa [htail]
        · rwa [htail]
      · exact .inr ⟨hd, _, hbody, hread⟩

end

end Ladybug.Script

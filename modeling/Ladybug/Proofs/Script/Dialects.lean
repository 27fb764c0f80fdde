import Ladybug.Proofs.Script.Depth
import Ladybug.Proofs.Script.RoundTrip
import Ladybug.Proofs.Script.Unlined

/-!
# The dialects mean the same

Every program can be written in every dialect. The texts are read as the program, or as nested too
deeply, and the programs that are read run alike.

* `print_readable`     the text of a program is read, if the depth allows it
* `dialects_agree`     the texts of a program in all dialects, and their runs
* `negated_too_deep`   a condition that no reader goes down to the end of
-/

namespace Ladybug.Script

variable {body : List Stmt}

theorem print_readable (d : Dialect) (depth : Nat) (hp : ProperBlock body) :
    (∃ p, parse d depth (print d body) = .ok p ∧ unlinedBlock p.body = unlinedBlock body) ∨
      parse d depth (print d body) = .error .tooDeep ∧ depth < blockHeight body := by
  by_cases hheight : blockHeight body ≤ depth
  · exact .inl (parse_print d hp hheight)
  · have hdepth : depth < blockHeight body := Nat.lt_of_not_le hheight
    obtain ⟨p, hparse, hsame⟩ := parse_print d hp (Nat.le_refl _)
    -- with the depth that it needs the text is read, and a smaller one changes nothing else
    obtain hdeep | heq := parse_upto d (Nat.le_of_lt hdepth) (print d body)
    · exact .inr ⟨hdeep, hdepth⟩
    · exact .inl ⟨p, heq.trans hparse, hsame⟩

theorem compile_name (d : Dialect) (source : String) :
    compile source d.name = parse d nestingLimit source := by
  have hname : Dialect.ofName? d.name = some d := by
    cases d <;> decide
  rw [compile, hname]

theorem extract_of_compile {source dialect : String} {p : Program}
    (h : compile source dialect = .ok p) (limits : Limits) (w : World) :
    extract source dialect limits w = extractProgram p limits w := by
  rw [extract, h]

/-- **The dialects agree.** The text of a program is read as the program, up to lines, or else the
program is nested deeper than the reader goes; the texts that are read run alike. -/
theorem dialects_agree (hp : ProperBlock body) :
    (∀ d depth,
      (∃ p, parse d depth (print d body) = .ok p ∧ unlinedBlock p.body = unlinedBlock body) ∨
        parse d depth (print d body) = .error .tooDeep ∧ depth < blockHeight body) ∧
    ∀ d d', compile (print d body) d.name ≠ .error .tooDeep →
      compile (print d' body) d'.name ≠ .error .tooDeep → ∀ limits w,
        (extract (print d body) d.name limits w).unlined =
          (extract (print d' body) d'.name limits w).unlined := by
  refine ⟨fun d depth => print_readable d depth hp, fun d d' hd hd' limits w => ?_⟩
  have hread : ∀ d, compile (print d body) d.name ≠ .error .tooDeep →
      ∃ p, compile (print d body) d.name = .ok p ∧ unlinedBlock p.body = unlinedBlock body := by
    intro d hd
    rw [compile_name] at hd ⊢
    obtain hok | ⟨hdeep, _⟩ := print_readable d nestingLimit hp
    · exact hok
    · exact absurd hdeep hd
  obtain ⟨p, hcompile, hsame⟩ := hread d hd
  obtain ⟨p', hcompile', hsame'⟩ := hread d' hd'
  rw [extract_of_compile hcompile, extract_of_compile hcompile']
  exact extractProgram_alike (hsame.trans hsame'.symm) limits w

/-- the way around a tree that stands in the way -/
def stroll : List Stmt :=
  [.loop (.or [.not (.sensor .treeFront 0) 0, .literal false 0] 0)
    [.choice [(.sensor .onLeaf 0, [.command .pickClover 0])] [] 0, .command .moveForward 0] 0]

theorem stroll_agrees : ProperBlock stroll ∧ ∀ d d' limits w,
    (extract (print d stroll) d.name limits w).unlined =
      (extract (print d' stroll) d'.name limits w).unlined := by
  have hp : ProperBlock stroll := by
    simp [stroll, ProperBlock, Stmt.Proper, ProperBranches, Expr.Proper, ProperAll]
  obtain ⟨hread, hrun⟩ := dialects_agree hp
  have hcompile : ∀ d, compile (print d stroll) d.name ≠ .error .tooDeep := by
    intro d hd
    rw [compile_name] at hd
    obtain ⟨p, hparse, _⟩ | ⟨_, hdepth⟩ := hread d nestingLimit
    · rw [hparse] at hd
      cases hd
    · exact absurd hdepth (by decide)
  exact ⟨hp, fun d d' => hrun d d' (hcompile d) (hcompile d')⟩

example : print .indented stroll =
    "def my_program(self):\n" ++
    "    while not kara.tree_front() or False:\n" ++
    "        if kara.on_leaf():\n" ++
    "            kara.remove_leaf()\n" ++
    "        kara.move()\n" := by decide +kernel

/-! ### nested too deeply -/

/-- so many negations, one inside the other -/
def negations : Nat → Expr
  | 0 => .literal true 0
  | n + 1 => .not (negations n) 0

theorem loop_negations_proper (n : Nat) : ProperBlock [.loop (negations n) [] 0] := by
  have hn : (negations n).Proper := by
    induction n with
    | zero => exact trivial
    | succ n ih => exact ih
  exact ⟨⟨hn, trivial⟩, trivial⟩

theorem faces_negations (d : Dialect) (n : Nat) : (negations n).faces d =
    List.replicate n (notFace d) ++ [word (literalName d true)] := by
  have hjunction : ∀ n, (negations n).isJunction = false := by
    intro n
    cases n <;> rfl
  induction n with
  | zero => rfl
  | succ n ih =>
    rw [negations, Expr.faces, Expr.enclosed, hjunction, if_neg Bool.false_ne_true, ih,
      List.replicate_succ, List.cons_append]

section

variable {s : Setting} {n depth : Nat} {ts : List Token} {more : List Face}

/-- a loop whose condition goes too deep -/
theorem loop_tooDeep (h : depth ≤ n) (hts : ts.map Token.face =
      word "while" :: sign "(" :: (List.replicate n (notFace s.dialect) ++ more)) :
    Braces.statement s depth ts = .error .tooDeep := by
  obtain ⟨l₁, c₁, ts₁, rfl, hts₁⟩ := faces_cons hts
  obtain ⟨l₂, c₂, ts₂, rfl, hts₂⟩ := faces_cons hts₁
  cases depth with
  | zero => rw [Braces.statement]
  | succ depth =>
    have hcondition : condition s depth ts₂ = .error .tooDeep :=
      condition_tooDeep (unary_tooDeep (Nat.le_of_succ_le h) hts₂)
    have htest : Braces.test s depth "while" (⟨.op, "(", l₂, c₂⟩ :: ts₂) = .error .tooDeep := by
      rw [Braces.test, expect_op]
      simp only [hcondition]
    have hloop : Braces.loop s depth (Braces.statement s depth) l₁ (⟨.op, "(", l₂, c₂⟩ :: ts₂) =
        .error .tooDeep := by
      rw [Braces.loop, Braces.branch, htest]
    rw [Braces.statement]
    simpa [Token.isOp, Token.isName] using hloop

/-- a block that begins with a statement that goes too deep -/
theorem blockRest_tooDeep {stmt : Parser (List Stmt)} {t : Token}
    (hmore : t.isOp "\x7d" = false) (h : stmt (t :: ts) = .error .tooDeep) :
    Braces.blockRest s stmt (t :: ts) = .error .tooDeep := by
  have hrepeated : repeated (Braces.more s) stmt (t :: ts) = .error .tooDeep := by
    rw [repeated]
    unfold repeatedFrom
    simp only [Braces.more, hmore, h, Bool.not_false]
  rw [Braces.blockRest, hrepeated]

end

theorem negations_tooDeep {d : Dialect} (hd : d.hasBraces = true) {n depth : Nat} (h : depth ≤ n) :
    parse d depth (print d [.loop (negations n) [] 0]) = .error .tooDeep := by
  obtain ⟨ts, htokens, hfaces⟩ := tokenize_print d (loop_negations_proper n)
  obtain ⟨hbody, hblock⟩ := entryBody?_braces hd hfaces
  obtain ⟨l, c, ts', hdrop, hts'⟩ := faces_cons hblock
  obtain ⟨more, hmore⟩ : ∃ more, laidOf d (blockOutlines d [.loop (negations n) [] 0]) =
      word "while" :: sign "(" :: (List.replicate n (notFace d) ++ more) := by
    rw [blockOutlines, laidOf_append, Braces.laid_loop hd, Braces.branchFaces, Braces.testFaces,
      faces_negations]
    simp
  rw [hmore] at hts'
  have hentry : entry ⟨d, endLine ts⟩ depth (ts.drop 4) = .error .tooDeep := by
    have hloop : Braces.statement ⟨d, endLine ts⟩ depth ts' = .error .tooDeep := by
      have hfaces' : ts'.map Token.face = word "while" :: sign "(" ::
          (List.replicate n (notFace d) ++ (more ++ [sign "\x7d"])) := by
        simpa using hts'
      exact loop_tooDeep h hfaces'
    obtain ⟨l', c', ts'', rfl, _⟩ := faces_cons hts'
    rw [entry_braces hd, Braces.entry, hdrop, expect_op]
    exact blockRest_tooDeep rfl hloop
  rw [parse, htokens]
  simp only [parseTokens, hbody, hentry]

theorem negated_too_deep : ProperBlock [.loop (negations 3000) [] 0] ∧
    compile (print .braced [.loop (negations 3000) [] 0]) Dialect.braced.name =
      .error .tooDeep := by
  refine ⟨loop_negations_proper 3000, ?_⟩
  rw [compile_name]
  exact negations_tooDeep rfl (by decide)

end Ladybug.Script

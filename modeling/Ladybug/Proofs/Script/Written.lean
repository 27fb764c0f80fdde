import Ladybug.Proofs.Script.LaidOut
import Ladybug.Proofs.Script.Shape

/-!
# The lines of a program can be read

Whatever program is written, its lines are made of names and signs that scripts use, and the
parentheses of a line are closed in it.

* `Fine`              tokens of that kind
* `Expr.fine`         those of a condition
* `Stmt.good`         the lines of a statement
* `program_good`      the lines of a program
-/

namespace Ladybug.Script

/-! ### tokens -/

structure Fine (fs : List Face) : Prop where
  clean : ∀ f ∈ fs, Face.Clean f
  balanced : Balanced fs

theorem Fine.append {fs gs : List Face} (h : Fine fs) (h' : Fine gs) : Fine (fs ++ gs) := by
  refine ⟨fun f hf => ?_, fun depth => ?_⟩
  · rcases List.mem_append.mp hf with hf | hf
    · exact h.clean f hf
    · exact h'.clean f hf
  · rw [List.foldl_append, h.balanced, h'.balanced]

theorem Fine.nil : Fine [] := ⟨nofun, fun _ => rfl⟩

theorem Fine.cons {f : Face} {fs : List Face} (h : Fine [f]) (h' : Fine fs) : Fine (f :: fs) :=
  h.append h'

def isPlainName (s : String) : Bool :=
  match s.toList with
  | c :: cs => isNameStart c && cs.all isNameChar
  | [] => false

theorem clean_word {w : String} (h : isPlainName w = true) : Face.Clean (word w) := by
  rw [isPlainName] at h
  split at h
  · rename_i c cs hw
    rw [Bool.and_eq_true, List.all_eq_true] at h
    exact ⟨c, cs, hw, h⟩
  · exact Bool.noConfusion h

theorem fine_word {w : String} (h : isPlainName w = true) : Fine [word w] := by
  refine ⟨?_, fun _ => rfl⟩
  intro f hf
  rw [List.mem_singleton.mp hf]
  exact clean_word h

theorem fine_sign {x : String} (h : x ∈ [";", ".", ":", "?", "!", "&&", "||"]) :
    Fine [sign x] := by
  have hsign : ∀ x ∈ [";", ".", ":", "?", "!", "&&", "||"], x ∈ signs ∧
      ¬ x ∈ ["(", "[", "\x7b"] ∧ ¬ x ∈ [")", "]", "\x7d"] := by decide
  obtain ⟨hclean, hopen, hclose⟩ := hsign x h
  refine ⟨?_, fun depth => ?_⟩
  · intro f hf
    rw [List.mem_singleton.mp hf]
    exact hclean
  · show Lines.depthAfter depth ⟨.op, x, 0, 0⟩ = depth
    simp [Lines.depthAfter, Lines.opens, Lines.closes, hopen, hclose]

theorem Fine.paren {fs : List Face} (h : Fine fs) : Fine (sign "(" :: fs ++ [sign ")"]) := by
  refine ⟨fun f hf => ?_, fun depth => ?_⟩
  · rw [List.mem_append, List.mem_cons, List.mem_singleton] at hf
    rcases hf with (rfl | hf) | rfl
    · exact (by decide : "(" ∈ signs)
    · exact h.clean f hf
    · exact (by decide : ")" ∈ signs)
  · rw [List.cons_append, List.foldl_cons, List.foldl_append, h.balanced]
    rfl

/-! ### conditions and calls -/

theorem member_fine {name : String} {after : List Face} (hname : isPlainName name = true)
    (hafter : Fine after) : Fine (memberFaces name after) :=
  (fine_word (by decide)).cons ((fine_sign (by decide)).cons ((fine_word hname).cons hafter))

theorem parens_fine : Fine [sign "(", sign ")"] := Fine.nil.paren

theorem command_fine (d : Dialect) (c : Command) : Fine (commandFaces d c) := by
  refine member_fine (by cases d <;> cases c <;> decide) ?_
  split
  · exact .nil
  · exact parens_fine

theorem sensor_fine (d : Dialect) (x : Detector) : Fine (sensorFaces d x) := by
  refine member_fine (by cases d <;> cases x <;> decide) ?_
  split
  · exact fine_sign (by decide)
  · exact parens_fine

theorem not_fine (d : Dialect) : Fine [notFace d] := by
  cases d
  case indented => exact fine_word (by decide)
  all_goals exact fine_sign (by decide)

theorem and_fine (d : Dialect) : Fine [andFace d] := by
  cases d
  case indented => exact fine_word (by decide)
  all_goals exact fine_sign (by decide)

theorem or_fine (d : Dialect) : Fine [orFace d] := by
  cases d
  case indented => exact fine_word (by decide)
  all_goals exact fine_sign (by decide)

theorem Fine.enclosed {e : Expr} {fs : List Face} (h : Fine fs) : Fine (e.enclosed fs) := by
  rw [Expr.enclosed]
  split
  · exact h.paren
  · exact h

/-- what is left of operands without the first separator -/
theorem Fine.tail {d : Dialect} {f : Face} {es : List Expr} (h : Fine (separatedFaces d f es))
    (hf : Fine [f]) : Fine (separatedFaces d f es).tail := by
  cases es with
  | nil => exact .nil
  | cons e es =>
    refine ⟨fun g hg => h.clean g (List.mem_of_mem_tail hg), fun depth => ?_⟩
    have hdepth := h.balanced depth
    rw [separatedFaces, List.cons_append, List.foldl_cons] at hdepth
    rwa [show Lines.depthAfter depth ⟨f.1, f.2, 0, 0⟩ = depth from hf.balanced depth] at hdepth

mutual

theorem Expr.fine (d : Dialect) : ∀ e : Expr, Fine (e.faces d)
  | .sensor x _ => sensor_fine d x
  | .literal b _ => fine_word (by cases d <;> cases b <;> decide)
  | .not e _ => (not_fine d).cons (Expr.fine d e).enclosed
  | .and es _ => (separated_fine d (and_fine d) es).tail (and_fine d)
  | .or es _ => (separated_fine d (or_fine d) es).tail (or_fine d)

theorem separated_fine (d : Dialect) {f : Face} (hf : Fine [f]) :
    ∀ es : List Expr, Fine (separatedFaces d f es)
  | [] => .nil
  | e :: es => hf.cons ((Expr.fine d e).enclosed.append (separated_fine d hf es))

end

/-! ### lines -/

theorem Fine.line {d : Dialect} {fs : List Face} (h : Fine fs) (hne : fs ≠ []) : GoodLine d fs :=
  ⟨hne, h.clean, fun _ => h.balanced⟩

/-- a line with a brace at its end, where no line end matters -/
theorem Fine.brace {d : Dialect} {fs : List Face} {x : String} (h : Fine fs)
    (hx : x ∈ ["\x7b", "\x7d"]) (hd : d.hasBraces = true) : GoodLine d (fs ++ [sign x]) := by
  refine ⟨by simp, fun f hf => ?_, fun hno => ?_⟩
  · rcases List.mem_append.mp hf with hf | hf
    · exact h.clean f hf
    · have hsign : ∀ x ∈ ["\x7b", "\x7d"], x ∈ signs := by decide
      rw [List.mem_singleton.mp hf]
      exact hsign x hx
  · rw [hd] at hno
    exact Bool.noConfusion hno

theorem goodAll_append {d : Dialect} {os os' : List Outline} (h : GoodAll d os)
    (h' : GoodAll d os') : GoodAll d (os ++ os') := by
  induction os with
  | nil => exact h'
  | cons o os ih => exact ⟨h.1, ih h.2⟩

theorem bare_good {d : Dialect} {fs : List Face} (h : GoodLine d fs) : GoodAll d [.bare fs] :=
  ⟨⟨h, trivial⟩, trivial⟩

theorem part_good {d : Dialect} {head : List Face} {block : List Outline}
    (hhead : GoodLine d head) (hblock : GoodAll d block) : GoodAll d (part d head block) := by
  refine ⟨⟨hhead, hblock⟩, ?_⟩
  split
  · rename_i hd
    exact bare_good (Fine.nil.brace (by decide) hd)
  · trivial

theorem end_good (d : Dialect) : GoodAll d (endLines d) := by
  rw [endLines]
  split
  · exact bare_good ((fine_word (by decide)).line (List.cons_ne_nil _ _))
  · trivial

theorem filled_good {d : Dialect} {block : List Outline} (h : GoodAll d block) :
    GoodAll d (filled d block) := by
  rw [filled]
  split
  · exact bare_good ((fine_word (by decide)).line (List.cons_ne_nil _ _))
  · exact h

theorem words_fine {words : List String} (h : ∀ w ∈ words, isPlainName w = true) :
    Fine (words.map word) := by
  induction words with
  | nil => exact .nil
  | cons w words ih =>
    exact (fine_word (h w List.mem_cons_self)).cons
      (ih fun x hx => h x (List.mem_cons_of_mem w hx))

theorem head_good {d : Dialect} {words : List String} {fs : List Face} (hne : words ≠ [])
    (hwords : ∀ w ∈ words, isPlainName w = true) (h : Fine fs) :
    GoodLine d (headFaces d words fs) := by
  have hw := words_fine hwords
  have hne' : words.map word ≠ [] := by simpa using hne
  cases d with
  | braced =>
    have hline := (hw.append h.paren).brace (d := .braced) (x := "\x7b") (by decide) rfl
    simpa [headFaces] using hline
  | functional =>
    have hline := (hw.append h.paren).brace (d := .functional) (x := "\x7b") (by decide) rfl
    simpa [headFaces] using hline
  | indented =>
    exact (hw.append (h.append (fine_sign (by decide)))).line (by simp [hne])
  | ended => exact (hw.append h).line (by simp [hne])

theorem else_good (d : Dialect) : GoodLine d (elseFaces d) := by
  have helse : Fine [word "else"] := fine_word (by decide)
  cases d with
  | braced => exact helse.brace (by decide) rfl
  | functional => exact helse.brace (by decide) rfl
  | indented => exact (helse.append (fine_sign (by decide))).line (List.cons_ne_nil _ _)
  | ended => exact helse.line (List.cons_ne_nil _ _)

theorem header_good (d : Dialect) : GoodLine d (headerFaces d) := by
  have hname : ∀ w, isPlainName w = true → Fine [word w, word "myProgram", sign "(", sign ")"] :=
    fun w hw => (fine_word hw).cons ((fine_word (by decide)).cons parens_fine)
  have hdef : Fine [word "def", word "my_program"] :=
    (fine_word (by decide)).cons (fine_word (by decide))
  cases d with
  | braced => exact (hname "void" (by decide)).brace (by decide) rfl
  | functional => exact (hname "function" (by decide)).brace (by decide) rfl
  | indented =>
    have hself : Fine [word "self"] := fine_word (by decide)
    exact (hdef.append (hself.paren.append (fine_sign (by decide)))).line (List.cons_ne_nil _ _)
  | ended => exact hdef.line (List.cons_ne_nil _ _)

/-- a simple statement on its line -/
theorem simple_good {d : Dialect} {fs : List Face} (h : Fine fs) (hne : fs ≠ []) :
    GoodAll d [.bare (fs ++ stopFaces d)] := by
  have hstop : Fine (stopFaces d) := by
    rw [stopFaces]
    split
    · exact fine_sign (by decide)
    · exact .nil
  exact bare_good ((h.append hstop).line (by simp [hne]))

theorem elseIfWords_plain (d : Dialect) :
    elseIfWords d ≠ [] ∧ ∀ w ∈ elseIfWords d, isPlainName w = true := by
  cases d <;> decide

mutual

theorem Stmt.good (d : Dialect) : ∀ x : Stmt, x.Proper → GoodAll d (x.outlines d)
  | .command c _, _ => simple_good (command_fine d c) (List.cons_ne_nil _ _)
  | .ask e _, hp => by
    obtain ⟨x, line, rfl⟩ := hp
    exact simple_good (sensor_fine d x) (List.cons_ne_nil _ _)
  | .loop e body _, hp =>
    goodAll_append
      (part_good (head_good (by decide) (by decide) (Expr.fine d e))
        (filled_good (block_good d body hp.2)))
      (end_good d)
  | .choice branches otherwise _, hp => by
    refine goodAll_append (goodAll_append ?_ ?_) (end_good d)
    · exact branches_good d ["if"] (by decide) branches hp.2.1
    · split
      · trivial
      · exact part_good (else_good d) (filled_good (block_good d otherwise hp.2.2))

theorem block_good (d : Dialect) : ∀ body : List Stmt, ProperBlock body →
    GoodAll d (blockOutlines d body)
  | [], _ => trivial
  | x :: rest, hp => goodAll_append (Stmt.good d x hp.1) (block_good d rest hp.2)

theorem branches_good (d : Dialect) (words : List String)
    (hwords : words ≠ [] ∧ ∀ w ∈ words, isPlainName w = true) :
    ∀ branches : List (Expr × List Stmt), ProperBranches branches →
      GoodAll d (branchOutlines d words branches)
  | [], _ => trivial
  | (e, body) :: rest, hp =>
    goodAll_append
      (part_good (head_good hwords.1 hwords.2 (Expr.fine d e))
        (filled_good (block_good d body hp.2.1)))
      (branches_good d (elseIfWords d) (elseIfWords_plain d) rest hp.2.2)

end

/-- **The lines of a program can be scanned, and their ends can be seen.** -/
theorem program_good (d : Dialect) {body : List Stmt} (hp : ProperBlock body) :
    GoodAll d (programOutlines d body) :=
  goodAll_append (part_good (header_good d) (filled_good (block_good d body hp))) (end_good d)

end Ladybug.Script

import Ladybug.Proofs.Script.Braces
import Ladybug.Proofs.Script.Ends
import Ladybug.Proofs.Script.Indents
import Ladybug.Proofs.Script.Written

/-!
# Programs are read as they were written

* `entryBody?_eq`    the header of the entry routine is found
* `parse_print`      the text of a program is read as the program, up to lines
-/

namespace Ladybug.Script

theorem startsWith_faces (pattern : List Face) (ts : List Token) :
    startsWith pattern ts = ((ts.map Token.face).take pattern.length == pattern) := by
  rw [startsWith, ← List.map_take]
  rfl

/-- The text begins with a header, before which no other one is tried. -/
theorem entryBody?_eq {d : Dialect} {pattern more : List Face} {n : Nat} {ts : List Token}
    (before : List (List Face × Nat)) {after : List (List Face × Nat)}
    (hd : headers d = before ++ (pattern, n) :: after)
    (hbefore : ∀ h ∈ before, startsWith h.1 ts = false) (hne : pattern ≠ [])
    (hts : ts.map Token.face = pattern ++ more) : entryBody? d ts = some (ts.drop n) := by
  cases ts with
  | nil =>
    rw [List.map_nil] at hts
    exact absurd (List.append_eq_nil_iff.mp hts.symm).1 hne
  | cons t ts =>
    have hstart : startsWith pattern (t :: ts) = true := by
      rw [startsWith_faces, hts, List.take_left, beq_self_eq_true]
    have hfind : (headers d).find? (fun h => startsWith h.1 (t :: ts)) = some (pattern, n) := by
      rw [hd, List.find?_append, List.find?_eq_none.mpr (by simpa using hbefore),
        List.find?_cons_of_pos (by exact hstart)]
      rfl
    rw [entryBody?, hfind]

theorem parse_of_entry {d : Dialect} {depth n : Nat} {source : String} {ts rest : List Token}
    {stmts : List Stmt} (htokens : tokenize d source = .ok ts)
    (hbody : entryBody? d ts = some (ts.drop n))
    (hentry : entry ⟨d, endLine ts⟩ depth (ts.drop n) = .ok (stmts, rest)) :
    parse d depth source = .ok ⟨stmts, Setting.lineOf ⟨d, endLine ts⟩ (ts.drop n)⟩ := by
  rw [parse, htokens]
  simp only [parseTokens, hbody, hentry]

theorem map_face_drop (before : List Face) {fs : List Face} {ts : List Token}
    (h : ts.map Token.face = before ++ fs) : (ts.drop before.length).map Token.face = fs := by
  rw [List.map_drop, h, List.drop_left]

/-- The tokens hold a program that is read from the body of the entry routine on. -/
def Opens (d : Dialect) (depth : Nat) (body : List Stmt) (ts : List Token) : Prop :=
  ∃ n stmts rest, entryBody? d ts = some (ts.drop n) ∧
    entry ⟨d, endLine ts⟩ depth (ts.drop n) = .ok (stmts, rest) ∧ SameBlock body stmts

section

variable {d : Dialect} {depth : Nat} {body : List Stmt} {ts : List Token}

/-- the body of the entry routine between braces -/
theorem entryBody?_braces (hd : d.hasBraces = true)
    (hts : ts.map Token.face = laidOf d (programOutlines d body)) :
    entryBody? d ts = some (ts.drop 4) ∧ (ts.drop 4).map Token.face = Braces.blockFaces d body := by
  have hheaders : headers d = [(headerFaces d, 4)] := by
    cases d <;> first | rfl | exact Bool.noConfusion hd
  obtain ⟨before, hlength, hheader⟩ :
      ∃ before, before.length = 4 ∧ headerFaces d = before ++ [sign "\x7b"] := by
    cases d <;> first | exact ⟨[_, _, _, _], rfl, rfl⟩ | exact Bool.noConfusion hd
  have hlaid : laidOf d (programOutlines d body) = before ++ Braces.blockFaces d body := by
    rw [programOutlines, laidOf_append, Braces.laid_part hd, Braces.filled_eq hd,
      Braces.endLines_eq hd, hheader, Braces.blockFaces]
    simp [laidOf]
  have hpattern : ts.map Token.face =
      headerFaces d ++ (laidOf d (blockOutlines d body) ++ [sign "\x7d"]) := by
    rw [hts, hlaid, hheader, Braces.blockFaces]
    simp
  constructor
  · refine entryBody?_eq [] hheaders (fun _ h => absurd h List.not_mem_nil) ?_ hpattern
    rw [hheader]
    simp
  · rw [← hlength]
    exact map_face_drop before (hts.trans hlaid)

theorem entry_braces (hd : d.hasBraces = true) (lastLine : Nat) :
    entry ⟨d, lastLine⟩ depth = Braces.entry ⟨d, lastLine⟩ depth := by
  cases d <;> first | rfl | exact Bool.noConfusion hd

theorem opens_braces (hd : d.hasBraces = true) (hp : ProperBlock body)
    (hheight : blockHeight body ≤ depth)
    (hts : ts.map Token.face = laidOf d (programOutlines d body)) : Opens d depth body ts := by
  obtain ⟨hbody, hfaces⟩ := entryBody?_braces hd hts
  obtain ⟨stmts, hstmts, hsame⟩ :=
    Braces.entry_reads (s := ⟨d, endLine ts⟩) hd hp hheight (ts.drop 4) [] hfaces trivial
  refine ⟨4, stmts, [], hbody, ?_, hsame⟩
  rw [entry_braces hd, ← hstmts, List.append_nil]

theorem opens_indented (hp : ProperBlock body) (hheight : blockHeight body ≤ depth)
    (hts : ts.map Token.face = laidOf .indented (programOutlines .indented body)) :
    Opens .indented depth body ts := by
  have hlaid : laidOf .indented (programOutlines .indented body) =
      headerFaces .indented ++ Indents.suiteFaces body := by
    rw [programOutlines, laidOf_append, Indents.laid_part _ (Indents.filled_ne_nil _),
      Indents.suiteFaces]
    simp [endLines, laidOf]
  have hfaces : (ts.drop 5).map Token.face = sign ":" :: Indents.suiteFaces body :=
    map_face_drop [_, _, _, _, _] (hts.trans hlaid)
  obtain ⟨stmts, hstmts, hsame⟩ :=
    Indents.entry_reads (s := ⟨.indented, endLine ts⟩) rfl hp hheight (ts.drop 5) [] hfaces trivial
  refine ⟨5, stmts, [], ?_, ?_, hsame⟩
  · exact entryBody?_eq [] rfl (fun _ h => absurd h List.not_mem_nil) (List.cons_ne_nil _ _)
      (hts.trans hlaid)
  · rw [← hstmts, List.append_nil]
    rfl

theorem opens_ended (hp : ProperBlock body) (hheight : blockHeight body ≤ depth)
    (hts : ts.map Token.face = laidOf .ended (programOutlines .ended body)) :
    Opens .ended depth body ts := by
  have hlaid : laidOf .ended (programOutlines .ended body) =
      headerFaces .ended ++ (Ends.bodyFaces body ++ [word "end"] ++ [newlineFace]) := by
    rw [programOutlines, laidOf_append, Ends.laid_part, Ends.filled_eq, Ends.laid_end,
      Ends.bodyFaces]
    simp
  have hfaces : (ts.drop 2).map Token.face =
      Ends.bodyFaces body ++ [word "end"] ++ [newlineFace] :=
    map_face_drop [_, _] (hts.trans hlaid)
  obtain ⟨ts₁, ts₂, hdrop, hts₁, hts₂⟩ := faces_append hfaces
  obtain ⟨stmts, hstmts, hsame⟩ :=
    Ends.entry_reads (s := ⟨.ended, endLine ts⟩) rfl hp hheight ts₁ ts₂ hts₁ trivial
  have hparens : startsWith [word "def", word "my_program", sign "(", sign ")"] ts = false := by
    rw [startsWith_faces, hts, hlaid, beq_eq_false_iff_ne]
    simp [headerFaces, Ends.bodyFaces, newlineFace, sign]
  refine ⟨2, stmts, ts₂, ?_, ?_, hsame⟩
  · exact entryBody?_eq [_] rfl (List.forall_mem_singleton.mpr hparens) (List.cons_ne_nil _ _)
      (hts.trans hlaid)
  · rw [hdrop]
    exact hstmts

theorem tokenize_print (d : Dialect) (hp : ProperBlock body) :
    ∃ ts, tokenize d (print d body) = .ok ts ∧
      ts.map Token.face = laidOf d (programOutlines d body) := by
  have hne : programOutlines d body ≠ [] := List.cons_ne_nil _ _
  exact tokenize_outlines hne (program_good d hp)

/-- **The text of a program is read as the program, up to lines.** -/
theorem parse_print (d : Dialect) (hp : ProperBlock body) (hheight : blockHeight body ≤ depth) :
    ∃ p, parse d depth (print d body) = .ok p ∧ SameBlock body p.body := by
  obtain ⟨ts, htokens, hfaces⟩ := tokenize_print d hp
  have hopens : Opens d depth body ts := by
    cases d with
    | braced => exact opens_braces rfl hp hheight hfaces
    | functional => exact opens_braces rfl hp hheight hfaces
    | indented => exact opens_indented hp hheight hfaces
    | ended => exact opens_ended hp hheight hfaces
  obtain ⟨n, stmts, rest, hbody, hentry, hsame⟩ := hopens
  exact ⟨_, parse_of_entry htokens hbody hentry, hsame⟩

end

end Ladybug.Script

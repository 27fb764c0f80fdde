import Ladybug.Proofs.Xml.Tags

/-!
# Documents that are written and read back

* `Element.Writable`   names are names, attributes come once, values are text of documents
* `Passes`             a text that a reader passes, adding some elements to those it has
* `passes_write`       what is written for an element is passed, the element being added
* `read_document`      a document gives its root back
-/

namespace Ladybug.Xml

open Element

/-- An element that can be written and read back. -/
inductive Element.Writable : Element → Prop
  | node {n : Name} {as : List Attribute} {es : List Element} (space : n.space = none)
      (name : isName n.base = true) (attributes : WritableAttributes as)
      (children : ∀ e ∈ es, Writable e) : Writable (.node n as es)

/-- What nothing has been declared for. -/
structure Expansion.Bare (x : Expansion) : Prop where
  predefined : Predefined x.text
  complete : ∀ t, x.complete t = t

theorem bare_expansion : (expansion {} 1).Bare where
  predefined name c h := by
    show Declarations.expand {} 1 name = some [c]
    rw [Declarations.expand, h]
  complete t := by
    show Declarations.complete {} t = t
    obtain ⟨name, attributes, closed⟩ := t
    simp only [Declarations.complete, Declarations.attribute?, List.find?_nil, Option.any_none,
      valueText, Bool.false_eq_true, ↓reduceIte, String.ofList_toList, List.map_id',
      List.filter_nil, List.filterMap_nil, List.append_nil]

theorem Frame.add_add (f : Frame) (es ds : List Element) :
    (f.add es).add ds = f.add (es ++ ds) := by
  simp only [Frame.add, List.reverse_append, List.append_assoc]

/-! ### one step of the reader -/

variable {x : Expansion} {f g : Frame} {outer : List Frame} {fuel : Nat}

theorem contentFrom_tag {c : Char} (hc : isNameStart c = true) {cs rest : List Char} {t : Tag}
    (ht : tag? x.text (c :: cs) = some (t, rest)) (hg : begin? f.spaces (x.complete t) = some g) :
    contentFrom x (fuel + 1) f outer ('<' :: c :: cs)
      = if t.closed then contentFrom x fuel (f.add [g.element]) outer rest
        else contentFrom x fuel g (f :: outer) rest := by
  have h {d : Char} (hd : isNameStart d = false) : c ≠ d := ne_of_isNameStart hc hd
  rw [contentFrom]
  · simp only [ht, hg]
  · exact fun s e => h (d := '/') (by decide) (List.cons.inj e).1
  · exact fun s e => h (d := '?') (by decide) (List.cons.inj e).1
  · exact fun s e => h (d := '!') (by decide) (List.cons.inj e).1

theorem until?_eq_none {m : Char} {ms s : List Char} (h : m ∉ s) (done : List Char) :
    until? (m :: ms) s done = none := by
  induction s generalizing done with
  | nil => rfl
  | cons c s ih =>
    have hc : (m == c) = false := beq_eq_false_iff_ne.mpr fun e => h (e ▸ List.mem_cons_self)
    simp only [until?, List.isPrefixOf, hc, Bool.false_and, Bool.false_eq_true, ↓reduceIte]
    exact ih (fun hs => h (List.mem_cons_of_mem c hs)) _

theorem eq_of_mem_newLine {level : Nat} {c : Char} (h : c ∈ newLine level) : c = '\n' ∨ c = ' ' :=
  (List.mem_cons.mp h).imp_right List.eq_of_mem_replicate

theorem text?_newLine (level : Nat) (s : List Char) :
    text? (newLine level ++ '<' :: s) = some ('<' :: s) := by
  have htake : (newLine level ++ '<' :: s).takeWhile (fun c => c != '<' && c != '&')
      = newLine level := by
    refine Text.takeWhile_prefix (fun c hc => ?_) (by rintro c ⟨⟩; rfl)
    rcases eq_of_mem_newLine hc with rfl | rfl <;> rfl
  have hchar : (newLine level).all isChar = true := by
    refine List.all_eq_true.mpr fun c hc => ?_
    rcases eq_of_mem_newLine hc with rfl | rfl <;> rfl
  have hmark : ']' ∉ newLine level := fun h => by
    rcases eq_of_mem_newLine h with h | h <;> cases h
  simp only [text?, htake, hchar, until?_eq_none hmark, Option.isNone_none, Bool.and_self,
    ↓reduceIte, List.drop_left]

/-- Line ends and blanks in front of markup are passed. -/
theorem contentFrom_newLine (level : Nat) (s : List Char) :
    contentFrom x (fuel + 1) f outer (newLine level ++ '<' :: s)
      = contentFrom x fuel f outer ('<' :: s) := by
  have htext := text?_newLine level s
  rw [newLine, List.cons_append] at htext ⊢
  rw [contentFrom]
  · simp only [htext]
  · exact fun e => nomatch e
  all_goals exact fun s e => nomatch e

/-- An end tag ends the element that is open. -/
theorem contentFrom_endTag {s : String} (hs : isName s = true) (hf : f.raw = some ⟨none, s⟩)
    (rest : List Char) :
    contentFrom x (fuel + 1) f outer ('<' :: '/' :: (s.toList ++ '>' :: rest))
      = match outer with
        | [] => some ([f.element], rest)
        | g :: outer => contentFrom x fuel (g.add [f.element]) outer rest := by
  have hraw : rawName? (s.toList ++ '>' :: rest) = some (⟨none, s⟩, '>' :: rest) :=
    rawName?_written hs (by rintro c ⟨⟩; decide)
  have hend : endTag? f.raw (s.toList ++ '>' :: rest) = some rest := by
    simp only [endTag?, hraw, hf, beq_self_eq_true, ↓reduceIte]
    rfl
  conv_lhs => unfold contentFrom
  simp only [hend]
  cases outer <;> rfl

/-! ### texts that are passed -/

/-- With one step for each character at most, the reader passes a text and adds some elements to
those it has. -/
def Passes (x : Expansion) (s : List Char) (es : List Element) : Prop :=
  ∃ k ≤ s.length, ∀ (fuel : Nat) (f : Frame) (outer : List Frame) (rest : List Char),
    f.spaces = rootSpaces →
      contentFrom x (fuel + k) f outer (s ++ rest) = contentFrom x fuel (f.add es) outer rest

theorem Passes.nil : Passes x [] [] := ⟨0, Nat.le_refl _, fun _ _ _ _ _ => rfl⟩

theorem Passes.append {s t : List Char} {es ds : List Element} (h₁ : Passes x s es)
    (h₂ : Passes x t ds) : Passes x (s ++ t) (es ++ ds) := by
  obtain ⟨k, hk, hs⟩ := h₁
  obtain ⟨l, hl, ht⟩ := h₂
  refine ⟨l + k, by rw [List.length_append]; omega, fun fuel f outer rest hf => ?_⟩
  rw [← Nat.add_assoc, List.append_assoc, hs _ f outer _ hf, ht _ (f.add es) outer rest hf,
    Frame.add_add]

theorem passes_writeEach {level : Nat} {es : List Element}
    (h : ∀ e ∈ es, Passes x (newLine level ++ write level e) [e]) :
    Passes x (writeEach level es) es := by
  induction es with
  | nil =>
    rw [writeEach]
    exact .nil
  | cons e es ih =>
    rw [writeEach]
    exact (h e List.mem_cons_self).append (ih fun d hd => h d (List.mem_cons_of_mem e hd))

theorem openTag_append (n : Name) (as : List Attribute) (closed : Bool) (rest : List Char) :
    openTag n as ++ (tagEnd closed ++ rest)
      = '<' :: (n.base.toList ++ (as.flatMap writeAttribute ++ (tagEnd closed ++ rest))) := by
  simp only [openTag, List.cons_append, List.append_assoc]

/-- A tag begins an element, or adds it at once. -/
theorem contentFrom_openTag (hx : x.Bare) {n : Name} (space : n.space = none)
    (name : isName n.base = true) {as : List Attribute} (attributes : WritableAttributes as)
    (hf : f.spaces = rootSpaces) (closed : Bool) (rest : List Char) :
    contentFrom x (fuel + 1) f outer (openTag n as ++ (tagEnd closed ++ rest))
      = if closed then contentFrom x fuel (f.add [.node n as []]) outer rest
        else contentFrom x fuel ⟨some ⟨none, n.base⟩, n, as, [], rootSpaces⟩ (f :: outer) rest := by
  have htag := tag?_written hx.predefined name attributes.each closed rest
  have hbegin := begin?_written space attributes closed
  obtain ⟨c, cs, hname, hc, -⟩ := isName_cases name
  rw [openTag_append]
  rw [hname, List.cons_append] at htag ⊢
  rw [contentFrom_tag hc htag (by rw [hx.complete, hf]; exact hbegin)]
  rfl

/-- what is written between the tags of an element that is not empty, with its end tag -/
def writeInside (level : Nat) (n : Name) (es : List Element) : List Char :=
  writeEach (level + 1) es ++ (newLine level ++ '<' :: '/' :: (n.base.toList ++ ['>']))

theorem write_nil (level : Nat) (n : Name) (as : List Attribute) :
    write level (.node n as []) = openTag n as ++ tagEnd true := rfl

theorem write_cons (level : Nat) (n : Name) (as : List Attribute) (e : Element)
    (es : List Element) :
    write level (.node n as (e :: es))
      = openTag n as ++ (tagEnd false ++ writeInside level n (e :: es)) := by
  simp [write, writeInside, tagEnd]

theorem length_newLine (level : Nat) : 1 ≤ (newLine level).length := by
  rw [newLine, List.length_cons]
  exact Nat.le_add_left 1 _

theorem length_openTag (n : Name) (as : List Attribute) : 1 ≤ (openTag n as).length := by
  rw [openTag, List.cons_append, List.length_cons]
  exact Nat.le_add_left 1 _

theorem element_add (raw : Option Raw) (n : Name) (as : List Attribute) (spaces : Spaces)
    (es : List Element) : (Frame.add ⟨raw, n, as, [], spaces⟩ es).element = .node n as es := by
  simp only [Frame.add, Frame.element, List.append_nil, List.reverse_reverse]

/-- What an element holds is read up to its end tag, in one step for each character at most. -/
theorem contentFrom_inside {level : Nat} {n : Name} (name : isName n.base = true)
    {es : List Element}
    (h : ∀ e ∈ es, Passes x (newLine (level + 1) ++ write (level + 1) e) [e]) :
    ∃ k ≤ (writeInside level n es).length, ∀ (fuel : Nat) (as : List Attribute)
      (outer : List Frame) (rest : List Char),
      contentFrom x (fuel + k) ⟨some ⟨none, n.base⟩, n, as, [], rootSpaces⟩ outer
          (writeInside level n es ++ rest)
        = match outer with
          | [] => some ([.node n as es], rest)
          | g :: outer => contentFrom x fuel (g.add [.node n as es]) outer rest := by
  obtain ⟨k, hk, hes⟩ := passes_writeEach h
  refine ⟨2 + k, ?_, fun fuel as outer rest => ?_⟩
  · have hl := length_newLine level
    simp only [writeInside, List.length_append, List.length_cons]
    omega
  · have hwritten : writeInside level n es ++ rest
        = writeEach (level + 1) es
          ++ (newLine level ++ '<' :: '/' :: (n.base.toList ++ '>' :: rest)) := by
      simp [writeInside]
    rw [hwritten, ← Nat.add_assoc, hes _ _ outer _ rfl, contentFrom_newLine,
      contentFrom_endTag name rfl, element_add]

theorem contentFrom_newLine_openTag (hx : x.Bare) (level : Nat) {n : Name}
    (space : n.space = none) (name : isName n.base = true) {as : List Attribute}
    (attributes : WritableAttributes as) (hf : f.spaces = rootSpaces) (closed : Bool)
    (rest : List Char) :
    contentFrom x (fuel + 2) f outer
        (newLine level ++ (openTag n as ++ (tagEnd closed ++ rest)))
      = if closed then contentFrom x fuel (f.add [.node n as []]) outer rest
        else contentFrom x fuel ⟨some ⟨none, n.base⟩, n, as, [], rootSpaces⟩ (f :: outer) rest := by
  rw [← contentFrom_openTag hx space name attributes hf closed rest, openTag_append,
    contentFrom_newLine]

/-- **What is written for an element on lines of its own is passed, the element being added.** -/
theorem passes_write (hx : x.Bare) {e : Element} (h : e.Writable) (level : Nat) :
    Passes x (newLine level ++ write level e) [e] := by
  induction h generalizing level with
  | @node n as es space name attributes _ ih =>
    -- one step for the line end, one for the tag, and those for what is inside
    have hline := length_newLine level
    have htag := length_openTag n as
    cases es with
    | nil =>
      refine ⟨2, ?_, fun fuel f outer rest hf => ?_⟩
      · rw [write_nil, List.length_append, List.length_append]
        omega
      · rw [write_nil, List.append_assoc, List.append_assoc,
          contentFrom_newLine_openTag hx level space name attributes hf, if_pos rfl]
    | cons e es =>
      obtain ⟨k, hk, hinside⟩ := contentFrom_inside name fun d hd => ih d hd (level + 1)
      refine ⟨k + 2, ?_, fun fuel f outer rest hf => ?_⟩
      · simp only [write_cons, List.length_append]
        omega
      · rw [write_cons, ← Nat.add_assoc]
        simp only [List.append_assoc]
        rw [contentFrom_newLine_openTag hx level space name attributes hf, if_neg (by decide),
          hinside]

/-! ### documents -/

theorem after?_eq_none {mark : String} {c d : Char} {ms : List Char}
    (hm : mark.toList = '<' :: d :: ms) (h : c ≠ d) (cs : List Char) :
    after? mark ('<' :: c :: cs) = none := by
  have hc : (d == c) = false := beq_eq_false_iff_ne.mpr (Ne.symm h)
  simp only [after?, hm, List.isPrefixOf, BEq.rfl, hc, Bool.false_and, Bool.and_false,
    Bool.false_eq_true, ↓reduceIte]

/-- Blanks are passed in front of a tag. -/
theorem misc_tag {c : Char} (hc : isNameStart c = true) (cs : List Char) (fuel : Nat)
    {s : List Char} (hs : skip s = '<' :: c :: cs) : misc (fuel + 1) s = some ('<' :: c :: cs) := by
  have hcomment : after? "<!--" ('<' :: c :: cs) = none :=
    after?_eq_none rfl (ne_of_isNameStart hc (by decide)) cs
  have hinstruction : after? "<?" ('<' :: c :: cs) = none :=
    after?_eq_none rfl (ne_of_isNameStart hc (by decide)) cs
  simp only [misc, hs, hcomment, hinstruction]

theorem toList_document (e : Element) :
    (document e).toList = declaration.toList ++ '\n' :: write 0 e := by
  simp only [document, String.toList_append, String.toList_ofList, List.append_assoc]
  rfl

/-- The root of a document whose root begins with a tag, when what follows the tag is read. -/
theorem root?_of_tag {n : Name} (space : n.space = none) (name : isName n.base = true)
    {as : List Attribute} (attributes : WritableAttributes as) {closed : Bool} {e : Element}
    {rest : List Char}
    (hrest : (if closed then some ([.node n as []], rest)
      else contentFrom (expansion {} 1) (rest.length + 1)
        ⟨some ⟨none, n.base⟩, n, as, [], rootSpaces⟩ [] rest) = some ([e], [])) :
    root? (declaration.toList ++ '\n' :: (openTag n as ++ (tagEnd closed ++ rest))) = some e := by
  have htag := tag?_written bare_expansion.predefined name attributes.each closed rest
  have hbegin := begin?_written space attributes closed
  obtain ⟨c, cs, hname, hc, -⟩ := isName_cases name
  obtain ⟨ds, hds, hstart⟩ : ∃ ds, declaration.toList = '<' :: ds ∧
      ∀ s, start? ('<' :: (ds ++ s)) = some (true, s) := ⟨_, rfl, fun _ => rfl⟩
  have hbracket : ∀ s : List Char, after? "<" ('<' :: s) = some s := fun _ => rfl
  rw [openTag_append, hds, List.cons_append]
  rw [hname, List.cons_append] at htag ⊢
  generalize cs ++ (as.flatMap writeAttribute ++ (tagEnd closed ++ rest)) = more at htag ⊢
  have hline : skip ('\n' :: '<' :: c :: more) = '<' :: c :: more := rfl
  have hskip : skip ('<' :: c :: more) = '<' :: c :: more := rfl
  have hdoctype : after? "<!DOCTYPE" ('<' :: c :: more) = none :=
    after?_eq_none rfl (ne_of_isNameStart hc (by decide)) more
  -- the text is kept as it is, and of the number of steps it only matters that there is one more
  unfold root?
  extract_lets t m
  have ht : t = '<' :: (ds ++ '\n' :: '<' :: c :: more) := rfl
  obtain ⟨k, hk⟩ : ∃ k, m = k + 1 := ⟨_, rfl⟩
  clear_value t m
  subst ht hk
  have hdepth : Declarations.depth {} = 1 := rfl
  simp +zetaDelta only [hstart, misc_tag hc more k hline, misc_tag hc more k hskip, hdoctype,
    hbracket, hdepth, htag, bare_expansion.complete, hbegin, Option.bind_eq_bind, Option.bind_some]
  cases closed with
  | true =>
    cases hrest
    rfl
  | false =>
    rw [if_neg (by decide)] at hrest ⊢
    rw [hrest]
    rfl

/-- **A document gives its root back.** -/
theorem read_document {e : Element} (h : e.Writable) : read (document e) = some e := by
  rw [read, toList_document]
  cases h with
  | @node n as es space name attributes children =>
    cases es with
    | nil =>
      rw [write_nil, ← List.append_nil (tagEnd true)]
      exact root?_of_tag space name attributes rfl
    | cons e es =>
      rw [write_cons]
      refine root?_of_tag space name attributes ?_
      obtain ⟨k, hk, hinside⟩ := contentFrom_inside name
        fun d hd => passes_write bare_expansion (children d hd) (0 + 1)
      obtain ⟨l, hl⟩ := Nat.exists_eq_add_of_le' (Nat.le_add_right_of_le (k := 1) hk)
      have h := hinside l as [] []
      rw [List.append_nil] at h
      rw [if_neg (by decide), hl, h]

/-! ### the text of a document -/

theorem isChar_ne_mark {c : Char} (h : isChar c = true) : c ≠ Text.mark := by
  rintro rfl
  exact absurd h (by decide)

theorem isNameChar_ne_mark {c : Char} (h : isNameChar c = true) : c ≠ Text.mark := by
  rintro rfl
  exact absurd h (by decide)

theorem ne_mark_of_isName {s : String} (h : isName s = true) : ∀ c ∈ s.toList, c ≠ Text.mark := by
  obtain ⟨c, cs, hs, hc, hcs⟩ := isName_cases h
  rw [hs, List.forall_mem_cons]
  exact ⟨ne_of_isNameStart hc (by decide), fun d hd => isNameChar_ne_mark (hcs d hd)⟩

theorem ne_mark_of_contains {l : List Char} (h : l.contains Text.mark = false) :
    ∀ c ∈ l, c ≠ Text.mark := by
  rintro c hc rfl
  rw [List.contains_iff_mem.mpr hc] at h
  cases h

theorem ne_mark_of_mem_escapeChar {c : Char} (h : isChar c = true) :
    ∀ d ∈ escapeChar c, d ≠ Text.mark := by
  have hescape := escape_escapeChar c
  generalize escapeChar c = text at hescape ⊢
  cases hescape with
  | plain => exact List.forall_mem_singleton.mpr (isChar_ne_mark h)
  | entity _ _ _ clean | number _ clean =>
    rw [List.forall_mem_cons]
    exact ⟨by decide, fun d hd e => clean.2 (e ▸ hd)⟩

theorem ne_mark_of_mem_openTag {n : Name} (name : isName n.base = true) {as : List Attribute}
    (attributes : WritableAttributes as) : ∀ c ∈ openTag n as, c ≠ Text.mark := by
  have hattribute : ∀ a ∈ as, ∀ c ∈ writeAttribute a, c ≠ Text.mark := by
    intro a ha
    have hvalue : ∀ c ∈ a.value.toList.flatMap escapeChar, c ≠ Text.mark := by
      intro c hc
      obtain ⟨d, hd, hcd⟩ := List.mem_flatMap.mp hc
      exact ne_mark_of_mem_escapeChar ((attributes.each a ha).value d hd) c hcd
    simp only [writeAttribute, List.cons_append, List.forall_mem_cons, List.forall_mem_append]
    exact ⟨by decide, ⟨⟨ne_mark_of_isName (attributes.each a ha).name, by decide, by decide,
      List.forall_mem_nil _⟩, hvalue⟩, by decide, List.forall_mem_nil _⟩
  simp only [openTag, List.cons_append, List.forall_mem_cons, List.forall_mem_append]
  refine ⟨by decide, ne_mark_of_isName name, fun c hc => ?_⟩
  obtain ⟨a, ha, hca⟩ := List.mem_flatMap.mp hc
  exact hattribute a ha c hca

theorem ne_mark_of_mem_newLine (level : Nat) : ∀ c ∈ newLine level, c ≠ Text.mark := by
  intro c hc
  rcases eq_of_mem_newLine hc with rfl | rfl <;> decide

theorem ne_mark_of_mem_tagEnd (closed : Bool) : ∀ c ∈ tagEnd closed, c ≠ Text.mark := by
  cases closed <;> exact ne_mark_of_contains (by decide)

theorem ne_mark_of_mem_write {e : Element} (h : e.Writable) (level : Nat) :
    ∀ c ∈ write level e, c ≠ Text.mark := by
  induction h generalizing level with
  | @node n as es space name attributes _ ih =>
    have htag := ne_mark_of_mem_openTag name attributes
    cases es with
    | nil =>
      rw [write_nil]
      exact List.forall_mem_append.mpr ⟨htag, ne_mark_of_mem_tagEnd true⟩
    | cons e es =>
      have heach : ∀ ds : List Element,
          (∀ d ∈ ds, ∀ l, ∀ c ∈ write l d, c ≠ Text.mark) →
            ∀ c ∈ writeEach (level + 1) ds, c ≠ Text.mark := by
        intro ds hds
        induction ds with
        | nil =>
          rw [writeEach]
          exact fun c hc => nomatch hc
        | cons d ds ihd =>
          rw [List.forall_mem_cons] at hds
          simp only [writeEach, List.forall_mem_append]
          exact ⟨⟨ne_mark_of_mem_newLine _, hds.1 _⟩, ihd hds.2⟩
      simp only [write_cons, writeInside, List.forall_mem_append, List.forall_mem_cons]
      exact ⟨htag, ne_mark_of_mem_tagEnd false, heach _ ih, ne_mark_of_mem_newLine _, by decide,
        by decide, ne_mark_of_isName name, by decide, List.forall_mem_nil _⟩

/-- No character of a document is a mark. -/
theorem mark_not_mem_document {e : Element} (h : e.Writable) :
    Text.mark ∉ (document e).toList := by
  have hdeclaration : ∀ c ∈ declaration.toList, c ≠ Text.mark := ne_mark_of_contains (by decide)
  intro hm
  rw [toList_document, List.mem_append, List.mem_cons] at hm
  rcases hm with hm | hm | hm
  · exact hdeclaration _ hm rfl
  · exact absurd hm (by decide)
  · exact ne_mark_of_mem_write h 0 _ hm rfl

theorem head?_document (e : Element) : (document e).toList.head? = some '<' := by
  rw [toList_document, List.head?_append]
  rfl

theorem getLast?_write (level : Nat) (e : Element) : (write level e).getLast? = some '>' := by
  obtain ⟨n, as, es⟩ := e
  cases es with
  | nil => simp [write_nil, tagEnd]
  | cons e es => simp [write_cons, writeInside, List.getLast?_cons]

theorem getLast?_document (e : Element) : (document e).toList.getLast? = some '>' := by
  rw [toList_document, List.getLast?_append, List.getLast?_cons, getLast?_write]
  rfl

end Ladybug.Xml

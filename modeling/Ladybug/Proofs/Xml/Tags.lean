import Ladybug.Proofs.Text
import Ladybug.Xml.Reader
import Mathlib.Data.List.Nodup

/-!
# Tags that are written and read back

* `isName`                 the names that can be written
* `Escape`                 the ways in which a character of a value is written
* `valueFrom_escaped`      the text of a value gives the value back, whatever its characters are
* `attributesFrom_written` the attributes of a tag give themselves back, with the end of the tag
* `begin?_written`         the element that the tag begins
-/

namespace Ladybug.Xml

open Element

/-! ### names -/

/-- A name that has no colon. -/
def isName (s : String) : Bool :=
  match s.toList with
  | c :: cs => isNameStart c && cs.all isNameChar
  | [] => false

/-- A text after a name does not go on with it. -/
def EndsName (s : List Char) : Prop := ∀ c ∈ s.head?, isNameChar c = false ∧ c ≠ ':'

theorem isName_cases {s : String} (h : isName s = true) :
    ∃ c cs, s.toList = c :: cs ∧ isNameStart c = true ∧ ∀ d ∈ cs, isNameChar d = true := by
  unfold isName at h
  split at h
  · rename_i c cs hs
    rw [Bool.and_eq_true, List.all_eq_true] at h
    exact ⟨c, cs, hs, h.1, h.2⟩
  · cases h

theorem ne_of_isNameStart {c d : Char} (hc : isNameStart c = true) (hd : isNameStart d = false) :
    c ≠ d := by
  rintro rfl
  exact Bool.noConfusion (hc.symm.trans hd)

theorem not_isSpace_of_isNameStart {c : Char} (hc : isNameStart c = true) : isSpace c = false := by
  have h {d : Char} (hd : isNameStart d = false) : (c == d) = false :=
    beq_eq_false_iff_ne.mpr (ne_of_isNameStart hc hd)
  simp only [isSpace, h (d := ' ') (by decide), h (d := '\t') (by decide),
    h (d := '\r') (by decide), h (d := '\n') (by decide), Bool.or_false]

/-- Nothing is skipped before a name. -/
theorem skip_name {c : Char} (hc : isNameStart c = true) (cs : List Char) :
    skip (c :: cs) = c :: cs :=
  List.dropWhile_cons_of_neg (by rw [not_isSpace_of_isNameStart hc]; decide)

theorem simpleName?_written {s : String} (h : isName s = true) {rest : List Char}
    (hrest : EndsName rest) : simpleName? (s.toList ++ rest) = some (s, rest) := by
  obtain ⟨c, cs, hs, hc, hcs⟩ := isName_cases h
  have hend : ∀ c ∈ rest.head?, isNameChar c = false := fun c hc => (hrest c hc).1
  rw [hs, List.cons_append, simpleName?, if_pos hc, Text.takeWhile_prefix hcs hend,
    Text.dropWhile_prefix hcs hend, ← hs, String.ofList_toList]

theorem rawName?_written {s : String} (h : isName s = true) {rest : List Char}
    (hrest : EndsName rest) : rawName? (s.toList ++ rest) = some (⟨none, s⟩, rest) := by
  unfold rawName?
  rw [simpleName?_written h hrest]
  cases rest with
  | nil => rfl
  | cons c cs =>
    have hc : c ≠ ':' := (hrest c rfl).2
    split
    · rename_i heq
      cases heq
    · rename_i heq
      cases heq
      exact absurd rfl hc
    · rename_i heq
      cases heq
      rfl

/-! ### values -/

theorem until?_written {q : Char} {v : List Char} (h : q ∉ v) (rest done : List Char) :
    until? [q] (v ++ q :: rest) done = some (done.reverse ++ v, rest) := by
  induction v generalizing done with
  | nil => simp [until?]
  | cons c v ih =>
    have hc : (q == c) = false := beq_eq_false_iff_ne.mpr fun e => h (e ▸ List.mem_cons_self)
    rw [List.cons_append, until?]
    simp only [List.isPrefixOf, hc, Bool.false_and, Bool.false_eq_true, ↓reduceIte]
    rw [ih (fun hv => h (List.mem_cons_of_mem c hv)), List.reverse_cons, List.append_assoc]
    rfl

/-- characters of markup that end no value -/
def Clean (s : List Char) : Prop := '"' ∉ s ∧ Text.mark ∉ s

instance (s : List Char) : Decidable (Clean s) := inferInstanceAs (Decidable (_ ∧ _))

/-- The ways in which a character of a value is written. -/
inductive Escape (c : Char) : List Char → Prop
  | plain (ampersand : c ≠ '&') (bracket : c ≠ '<') (quote : c ≠ '"')
      (space : isSpace c = true → c = ' ') : Escape c [c]
  | entity (name : String) {s : List Char} (predefined : predefined? name = some c)
      (reads : ∀ rest, reference? (s ++ rest) = some (.entity name, rest)) (clean : Clean s) :
      Escape c ('&' :: s)
  | number {s : List Char} (reads : ∀ rest, reference? (s ++ rest) = some (.char c, rest))
      (clean : Clean s) : Escape c ('&' :: s)

theorem escape_escapeChar (c : Char) : Escape c (escapeChar c) := by
  unfold escapeChar
  by_cases h₁ : c = '&'
  · subst h₁
    exact .entity "amp" rfl (fun _ => rfl) (by decide)
  by_cases h₂ : c = '<'
  · subst h₂
    exact .entity "lt" rfl (fun _ => rfl) (by decide)
  by_cases h₃ : c = '>'
  · subst h₃
    exact .entity "gt" rfl (fun _ => rfl) (by decide)
  by_cases h₄ : c = '"'
  · subst h₄
    exact .entity "quot" rfl (fun _ => rfl) (by decide)
  by_cases h₅ : c = '\r'
  · subst h₅
    exact .number (fun _ => rfl) (by decide)
  by_cases h₆ : c = '\n'
  · subst h₆
    exact .number (fun _ => rfl) (by decide)
  by_cases h₇ : c = '\t'
  · subst h₇
    exact .number (fun _ => rfl) (by decide)
  simp only [beq_iff_eq, h₁, h₂, h₃, h₄, h₅, h₆, h₇, ↓reduceIte]
  exact .plain h₁ h₂ h₄ (by simp [isSpace, h₅, h₆, h₇])

theorem quote_not_mem_escapeChar (c : Char) : '"' ∉ escapeChar c := by
  have hc := escape_escapeChar c
  generalize escapeChar c = text at hc
  cases hc with
  | plain _ _ quote _ => exact fun h => quote (List.mem_singleton.mp h).symm
  | entity _ _ _ clean | number _ clean =>
    rw [List.mem_cons, not_or]
    exact ⟨by decide, clean.1⟩

/-- Entities with the predefined ones among them. -/
def Predefined (expand : String → Option (List Char)) : Prop :=
  ∀ name c, predefined? name = some c → expand name = some [c]

variable {expand : String → Option (List Char)}

/-- One character of a value is read back. -/
theorem valueFrom_escapeChar (he : Predefined expand) {c : Char} (hc : isChar c = true)
    (fuel : Nat) (rest done : List Char) :
    valueFrom expand (fuel + 1) (escapeChar c ++ rest) done
      = valueFrom expand fuel rest (c :: done) := by
  have hescape := escape_escapeChar c
  generalize escapeChar c = text at hescape ⊢
  cases hescape with
  | plain ampersand bracket _ space =>
    rw [List.singleton_append, valueFrom]
    · by_cases h : isSpace c = true
      · rw [space h]
        rfl
      · simp only [hc, h, Bool.not_true, Bool.or_false,
          beq_eq_false_iff_ne.mpr bracket, Bool.false_eq_true, ↓reduceIte]
    · exact ampersand
    · rintro s' rfl
      exact absurd (space rfl) (by decide)
  | entity name predefined reads _ =>
    rw [List.cons_append, valueFrom, reads]
    simp only [he name c predefined]
    rfl
  | number reads _ =>
    rw [List.cons_append, valueFrom, reads]

theorem valueFrom_escaped (he : Predefined expand) {v : List Char}
    (hv : ∀ c ∈ v, isChar c = true) (fuel : Nat) (done : List Char) :
    valueFrom expand (fuel + v.length + 1) (v.flatMap escapeChar) done
      = some (done.reverse ++ v) := by
  induction v generalizing done with
  | nil => rw [List.flatMap_nil, List.append_nil, valueFrom]
  | cons c v ih =>
    rw [List.flatMap_cons, List.length_cons, ← Nat.add_assoc,
      valueFrom_escapeChar he (hv c List.mem_cons_self),
      ih (fun d hd => hv d (List.mem_cons_of_mem c hd)), List.reverse_cons, List.append_assoc]
    rfl

theorem length_le_escaped (v : List Char) : v.length ≤ (v.flatMap escapeChar).length := by
  induction v with
  | nil => exact Nat.le_refl _
  | cons c v ih =>
    have hc : 1 ≤ (escapeChar c).length := by
      have hescape := escape_escapeChar c
      generalize escapeChar c = text at hescape ⊢
      cases hescape <;> exact Nat.le_add_left 1 _
    rw [List.flatMap_cons, List.length_append, List.length_cons]
    omega

/-- The text of a value gives the value back. -/
theorem value?_written (he : Predefined expand) {v : List Char}
    (hv : ∀ c ∈ v, isChar c = true) : value? expand (v.flatMap escapeChar) = some v := by
  obtain ⟨n, hn⟩ := Nat.exists_eq_add_of_le' (length_le_escaped v)
  rw [value?, hn, valueFrom_escaped he hv]
  rfl

/-! ### attributes -/

/-- An attribute that can be written: it declares no name space and its value is text that a
document may hold. -/
structure Attribute.Writable (a : Attribute) : Prop where
  space : a.name.space = none
  name : isName a.name.base = true
  undeclaring : a.name.base ≠ "xmlns"
  value : ∀ c ∈ a.value.toList, isChar c = true

/-- an attribute as it is read -/
def Attribute.pair (a : Attribute) : Raw × String := (⟨none, a.name.base⟩, a.value)

theorem attribute?_written (he : Predefined expand) {a : Attribute} (ha : a.Writable)
    (rest : List Char) :
    attribute? expand (a.name.base.toList
      ++ '=' :: '"' :: (a.value.toList.flatMap escapeChar ++ '"' :: rest))
      = some (a.pair, rest) := by
  have hquote : '"' ∉ a.value.toList.flatMap escapeChar := by
    rw [List.mem_flatMap]
    rintro ⟨c, -, hc⟩
    exact quote_not_mem_escapeChar c hc
  have hends : EndsName ('=' :: '"' :: (a.value.toList.flatMap escapeChar ++ '"' :: rest)) := by
    rintro c ⟨⟩
    decide
  have hname := rawName?_written ha.name hends
  have hskip : ∀ s : List Char, after? "=" (skip ('=' :: s)) = some s := fun _ => rfl
  have hquoted : quoted? (skip ('"' :: (a.value.toList.flatMap escapeChar ++ '"' :: rest)))
      = some (a.value.toList.flatMap escapeChar, rest) := by
    show until? ['"'] (a.value.toList.flatMap escapeChar ++ '"' :: rest) [] = _
    rw [until?_written hquote]
    rfl
  simp only [attribute?, hname, hskip, hquoted, value?_written he ha.value, Option.bind_eq_bind,
    Option.bind_some, String.ofList_toList, Attribute.pair]

/-- The end of a tag, with a sign that the element is over or without it. -/
def tagEnd : (closed : Bool) → List Char
  | true => [' ', '/', '>']
  | false => ['>']

theorem attributesFrom_tagEnd (c : Char) (bound : List Char) (done : List (Raw × String))
    (closed : Bool) (rest : List Char) :
    attributesFrom expand (c :: bound) done (tagEnd closed ++ rest)
      = some ((done.reverse, closed), rest) := by
  cases closed <;> rfl

theorem attributesFrom_attribute {d : Char} (hd : isNameStart d = true) {ds rest : List Char}
    {p : Raw × String} (h : attribute? expand (d :: ds) = some (p, rest)) (c : Char)
    (bound : List Char) (done : List (Raw × String)) :
    attributesFrom expand (c :: bound) done (' ' :: d :: ds)
      = attributesFrom expand bound (p :: done) rest := by
  have hskip : skip (' ' :: d :: ds) = d :: ds := skip_name hd ds
  rw [attributesFrom, hskip]
  split
  · rename_i heq
    cases heq
    exact absurd hd (by decide)
  · rename_i heq
    cases heq
    exact absurd hd (by decide)
  · simp only [startsBlank, isSpace, BEq.rfl, Bool.true_or, ↓reduceIte, h]

/-- **The attributes of a tag are read back, with the end of the tag.** -/
theorem attributesFrom_written (he : Predefined expand) {as : List Attribute}
    (has : ∀ a ∈ as, a.Writable) {bound : List Char} (hbound : as.length < bound.length)
    (done : List (Raw × String)) (closed : Bool) (rest : List Char) :
    attributesFrom expand bound done (as.flatMap writeAttribute ++ (tagEnd closed ++ rest))
      = some ((done.reverse ++ as.map Attribute.pair, closed), rest) := by
  induction as generalizing bound done with
  | nil =>
    cases bound with
    | nil => cases hbound
    | cons c bound =>
      rw [List.flatMap_nil, List.nil_append, attributesFrom_tagEnd, List.map_nil,
        List.append_nil]
  | cons a as ih =>
    cases bound with
    | nil => cases hbound
    | cons c bound =>
      have ha := has a List.mem_cons_self
      have hread := attribute?_written he ha
        (as.flatMap writeAttribute ++ (tagEnd closed ++ rest))
      obtain ⟨d, ds, hname, hd, -⟩ := isName_cases ha.name
      have hwritten : (a :: as).flatMap writeAttribute ++ (tagEnd closed ++ rest)
          = ' ' :: (a.name.base.toList ++ '=' :: '"' :: (a.value.toList.flatMap escapeChar
            ++ '"' :: (as.flatMap writeAttribute ++ (tagEnd closed ++ rest)))) := by
        simp [writeAttribute]
      rw [hname, List.cons_append] at hwritten hread
      rw [hwritten, attributesFrom_attribute hd hread,
        ih (fun b hb => has b (List.mem_cons_of_mem a hb)) (Nat.lt_of_succ_lt_succ hbound),
        List.reverse_cons, List.append_assoc]
      rfl

theorem length_le_written (as : List Attribute) :
    as.length ≤ (as.flatMap writeAttribute).length := by
  induction as with
  | nil => exact Nat.le_refl _
  | cons a as ih =>
    have ha : 1 ≤ (writeAttribute a).length := by simp [writeAttribute]
    rw [List.flatMap_cons, List.length_append, List.length_cons]
    omega

/-- **A tag is read back.** -/
theorem tag?_written (he : Predefined expand) {n : Name} (hn : isName n.base = true)
    {as : List Attribute} (has : ∀ a ∈ as, a.Writable) (closed : Bool) (rest : List Char) :
    tag? expand (n.base.toList ++ (as.flatMap writeAttribute ++ (tagEnd closed ++ rest)))
      = some (⟨⟨none, n.base⟩, as.map Attribute.pair, closed⟩, rest) := by
  have hends : EndsName (as.flatMap writeAttribute ++ (tagEnd closed ++ rest)) := by
    cases as with
    | nil =>
      cases closed <;>
      · rintro c ⟨⟩
        decide
    | cons a as =>
      rintro c ⟨⟩
      decide
  have hbound : as.length < (as.flatMap writeAttribute ++ (tagEnd closed ++ rest)).length := by
    have hle := length_le_written as
    have hend : 1 ≤ (tagEnd closed).length := by cases closed <;> decide
    simp only [List.length_append]
    omega
  simp only [tag?, rawName?_written hn hends, attributesFrom_written he has hbound,
    Option.bind_eq_bind, Option.bind_some, List.reverse_nil, List.nil_append]

/-! ### what a tag begins -/

/-- Attributes that can be written together. -/
structure WritableAttributes (as : List Attribute) : Prop where
  each : ∀ a ∈ as, a.Writable
  once : (as.map fun a => a.name.base).Nodup

theorem eraseDups_of_nodup {α : Type} [BEq α] [LawfulBEq α] {l : List α} (h : l.Nodup) :
    l.eraseDups = l := by
  induction l with
  | nil => rfl
  | cons a l ih =>
    rw [List.nodup_cons] at h
    rw [List.eraseDups_cons, List.filter_eq_self.mpr, ih h.2]
    intro b hb
    rw [Bool.not_eq_true', beq_eq_false_iff_ne]
    exact fun e => h.1 (e ▸ hb)

theorem declared?_writable {s : String} (h : s ≠ "xmlns") : declared? ⟨none, s⟩ = none := by
  unfold declared?
  split
  · rename_i heq
    cases heq
    exact absurd rfl h
  · rename_i heq
    cases heq
  · rfl

theorem declareAll_writable {as : List Attribute} (has : ∀ a ∈ as, a.Writable) (spaces : Spaces) :
    declareAll spaces (as.map Attribute.pair) = some spaces := by
  induction as with
  | nil => rfl
  | cons a as ih =>
    rw [List.map_cons, Attribute.pair, declareAll,
      declared?_writable (has a List.mem_cons_self).undeclaring]
    exact ih fun b hb => has b (List.mem_cons_of_mem a hb)

/-- Attributes get the names that they were written with. -/
theorem mapM_attributeName?_writable {as : List Attribute} (has : ∀ a ∈ as, a.Writable)
    (spaces : Spaces) :
    ((as.map Attribute.pair).mapM fun p =>
      (attributeName? spaces p.1).bind fun n => some (Attribute.mk n p.2)) = some as := by
  induction as with
  | nil => rfl
  | cons a as ih =>
    obtain ⟨⟨space, base⟩, value⟩ := a
    cases (has _ List.mem_cons_self).space
    rw [List.map_cons, List.mapM_cons, ih fun b hb => has b (List.mem_cons_of_mem _ hb)]
    rfl

/-- **A tag begins the element that it was written for.** -/
theorem begin?_written {n : Name} (hn : n.space = none) {as : List Attribute}
    (has : WritableAttributes as) (closed : Bool) :
    begin? rootSpaces ⟨⟨none, n.base⟩, as.map Attribute.pair, closed⟩
      = some ⟨some ⟨none, n.base⟩, n, as, [], rootSpaces⟩ := by
  obtain ⟨space, base⟩ := n
  cases hn
  have hraws : (as.map fun a => (⟨none, a.name.base⟩ : Raw)).Nodup := by
    have h : Function.Injective fun s => (⟨none, s⟩ : Raw) := fun s t e => (Raw.mk.inj e).2
    exact List.map_map ▸ has.once.map h
  have hnames : (as.map Attribute.name).Nodup :=
    List.Nodup.of_map Name.base (by rw [List.map_map]; exact has.once)
  have hfilter : ((as.map Attribute.pair).filter fun p => (declared? p.1).isNone)
      = as.map Attribute.pair := by
    rw [List.filter_eq_self]
    intro p hp
    obtain ⟨a, ha, rfl⟩ := List.mem_map.mp hp
    rw [Attribute.pair, declared?_writable (has.each a ha).undeclaring]
    rfl
  have hfst : (as.map Attribute.pair).map Prod.fst
      = as.map fun a => (⟨none, a.name.base⟩ : Raw) := by
    rw [List.map_map]
    rfl
  have hname : elementName? rootSpaces ⟨none, base⟩ = some ⟨none, base⟩ := rfl
  simp only [begin?, hfst, eraseDups_of_nodup hraws, bne_self_eq_false, Bool.false_eq_true,
    ↓reduceIte, declareAll_writable has.each, hname, hfilter, mapM_attributeName?_writable has.each,
    eraseDups_of_nodup hnames, Option.bind_eq_bind, Option.bind_some]

end Ladybug.Xml

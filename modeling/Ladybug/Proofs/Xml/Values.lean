import Ladybug.Proofs.Text
import Ladybug.Xml.Reader

/-!
# The values of a document that is read

Whatever a document declares and refers to, the values of its attributes are made of characters that
a document can hold: those that stand in it, those it gives by their numbers, and the texts of its
entities, which are made of such characters too.

* `Chars`                     characters that a document can hold
* `chars_valueFrom`, `legible_expand`   the value of an attribute, and what entities stand for in it
* `Declarations.Sound`        default values are made of such characters
* `Element.Sound`             so are the values in an element and in all elements inside it
* `sound_read`                every document that is read is sound
-/

namespace Ladybug.Xml

/-- characters that a document can hold -/
def Chars (cs : List Char) : Prop := ∀ c ∈ cs, isChar c = true

/-- an expansion of entities that gives such characters -/
def Legible (expand : String → Option (List Char)) : Prop :=
  ∀ ⦃name text⦄, expand name = some text → Chars text

theorem Chars.cons {c : Char} {cs : List Char} (hc : isChar c = true) (h : Chars cs) :
    Chars (c :: cs) :=
  List.forall_mem_cons.mpr ⟨hc, h⟩

theorem Chars.append {cs ds : List Char} (h : Chars cs) (h' : Chars ds) : Chars (cs ++ ds) :=
  List.forall_mem_append.mpr ⟨h, h'⟩

theorem Chars.reverse {cs : List Char} (h : Chars cs) : Chars cs.reverse :=
  fun c hc => h c (List.mem_reverse.mp hc)

/-! ### references -/

theorem isChar_of_predefined? {name : String} {c : Char} (h : predefined? name = some c) :
    isChar c = true := by
  unfold predefined? at h
  split at h <;> cases h <;> decide

theorem isChar_of_number? {base : Nat} {value : Char → Option Nat} {s rest : List Char} {c : Char}
    (h : number? base value s = some (.char c, rest)) : isChar c = true := by
  unfold number? at h
  dsimp only at h
  split at h
  · obtain ⟨d, hd, heq⟩ := Option.map_eq_some_iff.mp h
    cases heq
    unfold charOf? at hd
    split_ifs at hd with hchar
    cases hd
    exact (Bool.and_eq_true_iff.mp hchar).2
  · cases h

/-- The character that a reference stands for. -/
theorem isChar_of_reference? {s rest : List Char} {c : Char}
    (h : reference? s = some (.char c, rest)) : isChar c = true := by
  unfold reference? at h
  split at h
  · exact isChar_of_number? h
  · exact isChar_of_number? h
  · split at h <;> cases h

/-! ### values -/

/-- **A value is made of such characters**, whatever stands in it. -/
theorem chars_valueFrom {expand : String → Option (List Char)} (hexpand : Legible expand)
    {fuel : Nat} {s done v : List Char} (hdone : Chars done)
    (h : valueFrom expand fuel s done = some v) : Chars v := by
  fun_induction valueFrom expand fuel s done with
  | case1 => cases h
  | case2 fuel done =>
    cases h
    exact hdone.reverse
  | case3 fuel s done c rest href ih => exact ih (hdone.cons (isChar_of_reference? href)) h
  | case4 fuel s done name rest href text htext ih =>
    exact ih ((hexpand htext).reverse.append hdone) h
  | case5 => cases h
  | case6 => cases h
  | case7 fuel done s ih => exact ih (hdone.cons (by decide)) h
  | case8 => cases h
  | case9 fuel done c s _ _ hc ih =>
    rw [Bool.or_eq_true, not_or, Bool.not_eq_true, Bool.not_eq_true, Bool.not_eq_false'] at hc
    refine ih (hdone.cons ?_) h
    split
    · decide
    · exact hc.2

theorem chars_value? {expand : String → Option (List Char)} (hexpand : Legible expand)
    {s v : List Char} (h : value? expand s = some v) : Chars v :=
  chars_valueFrom hexpand (List.forall_mem_nil _) h

/-- **So is what an entity stands for**, with the entities in it. -/
theorem legible_expand (ds : Declarations) (depth : Nat) : Legible (ds.expand depth) := by
  induction depth with
  | zero => exact nofun
  | succ depth ih =>
    intro name text h
    unfold Declarations.expand at h
    split at h
    · rename_i hc
      cases h
      exact List.forall_mem_singleton.mpr (isChar_of_predefined? hc)
    · split at h
      · exact chars_value? ih h
      · cases h
      · split_ifs at h
        cases h
        exact List.forall_mem_nil _

/-! ### words -/

theorem mem_intercalate_of_mem {α : Type} {sep l : List α} {ls : List (List α)} {x : α}
    (hl : l ∈ ls) (hx : x ∈ l) : x ∈ sep.intercalate ls := by
  induction ls with
  | nil => cases hl
  | cons k ls ih =>
    cases ls with
    | nil =>
      rw [List.mem_singleton.mp hl] at hx
      rwa [List.intercalate_singleton]
    | cons k' ls =>
      rw [List.intercalate_cons_cons]
      rcases List.mem_cons.mp hl with rfl | hl
      · exact List.mem_append_left _ (List.mem_append_left _ hx)
      · exact List.mem_append_right _ (ih hl)

theorem mem_of_mem_intercalate {α : Type} {sep : List α} {ls : List (List α)} {x : α}
    (h : x ∈ sep.intercalate ls) : x ∈ sep ∨ ∃ l ∈ ls, x ∈ l := by
  induction ls with
  | nil => cases h
  | cons k ls ih =>
    cases ls with
    | nil =>
      rw [List.intercalate_singleton] at h
      exact .inr ⟨k, List.mem_cons_self, h⟩
    | cons k' ls =>
      rw [List.intercalate_cons_cons] at h
      rcases List.mem_append.mp h with h | h
      · rcases List.mem_append.mp h with h | h
        · exact .inr ⟨k, List.mem_cons_self, h⟩
        · exact .inl h
      · exact (ih h).imp_right fun ⟨l, hl, hx⟩ => ⟨l, List.mem_cons_of_mem k hl, hx⟩

theorem chars_collapsed {v : List Char} (h : Chars v) : Chars (collapsed v) := by
  intro c hc
  rcases mem_of_mem_intercalate hc with hc | ⟨word, hword, hc⟩
  · rw [List.mem_singleton.mp hc]
    decide
  · have hjoined : [' '].intercalate (v.splitOn ' ') = v := List.intercalate_splitOn ' '
    rw [← hjoined] at h
    exact h c (mem_intercalate_of_mem (List.mem_filter.mp hword).1 hc)

theorem chars_valueText {tokens : Bool} {v : List Char} (h : Chars v) :
    Chars (valueText tokens v).toList := by
  rw [valueText, String.toList_ofList]
  split
  · exact chars_collapsed h
  · exact h

/-! ### declarations -/

/-- Default values are made of characters that a document can hold. -/
def Declarations.Sound (ds : Declarations) : Prop :=
  ∀ a ∈ ds.attributes, ∀ v, a.default = some v → Chars v.toList

namespace Declarations.Sound

variable {ds ds' : Declarations} {s rest : List Char}

theorem addEntity (h : ds.Sound) (name : String) (text : Option (List Char)) :
    (ds.addEntity name text).Sound := by
  unfold Declarations.addEntity
  split
  · exact h
  · exact h

theorem addAttribute (h : ds.Sound) {a : AttributeDeclaration}
    (ha : ∀ v, a.default = some v → Chars v.toList) : (ds.addAttribute a).Sound := by
  unfold Declarations.addAttribute
  split
  · exact h
  · exact List.forall_mem_append.mpr ⟨h, List.forall_mem_singleton.mpr ha⟩

end Declarations.Sound

/-- the value after whatever stands before it -/
theorem chars_of_default {ds : Declarations} {tokens : Bool} {text rest rest' : List Char}
    {default : Option String}
    (h : (if ds.closed then (if text.all isChar then some (none, rest) else none)
      else do
        let value ← value? (ds.expand ds.depth) text
        some (some (valueText tokens value), rest)) = some (default, rest')) :
    ∀ v, default = some v → Chars v.toList := by
  split_ifs at h
  · cases h
    exact nofun
  · obtain ⟨value, hvalue, heq⟩ := Option.bind_eq_some_iff.mp h
    cases heq
    rintro v ⟨⟩
    exact chars_valueText (chars_value? (legible_expand ds _) hvalue)

theorem chars_default? {ds : Declarations} {tokens : Bool} {s rest : List Char}
    {default : Option String} (h : default? ds tokens s = some (default, rest)) :
    ∀ v, default = some v → Chars v.toList := by
  unfold default? at h
  split at h
  · cases h
    exact nofun
  · dsimp only at h
    split at h
    · obtain ⟨_, -, h⟩ := Option.bind_eq_some_iff.mp h
      obtain ⟨_, -, h⟩ := Option.bind_eq_some_iff.mp h
      exact chars_of_default h
    · obtain ⟨_, -, h⟩ := Option.bind_eq_some_iff.mp h
      obtain ⟨_, -, h⟩ := Option.bind_eq_some_iff.mp h
      exact chars_of_default h

namespace Declarations.Sound

variable {ds ds' : Declarations} {s rest : List Char}

theorem attributeDeclaration? (h : ds.Sound) {element : Raw}
    (hread : Xml.attributeDeclaration? ds element s = some (ds', rest)) : ds'.Sound := by
  unfold Xml.attributeDeclaration? at hread
  simp only [Option.bind_eq_bind, Option.bind_eq_some_iff] at hread
  obtain ⟨⟨name, _⟩, -, _, -, ⟨tokens, _⟩, -, _, -, ⟨value, _⟩, hvalue, hread⟩ := hread
  cases hread
  exact h.addAttribute (chars_default? hvalue)

theorem attributeDeclarations? (h : ds.Sound) {element : Raw} {fuel : Nat}
    (hread : Xml.attributeDeclarations? element fuel ds s = some (ds', rest)) : ds'.Sound := by
  induction fuel generalizing ds s with
  | zero => cases hread
  | succ fuel ih =>
    unfold Xml.attributeDeclarations? at hread
    split at hread
    · cases hread
      exact h
    · cases hread
    · split at hread
      · rename_i hone
        exact ih (h.attributeDeclaration? hone) hread
      · cases hread

theorem attributeList? (h : ds.Sound) (hread : Xml.attributeList? ds s = some (ds', rest)) :
    ds'.Sound := by
  unfold Xml.attributeList? at hread
  simp only [Option.bind_eq_bind, Option.bind_eq_some_iff] at hread
  obtain ⟨_, -, ⟨element, _⟩, -, hread⟩ := hread
  exact h.attributeDeclarations? hread

theorem oneDeclaration? (h : ds.Sound) (hread : Xml.oneDeclaration? ds s = some (ds', rest)) :
    ds'.Sound := by
  unfold Xml.oneDeclaration? at hread
  split at hread
  · split at hread
    · cases hread
      exact h.addEntity _ _
    · cases hread
      exact h
    · cases hread
  · exact h.attributeList? hread
  · split at hread
    · obtain ⟨_, -, heq⟩ := Option.map_eq_some_iff.mp hread
      cases heq
      exact h
    · obtain ⟨_, -, heq⟩ := Option.map_eq_some_iff.mp hread
      cases heq
      exact h
    · cases hread

/-- **Every declaration keeps it so.** -/
theorem declarations? (h : ds.Sound) {fuel : Nat}
    (hread : Xml.declarations? fuel ds s = some (ds', rest)) : ds'.Sound := by
  induction fuel generalizing ds s with
  | zero => cases hread
  | succ fuel ih =>
    unfold Xml.declarations? at hread
    split at hread
    · cases hread
    · cases hread
      exact h
    · split at hread
      · have hskips : Declarations.Sound { ds with skips := true } := h
        exact ih hskips hread
      · cases hread
    · split at hread
      · obtain ⟨_, -, hread⟩ := Option.bind_eq_some_iff.mp hread
        exact ih h hread
      · obtain ⟨_, -, hread⟩ := Option.bind_eq_some_iff.mp hread
        exact ih h hread
      · split at hread
        · rename_i hone
          exact ih (h.oneDeclaration? hone) hread
        · cases hread
      · cases hread

theorem nothing (standalone outside : Bool) : Declarations.Sound { standalone, outside } :=
  List.forall_mem_nil _

theorem doctype? {standalone : Bool} (hread : Xml.doctype? standalone s = some (ds', rest)) :
    ds'.Sound := by
  unfold Xml.doctype? at hread
  obtain ⟨_, -, hread⟩ := Option.bind_eq_some_iff.mp hread
  obtain ⟨⟨_, _⟩, -, hread⟩ := Option.bind_eq_some_iff.mp hread
  dsimp only at hread
  split at hread
  · obtain ⟨⟨_, _⟩, hinside, hread⟩ := Option.bind_eq_some_iff.mp hread
    obtain ⟨⟨_, _⟩, hds, heq⟩ := Option.map_eq_some_iff.mp hinside
    obtain ⟨_, -, hread⟩ := Option.bind_eq_some_iff.mp hread
    cases heq
    cases hread
    exact (nothing standalone _).declarations? hds
  · obtain ⟨⟨_, _⟩, hds, hread⟩ := Option.bind_eq_some_iff.mp hread
    obtain ⟨_, -, hread⟩ := Option.bind_eq_some_iff.mp hread
    cases hds
    cases hread
    exact nothing standalone _

end Declarations.Sound

/-! ### tags -/

/-- Every item of a list that is read comes from an item. -/
theorem exists_of_mem_mapM {α β : Type} {read : α → Option β} {as : List α} {bs : List β}
    (h : as.mapM read = some bs) {b : β} (hb : b ∈ bs) : ∃ a ∈ as, read a = some b := by
  induction as generalizing bs with
  | nil =>
    cases h
    cases hb
  | cons a as ih =>
    rw [List.mapM_cons] at h
    obtain ⟨c, hc, h⟩ := Option.bind_eq_some_iff.mp h
    obtain ⟨cs, hcs, heq⟩ := Option.bind_eq_some_iff.mp h
    cases heq
    rcases List.mem_cons.mp hb with rfl | hb
    · exact ⟨a, List.mem_cons_self, hc⟩
    · obtain ⟨d, hd, hread⟩ := ih hcs hb
      exact ⟨d, List.mem_cons_of_mem a hd, hread⟩

/-- Values are made of characters that a document can hold. -/
def Tag.Sound (t : Tag) : Prop := ∀ a ∈ t.attributes, Chars a.2.toList

theorem chars_attribute? {expand : String → Option (List Char)} (hexpand : Legible expand)
    {s rest : List Char} {a : Raw × String} (h : attribute? expand s = some (a, rest)) :
    Chars a.2.toList := by
  unfold attribute? at h
  simp only [Option.bind_eq_bind, Option.bind_eq_some_iff] at h
  obtain ⟨⟨name, _⟩, -, _, -, ⟨text, _⟩, -, value, hvalue, heq⟩ := h
  cases heq
  rw [String.toList_ofList]
  exact chars_value? hexpand hvalue

theorem chars_attributesFrom {expand : String → Option (List Char)} (hexpand : Legible expand)
    {bound s rest : List Char} {done as : List (Raw × String)} {closed : Bool}
    (hdone : ∀ a ∈ done, Chars a.2.toList)
    (h : attributesFrom expand bound done s = some ((as, closed), rest)) :
    ∀ a ∈ as, Chars a.2.toList := by
  induction bound generalizing done s with
  | nil => cases h
  | cons _ bound ih =>
    unfold attributesFrom at h
    split at h
    · cases h
      exact fun a ha => hdone a (List.mem_reverse.mp ha)
    · cases h
      exact fun a ha => hdone a (List.mem_reverse.mp ha)
    · split_ifs at h
      split at h
      · rename_i hone
        exact ih (List.forall_mem_cons.mpr ⟨chars_attribute? hexpand hone, hdone⟩) h
      · cases h

theorem sound_tag? {expand : String → Option (List Char)} (hexpand : Legible expand)
    {s rest : List Char} {t : Tag} (h : tag? expand s = some (t, rest)) : t.Sound := by
  unfold tag? at h
  simp only [Option.bind_eq_bind, Option.bind_eq_some_iff] at h
  obtain ⟨⟨name, _⟩, -, ⟨⟨as, closed⟩, _⟩, has, heq⟩ := h
  cases heq
  exact chars_attributesFrom hexpand (List.forall_mem_nil _) has

/-- Values that are completed, and default values, are made of such characters. -/
theorem Declarations.Sound.complete {ds : Declarations} (h : ds.Sound) {t : Tag} (ht : t.Sound) :
    (ds.complete t).Sound := by
  refine List.forall_mem_append.mpr ⟨?_, fun a ha => ?_⟩
  · exact List.forall_mem_map.mpr fun a ha => chars_valueText (ht a ha)
  · obtain ⟨d, hd, heq⟩ := List.mem_filterMap.mp ha
    obtain ⟨v, hv, rfl⟩ := Option.map_eq_some_iff.mp heq
    exact h d (List.mem_filter.mp hd).1 v hv

/-! ### elements -/

/-- The values in an element, and in all elements inside it, are made of characters that a document
can hold. -/
inductive Element.Sound : Element → Prop
  | node {n : Name} {as : List Attribute} {es : List Element}
      (attributes : ∀ a ∈ as, Chars a.value.toList) (children : ∀ e ∈ es, e.Sound) :
      Element.Sound (.node n as es)

namespace Element.Sound

/-- Elements inside are sound too. -/
theorem within {e : Element} (h : e.Sound) : ∀ d ∈ e.within, d.Sound := by
  induction h with
  | @node n as es attributes children ih =>
    have hself : (Element.node n as es).within = .node n as es :: Element.withinAll es := rfl
    rw [hself]
    refine List.forall_mem_cons.mpr ⟨.node attributes children, ?_⟩
    have hall : ∀ l : List Element, (∀ e ∈ l, ∀ d ∈ e.within, d.Sound) →
        ∀ d ∈ Element.withinAll l, d.Sound := by
      intro l hl
      induction l with
      | nil => exact List.forall_mem_nil _
      | cons e l ihl =>
        rw [List.forall_mem_cons] at hl
        rw [Element.withinAll, List.forall_mem_append]
        exact ⟨hl.1, ihl hl.2⟩
    exact hall es ih

theorem attribute? {e : Element} (h : e.Sound) {name value : String}
    (hvalue : e.attribute? name = some value) : Chars value.toList := by
  obtain ⟨attributes, -⟩ := h
  obtain ⟨a, ha, rfl⟩ := Option.map_eq_some_iff.mp hvalue
  exact attributes a (List.mem_of_find?_eq_some ha)

end Element.Sound

/-- An element that has begun is sound so far. -/
structure Frame.Sound (f : Frame) : Prop where
  attributes : ∀ a ∈ f.attributes, Chars a.value.toList
  children : ∀ e ∈ f.children, e.Sound

namespace Frame.Sound

variable {f : Frame}

theorem element (h : f.Sound) : f.element.Sound :=
  .node h.attributes fun e he => h.children e (List.mem_reverse.mp he)

theorem add (h : f.Sound) {es : List Element} (hes : ∀ e ∈ es, e.Sound) : (f.add es).Sound where
  attributes := h.attributes
  children := List.forall_mem_append.mpr
    ⟨fun e he => hes e (List.mem_reverse.mp he), h.children⟩

/-- What a tag begins has its values. -/
theorem begin? {spaces : Spaces} {t : Tag} (ht : t.Sound) (h : begin? spaces t = some f) :
    f.Sound := by
  unfold Xml.begin? at h
  dsimp only at h
  split at h
  · cases h
  · obtain ⟨inside, -, h⟩ := Option.bind_eq_some_iff.mp h
    obtain ⟨name, -, h⟩ := Option.bind_eq_some_iff.mp h
    obtain ⟨as, has, h⟩ := Option.bind_eq_some_iff.mp h
    split at h
    · cases h
    · cases h
      refine ⟨fun a ha => ?_, List.forall_mem_nil _⟩
      obtain ⟨b, hb, hread⟩ := exists_of_mem_mapM has ha
      obtain ⟨n, -, heq⟩ := Option.bind_eq_some_iff.mp hread
      cases heq
      exact ht b (List.mem_filter.mp hb).1

end Frame.Sound

/-! ### content -/

/-- What entities stand for is sound, and tags stay so when they are completed. -/
structure Expansion.Sound (x : Expansion) : Prop where
  elements : ∀ ⦃spaces name es⦄, x.elements spaces name = some es → ∀ e ∈ es, e.Sound
  text : Legible x.text
  complete : ∀ ⦃t : Tag⦄, t.Sound → (x.complete t).Sound

/-- The element that a tag begins is sound. -/
theorem Expansion.Sound.begin? {x : Expansion} (hx : x.Sound) {s rest : List Char} {t : Tag}
    (ht : tag? x.text s = some (t, rest)) {spaces : Spaces} {f : Frame}
    (hf : begin? spaces (x.complete t) = some f) : f.Sound :=
  Frame.Sound.begin? (hx.complete (sound_tag? hx.text ht)) hf

/-- **What stands inside an element is sound.** -/
theorem sound_contentFrom {x : Expansion} (hx : x.Sound) {fuel : Nat} {f : Frame}
    {outer : List Frame} {s rest : List Char} {es : List Element} (hf : f.Sound)
    (houter : ∀ g ∈ outer, g.Sound) (h : contentFrom x fuel f outer s = some (es, rest)) :
    ∀ e ∈ es, e.Sound := by
  fun_induction contentFrom x fuel f outer s with
  | case2 fuel f =>
    cases h
    exact fun e he => hf.children e (List.mem_reverse.mp he)
  | case5 fuel f s rest =>
    -- the outermost element ends
    cases h
    exact List.forall_mem_singleton.mpr hf.element
  | case6 fuel f s rest g outer _ ih =>
    rw [List.forall_mem_cons] at houter
    exact ih (houter.1.add (List.forall_mem_singleton.mpr hf.element)) houter.2 h
  | case7 fuel f outer s rest _ ih | case9 fuel f outer s _ _ rest _ ih
    | case11 fuel f outer s _ _ _ rest _ ih | case19 fuel f outer s c rest _ ih =>
    exact ih hf houter h
  | case16 fuel f outer s _ _ _ t rest ht g hg _ ih =>
    exact ih (hf.add (List.forall_mem_singleton.mpr (hx.begin? ht hg).element)) houter h
  | case17 fuel f outer s _ _ _ t rest ht g hg _ ih =>
    exact ih (hx.begin? ht hg) (List.forall_mem_cons.mpr ⟨hf, houter⟩) h
  | case20 fuel f outer s name rest _ ds hds ih => exact ih (hf.add (hx.elements hds)) houter h
  | case22 fuel f outer s _ _ _ _ _ _ rest _ ih => exact ih hf houter h
  | _ => cases h

/-- Entities stand for what is sound, however deep they are nested. -/
theorem sound_expansion {ds : Declarations} (h : ds.Sound) (depth : Nat) :
    (expansion ds depth).Sound := by
  induction depth with
  | zero => exact ⟨nofun, nofun, fun _ ht => ht⟩
  | succ depth ih =>
    refine ⟨fun spaces name es hes => ?_, legible_expand ds _, fun _ ht => h.complete ht⟩
    unfold expansion at hes
    dsimp only at hes
    split_ifs at hes
    · cases hes
      exact List.forall_mem_nil _
    · split at hes
      · split at hes
        · rename_i hread
          cases hes
          exact sound_contentFrom ih ⟨List.forall_mem_nil _, List.forall_mem_nil _⟩
            (List.forall_mem_nil _) hread
        · cases hes
      · cases hes

/-! ### documents -/

/-- the root after what stands before it, with what is declared there -/
def rootFrom? (n : Nat) (ds : Declarations) (s : List Char) : Option Element := do
  let s ← misc n s
  let x := expansion ds ds.depth
  let (t, rest) ← tag? x.text (← after? "<" s)
  let f ← begin? rootSpaces (x.complete t)
  let (root, rest) ←
    if t.closed then some ([f.element], rest) else contentFrom x (rest.length + 1) f [] rest
  match ← misc n rest with
  | [] => root.head?
  | _ => none

/-- What is declared before the root of a document is sound. -/
theorem exists_rootFrom? {s : List Char} {e : Element} (h : root? s = some e) :
    ∃ n ds rest, Declarations.Sound ds ∧ rootFrom? n ds rest = some e := by
  unfold root? at h
  dsimp only at h
  obtain ⟨⟨standalone, _⟩, -, h⟩ := Option.bind_eq_some_iff.mp h
  obtain ⟨_, -, h⟩ := Option.bind_eq_some_iff.mp h
  split at h
  · obtain ⟨⟨ds, rest⟩, hds, h⟩ := Option.bind_eq_some_iff.mp h
    exact ⟨_, ds, rest, .doctype? hds, h⟩
  · obtain ⟨⟨ds, rest⟩, hds, h⟩ := Option.bind_eq_some_iff.mp h
    cases hds
    exact ⟨_, _, _, .nothing false false, h⟩

theorem sound_rootFrom? {n : Nat} {ds : Declarations} (hds : ds.Sound) {s : List Char}
    {e : Element} (h : rootFrom? n ds s = some e) : e.Sound := by
  have hx := sound_expansion hds ds.depth
  unfold rootFrom? at h
  dsimp only at h
  obtain ⟨_, -, h⟩ := Option.bind_eq_some_iff.mp h
  obtain ⟨_, -, h⟩ := Option.bind_eq_some_iff.mp h
  obtain ⟨⟨t, rest⟩, ht, h⟩ := Option.bind_eq_some_iff.mp h
  obtain ⟨f, hf, h⟩ := Option.bind_eq_some_iff.mp h
  have hframe : f.Sound := hx.begin? ht hf
  -- the root is the one element that has been read, whether or not it holds something
  have hroot : ∃ root : List Element, (∀ d ∈ root, d.Sound) ∧ root.head? = some e := by
    split at h
    · obtain ⟨_, heq, h⟩ := Option.bind_eq_some_iff.mp h
      obtain ⟨_, -, h⟩ := Option.bind_eq_some_iff.mp h
      cases heq
      split at h
      · exact ⟨_, List.forall_mem_singleton.mpr hframe.element, h⟩
      · cases h
    · obtain ⟨⟨root, rest'⟩, hread, h⟩ := Option.bind_eq_some_iff.mp h
      obtain ⟨_, -, h⟩ := Option.bind_eq_some_iff.mp h
      split at h
      · exact ⟨root, sound_contentFrom hx hframe (List.forall_mem_nil _) hread, h⟩
      · cases h
  obtain ⟨root, hsound, hhead⟩ := hroot
  exact hsound e (List.mem_of_head? hhead)

/-- **Every document that is read is sound.** -/
theorem sound_read {s : String} {e : Element} (h : read s = some e) : e.Sound := by
  obtain ⟨n, ds, rest, hds, hroot⟩ := exists_rootFrom? h
  exact sound_rootFrom? hds hroot

end Ladybug.Xml

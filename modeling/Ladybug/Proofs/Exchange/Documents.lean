import Ladybug.Exchange.Detect
import Ladybug.Proofs.Xml.Documents

/-!
# Documents of both XML formats

* `parseXml_document`     the root of a document that has been written
* `parseXml_eq_ok_iff`, `parseXml_eq_error_iff`   what comes of any text
* `parseXml_ofList`       the same from its characters
* `looksLikeXml_document`  it is told to be one
* `writable_plain`        elements that are built from names and values
* `attribute?_plain`, `allNamed_plain`   what such an element holds
-/

namespace Ladybug.Exchange

open Xml (Element isName isChar document)

/-- **A document that has been written is read, whichever format it is of.** -/
theorem parseXml_document {e : Element} (h : e.Writable) (what : String) :
    parseXml what (document e) = .ok e := by
  have htrim : Text.trimBlanks (document e) = document e := by
    rw [Text.trimBlanks, Text.trim_eq_self, String.ofList_toList]
    · rw [Xml.head?_document]
      rintro c ⟨⟩
      rfl
    · rw [Xml.getLast?_document]
      rintro c ⟨⟩
      rfl
  rw [parseXml, Text.not_hasHalf (Xml.mark_not_mem_document h), htrim, Xml.read_document h]
  rfl

/-- **What has been written as XML looks like it**, whichever root is expected. -/
theorem looksLikeXml_document (e : Element) (root : String) :
    looksLikeXml (document e) root = true := by
  rw [looksLikeXml, Xml.toList_document]
  rfl

theorem parseXml_eq_ok_iff {what content : String} {root : Element} :
    parseXml what content = .ok root ↔
      Text.hasHalf content = false ∧ Xml.read (Text.trimBlanks content) = some root := by
  unfold parseXml
  cases Text.hasHalf content with
  | true => simp
  | false => cases Xml.read (Text.trimBlanks content) <;> simp

theorem parseXml_eq_error_iff {what content : String} {r : Refusal} :
    parseXml what content = .error r ↔
      Text.hasHalf content = true ∧ r = .half ∨
        Text.hasHalf content = false ∧ Xml.read (Text.trimBlanks content) = none ∧
          r = .fault (malformed what) := by
  unfold parseXml
  cases Text.hasHalf content with
  | true => simp [eq_comm]
  | false => cases Xml.read (Text.trimBlanks content) <;> simp [eq_comm]

/-- what comes of the characters of a text -/
def parseChars (what : String) (cs : List Char) : Except Refusal Element :=
  if (Text.codes cs).any Text.isHalf then .error .half
  else match Xml.root? (Text.trim Text.isBlank cs) with
    | some root => .ok root
    | none => .error (.fault (malformed what))

theorem parseXml_ofList (what : String) (cs : List Char) :
    parseXml what (String.ofList cs) = parseChars what cs := by
  rw [parseXml, Text.hasHalf, Xml.read, Text.trimBlanks, String.toList_ofList,
    String.toList_ofList]
  rfl

/-! ### elements -/

/-- Values of attributes that can be written. -/
def IsText (s : String) : Prop := ∀ c ∈ s.toList, isChar c = true

instance (s : String) : Decidable (IsText s) :=
  decidable_of_iff (s.toList.all isChar = true) List.all_eq_true

/-- names of attributes, each of them once -/
def attributeNames (names : List String) : Bool :=
  names.all (fun s => isName s && s != "xmlns") && decide names.Nodup

theorem writable_plain {name : String} {as : List (String × String)} {es : List Element}
    (hname : isName name = true) (hnames : attributeNames (as.map Prod.fst) = true)
    (hvalues : ∀ a ∈ as, IsText a.2) (hes : ∀ e ∈ es, e.Writable) :
    (Element.plain name as es).Writable := by
  rw [attributeNames, Bool.and_eq_true, List.all_map, List.all_eq_true, decide_eq_true_eq] at hnames
  obtain ⟨heach, honce⟩ := hnames
  refine .node rfl hname ⟨fun a ha => ?_, ?_⟩ hes
  · obtain ⟨p, hp, rfl⟩ := List.mem_map.mp ha
    obtain ⟨hn, hx⟩ := Bool.and_eq_true_iff.mp (heach p hp)
    exact ⟨rfl, hn, bne_iff_ne.mp hx, hvalues p hp⟩
  · rw [List.map_map]
    exact honce

@[simp] theorem isNamed_plain (name : String) (as : List (String × String)) (es : List Element)
    (n : String) : (Element.plain name as es).isNamed n = decide (name = n) := by
  by_cases h : name = n
  · simp [Element.isNamed, Element.plain, Element.name, h]
  · simp [Element.isNamed, Element.plain, Element.name, h]

@[simp] theorem attribute?_plain (name : String) (as : List (String × String))
    (es : List Element) (n : String) :
    (Element.plain name as es).attribute? n = (as.find? fun a => a.1 == n).map Prod.snd := by
  have hname (s : String) : ((⟨none, s⟩ : Xml.Name) == ⟨none, n⟩) = (s == n) := by
    rw [Bool.eq_iff_iff, beq_iff_eq, beq_iff_eq]
    exact ⟨fun e => (Xml.Name.mk.inj e).2, congrArg _⟩
  simp only [Element.attribute?, Element.plain, Element.attributes, List.find?_map,
    Option.map_map, Function.comp_def, hname]

theorem childrenOf_plain (name : String) (as : List (String × String)) (es : List Element)
    (n : String) : (Element.plain name as es).childrenOf n = es.filter fun e => e.isNamed n := by
  rw [Element.childrenOf, Element.plain, Element.children]

theorem withinAll_eq_flatMap (es : List Element) :
    Element.withinAll es = es.flatMap Element.within := by
  induction es with
  | nil => rw [Element.withinAll, List.flatMap_nil]
  | cons e es ih => rw [Element.withinAll, ih, List.flatMap_cons]

/-- The element itself, if it has the name, then those inside. -/
@[simp] theorem allNamed_plain (name : String) (as : List (String × String)) (es : List Element)
    (n : String) : (Element.plain name as es).allNamed n
      = (if name = n then [.plain name as es] else []) ++ es.flatMap fun e => e.allNamed n := by
  have hwithin : (Element.plain name as es).within
      = .plain name as es :: es.flatMap Element.within := by
    rw [← withinAll_eq_flatMap]
    rfl
  rw [Element.allNamed, hwithin, List.filter_cons, isNamed_plain, List.filter_flatMap]
  by_cases h : name = n
  · simp only [h, decide_true, ↓reduceIte, List.singleton_append]
    rfl
  · simp only [h, decide_false, Bool.false_eq_true, ↓reduceIte, List.nil_append]
    rfl

/-- Elements of one kind are all of those with its name, or none. -/
theorem flatMap_allNamed_map {α : Type} {F : α → Element} {n : String}
    (h : ∀ x, (F x).allNamed n = [F x]) (l : List α) :
    (l.map F).flatMap (fun e => e.allNamed n) = l.map F := by
  simp only [List.flatMap_map, h]
  exact List.flatMap_pure_eq_map F l

theorem flatMap_allNamed_eq_nil {es : List Element} {n : String}
    (h : ∀ e ∈ es, e.allNamed n = []) : es.flatMap (fun e => e.allNamed n) = [] :=
  List.flatMap_eq_nil_iff.mpr h

end Ladybug.Exchange

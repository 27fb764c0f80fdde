import Ladybug.Exchange.WorldXml
import Ladybug.Proofs.Exchange.Documents
import Ladybug.Proofs.Intake
import Ladybug.Proofs.World.Points

/-!
# When a world is read from XML, and when it is refused

The numbers of a document are read one after the other. The first attribute that holds no finite
number decides: text that is no number is a fault of the document, and an infinite number is too
large, which is no fault but a refusal of its own. So is a row whose length is no word.

* `Holds`, `firstHeld`     what an attribute holds, and what decides of several
* `Obeys`                  a reading comes out as some attributes demand
* `Made`                   what a world that is read is made of
* `Overflows`              an element with a number that is too large
* `Ending`, `Answer`       what comes of an element and of a text, one way for each result
* `world_read_or_refused`  what comes of any text: a valid world, a fault of the document, or one of
                           two refusals, each just where it has its reason
-/

namespace Ladybug

namespace Exchange

open Xml (Element)

/-! ### what attributes hold -/

/-- What an attribute holds. One that is not there, or blank, stands for a finite number. -/
inductive Holds where
  | finite
  | notNumber
  | infinite
deriving DecidableEq, Repr

/-- an attribute of an element, as it is asked for -/
abbrev Place := Element × String

def Place.holds (p : Place) : Holds :=
  match p.1.attribute? p.2 with
  | none => .finite
  | some value =>
    if (Text.trimBlanks value).isEmpty then .finite
    else match Decimal.number? value with
      | none | some .nan => .notNumber
      | some (.infinite _) => .infinite
      | some (.finite ..) => .finite

/-- what the first place holds that holds no finite number -/
def firstHeld : List Place → Holds
  | [] => .finite
  | p :: ps =>
    match p.holds with
    | .finite => firstHeld ps
    | h => h

theorem firstHeld_append (ps qs : List Place) :
    firstHeld (ps ++ qs) = if firstHeld ps = .finite then firstHeld qs else firstHeld ps := by
  induction ps with
  | nil => rfl
  | cons p ps ih =>
    rw [List.cons_append, firstHeld, firstHeld]
    cases p.holds with
    | finite => exact ih
    | notNumber => rfl
    | infinite => rfl

/-- How a reading comes out when its places hold no finite number, or all of them do. -/
def Obeys {α : Type} (x : Except Refusal α) : Holds → Prop
  | .finite => ∃ a, x = .ok a
  | .notNumber => ∃ f, x = .error (.fault f) ∧ f.kind = .parse
  | .infinite => x = .error .tooLarge

namespace Obeys

variable {α β : Type} {x : Except Refusal α} {ps qs : List Place}

theorem intAttribute (e : Element) (name : String) (default : Int) :
    Obeys (intAttribute e name default) (firstHeld [(e, name)]) := by
  have hsingle : firstHeld [(e, name)] = Place.holds (e, name) := by
    rw [firstHeld]
    cases Place.holds (e, name) <;> rfl
  rw [hsingle, Place.holds, Exchange.intAttribute]
  cases e.attribute? name with
  | none => exact ⟨default, rfl⟩
  | some value =>
    by_cases hblank : (Text.trimBlanks value).isEmpty = true
    · simp only [hblank, ↓reduceIte]
      exact ⟨default, rfl⟩
    · simp only [hblank, Bool.false_eq_true, ↓reduceIte]
      cases Decimal.number? value with
      | none => exact ⟨_, rfl, rfl⟩
      | some y =>
        cases y with
        | finite negative m k => exact ⟨_, rfl⟩
        | infinite negative => exact rfl
        | nan => exact ⟨_, rfl, rfl⟩

/-- Two readings, the second one after the first. -/
theorem bind (hx : Obeys x (firstHeld ps)) {f : α → Except Refusal β}
    (hf : ∀ a, x = .ok a → Obeys (f a) (firstHeld qs)) :
    Obeys (x >>= f) (firstHeld (ps ++ qs)) := by
  rw [firstHeld_append]
  cases h : firstHeld ps with
  | finite =>
    rw [h] at hx
    obtain ⟨a, rfl⟩ := hx
    exact hf a rfl
  | notNumber =>
    rw [h] at hx
    obtain ⟨g, rfl, hg⟩ := hx
    exact ⟨g, rfl, hg⟩
  | infinite =>
    rw [h] at hx
    cases hx
    rfl

theorem pure (a : α) : Obeys (.ok a : Except Refusal α) (firstHeld []) := ⟨a, rfl⟩

theorem map (hx : Obeys x (firstHeld ps)) (f : α → β) :
    Obeys (x >>= fun a => Pure.pure (f a)) (firstHeld ps) := by
  have hlast : ∀ a, x = .ok a → Obeys (.ok (f a) : Except Refusal β) (firstHeld []) :=
    fun a _ => pure (f a)
  have h := hx.bind hlast
  rwa [List.append_nil] at h

/-- A reading for each of several data. -/
theorem mapM {γ : Type} {read : γ → Except Refusal α} {places : γ → List Place}
    (h : ∀ d, Obeys (read d) (firstHeld (places d))) (ds : List γ) :
    Obeys (ds.mapM read) (firstHeld (ds.flatMap places)) := by
  induction ds with
  | nil => exact pure []
  | cons d ds ih =>
    rw [List.mapM_cons, List.flatMap_cons]
    exact (h d).bind fun a _ => ih.map (a :: ·)

end Obeys

/-! ### the parts of a document -/

def sizePlaces (e : Element) : List Place := [(e, "sizex"), (e, "sizey")]

def pointPlaces (e : Element) : List Place := [(e, "x"), (e, "y")]

/-- the points in all blocks of one kind -/
def pointsIn (e : Element) (block : String × Cell) : List Element :=
  (e.childrenOf block.1).flatMap fun b => b.childrenOf "XmlPoint"

/-- the element of the character, the first of them if there are several -/
def kara? (e : Element) : Option Element :=
  ((e.childrenOf "XmlKaraList").flatMap fun l => l.childrenOf "XmlKara").head?

def karaPlaces (e : Element) : List Place := [(e, "x"), (e, "y"), (e, "direction")]

/-- The places of what stands on the grid, in the order in which they are read. -/
def contentPlaces (e : Element) : List Place :=
  (pointBlocks.flatMap fun b => (pointsIn e b).flatMap pointPlaces)
    ++ (kara? e).toList.flatMap karaPlaces

/-- the width and the height -/
def readSize (e : Element) : Except Refusal (Int × Int) := do
  let width ← intAttribute e "sizex" World.defaultWidth
  let height ← intAttribute e "sizey" World.defaultHeight
  return (width, height)

/-- the character of a document, in the middle if nothing is said -/
def readCharacter (e : Element) (width height : Int) : Except Refusal Character :=
  match kara? e with
  | none => .ok { position := ⟨width / 2, height / 2⟩ }
  | some k => characterOf width height k

/-- what stands on the grid -/
def readContent (e : Element) (width height : Int) :
    Except Refusal (List (Position × Cell) × Character) := do
  let cells ← pointBlocks.mapM (blockCells e)
  let character ← readCharacter e width height
  return (cells.flatten, character)

theorem obeys_readSize (e : Element) : Obeys (readSize e) (firstHeld (sizePlaces e)) :=
  (Obeys.intAttribute e "sizex" World.defaultWidth).bind fun width _ =>
    (Obeys.intAttribute e "sizey" World.defaultHeight).map (Prod.mk width)

theorem obeys_pointOf (e : Element) : Obeys (pointOf e) (firstHeld (pointPlaces e)) :=
  (Obeys.intAttribute e "x" 0).bind fun x _ => (Obeys.intAttribute e "y" 0).map (Position.mk x)

theorem obeys_blockCells (e : Element) (block : String × Cell) :
    Obeys (blockCells e block) (firstHeld ((pointsIn e block).flatMap pointPlaces)) :=
  Obeys.mapM (fun p => (obeys_pointOf p).map fun q => (q, block.2)) (pointsIn e block)

theorem obeys_characterOf (width height : Int) (e : Element) :
    Obeys (characterOf width height e) (firstHeld (karaPlaces e)) :=
  (Obeys.intAttribute e "x" (width / 2)).bind fun _ _ =>
    (Obeys.intAttribute e "y" (height / 2)).bind fun _ _ =>
      (Obeys.intAttribute e "direction" 0).map _

theorem obeys_readContent (e : Element) (width height : Int) :
    Obeys (readContent e width height) (firstHeld (contentPlaces e)) := by
  have hcharacter : Obeys (readCharacter e width height)
      (firstHeld ((kara? e).toList.flatMap karaPlaces)) := by
    unfold readCharacter
    cases kara? e with
    | none => exact Obeys.pure _
    | some k =>
      rw [Option.toList_some, List.flatMap_singleton]
      exact obeys_characterOf width height k
  exact (Obeys.mapM (obeys_blockCells e) pointBlocks).bind fun cells _ =>
    hcharacter.map fun c => (cells.flatten, c)

/-! ### the world of a document -/

def noSize (width height : Int) : Fault :=
  .parse ("Invalid world size " ++ toString width ++ "x" ++ toString height ++ " in .world file")

/-- The size is read and looked at, then what stands on the grid. -/
theorem worldOfElement_eq {root e : Element} (h : findElement root "XmlWorld" = some e) :
    worldOfElement root = (do
      let (width, height) ← readSize e
      if width < 1 ∨ height < 1 then throw (.fault (noSize width height))
      let (cells, character) ← readContent e width height
      if World.rowTooLong width height then throw .tooLarge
      return World.filled width.toNat height.toNat (some character) cells) := by
  unfold worldOfElement readSize readContent readCharacter kara?
  simp only [h, bind_assoc, pure_bind]
  refine bind_congr fun width => bind_congr fun height => ?_
  by_cases hsize : width < 1 ∨ height < 1
  · rw [if_pos hsize, if_pos hsize]
    rfl
  · rw [if_neg hsize, if_neg hsize]
    cases (e.childrenOf "XmlKaraList").flatMap fun l => l.childrenOf "XmlKara" <;> rfl

/-- What a world that is read is made of. -/
inductive Made (e : Element) : World → Prop
  | mk {width height : Int} {cells : List (Position × Cell)} {character : Character}
      (size : readSize e = .ok (width, height)) (positive : 1 ≤ width ∧ 1 ≤ height)
      (content : readContent e width height = .ok (cells, character))
      (short : World.rowTooLong width height = false) :
      Made e (World.filled width.toNat height.toNat (some character) cells)

/-- A document with a number that is too large: it comes before anything that is wrong. -/
inductive Overflows (e : Element) : Prop
  | size (infinite : firstHeld (sizePlaces e) = .infinite)
  | content {width height : Int} (size : readSize e = .ok (width, height))
      (positive : 1 ≤ width ∧ 1 ≤ height) (infinite : firstHeld (contentPlaces e) = .infinite)
  | row {width height : Int} (size : readSize e = .ok (width, height))
      (positive : 1 ≤ width ∧ 1 ≤ height) (finite : firstHeld (contentPlaces e) = .finite)
      (long : wordLimit ≤ width)

/-- How the reading of a document ends. -/
inductive Ending (e : Element) : Except Refusal World → Prop
  | world {w : World} (made : Made e w) (fits : ¬ Overflows e) : Ending e (.ok w)
  | fault {f : Fault} (parse : f.kind = .parse) (fits : ¬ Overflows e) :
      Ending e (.error (.fault f))
  | tooLarge (overflows : Overflows e) : Ending e (.error .tooLarge)

/-- Two sizes that are read are the same. -/
theorem size_unique {e : Element} {width height width' height' : Int}
    (h : readSize e = .ok (width, height)) (h' : readSize e = .ok (width', height')) :
    width = width' ∧ height = height' :=
  Prod.mk.inj (Except.ok.inj (h.symm.trans h'))

theorem rowTooLong_iff {width height : Int} (hwidth : 1 ≤ width) (hheight : 1 ≤ height) :
    World.rowTooLong width height = true ↔ wordLimit ≤ width := by
  have hlimit : wordLimit = 2 ^ 63 := rfl
  simp only [World.rowTooLong, fitsWord, hlimit, Int.ofNat_eq_natCast, Bool.and_eq_true,
    Bool.not_eq_true', Bool.and_eq_false_iff, decide_eq_true_eq, decide_eq_false_iff_not]
  omega

/-- What stands on a grid that has a size is read next. -/
theorem worldOfElement_of_size {root e : Element} (h : findElement root "XmlWorld" = some e)
    {width height : Int} (size : readSize e = .ok (width, height))
    (positive : 1 ≤ width ∧ 1 ≤ height) :
    worldOfElement root = (do
      let (cells, character) ← readContent e width height
      if World.rowTooLong width height then throw .tooLarge
      return World.filled width.toNat height.toNat (some character) cells) := by
  have hsize : ¬ (width < 1 ∨ height < 1) := by omega
  rw [worldOfElement_eq h, size, ok_bind]
  exact if_neg hsize

/-- the same for a document whose size is read and is positive -/
theorem ending_of_size {root e : Element}
    (h : findElement root "XmlWorld" = some e) {width height : Int}
    (size : readSize e = .ok (width, height)) (positive : 1 ≤ width ∧ 1 ≤ height)
    (hsizes : firstHeld (sizePlaces e) = .finite) :
    Ending e (worldOfElement root) := by
  have hcontent := obeys_readContent e width height
  rw [worldOfElement_of_size h size positive]
  cases hheld : firstHeld (contentPlaces e) with
  | infinite =>
    rw [hheld] at hcontent
    rw [show readContent e width height = _ from hcontent]
    exact .tooLarge (.content size positive hheld)
  | notNumber =>
    rw [hheld] at hcontent
    obtain ⟨f, hf, hkind⟩ := hcontent
    rw [hf]
    refine .fault hkind ?_
    rintro (infinite | ⟨-, -, infinite⟩ | ⟨-, -, finite, -⟩)
    · cases hsizes.symm.trans infinite
    · cases hheld.symm.trans infinite
    · cases hheld.symm.trans finite
  | finite =>
    rw [hheld] at hcontent
    obtain ⟨⟨cells, character⟩, content⟩ := hcontent
    rw [content, ok_bind]
    cases hlong : World.rowTooLong width height with
    | true =>
      have long := (rowTooLong_iff positive.1 positive.2).mp hlong
      exact .tooLarge (.row size positive hheld long)
    | false =>
      refine .world (.mk size positive content hlong) ?_
      rintro (infinite | ⟨-, -, infinite⟩ | ⟨size', -, -, long⟩)
      · cases hsizes.symm.trans infinite
      · cases hheld.symm.trans infinite
      · obtain ⟨rfl, rfl⟩ := size_unique size size'
        rw [(rowTooLong_iff positive.1 positive.2).mpr long] at hlong
        cases hlong

/-- **The reading of a document ends** in a world, in a fault of the document, or with a number that
is too large, the latter just when it has one before anything that is wrong. -/
theorem ending_worldOfElement {root e : Element} (h : findElement root "XmlWorld" = some e) :
    Ending e (worldOfElement root) := by
  have hsize := obeys_readSize e
  cases hsizes : firstHeld (sizePlaces e) with
  | infinite =>
    rw [hsizes] at hsize
    rw [worldOfElement_eq h, show readSize e = _ from hsize]
    exact .tooLarge (.size hsizes)
  | notNumber =>
    rw [hsizes] at hsize
    obtain ⟨f, hf, hkind⟩ := hsize
    rw [worldOfElement_eq h, hf]
    refine .fault hkind ?_
    rintro (infinite | ⟨size, -⟩ | ⟨size, -⟩)
    · cases hsizes.symm.trans infinite
    · cases hf.symm.trans size
    · cases hf.symm.trans size
  | finite =>
    rw [hsizes] at hsize
    obtain ⟨⟨width, height⟩, size⟩ := hsize
    by_cases hpositive : width < 1 ∨ height < 1
    · have hnone : worldOfElement root = .error (.fault (noSize width height)) := by
        rw [worldOfElement_eq h, size, ok_bind]
        exact if_pos hpositive
      rw [hnone]
      refine .fault rfl ?_
      rintro (infinite | ⟨size', positive, -⟩ | ⟨size', positive, -⟩)
      · cases hsizes.symm.trans infinite
      all_goals
        obtain ⟨rfl, rfl⟩ := size_unique size size'
        omega
    · exact ending_of_size h size (by omega) hsizes

/-! ### worlds that are read -/

theorem exists_made {root : Element} {w : World} (h : worldOfElement root = .ok w) :
    ∃ e, findElement root "XmlWorld" = some e ∧ Made e w := by
  cases hfind : findElement root "XmlWorld" with
  | none =>
    unfold worldOfElement at h
    rw [hfind] at h
    cases h
  | some e =>
    have hending := ending_worldOfElement hfind
    rw [h] at hending
    cases hending with
    | world made fits => exact ⟨e, rfl, made⟩

/-- A character that is read carries nothing, and is on the grid or off it for good. -/
theorem placed_of_readCharacter {e : Element} {width height : Int}
    (positive : 1 ≤ width ∧ 1 ≤ height) {c : Character}
    (h : readCharacter e width height = .ok c) :
    c.inventory = 0 ∧ (c.position = Position.offGrid ∨
      0 ≤ c.position.x ∧ c.position.x < width ∧ 0 ≤ c.position.y ∧ c.position.y < height) := by
  unfold readCharacter at h
  cases hkara : kara? e with
  | none =>
    rw [hkara] at h
    cases h
    refine ⟨rfl, .inr ?_⟩
    show 0 ≤ width / 2 ∧ width / 2 < width ∧ 0 ≤ height / 2 ∧ height / 2 < height
    omega
  | some k =>
    rw [hkara] at h
    obtain ⟨x, -, h⟩ := bind_eq_ok_iff.mp h
    obtain ⟨y, -, h⟩ := bind_eq_ok_iff.mp h
    obtain ⟨code, -, h⟩ := bind_eq_ok_iff.mp h
    cases h
    refine ⟨rfl, ?_⟩
    dsimp only
    split
    · rename_i hinside
      simp only [Bool.and_eq_true, decide_eq_true_eq, and_assoc] at hinside
      exact .inr hinside
    · exact .inl rfl

theorem Made.valid {e : Element} {w : World} (h : Made e w) :
    w.Valid ∧ w.character.inventory = 0 := by
  cases h with
  | @mk width height cells character size positive content short =>
    obtain ⟨cells', -, h⟩ := bind_eq_ok_iff.mp content
    obtain ⟨c, hread, he⟩ := bind_eq_ok_iff.mp h
    obtain rfl : c = character := (Prod.mk.inj (Except.ok.inj he)).2
    obtain ⟨hinventory, hplaced⟩ := placed_of_readCharacter positive hread
    refine ⟨World.valid_filled (by omega) (by omega) cells (hplaced.imp_right fun hin => ?_),
      hinventory⟩
    rw [World.inBounds_iff]
    show 0 ≤ c.position.x ∧ c.position.x < (width.toNat : Int) ∧ 0 ≤ c.position.y ∧
      c.position.y < (height.toNat : Int)
    omega

/-! ### texts -/

/-- A text with a number that is too large, where nothing is wrong before it. -/
def Overflowing (content : String) : Prop :=
  ∃ root e, parseXml ".world" content = .ok root ∧ findElement root "XmlWorld" = some e ∧ Overflows e

/-- What comes of a text. -/
inductive Answer (content : String) : Except Refusal World → Prop
  | world {w : World} (valid : w.Valid) (whole : Text.hasHalf content = false)
      (fits : ¬ Overflowing content) : Answer content (.ok w)
  | fault {f : Fault} (parse : f.kind = .parse) (whole : Text.hasHalf content = false)
      (fits : ¬ Overflowing content) : Answer content (.error (.fault f))
  | half (half : Text.hasHalf content = true) (fits : ¬ Overflowing content) :
      Answer content (.error .half)
  | tooLarge (whole : Text.hasHalf content = false) (overflows : Overflowing content) :
      Answer content (.error .tooLarge)

theorem not_overflowing_of_error {content : String} {r : Refusal}
    (h : parseXml ".world" content = .error r) : ¬ Overflowing content := by
  rintro ⟨root, e, hroot, -⟩
  cases h.symm.trans hroot

theorem overflowing_iff {content : String} {root : Element}
    (h : parseXml ".world" content = .ok root) :
    Overflowing content ↔ ∃ e, findElement root "XmlWorld" = some e ∧ Overflows e := by
  constructor
  · rintro ⟨root', e, hroot, hover⟩
    cases h.symm.trans hroot
    exact ⟨e, hover⟩
  · rintro ⟨e, hover⟩
    exact ⟨root, e, h, hover⟩

theorem answer_readWorldXml (content : String) : Answer content (readWorldXml content) := by
  unfold readWorldXml
  cases hparse : parseXml ".world" content with
  | error r =>
    have hfits := not_overflowing_of_error hparse
    rcases parseXml_eq_error_iff.mp hparse with ⟨hhalf, rfl⟩ | ⟨hwhole, -, rfl⟩
    · exact .half hhalf hfits
    · exact .fault rfl hwhole hfits
  | ok root =>
    have hwhole := (parseXml_eq_ok_iff.mp hparse).1
    show Answer content (worldOfElement root)
    cases hfind : findElement root "XmlWorld" with
    | none =>
      have hnone : worldOfElement root
          = .error (.fault (.parse "Missing XmlWorld element in .world file")) := by
        unfold worldOfElement
        rw [hfind]
        rfl
      rw [hnone]
      refine .fault rfl hwhole fun hover => ?_
      obtain ⟨e, he, -⟩ := (overflowing_iff hparse).mp hover
      cases hfind.symm.trans he
    | some e =>
      have hiff : Overflowing content ↔ Overflows e := by
        rw [overflowing_iff hparse, hfind]
        simp
      have hending := ending_worldOfElement hfind
      generalize worldOfElement root = r at hending
      cases hending with
      | world made fits => exact .world made.valid.1 hwhole (fits ∘ hiff.mp)
      | fault parse fits => exact .fault parse hwhole (fits ∘ hiff.mp)
      | tooLarge overflows => exact .tooLarge hwhole (hiff.mpr overflows)

/-- A world that is read is valid, and its character carries nothing. -/
theorem valid_of_readWorldXml {content : String} {w : World} (h : readWorldXml content = .ok w) :
    w.Valid ∧ w.character.inventory = 0 := by
  unfold readWorldXml at h
  cases hparse : parseXml ".world" content with
  | error r =>
    rw [hparse] at h
    cases h
  | ok root =>
    rw [hparse] at h
    obtain ⟨e, -, hmade⟩ := exists_made h
    exact hmade.valid

/-- **Whatever a text says, it is read as a valid world or has a fault**, unless it holds half a
character or a number that is too large. -/
theorem world_read_or_refused (content : String) :
    ((∃ w, readWorldXml content = .ok w ∧ w.Valid) ∨
        (∃ f, readWorldXml content = .error (.fault f) ∧ f.kind = .parse) ∨
        readWorldXml content = .error .half ∨ readWorldXml content = .error .tooLarge) ∧
      (readWorldXml content = .error .half ↔ Text.hasHalf content = true) ∧
      (readWorldXml content = .error .tooLarge ↔ Overflowing content) := by
  have h := answer_readWorldXml content
  generalize readWorldXml content = r at h ⊢
  cases h with
  | world valid whole fits => simp [valid, whole, fits]
  | fault parse whole fits => simp [parse, whole, fits]
  | half half fits => simp [half, fits]
  | tooLarge whole overflows => simp [whole, overflows]

/-- An infinite width, and one that is no word. -/
theorem endless_too_large :
    readWorldXml "<XmlWorld sizex=\"inf\"/>" = .error .tooLarge ∧
      readWorldXml "<XmlWorld sizex=\"1e19\"/>" = .error .tooLarge := by
  decide +kernel

end Exchange

end Ladybug

import Ladybug.Proofs.Decimal
import Ladybug.Proofs.Decimal.Rounding
import Ladybug.Proofs.Exchange.WorldRead
import Ladybug.Proofs.World.Layouts

/-!
# Layouts and the XML documents that list the same

A document lists points and a character as a layout does. Sizes and places are read as binary
numbers first, so they must not be too large to be exact.

* `intAttribute_toString`   an integer that is written as an attribute is read back
* `Shows`                   an element has the size, the points and the character of a layout
* `Showable`                a layout all of which a document can show
* `Shows.worldOfElement`    such an element is read as the world of the layout
* `layoutElement`, `shows_layoutElement`   there is a document of every layout
* `layouts_and_worlds`      a layout describes a world, and so does its document
-/

namespace Ladybug.Exchange

open Xml (Element)
open Layout.CharacterLayout (place)

/-! ### numbers -/

/-- the integers that are exact as binary numbers -/
def Exact (i : Int) : Prop := i.natAbs ≤ 2 ^ 53

theorem isText_toString (i : Int) : IsText (toString i) := by
  have hchars : ∀ c ∈ Decimal.numberChars, Xml.isChar c = true := forall_of_all (by decide)
  intro c hc
  exact hchars c (Decimal.mem_toString i c hc)

theorem trimBlanks_toString (i : Int) : Text.trimBlanks (toString i) = toString i := by
  have hchars : ∀ c ∈ Decimal.numberChars, Text.isBlank c = false := forall_of_all (by decide)
  have hblank : ∀ c ∈ (toString i).toList, Text.isBlank c = false := fun c hc =>
    hchars c (Decimal.mem_toString i c hc)
  rw [Text.trimBlanks, Text.trim_eq_self, String.ofList_toList]
  · exact fun c hc => hblank c (List.mem_of_mem_head? hc)
  · exact fun c hc => hblank c (List.mem_of_mem_getLast? hc)

theorem toString_isEmpty (i : Int) : (toString i).isEmpty = false := by
  obtain ⟨c, cs, hcs, -⟩ := Decimal.exists_toDigits i.natAbs
  have hlist := Decimal.toList_toString i
  rw [Bool.eq_false_iff, ne_eq, String.isEmpty_iff]
  intro hempty
  rw [hempty, hcs] at hlist
  exact List.append_ne_nil_of_right_ne_nil _ (List.cons_ne_nil c cs) hlist.symm

/-- **An integer that is written as an attribute is read back**, unless it is too large to be
exact. -/
theorem intAttribute_toString {e : Element} {name : String} {i : Int}
    (h : e.attribute? name = some (toString i)) (hi : Exact i) (default : Int) :
    intAttribute e name default = .ok i := by
  have hint := Binary.toInt?_ofDecimal hi (decide (i < 0))
  have hvalue : (if decide (i < 0) then -(i.natAbs : Int) else i.natAbs) = i := by
    simp only [decide_eq_true_eq]
    split
    · omega
    · omega
  rw [hvalue] at hint
  simp only [intAttribute, h, trimBlanks_toString, toString_isEmpty, Bool.false_eq_true,
    ↓reduceIte, Decimal.number?_toString]
  -- what has an integer part is neither infinite nor no number
  cases hx : Binary.ofDecimal (decide (i < 0)) i.natAbs 0 with
  | nan => rw [hx] at hint; cases hint
  | infinite negative => rw [hx] at hint; cases hint
  | finite negative m k =>
    rw [hx] at hint
    show Except.ok (((Binary.finite negative m k).toInt?).getD 0) = _
    rw [hint]
    rfl

theorem intAttribute_natCast {e : Element} {name : String} {n : Nat}
    (h : e.attribute? name = some (toString n)) (hn : n ≤ 2 ^ 53) (default : Int) :
    intAttribute e name default = .ok n :=
  intAttribute_toString (i := n) h hn default

theorem rowTooLong_of_le {width : Nat} (h : width ≤ 2 ^ 53) (height : Int) :
    World.rowTooLong width height = false := by
  have hword : fitsWord width = true := by
    have hlimit : wordLimit = 2 ^ 63 := rfl
    simp only [fitsWord, hlimit, Int.ofNat_eq_natCast, Bool.and_eq_true, decide_eq_true_eq]
    omega
  rw [World.rowTooLong, hword, Bool.not_true, Bool.and_false]

/-! ### what an element shows -/

/-- An element has the coordinates of a point. -/
structure ShowsPoint (e : Element) (p : Position) : Prop where
  x : e.attribute? "x" = some (toString p.x)
  y : e.attribute? "y" = some (toString p.y)

/-- An element has the place and the direction of a character. -/
structure ShowsCharacter (e : Element) (c : CharacterLayout) : Prop where
  point : ShowsPoint e ⟨c.x, c.y⟩
  direction : e.attribute? "direction" = some (toString (directionCode c.direction))

/-- An element has the size, the points of each kind and the character of a layout. -/
structure Shows (e : Element) (l : Layout) : Prop where
  width : e.attribute? "sizex" = some (toString l.width)
  height : e.attribute? "sizey" = some (toString l.height)
  points : ∀ block ∈ pointBlocks, List.Forall₂ ShowsPoint (pointsIn e block) (l.listed block.2)
  character : Option.Rel ShowsCharacter (kara? e) l.character

/-- A layout all of which a document can show: its numbers are exact, and a character is on the grid
and carries nothing. -/
structure Showable (l : Layout) : Prop where
  width_pos : 1 ≤ l.width
  height_pos : 1 ≤ l.height
  width_le : l.width ≤ 2 ^ 53
  height_le : l.height ≤ 2 ^ 53
  points : ∀ c, ∀ p ∈ l.listed c, Exact p.x ∧ Exact p.y
  character : ∀ c ∈ l.character, l.Within ⟨c.x, c.y⟩ ∧ c.inventory = 0

theorem Showable.proper {l : Layout} (h : Showable l) : l.Proper where
  width_pos := h.width_pos
  height_pos := h.height_pos
  placed c hc := .inr (h.character c hc).1

/-! ### what is read of it -/

variable {e : Element} {l : Layout}

theorem ShowsPoint.pointOf {p : Position} (h : ShowsPoint e p) (hp : Exact p.x ∧ Exact p.y) :
    pointOf e = .ok p := by
  rw [Exchange.pointOf, intAttribute_toString h.x hp.1, ok_bind, intAttribute_toString h.y hp.2]
  rfl

theorem directionOfCode_directionCode (d : Direction) :
    directionOfCode (directionCode d) = d := by
  cases d <;> rfl

theorem ShowsCharacter.characterOf {c : CharacterLayout} (h : ShowsCharacter e c)
    (hl : Showable l) (hc : c ∈ l.character) : characterOf l.width l.height e = .ok (place c) := by
  obtain ⟨hin, hempty⟩ := hl.character c hc
  have hexact : Exact c.x ∧ Exact c.y := by
    obtain ⟨hx, hx', hy, hy'⟩ : 0 ≤ c.x ∧ c.x < l.width ∧ 0 ≤ c.y ∧ c.y < l.height := hin
    have := hl.width_le
    have := hl.height_le
    unfold Exact
    omega
  have hcode : directionCode c.direction ≤ 2 ^ 53 := by
    cases c.direction <;> decide
  have hinside : (0 ≤ c.x && c.x < l.width && 0 ≤ c.y && c.y < l.height) = true := by
    simp only [Bool.and_eq_true, decide_eq_true_eq, and_assoc]
    exact hin
  rw [Exchange.characterOf, intAttribute_toString h.point.x hexact.1, ok_bind,
    intAttribute_toString h.point.y hexact.2, ok_bind, intAttribute_natCast h.direction hcode,
    ok_bind, directionOfCode_directionCode]
  simp only [hinside, ↓reduceIte, place, hempty]
  rfl

namespace Shows

variable (h : Shows e l) (hl : Showable l)
include h hl

theorem readSize : readSize e = .ok ((l.width : Int), (l.height : Int)) := by
  rw [Exchange.readSize, intAttribute_natCast h.width hl.width_le, ok_bind,
    intAttribute_natCast h.height hl.height_le]
  rfl

theorem blockCells {block : String × Cell} (hblock : block ∈ pointBlocks) :
    blockCells e block = .ok ((l.listed block.2).map (·, block.2)) := by
  show (pointsIn e block).mapM _ = _
  rw [mapM_eq_ok_iff, List.forall₂_map_right_iff]
  have hpoints := (List.forall₂_and_left _ _).mpr ⟨hl.points block.2, (h.points block hblock).flip⟩
  refine List.Forall₂.flip (hpoints.imp fun p d hd => ?_)
  show (do return (← pointOf d, block.2) : Except Refusal (Position × Cell)) = _
  rw [hd.2.pointOf hd.1]
  rfl

theorem readCharacter : readCharacter e l.width l.height = .ok l.placedCharacter := by
  have hcharacter := h.character
  unfold Exchange.readCharacter Layout.placedCharacter
  generalize kara? e = k at hcharacter ⊢
  cases hc : l.character with
  | none =>
    rw [hc] at hcharacter
    cases hcharacter
    rfl
  | some c =>
    rw [hc] at hcharacter
    cases hcharacter with
    | some hk => exact hk.characterOf hl hc

theorem readContent : readContent e l.width l.height = .ok (l.cells, l.placedCharacter) := by
  have hcells : pointBlocks.mapM (Exchange.blockCells e)
      = .ok (pointBlocks.map fun b => (l.listed b.2).map (·, b.2)) := by
    rw [mapM_eq_ok_iff, List.forall₂_map_right_iff, List.forall₂_same]
    exact fun b hb => h.blockCells hl hb
  have hflat : (pointBlocks.map fun b => (l.listed b.2).map (·, b.2)).flatten = l.cells := by
    show _ ++ (_ ++ (_ ++ [])) = _ ++ _ ++ _
    rw [List.append_nil, List.append_assoc]
    rfl
  rw [Exchange.readContent, hcells, ok_bind, h.readCharacter hl, ← hflat]
  rfl

/-- **An element that shows a layout is read as the world of the layout.** -/
theorem worldOfElement {root : Element} (hroot : findElement root "XmlWorld" = some e) :
    worldOfElement root = .ok l.made := by
  have hpositive : 1 ≤ (l.width : Int) ∧ 1 ≤ (l.height : Int) :=
    ⟨Int.ofNat_le.mpr hl.width_pos, Int.ofNat_le.mpr hl.height_pos⟩
  rw [worldOfElement_of_size hroot (h.readSize hl) hpositive, h.readContent hl, ok_bind]
  simp only [rowTooLong_of_le hl.width_le]
  rfl

end Shows

/-! ### the document of a layout -/

theorem shows_pointElement (c : Cell) (p : Position) : ShowsPoint (pointElement c p) p := by
  constructor <;> cases c <;> simp [pointElement]

theorem shows_characterElement (c : CharacterLayout) :
    ShowsCharacter (characterElement (place c)) c := by
  refine ⟨⟨?_, ?_⟩, ?_⟩ <;> simp [characterElement, place]

theorem writable_pointElement (c : Cell) (p : Position) : (pointElement c p).Writable := by
  have hkind : ∀ a ∈ (if c = .clover then [("type", "0")] else []), a = ("type", "0") := by
    split
    · exact fun a ha => List.mem_singleton.mp ha
    · exact fun a ha => nomatch ha
  have hnames : attributeNames ((if c = .clover then ["type"] else []) ++ ["x", "y"]) = true := by
    cases c <;> decide
  refine writable_plain (by decide) ?_ ?_ (by simp)
  · rw [List.map_append, apply_ite (List.map Prod.fst)]
    exact hnames
  intro a ha
  rcases List.mem_append.mp ha with ha | ha
  · rw [hkind a ha]
    decide
  · simp only [List.mem_cons, List.not_mem_nil, or_false] at ha
    rcases ha with rfl | rfl
    · exact isText_toString p.x
    · exact isText_toString p.y

theorem writable_characterElement (c : Character) : (characterElement c).Writable := by
  refine writable_plain (by decide) (by simp only [List.map_cons, List.map_nil]; decide) ?_
    (by simp)
  simp only [List.forall_mem_cons]
  exact ⟨by cases c.direction <;> decide, by decide, isText_toString _, isText_toString _, by simp⟩

/-- the document of a layout, with the points as they are listed -/
def layoutElement (l : Layout) : Element :=
  .plain "XmlWorld"
    [("sizex", toString l.width), ("sizey", toString l.height), ("version", formatVersion)]
    (pointBlocks.map (fun b => .plain b.1 [] ((l.listed b.2).map (pointElement b.2)))
      ++ [.plain "XmlKaraList" [] (l.character.toList.map fun c => characterElement (place c)),
          .plain "XmlStreetList" [] []])

/-- **The document of every layout can be written.** -/
theorem writable_layoutElement (l : Layout) : (layoutElement l).Writable := by
  have hblock : ∀ b ∈ pointBlocks,
      (Element.plain b.1 [] ((l.listed b.2).map (pointElement b.2))).Writable := by
    have hname : ∀ b ∈ pointBlocks, Xml.isName b.1 = true := by decide
    intro b hb
    refine writable_plain (hname b hb) (by decide) (by simp) ?_
    rw [List.forall_mem_map]
    exact fun p _ => writable_pointElement b.2 p
  have hkara : ∀ e ∈ l.character.toList.map fun c => characterElement (place c), e.Writable := by
    rw [List.forall_mem_map]
    exact fun c _ => writable_characterElement (place c)
  refine writable_plain (by decide) (by simp only [List.map_cons, List.map_nil]; decide) ?_ ?_
  · simp only [List.forall_mem_cons]
    exact ⟨isText_toString l.width, isText_toString l.height, by decide, by simp⟩
  · simp only [List.forall_mem_append, List.forall_mem_map, List.forall_mem_cons]
    exact ⟨hblock, writable_plain (by decide) (by decide) (by simp) hkara,
      writable_plain (by decide) (by decide) (by simp) (by simp), by simp⟩

theorem pointsIn_layoutElement (l : Layout) {block : String × Cell} (h : block ∈ pointBlocks) :
    pointsIn (layoutElement l) block = (l.listed block.2).map (pointElement block.2) := by
  have hchildren : (layoutElement l).childrenOf block.1
      = [.plain block.1 [] ((l.listed block.2).map (pointElement block.2))] := by
    simp only [pointBlocks, List.mem_cons, List.not_mem_nil, or_false] at h
    rcases h with rfl | rfl | rfl
    all_goals simp [layoutElement, pointBlocks, childrenOf_plain]
  rw [pointsIn, hchildren, List.flatMap_singleton]
  simp [childrenOf_plain, List.filter_eq_self, pointElement]

theorem kara?_layoutElement (l : Layout) :
    kara? (layoutElement l) = l.character.map fun c => characterElement (place c) := by
  cases hc : l.character <;>
    simp [kara?, layoutElement, pointBlocks, characterElement, childrenOf_plain, hc]

theorem shows_layoutElement (l : Layout) : Shows (layoutElement l) l where
  width := by simp [layoutElement]
  height := by simp [layoutElement]
  points block hblock := by
    rw [pointsIn_layoutElement l hblock, List.forall₂_map_left_iff, List.forall₂_same]
    exact fun p _ => shows_pointElement block.2 p
  character := by
    rw [kara?_layoutElement]
    cases l.character with
    | none => exact .none
    | some c => exact .some (shows_characterElement c)

theorem findElement_layoutElement (l : Layout) :
    findElement (layoutElement l) "XmlWorld" = some (layoutElement l) := rfl

/-! ### texts -/

/-- The first world of a text shows a layout. -/
def Tells (content : String) (l : Layout) : Prop :=
  ∃ root e, parseXml ".world" content = .ok root ∧ findElement root "XmlWorld" = some e ∧
    Shows e l

theorem tells_document (l : Layout) : Tells (Xml.document (layoutElement l)) l :=
  ⟨_, _, parseXml_document (writable_layoutElement l) _, findElement_layoutElement l,
    shows_layoutElement l⟩

theorem Tells.readWorldXml {content : String} (h : Tells content l) (hl : Showable l) :
    readWorldXml content = .ok l.made := by
  obtain ⟨root, e, hroot, he, hshows⟩ := h
  rw [Exchange.readWorldXml, hroot]
  exact hshows.worldOfElement hl he

/-- **Layouts and worlds correspond.** The layout of a world makes that world again. A layout makes
a valid world, whose cells are as it says, and the documents that tell the layout are read as the
same world. A layout is refused only if the length of its rows is no word. -/
theorem layouts_and_worlds :
    (∀ w : World, w.Valid →
      (Layout.ofWorld w).world = if fitsWord w.width then .ok w else .error .rowTooLong) ∧
    (∀ l : Layout, l.Proper → ∃ w, l.Describes w ∧
      l.world = if fitsWord l.width then .ok w else .error .rowTooLong) ∧
    (∀ l : Layout, Showable l → ∃ w, l.Describes w ∧ l.world = .ok w ∧
      ∀ content, Tells content l → readWorldXml content = .ok w) ∧
    ∀ l : Layout, Tells (Xml.document (layoutElement l)) l := by
  refine ⟨fun w hw => Layout.world_ofWorld hw, fun l hl => ⟨l.made, hl.describes, hl.world_eq⟩,
    fun l hl => ⟨l.made, hl.proper.describes, ?_, fun content h => h.readWorldXml hl⟩,
    tells_document⟩
  have hword : World.rowTooLong l.width 1 = false := rowTooLong_of_le hl.width_le 1
  rw [World.rowTooLong, decide_eq_true le_rfl, Bool.true_and, Bool.not_eq_false'] at hword
  rw [hl.proper.world_eq, if_pos hword]

/-- points that repeat, that overlap and that lie outside the grid -/
def copse : Layout where
  width := 3
  height := 2
  trees := [⟨0, 0⟩, ⟨5, 5⟩, ⟨0, 0⟩]
  mushrooms := [⟨0, 0⟩, ⟨1, 1⟩]
  clovers := [⟨1, 1⟩, ⟨-1, 0⟩]
  character := some { x := 2, y := 0, direction := .west }

def copseWorld : World where
  width := 3
  height := 2
  grid := [[.mushroom, .empty, .empty], [.empty, .clover, .empty]]
  character := { position := ⟨2, 0⟩, direction := .west }

theorem copse_read :
    copseWorld.Valid ∧ Showable copse ∧ (Layout.ofWorld copseWorld).world = .ok copseWorld ∧
      copse.world = .ok copseWorld ∧
      readWorldXml (Xml.document (layoutElement copse)) = .ok copseWorld := by
  have hvalid : copseWorld.Valid := by
    constructor
    case placed => exact .inr (by decide)
    all_goals decide
  have hshowable : Showable copse := by
    refine ⟨by decide, by decide, by decide, by decide, ?_, ?_⟩
    · unfold Exact
      intro c
      cases c <;> decide
    · rintro c ⟨⟩
      exact ⟨⟨by decide, by decide, by decide, by decide⟩, rfl⟩
  obtain ⟨hworlds, -, hread, htells⟩ := layouts_and_worlds
  obtain ⟨w, -, hw, htexts⟩ := hread copse hshowable
  have hcopse : copse.world = .ok copseWorld := by decide
  obtain rfl : copseWorld = w := Except.ok.inj (hcopse.symm.trans hw)
  have hshort : fitsWord copseWorld.width = true := by decide
  have hagain := hworlds copseWorld hvalid
  rw [if_pos hshort] at hagain
  exact ⟨hvalid, hshowable, hagain, hcopse, htexts _ (htells copse)⟩

/-- as wide as the first number that is no word -/
def prairie : Layout := { width := 2 ^ 63, height := 1 }

/-- A layout that has a size and no character, and of which no world is made. -/
theorem prairie_refused : prairie.Proper ∧ ∀ w, prairie.world ≠ .ok w := by
  have hproper : prairie.Proper := ⟨by decide, by decide, nofun⟩
  have hlong : ¬ fitsWord prairie.width = true := by decide
  refine ⟨hproper, fun w hw => ?_⟩
  rw [hproper.world_eq, if_neg hlong] at hw
  cases hw

end Ladybug.Exchange

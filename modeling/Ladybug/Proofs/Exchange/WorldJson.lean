import Ladybug.Exchange.Detect
import Ladybug.Proofs.Intake
import Ladybug.Proofs.Json.Written
import Ladybug.Proofs.World.Points

/-!
# Worlds that are written as JSON and read back

A document may give a cell by a name or by an object that holds the name, and may call a tree a
wall. What it says is looked up by name and checked as a whole, and a text that is JSON never looks
like XML.

* `Cell.Spells`, `Spelled`     the data that give a cell and a world
* `worldOfDatum_of_spelled`    such data are read as the world
* `looksLikeXml_of_read`       JSON does not look like XML
* `Writable`, `readable_of_spelled`   numbers that can be written, and data that are read back
* `world_json_round_trip`      whole documents
-/

namespace Ladybug

/-! ### data that give a world -/

namespace Cell

/-- A document calls a cell by its name, and a tree also a wall. -/
def Called (c : Cell) (s : String) : Prop := s = c.name ∨ c = .tree ∧ s = "WALL"

/-- What gives a cell: a name, or an object that holds it. -/
inductive Spells (c : Cell) : Datum → Prop
  | name {s : String} (called : c.Called s) : Spells c (.text s)
  | object {s : String} (called : c.Called s) : Spells c (.map [("type", .text s)])

theorem Called.read {c : Cell} {s : String} (h : c.Called s) : Cell.read? s = some c := by
  rcases h with rfl | ⟨rfl, rfl⟩
  · cases c <;> decide
  · decide

end Cell

namespace Exchange

open Intake (field_of_find? fieldOr_of_find? intFrom_of_le nat_ofNat)
open Json (readsText_of_all writes_text writes_int)

def positionDatum (p : Position) : Datum := .map [("x", .int p.x), ("y", .int p.y)]

def characterDatum (c : Character) : Datum :=
  .map
    [("position", positionDatum c.position),
     ("direction", .text c.direction.name),
     ("inventory", .int c.inventory)]

def worldEntries (w : World) (rows : List (List Datum)) : Intake.Entries :=
  [("width", .int w.width),
   ("height", .int w.height),
   ("grid", .list (rows.map .list)),
   ("character", characterDatum w.character)]

/-- the datum of a world whose cells are given by data of their own -/
def worldDatumWith (w : World) (rows : List (List Datum)) : Datum := .map (worldEntries w rows)

/-- The datum of a world, each cell being spelled in one way or another. -/
inductive Spelled (w : World) : Datum → Prop
  | rows {rows : List (List Datum)} (cells : List.Forall₂ (List.Forall₂ Cell.Spells) w.grid rows) :
      Spelled w (worldDatumWith w rows)

theorem spelled_worldDatum (w : World) : Spelled w (worldDatum w) := by
  let cells (row : List Cell) : List Datum := row.map fun c => .map [("type", .text c.name)]
  have hrow (row : List Cell) : List.Forall₂ Cell.Spells row (cells row) :=
    List.forall₂_map_right_iff.mpr (List.forall₂_same.mpr fun c _ => .object (.inl rfl))
  have hgrid : List.Forall₂ (List.Forall₂ Cell.Spells) w.grid (w.grid.map cells) :=
    List.forall₂_map_right_iff.mpr (List.forall₂_same.mpr fun row _ => hrow row)
  have hdatum : worldDatum w = worldDatumWith w (w.grid.map cells) := by
    rw [worldDatumWith, worldEntries, List.map_map]
    rfl
  exact hdatum ▸ .rows hgrid

/-! ### reading the data -/

theorem readCell_of_spells {c : Cell} {d : Datum} (h : c.Spells d) : readCell d = .ok c := by
  cases h with
  | name called => simp only [readCell, called.read]
  | object called => simp [readCell, Datum.find?, called.read]

theorem readGrid_of_spells {g : Grid} {rows : List (List Datum)}
    (h : List.Forall₂ (List.Forall₂ Cell.Spells) g rows) :
    readGrid (some (.list (rows.map .list))) = .ok g := by
  have hlists : (rows.map Datum.list).all isList = true := by
    rw [List.all_map, List.all_eq_true]
    exact fun _ _ => rfl
  have hrow {row : List Cell} {ds : List Datum} (h : List.Forall₂ Cell.Spells row ds) :
      readRow (.list ds) = .ok row :=
    mapM_eq_ok_iff.mpr (h.imp fun _ _ => readCell_of_spells).flip
  rw [readGrid, if_pos hlists]
  exact mapM_eq_ok_iff.mpr (List.forall₂_map_right_iff.mpr (h.imp fun _ _ => hrow)).flip

theorem direction_name (d : Direction) : Intake.direction (.text d.name) = .ok d := by
  cases d <;> rfl

theorem character_written (c : Character) : Intake.character (characterDatum c) = .ok c := by
  have hposition : Intake.position (positionDatum c.position) = .ok c.position := rfl
  unfold Intake.character
  rw [show Intake.record "Character" _ = .ok _ from rfl, ok_bind,
    field_of_find? rfl hposition, ok_bind,
    fieldOr_of_find? rfl (direction_name c.direction), ok_bind,
    fieldOr_of_find? rfl (nat_ofNat c.inventory), ok_bind]
  rfl

theorem checkedWorld_of_valid {w : World} (hw : w.Valid) : Intake.checkedWorld w = .ok w := by
  rw [Intake.checkedWorld, World.checked, (World.misfit?_eq_none_iff w).mpr hw]

/-- The size and the character are those of the world, whatever reads the rows. -/
theorem worldWith_written {w : World} (hw : w.Valid) {rows : List (List Datum)}
    {read : Datum → Intake Grid} (hgrid : read (.list (rows.map .list)) = .ok w.grid) :
    Intake.worldWith read (worldDatumWith w rows) = .ok w := by
  have hwidth : (1 : Int) ≤ w.width := Int.ofNat_le.mpr hw.width_pos
  have hheight : (1 : Int) ≤ w.height := Int.ofNat_le.mpr hw.height_pos
  unfold Intake.worldWith
  rw [show Intake.record "World" (worldDatumWith w rows) = .ok _ from rfl, ok_bind,
    field_of_find? rfl (intFrom_of_le hwidth), ok_bind,
    field_of_find? rfl (intFrom_of_le hheight), ok_bind,
    field_of_find? rfl hgrid, ok_bind,
    field_of_find? rfl (character_written w.character), ok_bind]
  exact checkedWorld_of_valid hw

/-- **Data that give a valid world are read as that world.** -/
theorem worldOfDatum_of_spelled {w : World} (hw : w.Valid) {d : Datum} (h : Spelled w d) :
    worldOfDatum d = .ok w := by
  obtain @⟨rows, hcells⟩ := h
  have hgrid : Datum.find? (worldEntries w rows) "grid" = some (.list (rows.map .list)) := rfl
  rw [worldDatumWith, worldOfDatum, hgrid, readGrid_of_spells hcells]
  show accept "world" (Intake.worldWith _ (worldDatumWith w rows)) = _
  rw [worldWith_written hw rfl]
  rfl

/-! ### whole documents -/

theorem isBlank_of_isSpace {c : Char} (h : Json.isSpace c = true) : Text.isBlank c = true := by
  have hall : ∀ c ∈ [' ', '\t', '\n', '\r'], Text.isBlank c = true := forall_of_all (by decide)
  exact hall c (Json.mem_of_isSpace h)

/-- JSON begins with a value, and no value begins like XML. -/
theorem looksLikeXml_of_read {content : String} {d : Datum} (h : Json.read content = .ok d)
    (root : String) : looksLikeXml content root = false := by
  obtain ⟨c, cs, hskip, hc⟩ := Json.exists_opening_of_read h
  have hopening : Text.isBlank c = false ∧ c ≠ '<' := by
    have hall : ∀ c ∈ Json.openings, Text.isBlank c = false ∧ c ≠ '<' :=
      forall_of_all (by decide)
    exact hall c hc
  have hblank : content.toList.dropWhile Text.isBlank = c :: cs := by
    rw [← List.takeWhile_append_dropWhile (p := Json.isSpace) (l := content.toList)]
    rw [show content.toList.dropWhile Json.isSpace = c :: cs from hskip]
    have hspaces : (content.toList.takeWhile Json.isSpace).all Json.isSpace = true :=
      List.all_takeWhile
    have hspaces := List.all_eq_true.mp hspaces
    refine Text.dropWhile_prefix (fun b hb => isBlank_of_isSpace (hspaces b hb)) ?_
    rintro _ ⟨⟩
    exact hopening.1
  have hprefix (s : List Char) : ('<' :: s).isPrefixOf (c :: cs) = false := by
    rw [List.isPrefixOf_cons_cons, beq_eq_false_iff_ne.mpr (Ne.symm hopening.2), Bool.false_and]
  rw [looksLikeXml, hblank, hprefix, Bool.or_false]
  exact hprefix _

theorem readWorld_of_read {content : String} {d : Datum} (h : Json.read content = .ok d) :
    readWorld content = orRefusal (worldOfDatum d) ∧ readAnyWorld content = readWorld content := by
  have hjson : parseJson "world" content = .ok d := by rw [parseJson, h]
  rw [readAnyWorld, looksLikeXml_of_read h, readWorld, hjson]
  exact ⟨rfl, rfl⟩

/-- Every number of a world can be written: none of them has too many digits. -/
structure Writable (w : World) : Prop where
  width : Decimal.isLong w.width = false
  height : Decimal.isLong w.height = false
  x : Decimal.isLong w.character.position.x = false
  y : Decimal.isLong w.character.position.y = false
  inventory : Decimal.isLong w.character.inventory = false

theorem readsText_called {c : Cell} {s : String} (h : c.Called s) : Json.ascii.ReadsText s := by
  refine readsText_of_all ?_
  rcases h with rfl | ⟨-, rfl⟩
  · cases c <;> decide
  · decide

theorem readable_of_spells {c : Cell} {d : Datum} (h : c.Spells d) : Json.ascii.Readable d := by
  cases h with
  | name called => exact writes_text (readsText_called called)
  | object called =>
    have htype : Json.ascii.ReadsText "type" := readsText_of_all (by decide)
    exact ⟨List.pairwise_singleton _ _, htype, writes_text (readsText_called called), trivial⟩

theorem readableAll_of_forall₂ {α β : Type} {R : α → β → Prop} {f : Json.Form} {g : β → Datum}
    (hg : ∀ a b, R a b → f.Readable (g b)) {as : List α} {bs : List β}
    (h : List.Forall₂ R as bs) : f.ReadableAll (bs.map g) := by
  induction h with
  | nil => trivial
  | cons h _ ih => exact ⟨hg _ _ h, ih⟩

theorem readable_rows {g : Grid} {rows : List (List Datum)}
    (h : List.Forall₂ (List.Forall₂ Cell.Spells) g rows) :
    Json.ascii.Readable (.list (rows.map .list)) := by
  refine readableAll_of_forall₂ (g := Datum.list) (fun row ds hrow => ?_) h
  show Json.ascii.ReadableAll ds
  rw [← List.map_id ds]
  exact readableAll_of_forall₂ (fun c d hc => readable_of_spells hc) hrow

theorem readable_character {w : World} (hw : Writable w) :
    Json.ascii.Readable (characterDatum w.character) := by
  have hposition : Json.ascii.Readable (positionDatum w.character.position) :=
    ⟨by simp, readsText_of_all (by decide), writes_int hw.x,
      readsText_of_all (by decide), writes_int hw.y, trivial⟩
  have hdirection : Json.ascii.ReadsText w.character.direction.name :=
    readsText_of_all (by cases w.character.direction <;> decide)
  exact ⟨by simp, readsText_of_all (by decide), hposition,
    readsText_of_all (by decide), writes_text hdirection,
    readsText_of_all (by decide), writes_int hw.inventory, trivial⟩

theorem readable_of_spelled {w : World} (hw : Writable w) {d : Datum} (h : Spelled w d) :
    Json.ascii.Readable d := by
  obtain @⟨rows, hcells⟩ := h
  have hnames : ((worldEntries w rows).map Prod.fst).Nodup := by simp [worldEntries]
  exact ⟨hnames, readsText_of_all (by decide), writes_int hw.width,
    readsText_of_all (by decide), writes_int hw.height,
    readsText_of_all (by decide), readable_rows hcells,
    readsText_of_all (by decide), readable_character hw, trivial⟩

/-- **A valid world is read back from JSON**, however its cells are spelled: from the data, from
every text that is read as them, and so from what is written, unless a number is too long to be
written. -/
theorem world_json_round_trip {w : World} (hw : w.Valid) :
    Spelled w (worldDatum w) ∧
      (∀ d, Spelled w d → worldOfDatum d = .ok w ∧ ∀ content, Json.read content = .ok d →
        readWorld content = .ok w ∧ readAnyWorld content = .ok w) ∧
      (Writable w → ∀ d, Spelled w d → Json.read (Json.indented Json.ascii d) = .ok d) ∧
      (Writable w → readWorld (writeWorld w) = .ok w ∧ readAnyWorld (writeWorld w) = .ok w) := by
  have hread (d : Datum) (hd : Spelled w d) (content : String) (hc : Json.read content = .ok d) :
      readWorld content = .ok w ∧ readAnyWorld content = .ok w := by
    obtain ⟨hworld, hany⟩ := readWorld_of_read hc
    rw [hany, hworld, worldOfDatum_of_spelled hw hd]
    exact ⟨rfl, rfl⟩
  have hback (hshort : Writable w) (d : Datum) (hd : Spelled w d) :
      Json.read (Json.indented Json.ascii d) = .ok d :=
    Json.read_indented (readable_of_spelled hshort hd)
  have hsaved := spelled_worldDatum w
  refine ⟨hsaved, fun d hd => ⟨worldOfDatum_of_spelled hw hd, hread d hd⟩, hback, fun hshort => ?_⟩
  exact hread _ hsaved _ (hback hshort _ hsaved)

/-- a world without a character on it -/
def thicket : World where
  width := 2
  height := 1
  grid := [[.tree, .clover]]
  character := { position := Position.offGrid, direction := .west, inventory := 7 }

/-- the same with a wall and a plain name -/
def walled : Datum := worldDatumWith thicket [[.map [("type", .text "WALL")], .text "CLOVER"]]

theorem thicket_read :
    thicket.Valid ∧ Spelled thicket walled ∧
      readWorld (Json.indented Json.ascii walled) = .ok thicket ∧
      readAnyWorld (Json.indented Json.ascii walled) = .ok thicket ∧
      readAnyWorld (writeWorld thicket) = .ok thicket := by
  have hvalid : thicket.Valid := by
    constructor
    case placed => exact .inl rfl
    all_goals decide
  have hspelled : Spelled thicket walled :=
    .rows (.cons (.cons (.object (.inr ⟨rfl, rfl⟩)) (.cons (.name (.inl rfl)) .nil)) .nil)
  have hwritable : Writable thicket := by
    constructor <;> decide +kernel
  obtain ⟨-, hread, hback, hsaved⟩ := world_json_round_trip hvalid
  obtain ⟨hjson, hany⟩ := (hread _ hspelled).2 _ (hback hwritable _ hspelled)
  exact ⟨hvalid, hspelled, hjson, hany, (hsaved hwritable).2⟩

end Exchange

end Ladybug

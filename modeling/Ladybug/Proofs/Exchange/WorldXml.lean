import Ladybug.Proofs.Exchange.LayoutXml

/-!
# Worlds that are saved as XML and loaded

A world is saved as the layout of its points, with the character if it is on the grid. What the
character carries is left out.

* `shown`                   the layout that is saved
* `worldElement_eq`, `showable_shown`   its document is that of the world, and can show all of it
* `worldOfElement_worldElement`   a world is read back from its element
* `world_xml_round_trip`    and so it is from its text, without what the character carries
-/

namespace Ladybug.Exchange

variable {w : World}

/-- the layout that is saved of a world -/
def shown (w : World) : Layout :=
  { Layout.ofWorld w with
    character :=
      if w.character.position.isOffGrid then none
      else some ⟨w.character.position.x, w.character.position.y, w.character.direction, 0⟩ }

theorem worldElement_eq (w : World) : worldElement w = layoutElement (shown w) := by
  have hkara : (if w.character.position.isOffGrid then [] else [characterElement w.character])
      = (shown w).character.toList.map
          fun c => characterElement (Layout.CharacterLayout.place c) := by
    unfold shown
    split <;> rfl
  rw [worldElement, hkara]
  rfl

/-- **Every world can be written.** -/
theorem writable_worldElement (w : World) : (worldElement w).Writable := by
  rw [worldElement_eq]
  exact writable_layoutElement (shown w)

theorem exact_of_inBounds (hwidth : w.width ≤ 2 ^ 53) (hheight : w.height ≤ 2 ^ 53)
    {p : Position} (h : w.inBounds p = true) : Exact p.x ∧ Exact p.y := by
  obtain ⟨hx, hx', hy, hy'⟩ := (World.inBounds_iff w p).mp h
  unfold Exact
  omega

theorem showable_shown (hw : w.Valid) (hwidth : w.width ≤ 2 ^ 53) (hheight : w.height ≤ 2 ^ 53) :
    Showable (shown w) where
  width_pos := hw.width_pos
  height_pos := hw.height_pos
  width_le := hwidth
  height_le := hheight
  points c p hp := by
    have hmem : p ∈ w.positionsOf c := by
      cases c with
      | empty => exact absurd hp List.not_mem_nil
      | tree => exact hp
      | mushroom => exact hp
      | clover => exact hp
    exact exact_of_inBounds hwidth hheight (World.inBounds_of_mem_positionsOf hw hmem)
  character c hc := by
    have hoff : ¬ w.character.position.isOffGrid = true := by
      intro hoff
      rw [shown, if_pos hoff] at hc
      cases hc
    rw [shown, if_neg hoff] at hc
    cases hc
    have hon := hw.placed.resolve_left fun h => hoff (beq_iff_eq.mpr h)
    exact ⟨(World.inBounds_iff w _).mp hon, rfl⟩

/-- A world is read back from its element, with the character that is shown. -/
theorem worldOfElement_of_shown (hw : w.Valid) (hwidth : w.width ≤ 2 ^ 53)
    (hheight : w.height ≤ 2 ^ 53) :
    worldOfElement (worldElement w) = .ok { w with character := (shown w).placedCharacter } := by
  have hread := (shows_layoutElement (shown w)).worldOfElement (showable_shown hw hwidth hheight)
    (findElement_layoutElement _)
  rw [worldElement_eq, hread, shown, Layout.made_withCharacter hw]

/-- **A world with its character on the grid is read back from its element**, with nothing in the
character's hands. -/
theorem worldOfElement_worldElement (hw : w.Valid)
    (hon : w.inBounds w.character.position = true) (hwidth : w.width ≤ 2 ^ 53)
    (hheight : w.height ≤ 2 ^ 53) : worldOfElement (worldElement w) = .ok (w.hold 0) := by
  have hoff : ¬ w.character.position.isOffGrid = true := fun h =>
    World.ne_offGrid_of_inBounds hon (beq_iff_eq.mp h)
  rw [worldOfElement_of_shown hw hwidth hheight, shown, if_neg hoff]
  rfl

/-- **A valid world with its character on the grid is read back from XML**, all but what the
character carries: whether the format is given or has to be told. -/
theorem world_xml_round_trip (hw : w.Valid) (hon : w.inBounds w.character.position = true)
    (hwidth : w.width ≤ 2 ^ 53) (hheight : w.height ≤ 2 ^ 53) :
    readWorldXml (writeWorldXml w) = .ok (w.hold 0) ∧
      readAnyWorld (writeWorldXml w) = .ok (w.hold 0) := by
  have hread : readWorldXml (writeWorldXml w) = .ok (w.hold 0) := by
    rw [readWorldXml, writeWorldXml, parseXml_document (writable_worldElement w)]
    exact worldOfElement_worldElement hw hon hwidth hheight
  have hlooks : looksLikeXml (writeWorldXml w) worldRoot = true := looksLikeXml_document _ _
  refine ⟨hread, ?_⟩
  rw [readAnyWorld, if_pos hlooks, hread]

/-- cells of every kind, and a character that carries something -/
def orchard : World where
  width := 3
  height := 2
  grid := [[.tree, .empty, .clover], [.mushroom, .clover, .empty]]
  character := { position := ⟨2, 1⟩, direction := .west, inventory := 4 }

theorem orchard_read :
    orchard.Valid ∧ orchard.inBounds orchard.character.position = true ∧
      readWorldXml (writeWorldXml orchard) = .ok (orchard.hold 0) ∧
      readAnyWorld (writeWorldXml orchard) = .ok (orchard.hold 0) := by
  have hon : orchard.inBounds orchard.character.position = true := by decide
  have hvalid : orchard.Valid := by
    constructor
    case placed => exact .inr hon
    all_goals decide
  have hread := world_xml_round_trip hvalid hon (by decide) (by decide)
  exact ⟨hvalid, hon, hread⟩

end Ladybug.Exchange

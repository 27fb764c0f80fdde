import Ladybug.Proofs.Exchange.WorldXml

/-!
# Worlds that are loaded from XML and saved again

A document has no place for a character off the grid, so a world is saved without it, and a world
without a character gets one in its middle.

* `worldOfElement_of_offGrid`   a character off the grid is not written
* `loaded_world_saved`     a world that was loaded is saved and loaded as it is, but for a character
                           off the grid, which comes back to the middle
* `outside_recentred`      a world that is not loaded as it was
-/

namespace Ladybug.Exchange

variable {w : World}

/-- The character in the middle of the grid, where one stands of which nothing is said. -/
def recentred (w : World) : World :=
  { w with character := { position := ⟨w.width / 2, w.height / 2⟩ } }

theorem readWorldXml_writeWorldXml (w : World) :
    readWorldXml (writeWorldXml w) = worldOfElement (worldElement w) := by
  rw [readWorldXml, writeWorldXml, parseXml_document (writable_worldElement w)]

theorem worldOfElement_of_offGrid (hw : w.Valid) (h : w.character.position = Position.offGrid)
    (hwidth : w.width ≤ 2 ^ 53) (hheight : w.height ≤ 2 ^ 53) :
    worldOfElement (worldElement w) = .ok (recentred w) := by
  have hoff : w.character.position.isOffGrid = true := beq_iff_eq.mpr h
  rw [worldOfElement_of_shown hw hwidth hheight, shown, if_pos hoff]
  rfl

/-- **A world that was loaded from XML is saved and loaded again as it is**, unless its character is
off the grid: then it stands in the middle and looks north. -/
theorem loaded_world_saved {content : String} (h : readWorldXml content = .ok w)
    (hwidth : w.width ≤ 2 ^ 53) (hheight : w.height ≤ 2 ^ 53) :
    readWorldXml (writeWorldXml w)
      = .ok (if w.character.position = Position.offGrid then recentred w else w) := by
  obtain ⟨hw, hempty⟩ := valid_of_readWorldXml h
  rw [readWorldXml_writeWorldXml]
  split
  · rename_i hoff
    exact worldOfElement_of_offGrid hw hoff hwidth hheight
  · rename_i hoff
    have hon : w.inBounds w.character.position = true := hw.placed.resolve_left hoff
    rw [worldOfElement_worldElement hw hon hwidth hheight, World.hold, ← hempty]

/-- blocks out of order, points outside the grid and twice on it, one place with a fraction and one
without a value, a direction that is none -/
def rockeryText : String :=
  "<World><XmlWorld sizex=' 2.9 ' sizey='2'>
    <XmlPaintedfieldPoints><XmlPoint x='1'/><XmlPoint x='9' y='-4'/></XmlPaintedfieldPoints>
    <XmlWallPoints><XmlPoint x='1'/><XmlPoint y='1e0'/></XmlWallPoints>
    <XmlKaraList><XmlKara x='1' y='' direction='7'/></XmlKaraList>
  </XmlWorld></World>"

def rockery : World where
  width := 2
  height := 2
  grid := [[.empty, .clover], [.tree, .empty]]
  character := { position := ⟨1, 1⟩ }

set_option maxRecDepth 4000 in
theorem rockery_saved :
    readWorldXml rockeryText = .ok rockery ∧
      rockery.character.position ≠ Position.offGrid ∧
      readWorldXml (writeWorldXml rockery) = .ok rockery := by
  have hread : readWorldXml rockeryText = .ok rockery := by
    rw [readWorldXml, show parseXml ".world" rockeryText = _ from parseXml_ofList _ _]
    decide +kernel
  have hon : rockery.character.position ≠ Position.offGrid := by decide
  have hsaved := loaded_world_saved hread (by decide) (by decide)
  rw [if_neg hon] at hsaved
  exact ⟨hread, hon, hsaved⟩

/-- a character outside the grid that looks east -/
def outsideText : String :=
  "<XmlWorld sizex='3' sizey='3'>
    <XmlKaraList><XmlKara direction='1' x='7' y='1'/></XmlKaraList>
  </XmlWorld>"

def outside : World where
  width := 3
  height := 3
  grid := Grid.allEmpty 3 3
  character := { position := Position.offGrid, direction := .east }

/-- The character is off the grid when the world is loaded, and in the middle when it is saved and
loaded again. -/
theorem outside_recentred :
    readWorldXml outsideText = .ok outside ∧ outside.width ≤ 2 ^ 53 ∧ outside.height ≤ 2 ^ 53 ∧
      readWorldXml (writeWorldXml outside) = .ok (recentred outside) ∧
      recentred outside ≠ outside := by
  have hread : readWorldXml outsideText = .ok outside := by
    rw [readWorldXml, show parseXml ".world" outsideText = _ from parseXml_ofList _ _]
    decide +kernel
  have hsaved : readWorldXml (writeWorldXml outside) = .ok (recentred outside) := by
    rw [readWorldXml_writeWorldXml]
    exact worldOfElement_of_offGrid (valid_of_readWorldXml hread).1 rfl (by decide) (by decide)
  exact ⟨hread, by decide, by decide, hsaved, by decide⟩

end Ladybug.Exchange

import Ladybug.Proofs.World.Grid
import Ladybug.World.Command

/-!
# What commands cannot change

* `Command.Does`        what a command that acts does, one rule for each way to act
* `World.Kept`          what two worlds share when commands lead from one to the other
* `World.Reaches`       some commands, each of which acts, lead from one world to another
* `World.Next`          one command at most does
* `World.Reaches.kept`  a valid world stays valid, and is kept
-/

namespace Ladybug

namespace Position

theorem step_ne (p : Position) (d : Direction) : p.step d ≠ p := by
  intro h
  have hx : (p.step d).x = p.x := congrArg Position.x h
  have hy : (p.step d).y = p.y := congrArg Position.y h
  cases d <;> simp only [step, Direction.delta] at hx hy <;> omega

end Position

namespace Command

/-- The ways in which a command acts on a world, each with the world after it. -/
inductive Does : Command → World → World → Prop
  | walk {w : World} {c : Cell} (here : w.character.position ≠ Position.offGrid)
      (free : c = .empty ∨ c = .clover) (ahead : w.cellAt? w.ahead = some c) :
      Does .moveForward w (w.moveTo w.ahead)
  | push {w : World} (here : w.character.position ≠ Position.offGrid)
      (ahead : w.cellAt? w.ahead = some .mushroom)
      (beyond : w.cellAt? (w.ahead.step w.character.direction) = some .empty) :
      Does .moveForward w
        (((w.put (w.ahead.step w.character.direction) .mushroom).put w.ahead .empty).moveTo w.ahead)
  | left {w : World} : Does .turnLeft w (w.face w.character.direction.left)
  | right {w : World} : Does .turnRight w (w.face w.character.direction.right)
  | pick {w : World} (on : w.cellAt? w.character.position = some .clover) :
      Does .pickClover w
        ((w.put w.character.position .empty).hold (w.character.inventory + 1))
  | place {w : World} {n : Nat} (has : w.character.inventory = n + 1)
      (on : w.cellAt? w.character.position = some .empty) :
      Does .placeClover w ((w.put w.character.position .clover).hold n)

theorem does_of_moveForward {w w' : World} (h : w.moveForward = some w') :
    Does .moveForward w w' := by
  unfold World.moveForward at h
  by_cases hoff : w.character.position.isOffGrid = true
  · rw [if_pos hoff] at h
    cases h
  · have here : w.character.position ≠ Position.offGrid := fun e => hoff (by rw [e]; rfl)
    rw [if_neg hoff] at h
    simp only at h
    cases hahead : w.cellAt? w.ahead with
    | none =>
      rw [hahead] at h
      cases h
    | some c =>
      rw [hahead] at h
      cases c with
      | tree => cases h
      | empty =>
        cases h
        exact .walk here (.inl rfl) hahead
      | clover =>
        cases h
        exact .walk here (.inr rfl) hahead
      | mushroom =>
        by_cases hb : w.cellAt? (w.ahead.step w.character.direction) = some .empty
        · simp only [hb, ↓reduceIte, Option.some.injEq] at h
          exact h ▸ .push here hahead hb
        · simp only [hb, ↓reduceIte, reduceCtorEq] at h

/-- **A command leads to a world just when one of the ways to act does.** -/
theorem apply_eq_some_iff {c : Command} {w w' : World} :
    c.apply w = some w' ↔ c.Does w w' := by
  constructor
  · intro h
    cases c with
    | moveForward => exact does_of_moveForward h
    | turnLeft =>
      cases h
      exact .left
    | turnRight =>
      cases h
      exact .right
    | pickClover =>
      obtain ⟨hon, e⟩ := Option.ite_none_right_eq_some.mp h
      exact Option.some.inj e ▸ .pick hon
    | placeClover =>
      change w.placeClover = some w' at h
      cases hn : w.character.inventory with
      | zero =>
        simp only [World.placeClover, hn, reduceCtorEq] at h
      | succ n =>
        simp only [World.placeClover, hn] at h
        obtain ⟨hon, e⟩ := Option.ite_none_right_eq_some.mp h
        exact Option.some.inj e ▸ .place hn hon
  · intro h
    cases h with
    | walk here free ahead =>
      have hoff : w.character.position.isOffGrid = false := beq_eq_false_iff_ne.mpr here
      rcases free with rfl | rfl <;> simp only [apply, World.moveForward, hoff, ahead] <;> rfl
    | push here ahead beyond =>
      have hoff : w.character.position.isOffGrid = false := beq_eq_false_iff_ne.mpr here
      simp only [apply, World.moveForward, hoff, ahead, beyond]
      rfl
    | left => rfl
    | right => rfl
    | pick on => simp only [apply, World.pickClover, on, ↓reduceIte]
    | place has on => simp only [apply, World.placeClover, has, on, ↓reduceIte]

end Command

namespace World

/-- What commands leave as it is: the size, the trees, the number of mushrooms, the clovers
counted with those in the inventory, and on which side of the edge the character is. -/
structure Kept (w w' : World) : Prop where
  width : w'.width = w.width
  height : w'.height = w.height
  trees : ∀ p, w'.cellAt? p = some .tree ↔ w.cellAt? p = some .tree
  mushrooms : w'.count .mushroom = w.count .mushroom
  clovers : w'.count .clover + w'.character.inventory = w.count .clover + w.character.inventory
  away : w.character.position = Position.offGrid →
    w'.character.position = Position.offGrid ∧ w'.grid = w.grid ∧
      w'.character.inventory = w.character.inventory
  stays : w.inBounds w.character.position = true → w'.inBounds w'.character.position = true

theorem Kept.refl (w : World) : Kept w w where
  width := rfl
  height := rfl
  trees _ := Iff.rfl
  mushrooms := rfl
  clovers := rfl
  away h := ⟨h, rfl, rfl⟩
  stays h := h

theorem Kept.trans {u v w : World} (h₁ : Kept u v) (h₂ : Kept v w) : Kept u w where
  width := h₂.width.trans h₁.width
  height := h₂.height.trans h₁.height
  trees p := (h₂.trees p).trans (h₁.trees p)
  mushrooms := h₂.mushrooms.trans h₁.mushrooms
  clovers := h₂.clovers.trans h₁.clovers
  away h := by
    obtain ⟨hp, hg, hi⟩ := h₁.away h
    obtain ⟨hp', hg', hi'⟩ := h₂.away hp
    exact ⟨hp', hg'.trans hg, hi'.trans hi⟩
  stays h := h₂.stays (h₁.stays h)

/-! ### one command -/

theorem kept_face (w : World) (d : Direction) : Kept w (w.face d) where
  width := rfl
  height := rfl
  trees _ := Iff.rfl
  mushrooms := rfl
  clovers := rfl
  away h := ⟨h, rfl, rfl⟩
  stays h := h

/-- A step from the grid to another place on it keeps all that the grid does. -/
theorem kept_moveTo (w : World) {p : Position} (here : w.character.position ≠ Position.offGrid)
    (hp : w.inBounds p = true) : Kept w (w.moveTo p) where
  width := rfl
  height := rfl
  trees _ := Iff.rfl
  mushrooms := rfl
  clovers := rfl
  away h := absurd h here
  stays _ := hp

/-- A change of one cell under the character: no tree and no mushroom comes or goes, and the
inventory has what the cell has lost. -/
theorem kept_swap (w : World) {old new : Cell} {n : Nat}
    (on : w.cellAt? w.character.position = some old)
    (hold : old = .empty ∨ old = .clover) (hnew : new = .empty ∨ new = .clover)
    (hn : (if new = .clover then 1 else 0) + n
      = (if old = .clover then 1 else 0) + w.character.inventory) :
    Kept w ((w.put w.character.position new).hold n) where
  width := rfl
  height := rfl
  trees p := by
    show (w.put w.character.position new).cellAt? p = _ ↔ _
    rw [cellAt?_put on]
    by_cases hp : p = w.character.position
    · rw [if_pos hp, hp, on]
      rcases hold with rfl | rfl <;> rcases hnew with rfl | rfl <;>
        simp only [reduceCtorEq, Option.some.injEq]
    · rw [if_neg hp]
  mushrooms := by
    have h := count_put on new .mushroom
    show (w.put w.character.position new).count .mushroom = _
    rcases hold with rfl | rfl <;> rcases hnew with rfl | rfl <;>
      simpa only [reduceCtorEq, ↓reduceIte, Nat.add_zero] using h
  clovers := by
    have h := count_put on new .clover
    show (w.put w.character.position new).count .clover + n = _
    omega
  away h := absurd h (ne_offGrid_of_inBounds (inBounds_of_cellAt? on))
  stays h := h

/-- A mushroom moved from one cell to another: no tree and no clover comes or goes. -/
theorem kept_shove (w : World) {p q : Position} (hne : q ≠ p) (hp : w.cellAt? p = some .mushroom)
    (hq : w.cellAt? q = some .empty) (here : w.character.position ≠ Position.offGrid) :
    Kept w ((w.put q .mushroom).put p .empty) := by
  have hp' : (w.put q .mushroom).cellAt? p = some .mushroom := by
    rw [cellAt?_put hq, if_neg (Ne.symm hne), hp]
  constructor
  case width => rfl
  case height => rfl
  case trees =>
    intro r
    rw [cellAt?_put hp', cellAt?_put hq]
    by_cases hrp : r = p
    · rw [if_pos hrp, hrp, hp]
      simp only [reduceCtorEq, Option.some.injEq]
    · rw [if_neg hrp]
      by_cases hrq : r = q
      · rw [if_pos hrq, hrq, hq]
        simp only [reduceCtorEq, Option.some.injEq]
      · rw [if_neg hrq]
  case mushrooms =>
    have h₁ := count_put hq .mushroom .mushroom
    have h₂ := count_put hp' .empty .mushroom
    simp only [reduceCtorEq, ↓reduceIte] at h₁ h₂
    omega
  case clovers =>
    have h₁ := count_put hq .mushroom .clover
    have h₂ := count_put hp' .empty .clover
    simp only [reduceCtorEq, ↓reduceIte] at h₁ h₂
    show ((w.put q .mushroom).put p .empty).count .clover + w.character.inventory = _
    omega
  case away => exact fun h => absurd h here
  case stays => exact fun h => h

/-- **One command keeps a valid world valid, and all that commands keep.** -/
theorem kept_of_does {c : Command} {w w' : World} (h : c.Does w w') (hw : w.Valid) :
    w'.Valid ∧ Kept w w' := by
  cases h with
  | walk here free ahead =>
    have hb := inBounds_of_cellAt? ahead
    exact ⟨{ hw with placed := .inr hb }, kept_moveTo w here hb⟩
  | push here ahead beyond =>
    have hb := inBounds_of_cellAt? ahead
    have hne : w.ahead.step w.character.direction ≠ w.ahead := Position.step_ne _ _
    have hv :=
      valid_put (valid_put hw (w.ahead.step w.character.direction) .mushroom) w.ahead .empty
    refine ⟨{ hv with placed := .inr hb }, ?_⟩
    exact (kept_shove w hne ahead beyond here).trans (kept_moveTo _ here hb)
  | left => exact ⟨{ hw with placed := hw.placed }, kept_face ..⟩
  | right => exact ⟨{ hw with placed := hw.placed }, kept_face ..⟩
  | pick on =>
    have hv := valid_put hw w.character.position .empty
    refine ⟨{ hv with placed := hw.placed }, kept_swap w on (.inr rfl) (.inl rfl) ?_⟩
    simp only [reduceCtorEq, ↓reduceIte]
    omega
  | place has on =>
    have hv := valid_put hw w.character.position .clover
    refine ⟨{ hv with placed := hw.placed }, kept_swap w on (.inl rfl) (.inr rfl) ?_⟩
    simp only [reduceCtorEq, ↓reduceIte]
    omega

/-! ### many commands -/

/-- Some commands, each of which acts, lead from one world to another. -/
inductive Reaches (w : World) : World → Prop
  | refl : Reaches w w
  | tail {v v' : World} (c : Command) (before : Reaches w v) (last : c.apply v = some v') :
      Reaches w v'

theorem Reaches.trans {u v w : World} (h₁ : Reaches u v) (h₂ : Reaches v w) : Reaches u w := by
  induction h₂ with
  | refl => exact h₁
  | tail c _ last ih => exact .tail c ih last

theorem Reaches.single {c : Command} {w w' : World} (h : c.apply w = some w') : Reaches w w' :=
  .tail c .refl h

/-- A world that is left as it is, or that one command which acts leads to another. -/
def Next (w w' : World) : Prop := w' = w ∨ ∃ c : Command, c.apply w = some w'

theorem Next.reaches {w w' : World} (h : w.Next w') : Reaches w w' := by
  rcases h with rfl | ⟨c, hc⟩
  · exact .refl
  · exact .single hc

/-- **Whatever commands have been done, a valid world is still valid, and it is kept.** -/
theorem Reaches.kept {w w' : World} (h : Reaches w w') (hw : w.Valid) : w'.Valid ∧ Kept w w' := by
  induction h with
  | refl => exact ⟨hw, .refl w⟩
  | tail c _ last ih =>
    obtain ⟨hv, hk⟩ := ih
    obtain ⟨hv', hk'⟩ := kept_of_does (Command.apply_eq_some_iff.mp last) hv
    exact ⟨hv', hk.trans hk'⟩

end World

end Ladybug

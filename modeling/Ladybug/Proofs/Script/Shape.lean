import Ladybug.Script.Tree

/-!
# Trees without their lines

* `Expr.unlined`, `Stmt.unlined`   a tree with every line set to zero
* `Expr.Proper`, `Stmt.Proper`     trees that a script can write: two operands or more under
  a conjunction or a disjunction, one branch or more in a choice, only sensors read for nothing
-/

namespace Ladybug.Script

mutual

def Expr.unlined : Expr → Expr
  | .sensor s _ => .sensor s 0
  | .literal b _ => .literal b 0
  | .not e _ => .not e.unlined 0
  | .and es _ => .and (unlinedAll es) 0
  | .or es _ => .or (unlinedAll es) 0

def unlinedAll : List Expr → List Expr
  | [] => []
  | e :: es => e.unlined :: unlinedAll es

end

mutual

def Stmt.unlined : Stmt → Stmt
  | .command c _ => .command c 0
  | .ask e _ => .ask e.unlined 0
  | .loop e body _ => .loop e.unlined (unlinedBlock body) 0
  | .choice branches otherwise _ =>
    .choice (unlinedBranches branches) (unlinedBlock otherwise) 0

def unlinedBlock : List Stmt → List Stmt
  | [] => []
  | s :: rest => s.unlined :: unlinedBlock rest

def unlinedBranches : List (Expr × List Stmt) → List (Expr × List Stmt)
  | [] => []
  | (e, body) :: rest => (e.unlined, unlinedBlock body) :: unlinedBranches rest

end

theorem unlinedAll_eq_map (es : List Expr) : unlinedAll es = es.map Expr.unlined := by
  induction es with
  | nil => rfl
  | cons e es ih => rw [unlinedAll, ih, List.map_cons]

theorem unlinedBlock_eq_map (block : List Stmt) : unlinedBlock block = block.map Stmt.unlined := by
  induction block with
  | nil => rfl
  | cons s rest ih => rw [unlinedBlock, ih, List.map_cons]

theorem unlinedBlock_append (block block' : List Stmt) :
    unlinedBlock (block ++ block') = unlinedBlock block ++ unlinedBlock block' := by
  simp only [unlinedBlock_eq_map, List.map_append]

mutual

def Expr.Proper : Expr → Prop
  | .sensor _ _ | .literal _ _ => True
  | .not e _ => e.Proper
  | .and es _ | .or es _ => 2 ≤ es.length ∧ ProperAll es

def ProperAll : List Expr → Prop
  | [] => True
  | e :: es => e.Proper ∧ ProperAll es

end

mutual

def Stmt.Proper : Stmt → Prop
  | .command _ _ => True
  | .ask e _ => ∃ s line, e = .sensor s line
  | .loop e body _ => e.Proper ∧ ProperBlock body
  | .choice branches otherwise _ =>
    branches ≠ [] ∧ ProperBranches branches ∧ ProperBlock otherwise

def ProperBlock : List Stmt → Prop
  | [] => True
  | s :: rest => s.Proper ∧ ProperBlock rest

def ProperBranches : List (Expr × List Stmt) → Prop
  | [] => True
  | (e, body) :: rest => e.Proper ∧ ProperBlock body ∧ ProperBranches rest

end

end Ladybug.Script

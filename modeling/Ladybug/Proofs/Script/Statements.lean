import Ladybug.Proofs.Script.Conditions
import Ladybug.Proofs.Script.LaidOut

/-!
# Reading statements that were written

What the three kinds of dialects have in common. A kind of dialect has to say how it reads a
statement, given that it reads the parts of the statement; every statement is then read.

* `Stmt.height`        how deep a statement is nested
* `call_command`, `call_sensor`   calls on the receiver
* `repeated_reads`     a block, statement by statement
* `StmtReads`          a statement is read where it ends
* `Reader`             what a kind of dialect has to say
* `Reader.reads`       every statement is read
-/

namespace Ladybug.Script

mutual

def Stmt.height : Stmt → Nat
  | .command _ _ => 1
  | .ask _ _ => 1
  | .loop e body _ => max e.height (blockHeight body) + 1
  | .choice branches otherwise _ => max (branchHeights branches) (blockHeight otherwise) + 1

/-- how deep the statements of a block are nested; something stands in an empty one, too -/
def blockHeight : List Stmt → Nat
  | [] => 1
  | x :: rest => max x.height (blockHeight rest)

def branchHeights : List (Expr × List Stmt) → Nat
  | [] => 0
  | (e, body) :: rest => max (max e.height (blockHeight body)) (branchHeights rest)

end

theorem blockHeight_pos (body : List Stmt) : 0 < blockHeight body := by
  induction body with
  | nil => exact Nat.one_pos
  | cons x rest ih => exact Nat.lt_of_lt_of_le ih (Nat.le_max_right _ _)

/-! ### calls -/

theorem call_command (s : Setting) (c : Command) :
    Reads (call s) (commandFaces s.dialect c).tail Calm fun x => x.unlined = .command c 0 := by
  intro ts rest hts hrest
  obtain ⟨t, ht, hname⟩ := member_command s (commandName s.dialect c) ts rest hts hrest
  refine ⟨.command c t.line, ?_, rfl⟩
  rw [call, ht]
  simp only [hname, command?_commandName]

theorem call_sensor (s : Setting) (d : Detector) :
    Reads (call s) (sensorFaces s.dialect d).tail Calm
      fun x => x.unlined = .ask (.sensor d 0) 0 := by
  intro ts rest hts hrest
  obtain ⟨t, ht, hname⟩ := member_sensor s (sensorName s.dialect d) ts rest hts hrest
  refine ⟨.ask (.sensor d t.line) t.line, ?_, rfl⟩
  rw [call, ht]
  simp only [hname, command?_sensorName, sensor?_sensorName]

/-! ### blocks -/

/-- `body'` is `body` on other lines. -/
def SameBlock (body body' : List Stmt) : Prop := unlinedBlock body' = unlinedBlock body

theorem SameBlock.append {body body' more more' : List Stmt} (h : SameBlock body body')
    (h' : SameBlock more more') : SameBlock (body ++ more) (body' ++ more') := by
  rw [SameBlock, unlinedBlock_append, unlinedBlock_append, h, h']

/-- a branch on other lines -/
structure SameBranch (b b' : Branch) : Prop where
  condition : b.1.Same b'.1
  body : SameBlock b.2 b'.2

/-- branches on other lines -/
def SameBranches (bs bs' : List Branch) : Prop := unlinedBranches bs' = unlinedBranches bs

theorem SameBranches.cons {b b' : Branch} {bs bs' : List Branch} (h : SameBranch b b')
    (h' : SameBranches bs bs') : SameBranches (b :: bs) (b' :: bs') := by
  rw [SameBranches, unlinedBranches, unlinedBranches, h.condition, h.body, h']

theorem sameBlock_choice {branches branches' : List Branch} {otherwise otherwise' : List Stmt}
    {line line' : Nat} (h : SameBranches branches branches') (h' : SameBlock otherwise otherwise') :
    SameBlock [.choice branches otherwise line] [.choice branches' otherwise' line'] := by
  show [Stmt.choice (unlinedBranches branches') (unlinedBlock otherwise') 0] =
    [Stmt.choice (unlinedBranches branches) (unlinedBlock otherwise) 0]
  rw [h, h']

theorem sameBlock_loop {e e' : Expr} {body body' : List Stmt} {line line' : Nat}
    (h : SameBranch (e, body) (e', body')) :
    SameBlock [.loop e body line] [.loop e' body' line'] := by
  show [Stmt.loop e'.unlined (unlinedBlock body') 0] = [Stmt.loop e.unlined (unlinedBlock body) 0]
  rw [show e'.unlined = e.unlined from h.condition, show unlinedBlock body' = _ from h.body]

theorem sameBlock_one {x x' : Stmt} (h : x'.unlined = x.unlined) : SameBlock [x] [x'] := by
  show [x'.unlined] = [x.unlined]
  rw [h]

/-- what a parser reads, and the statements that it stands for -/
abbrev Item := List Face × List Stmt

/-- An item is read where it ends; more is expected where it begins. -/
structure ItemReads (more : List Token → Except Mistake Bool) (item : Parser (List Stmt))
    (next : List Token → Prop) (x : Item) : Prop where
  reads : Reads item x.1 next (SameBlock x.2)
  begins : ∀ ts rest, ts.map Token.face = x.1 → more (ts ++ rest) = .ok true ∧ next (ts ++ rest)

section

variable {more : List Token → Except Mistake Bool} {item : Parser (List Stmt)}
  {next : List Token → Prop}

theorem repeatedFrom_stop {bound ts : List Token} {done : List Stmt}
    (hmore : more ts = .ok false) :
    repeatedFrom more item bound done ts = .ok (done.reverse, ts) := by
  unfold repeatedFrom
  simp only [hmore]

theorem repeatedFrom_more {b : Token} {bound ts rest : List Token} {done stmts : List Stmt}
    (hmore : more ts = .ok true) (hitem : item ts = .ok (stmts, rest)) :
    repeatedFrom more item (b :: bound) done ts
      = repeatedFrom more item bound (stmts.reverse ++ done) rest := by
  rw [repeatedFrom.eq_def]
  simp only [hmore, hitem]

theorem repeatedFrom_reads {xs : List Item} (hxs : ∀ x ∈ xs, ItemReads more item next x)
    {bound ts rest : List Token} (done : List Stmt) (hbound : xs.length ≤ bound.length)
    (hts : ts.map Token.face = xs.flatMap Prod.fst) (hrest : next rest)
    (hmore : more rest = .ok false) :
    ∃ body, repeatedFrom more item bound done (ts ++ rest) = .ok (done.reverse ++ body, rest) ∧
      SameBlock (xs.flatMap Prod.snd) body := by
  induction xs generalizing bound ts done with
  | nil =>
    obtain rfl := faces_nil hts
    refine ⟨[], ?_, rfl⟩
    rw [List.nil_append, List.append_nil, repeatedFrom_stop hmore]
  | cons x xs ih =>
    obtain ⟨ts₁, ts₂, rfl, hts₁, hts₂⟩ := faces_append hts
    have hx := hxs x List.mem_cons_self
    have hxs' := fun y hy => hxs y (List.mem_cons_of_mem x hy)
    cases bound with
    | nil => exact absurd hbound (Nat.not_succ_le_zero _)
    | cons b bound =>
      have hnext : next (ts₂ ++ rest) := by
        cases xs with
        | nil =>
          obtain rfl := faces_nil hts₂
          exact hrest
        | cons y ys =>
          obtain ⟨ts₃, ts₄, rfl, hts₃, _⟩ := faces_append hts₂
          rw [List.append_assoc]
          exact ((hxs' y List.mem_cons_self).begins ts₃ (ts₄ ++ rest) hts₃).2
      obtain ⟨stmts, hstmts, hsame⟩ := hx.reads ts₁ (ts₂ ++ rest) hts₁ hnext
      obtain ⟨body, hbody, hsames⟩ :=
        ih hxs' (stmts.reverse ++ done) (Nat.le_of_succ_le_succ hbound) hts₂
      refine ⟨stmts ++ body, ?_, ?_⟩
      · rw [List.append_assoc, repeatedFrom_more (hx.begins ts₁ (ts₂ ++ rest) hts₁).1 hstmts, hbody,
          List.reverse_append, List.reverse_reverse, List.append_assoc]
      · rw [List.flatMap_cons]
        exact hsame.append hsames

theorem length_le_flatMap {α β : Type} {f : α → List β} {xs : List α} (h : ∀ x ∈ xs, f x ≠ []) :
    xs.length ≤ (xs.flatMap f).length := by
  induction xs with
  | nil => exact Nat.le_refl 0
  | cons x xs ih =>
    have hx : 0 < (f x).length := List.length_pos_iff.mpr (h x List.mem_cons_self)
    have := ih fun y hy => h y (List.mem_cons_of_mem x hy)
    rw [List.flatMap_cons, List.length_append, List.length_cons]
    omega

theorem repeated_reads {xs : List Item} (hxs : ∀ x ∈ xs, ItemReads more item next x)
    (hne : ∀ x ∈ xs, x.1 ≠ []) :
    Reads (repeated more item) (xs.flatMap Prod.fst)
      (fun rest => next rest ∧ more rest = .ok false) (SameBlock (xs.flatMap Prod.snd)) := by
  intro ts rest hts hrest
  have hbound : xs.length ≤ (ts ++ rest).length := by
    have hlength := length_le_flatMap hne
    rw [← hts, List.length_map] at hlength
    rw [List.length_append]
    omega
  exact repeatedFrom_reads hxs [] hbound hts hrest.1 hrest.2

end

/-! ### choices -/

/-- the branches after the first, each with the words before it, and what comes at the end -/
def tailFaces (faces : Branch → List Face) (last : List Face) (branches : List Branch) :
    List Face :=
  branches.flatMap faces ++ last

/-- The branches of a choice after the first are read one by one, those before them in reverse, and
then what comes at the end. -/
structure TailReads (read : List Token → List Branch → Parser Stmt) (faces : Branch → List Face)
    (last : List Face) (next : List Token → Prop) (branches : List Branch) (otherwise : List Stmt)
    (line : Nat) : Prop where
  branch : ∀ b ∈ branches, ∀ {x : Token} {bound ts ts' : List Token} {later : List Branch}
    (rest : List Token) (done : List Branch), ts.map Token.face = faces b →
    ts'.map Token.face = tailFaces faces last later →
    ∃ b', read (x :: bound) done (ts ++ (ts' ++ rest)) = read bound (b' :: done) (ts' ++ rest) ∧
      SameBranch b b'
  last : ∀ {x : Token} {bound ts rest : List Token} (done : List Branch),
    ts.map Token.face = last → next rest →
    ∃ otherwise', read (x :: bound) done (ts ++ rest) =
        .ok (.choice done.reverse otherwise' line, rest) ∧ SameBlock otherwise otherwise'
  begins : ∀ b, faces b ≠ []

section

variable {read : List Token → List Branch → Parser Stmt} {faces : Branch → List Face}
  {last : List Face} {next : List Token → Prop} {branches : List Branch} {otherwise : List Stmt}
  {line : Nat}

theorem TailReads.reads (h : TailReads read faces last next branches otherwise line)
    {bound ts rest : List Token} (done : List Branch) (hbound : branches.length < bound.length)
    (hts : ts.map Token.face = tailFaces faces last branches) (hrest : next rest) :
    ∃ branches' otherwise', read bound done (ts ++ rest) =
        .ok (.choice (done.reverse ++ branches') otherwise' line, rest) ∧
      SameBranches branches branches' ∧ SameBlock otherwise otherwise' := by
  induction branches generalizing bound ts done with
  | nil =>
    obtain ⟨x, bound, rfl⟩ := List.exists_cons_of_length_pos hbound
    obtain ⟨otherwise', hread, hsame⟩ := h.last done hts hrest
    exact ⟨[], otherwise', by rw [hread, List.append_nil], rfl, hsame⟩
  | cons b branches ih =>
    obtain ⟨x, bound, rfl⟩ := List.exists_cons_of_length_pos (Nat.zero_lt_of_lt hbound)
    rw [tailFaces, List.flatMap_cons, List.append_assoc] at hts
    obtain ⟨ts₁, ts₂, rfl, hts₁, hts₂⟩ := faces_append hts
    obtain ⟨b', hb', hsame⟩ := h.branch b List.mem_cons_self rest done hts₁ hts₂
    obtain ⟨branches', otherwise', hread, hsames, hother⟩ :=
      ih ⟨fun c hc => h.branch c (List.mem_cons_of_mem b hc), h.last, h.begins⟩ (b' :: done)
        (Nat.lt_of_succ_lt_succ hbound) hts₂
    refine ⟨b' :: branches', otherwise', ?_, SameBranches.cons hsame hsames, hother⟩
    rw [List.append_assoc, hb', hread, List.reverse_cons, List.append_assoc, List.singleton_append]

/-- the first branch, and then the others -/
theorem TailReads.choice (h : TailReads read faces last next branches otherwise line) {b : Branch}
    {first : Parser Branch} {fs : List Face} {between : List Token → Prop} (hne : fs ≠ [])
    (hfirst : Reads first fs between (SameBranch b))
    (hbetween : ∀ ts rest, ts.map Token.face = tailFaces faces last branches →
      between (ts ++ rest))
    {ts rest : List Token} (line' : Nat)
    (hts : ts.map Token.face = fs ++ tailFaces faces last branches) (hrest : next rest) :
    ∃ b' ts' c, first (ts ++ rest) = .ok (b', ts') ∧ read (ts ++ rest) [b'] ts' = .ok (c, rest) ∧
      SameBlock [.choice (b :: branches) otherwise line'] [c] := by
  obtain ⟨ts₁, ts₂, rfl, hts₁, hts₂⟩ := faces_append hts
  obtain ⟨b', hb', hsame⟩ := hfirst ts₁ (ts₂ ++ rest) hts₁ (hbetween ts₂ rest hts₂)
  have hbound : branches.length < (ts₁ ++ (ts₂ ++ rest)).length := by
    have hpos : 0 < ts₁.length := by
      rw [← List.length_map Token.face, hts₁]
      exact List.length_pos_iff.mpr hne
    have hlength := length_le_flatMap fun b (_ : b ∈ branches) => h.begins b
    have htail := congrArg List.length hts₂
    rw [tailFaces, List.length_map, List.length_append] at htail
    rw [List.length_append, List.length_append]
    omega
  obtain ⟨branches', otherwise', hread, hsames, hother⟩ := h.reads [b'] hbound hts₂ hrest
  rw [List.append_assoc]
  exact ⟨b', _, _, hb', hread, sameBlock_choice (SameBranches.cons hsame hsames) hother⟩

end

/-! ### statements -/

/-- the words that statements begin with -/
def starters : List String := [receiver, "while", "if", "pass"]

def Starts (fs : List Face) : Prop := ∃ w ∈ starters, ∃ fs', fs = word w :: fs'

/-- A statement is read where it ends. -/
structure StmtReads (d : Dialect) (stmt : Parser (List Stmt)) (next : List Token → Prop)
    (x : Stmt) : Prop where
  reads : Reads stmt (laidOf d (x.outlines d)) next (SameBlock [x])
  starts : Starts (laidOf d (x.outlines d))

def BlockReads (d : Dialect) (stmt : Parser (List Stmt)) (next : List Token → Prop)
    (body : List Stmt) : Prop :=
  ∀ x ∈ body, StmtReads d stmt next x

theorem laidOf_append (d : Dialect) (os os' : List Outline) :
    laidOf d (os ++ os') = laidOf d os ++ laidOf d os' := by
  induction os with
  | nil => rfl
  | cons o os ih => rw [List.cons_append, laidOf, laidOf, ih, List.append_assoc]

def stmtItem (d : Dialect) (x : Stmt) : Item := (laidOf d (x.outlines d), [x])

theorem laidOf_block (d : Dialect) (body : List Stmt) :
    laidOf d (blockOutlines d body) = (body.map (stmtItem d)).flatMap Prod.fst := by
  induction body with
  | nil => rfl
  | cons x rest ih => rw [blockOutlines, laidOf_append, ih, List.map_cons, List.flatMap_cons]; rfl

theorem flatMap_stmtItem (d : Dialect) (body : List Stmt) :
    (body.map (stmtItem d)).flatMap Prod.snd = body := by
  induction body with
  | nil => rfl
  | cons x rest ih => rw [List.map_cons, List.flatMap_cons, ih]; rfl

/-- More is expected where a statement begins, and what stands before it ends there. -/
def Expects (more : List Token → Except Mistake Bool) (next : List Token → Prop) : Prop :=
  ∀ w ∈ starters, ∀ line column rest, more (⟨.name, w, line, column⟩ :: rest) = .ok true ∧
    next (⟨.name, w, line, column⟩ :: rest)

section

variable {d : Dialect} {more : List Token → Except Mistake Bool} {stmt : Parser (List Stmt)}
  {next : List Token → Prop}

theorem Starts.begins {fs : List Face} (h : Starts fs) (hexp : Expects more next)
    (ts rest : List Token) (hts : ts.map Token.face = fs) :
    more (ts ++ rest) = .ok true ∧ next (ts ++ rest) := by
  obtain ⟨w, hw, fs', rfl⟩ := h
  obtain ⟨line, column, ts', rfl, _⟩ := faces_cons hts
  exact hexp w hw line column (ts' ++ rest)

theorem BlockReads.repeated {body : List Stmt} (h : BlockReads d stmt next body)
    (hexp : Expects more next) :
    Reads (repeated more stmt) (laidOf d (blockOutlines d body))
      (fun rest => next rest ∧ more rest = .ok false) (SameBlock body) := by
  have hitems : ∀ i ∈ body.map (stmtItem d), ItemReads more stmt next i ∧ i.1 ≠ [] := by
    intro i hi
    obtain ⟨x, hx, rfl⟩ := List.mem_map.mp hi
    refine ⟨⟨(h x hx).reads, (h x hx).starts.begins hexp⟩, ?_⟩
    obtain ⟨w, _, fs', hfs⟩ := (h x hx).starts
    rw [stmtItem, hfs]
    exact List.cons_ne_nil _ _
  have hreads := repeated_reads (fun i hi => (hitems i hi).1) fun i hi => (hitems i hi).2
  rwa [flatMap_stmtItem, ← laidOf_block] at hreads

theorem BlockReads.next_append {body : List Stmt} (h : BlockReads d stmt next body)
    (hexp : Expects more next) {ts rest : List Token}
    (hts : ts.map Token.face = laidOf d (blockOutlines d body)) (hrest : next rest) :
    next (ts ++ rest) := by
  cases body with
  | nil =>
    obtain rfl := faces_nil hts
    exact hrest
  | cons x more =>
    rw [blockOutlines, laidOf_append] at hts
    obtain ⟨ts₁, ts₂, rfl, hts₁, _⟩ := faces_append hts
    rw [List.append_assoc]
    exact ((h x List.mem_cons_self).starts.begins hexp ts₁ (ts₂ ++ rest) hts₁).2

end

/-- How a kind of dialect reads statements nested up to a depth, given that it reads what is
nested in them. -/
structure Reader (s : Setting) (stmt : Nat → Parser (List Stmt)) (next : List Token → Prop) :
    Prop where
  command : ∀ {depth : Nat} {c : Command} {line : Nat},
    StmtReads s.dialect (stmt (depth + 1)) next (.command c line)
  ask : ∀ {depth : Nat} {x : Detector} {line line' : Nat},
    StmtReads s.dialect (stmt (depth + 1)) next (.ask (.sensor x line) line')
  loop : ∀ {depth : Nat} {e : Expr} {body : List Stmt} {line : Nat}, 0 < depth →
    Reads (condition s depth) (e.faces s.dialect) (Follow s) e.Same →
    BlockReads s.dialect (stmt depth) next body →
    StmtReads s.dialect (stmt (depth + 1)) next (.loop e body line)
  choice : ∀ {depth : Nat} {branches : List (Expr × List Stmt)} {otherwise : List Stmt}
    {line : Nat}, 0 < depth → branches ≠ [] →
    (∀ b ∈ branches, Reads (condition s depth) (b.1.faces s.dialect) (Follow s) b.1.Same ∧
      BlockReads s.dialect (stmt depth) next b.2) →
    BlockReads s.dialect (stmt depth) next otherwise →
    StmtReads s.dialect (stmt (depth + 1)) next (.choice branches otherwise line)

section

variable {s : Setting} {stmt : Nat → Parser (List Stmt)} {next : List Token → Prop}

mutual

theorem Reader.reads (h : Reader s stmt next) : ∀ (x : Stmt) {depth : Nat}, x.Proper →
    x.height ≤ depth → StmtReads s.dialect (stmt depth) next x
  | .command _ _, _ + 1, _, _ => h.command
  | .ask e line, depth + 1, hp, _ => by
    obtain ⟨x, line', rfl⟩ := hp
    exact h.ask
  | .loop e body line, depth + 1, hp, hd => by
    have hd := Nat.le_of_succ_le_succ hd
    have hbody := Nat.le_trans (Nat.le_max_right _ _) hd
    exact h.loop (Nat.lt_of_lt_of_le (blockHeight_pos body) hbody)
      (condition_reads hp.1 (Nat.le_trans (Nat.le_max_left _ _) hd))
      (Reader.readsBlock h body hp.2 hbody)
  | .choice branches otherwise line, depth + 1, hp, hd => by
    have hd := Nat.le_of_succ_le_succ hd
    have hotherwise := Nat.le_trans (Nat.le_max_right _ _) hd
    exact h.choice (Nat.lt_of_lt_of_le (blockHeight_pos otherwise) hotherwise) hp.1
      (Reader.readsBranches h branches hp.2.1 (Nat.le_trans (Nat.le_max_left _ _) hd))
      (Reader.readsBlock h otherwise hp.2.2 hotherwise)

theorem Reader.readsBlock (h : Reader s stmt next) : ∀ (body : List Stmt) {depth : Nat},
    ProperBlock body → blockHeight body ≤ depth → BlockReads s.dialect (stmt depth) next body
  | [], _, _, _ => nofun
  | x :: rest, _, hp, hd =>
    List.forall_mem_cons.mpr ⟨Reader.reads h x hp.1 (Nat.le_trans (Nat.le_max_left _ _) hd),
      Reader.readsBlock h rest hp.2 (Nat.le_trans (Nat.le_max_right _ _) hd)⟩

theorem Reader.readsBranches (h : Reader s stmt next) :
    ∀ (branches : List (Expr × List Stmt)) {depth : Nat}, ProperBranches branches →
      branchHeights branches ≤ depth →
      ∀ b ∈ branches, Reads (condition s depth) (b.1.faces s.dialect) (Follow s) b.1.Same ∧
        BlockReads s.dialect (stmt depth) next b.2
  | [], _, _, _ => nofun
  | (e, body) :: rest, _, hp, hd => by
    have hfirst := Nat.le_trans (Nat.le_max_left _ _) hd
    exact List.forall_mem_cons.mpr
      ⟨⟨condition_reads hp.1 (Nat.le_trans (Nat.le_max_left _ _) hfirst),
        Reader.readsBlock h body hp.2.1 (Nat.le_trans (Nat.le_max_right _ _) hfirst)⟩,
      Reader.readsBranches h rest hp.2.2 (Nat.le_trans (Nat.le_max_right _ _) hd)⟩

end

end

end Ladybug.Script

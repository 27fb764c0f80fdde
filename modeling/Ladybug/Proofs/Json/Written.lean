import Ladybug.Proofs.Json.Scalars

/-!
# JSON that is written and read back

Items and entries are read one after the other, blanks around them not counting. The rounds that a
text is given are more than its characters, and every round takes at least one of them.

* `items_written`, `members_written`   the rest of a list or an object, from one of its items on
* `Form.Readable`                      a datum with distinct names, whose scalars are read back
* `Form.Readable.writes`               such a datum, on one line an item, is read back
* `read_indented`                      the same for whole documents
-/

namespace Ladybug.Json
open Ladybug

/-! ### blanks -/

theorem not_isSpace_of_mem_openings : ∀ c ∈ openings, isSpace c = false :=
  forall_of_all (by decide)

theorem skip_gap {gap s : List Char} (hgap : ∀ c ∈ gap, isSpace c = true)
    (hs : ∀ c ∈ s.head?, isSpace c = false) : skip (gap ++ s) = s :=
  Text.dropWhile_prefix hgap hs

theorem Writes.exists_cons {cs : List Char} {d : Datum} (h : Writes cs d) :
    ∃ c cs', cs = c :: cs' ∧ c ∈ openings := by
  have hread := h cs.length [] (Nat.le_refl _) closed_nil
  rw [List.append_nil] at hread
  exact exists_opening hread

theorem Writes.skip_eq {cs : List Char} {d : Datum} (h : Writes cs d) {gap : List Char}
    (hgap : ∀ c ∈ gap, isSpace c = true) (rest : List Char) :
    skip (gap ++ (cs ++ rest)) = cs ++ rest := by
  obtain ⟨c, cs, rfl, hc⟩ := h.exists_cons
  refine skip_gap hgap ?_
  rintro _ ⟨⟩
  exact not_isSpace_of_mem_openings c hc

theorem mem_of_isSpace {c : Char} (h : isSpace c = true) : c ∈ [' ', '\t', '\n', '\r'] := by
  simpa [isSpace, or_assoc] using h

theorem closed_gap {gap s : List Char} (hgap : ∀ c ∈ gap, isSpace c = true) (hs : Closed s) :
    Closed (gap ++ s) := by
  cases gap with
  | nil => exact hs
  | cons c gap =>
    have hmem := mem_of_isSpace (hgap c List.mem_cons_self)
    exact closed_cons (List.mem_append_left [',', ']', '\x7d'] hmem) (gap ++ s)

theorem isSpace_newLine (level : Nat) : ∀ c ∈ newLine level, isSpace c = true := by
  intro c hc
  rcases List.mem_cons.mp hc with rfl | hc
  · rfl
  · rw [List.eq_of_mem_replicate hc]
    rfl

theorem skip_of_not_isSpace {c : Char} (h : isSpace c = false) (cs : List Char) :
    skip (c :: cs) = c :: cs :=
  List.dropWhile_cons_of_neg (by rw [h]; exact Bool.false_ne_true)

/-! ### one item or entry -/

section

variable {fuel : Nat} {s rest more : List Char} {d : Datum}

theorem items_last {done : List Datum} (hd : value fuel s = .ok (d, rest))
    (hrest : skip rest = ']' :: more) :
    items (fuel + 1) s done = .ok (.list (d :: done).reverse, more) := by
  simp only [items, hd, hrest]

theorem items_more {done : List Datum} (hd : value fuel s = .ok (d, rest))
    (hrest : skip rest = ',' :: more) :
    items (fuel + 1) s done = items fuel (skip more) (d :: done) := by
  simp only [items, hd, hrest]

variable {body after : List Char} {name : String} {done : List (String × Datum)}

theorem members_last (hname : string s = .ok (name, body)) (hcolon : skip body = ':' :: after)
    (hd : value fuel (skip after) = .ok (d, rest)) (hrest : skip rest = '\x7d' :: more) :
    members (fuel + 1) ('"' :: s) done = .ok (.map (Datum.insert done name d), more) := by
  simp only [members, hname, hcolon, hd, hrest]

theorem members_more (hname : string s = .ok (name, body)) (hcolon : skip body = ':' :: after)
    (hd : value fuel (skip after) = .ok (d, rest)) (hrest : skip rest = ',' :: more) :
    members (fuel + 1) ('"' :: s) done = members fuel (skip more) (Datum.insert done name d) := by
  simp only [members, hname, hcolon, hd, hrest]

end

/-- what a form writes for an entry, its value being written by `g` -/
def Form.entry (f : Form) (g : Datum → List Char) (e : String × Datum) : List Char :=
  f.string e.1 ++ (':' :: ' ' :: g e.2)

theorem Form.entry_append (f : Form) (g : Datum → List Char) (e : String × Datum)
    (rest : List Char) :
    f.entry g e ++ rest = '"' :: ((Text.codes e.1.toList).flatMap f.escape
      ++ '"' :: ':' :: ' ' :: (g e.2 ++ rest)) := by
  simp only [entry, Form.string, List.cons_append, List.append_assoc, List.nil_append]

/-- An entry whose name and value are read back. -/
structure Form.ReadsEntry (f : Form) (g : Datum → List Char) (e : String × Datum) : Prop where
  name : f.ReadsText e.1
  writes : Writes (g e.2) e.2

section

variable {f : Form} {g : Datum → List Char} {e : String × Datum}

theorem Form.ReadsEntry.value (h : f.ReadsEntry g e) {fuel : Nat} {rest : List Char}
    (hfuel : (f.entry g e).length ≤ fuel) (hrest : Closed rest) :
    Json.value fuel (skip (' ' :: (g e.2 ++ rest))) = .ok (e.2, rest) := by
  have hgap : ∀ c ∈ [' '], isSpace c = true := forall_of_all (by decide)
  have hskip : skip (' ' :: (g e.2 ++ rest)) = g e.2 ++ rest := h.writes.skip_eq hgap rest
  have hlength : (f.entry g e).length = (f.string e.1).length + ((g e.2).length + 2) := by
    rw [entry, List.length_append, List.length_cons, List.length_cons]
  rw [hskip]
  exact h.writes fuel rest (by omega) hrest

end

theorem Form.skip_entry (f : Form) (g : Datum → List Char) (e : String × Datum) {gap : List Char}
    (hgap : ∀ c ∈ gap, isSpace c = true) (rest : List Char) :
    skip (gap ++ (f.entry g e ++ rest)) = f.entry g e ++ rest := by
  rw [f.entry_append]
  exact skip_gap hgap (by rintro _ ⟨⟩; rfl)

/-! ### all of them -/

section

variable {gap close : List Char} (hgap : ∀ c ∈ gap, isSpace c = true)
  (hclose : ∀ c ∈ close, isSpace c = true) {g : Datum → List Char}
include hgap hclose

/-- The items of a list from one of them on, each written by `g`. -/
theorem items_written {d : Datum} {ds : List Datum} (hd : Writes (g d) d)
    (hds : ∀ d ∈ ds, Writes (g d) d) {fuel : Nat} (rest : List Char) (done : List Datum)
    (hfuel : (g d).length + (ds.flatMap fun d => ',' :: (gap ++ g d)).length ≤ fuel) :
    items (fuel + 1)
        (g d ++ (ds.flatMap (fun d => ',' :: (gap ++ g d)) ++ (close ++ ']' :: rest))) done
      = .ok (.list (done.reverse ++ d :: ds), rest) := by
  induction ds generalizing d fuel done with
  | nil =>
    have hend : Closed (close ++ ']' :: rest) := closed_gap hclose (closed_cons (by decide) rest)
    have hvalue := hd fuel _ (Nat.le_of_add_right_le hfuel) hend
    have hskip : skip (close ++ ']' :: rest) = ']' :: rest :=
      skip_gap hclose (by rintro _ ⟨⟩; rfl)
    rw [List.flatMap_nil, List.nil_append, items_last hvalue hskip, List.reverse_cons]
  | cons e ds ih =>
    have he := hds e List.mem_cons_self
    have hds := fun d hd => hds d (List.mem_cons_of_mem e hd)
    simp only [List.flatMap_cons, List.cons_append, List.append_assoc, List.length_append,
      List.length_cons] at hfuel ⊢
    obtain ⟨fuel, rfl⟩ : ∃ n, fuel = n + 1 := ⟨fuel - 1, by omega⟩
    have hvalue (cs : List Char) : value (fuel + 1) (g d ++ ',' :: cs) = .ok (d, ',' :: cs) :=
      hd (fuel + 1) _ (by omega) (closed_cons (by decide) cs)
    rw [items_more (hvalue _) (skip_of_not_isSpace rfl _), he.skip_eq hgap,
      ih he hds (d :: done) (by omega), List.reverse_cons, List.append_assoc]
    rfl

/-- The entries of an object from one of them on, each value being written by `g`. -/
theorem members_written {f : Form} {e : String × Datum} {es : List (String × Datum)}
    (he : f.ReadsEntry g e) (hes : ∀ e ∈ es, f.ReadsEntry g e) {fuel : Nat} (rest : List Char)
    (done : List (String × Datum))
    (hfuel : (f.entry g e).length + (es.flatMap fun e => ',' :: (gap ++ f.entry g e)).length
      ≤ fuel) :
    members (fuel + 1)
        (f.entry g e ++ (es.flatMap (fun e => ',' :: (gap ++ f.entry g e))
          ++ (close ++ '\x7d' :: rest))) done
      = .ok (.map ((e :: es).foldl (fun done e => Datum.insert done e.1 e.2) done), rest) := by
  induction es generalizing e fuel done with
  | nil =>
    have hend : Closed (close ++ '\x7d' :: rest) := closed_gap hclose (closed_cons (by decide) rest)
    have hskip : skip (close ++ '\x7d' :: rest) = '\x7d' :: rest :=
      skip_gap hclose (by rintro _ ⟨⟩; rfl)
    have hvalue := he.value (Nat.le_of_add_right_le hfuel) hend
    rw [List.flatMap_nil, List.nil_append, f.entry_append,
      members_last (he.name _) (skip_of_not_isSpace rfl _) hvalue hskip]
    rfl
  | cons e' es ih =>
    have he' := hes e' List.mem_cons_self
    have hes := fun e he => hes e (List.mem_cons_of_mem e' he)
    simp only [List.flatMap_cons, List.cons_append, List.append_assoc, List.length_append,
      List.length_cons] at hfuel ⊢
    obtain ⟨fuel, rfl⟩ : ∃ n, fuel = n + 1 := ⟨fuel - 1, by omega⟩
    have hvalue (cs : List Char) :
        value (fuel + 1) (skip (' ' :: (g e.2 ++ ',' :: cs))) = .ok (e.2, ',' :: cs) :=
      he.value (by omega) (closed_cons (by decide) cs)
    rw [f.entry_append, members_more (he.name _) (skip_of_not_isSpace rfl _) (hvalue _)
      (skip_of_not_isSpace rfl _), f.skip_entry g e' hgap, ih he' hes _ (by omega)]
    rfl

end

/-! ### objects with distinct names -/

theorem insert_of_not_mem {es : List (String × Datum)} {name : String}
    (h : name ∉ es.map Prod.fst) (d : Datum) : Datum.insert es name d = es ++ [(name, d)] := by
  induction es with
  | nil => rfl
  | cons e es ih =>
    rw [List.map_cons, List.mem_cons, not_or] at h
    have hne : (e.1 == name) = false := beq_eq_false_iff_ne.mpr (Ne.symm h.1)
    rw [Datum.insert, hne, ih h.2]
    rfl

theorem foldl_insert {es done : List (String × Datum)} (h : ((done ++ es).map Prod.fst).Nodup) :
    es.foldl (fun done e => Datum.insert done e.1 e.2) done = done ++ es := by
  induction es generalizing done with
  | nil => rw [List.foldl_nil, List.append_nil]
  | cons e es ih =>
    have hnew : e.1 ∉ done.map Prod.fst := by
      rw [List.map_append, List.nodup_append] at h
      exact fun hmem => h.2.2 _ hmem _ List.mem_cons_self rfl
    rw [List.foldl_cons, insert_of_not_mem hnew, ih (by rwa [List.append_assoc])]
    rw [List.append_assoc]
    rfl

/-! ### data -/

mutual

/-- A datum with distinct names whose texts and other scalars are read back. -/
def Form.Readable (f : Form) : Datum → Prop
  | .list ds => f.ReadableAll ds
  | .map es => (es.map Prod.fst).Nodup ∧ f.ReadableEntries es
  | d => Writes (f.scalar d) d

def Form.ReadableAll (f : Form) : List Datum → Prop
  | [] => True
  | d :: ds => f.Readable d ∧ f.ReadableAll ds

def Form.ReadableEntries (f : Form) : List (String × Datum) → Prop
  | [] => True
  | (k, d) :: es => f.ReadsText k ∧ f.Readable d ∧ f.ReadableEntries es

end

section

variable {f : Form}

theorem Form.itemLines_eq (f : Form) (level : Nat) (ds : List Datum) :
    f.itemLines level ds = ds.flatMap fun d => ',' :: (newLine level ++ f.lines level d) := by
  induction ds with
  | nil => rfl
  | cons d ds ih => rw [itemLines, ih, List.flatMap_cons, List.cons_append]

theorem Form.entryLines_eq (f : Form) (level : Nat) (es : List (String × Datum)) :
    f.entryLines level es =
      es.flatMap fun e => ',' :: (newLine level ++ f.entry (f.lines level) e) := by
  induction es with
  | nil => rfl
  | cons e es ih =>
    rw [entryLines, ih, List.flatMap_cons, entry]
    simp only [List.cons_append, List.append_assoc, List.nil_append]

theorem value_bracket {fuel : Nat} {s : List Char} (h : ']' ∉ (skip s).head?) :
    value (fuel + 1) ('[' :: s) = items fuel (skip s) [] := by
  rw [value]
  split
  · rename_i hskip
    exact absurd (by rw [hskip]; rfl) h
  · rfl

theorem value_brace {fuel : Nat} {s : List Char} (h : '\x7d' ∉ (skip s).head?) :
    value (fuel + 1) ('\x7b' :: s) = members fuel (skip s) [] := by
  rw [value]
  split
  · rename_i hskip
    exact absurd (by rw [hskip]; rfl) h
  · rfl

theorem Writes.not_mem_head? {cs : List Char} {d : Datum} (h : Writes cs d) {c : Char}
    (hc : c ∉ openings) (rest : List Char) : c ∉ (cs ++ rest).head? := by
  obtain ⟨_, cs, rfl, hmem⟩ := h.exists_cons
  rintro ⟨⟩
  exact hc hmem

theorem Form.lines_list (f : Form) (level : Nat) (d : Datum) (ds : List Datum) (rest : List Char) :
    let g := f.lines (level + 1)
    f.lines level (.list (d :: ds)) ++ rest = '[' :: (newLine (level + 1) ++ (g d
      ++ (ds.flatMap (fun d => ',' :: (newLine (level + 1) ++ g d))
        ++ (newLine level ++ ']' :: rest)))) := by
  simp only [lines, itemLines_eq, List.cons_append, List.append_assoc, List.nil_append]

theorem Form.lines_map (f : Form) (level : Nat) (e : String × Datum) (es : List (String × Datum))
    (rest : List Char) :
    let g := f.entry (f.lines (level + 1))
    f.lines level (.map (e :: es)) ++ rest = '\x7b' :: (newLine (level + 1) ++ (g e
      ++ (es.flatMap (fun e => ',' :: (newLine (level + 1) ++ g e))
        ++ (newLine level ++ '\x7d' :: rest)))) := by
  obtain ⟨k, d⟩ := e
  simp only [lines, entryLines_eq, entry, List.cons_append, List.append_assoc, List.nil_append]

theorem writes_empty : Writes ['[', ']'] (.list []) ∧ Writes ['\x7b', '\x7d'] (.map []) := by
  constructor
  all_goals
    intro fuel rest hfuel _
    obtain ⟨fuel, rfl⟩ := Nat.exists_eq_add_of_le' hfuel
    rfl

/-- A list with an item on each line. -/
theorem writes_list {level : Nat} {d : Datum} {ds : List Datum}
    (hd : Writes (f.lines (level + 1) d) d)
    (hds : ∀ d ∈ ds, Writes (f.lines (level + 1) d) d) :
    Writes (f.lines level (.list (d :: ds))) (.list (d :: ds)) := by
  intro fuel rest hfuel _
  have hgap := isSpace_newLine (level + 1)
  have hskip := hd.skip_eq hgap
  rw [← List.append_nil (f.lines level _), f.lines_list] at hfuel
  simp only [List.length_cons, List.length_append] at hfuel
  obtain ⟨fuel, rfl⟩ : ∃ n, fuel = n + 2 := ⟨fuel - 2, by omega⟩
  rw [f.lines_list, value_bracket, hskip,
    items_written hgap (isSpace_newLine level) hd hds rest [] (by omega)]
  · rfl
  · rw [hskip]
    exact hd.not_mem_head? (by decide) _

/-- An object with distinct names, with an entry on each line. -/
theorem writes_map {level : Nat} {e : String × Datum} {es : List (String × Datum)}
    (hnames : ((e :: es).map Prod.fst).Nodup) (he : f.ReadsEntry (f.lines (level + 1)) e)
    (hes : ∀ e ∈ es, f.ReadsEntry (f.lines (level + 1)) e) :
    Writes (f.lines level (.map (e :: es))) (.map (e :: es)) := by
  intro fuel rest hfuel _
  have hgap := isSpace_newLine (level + 1)
  have hskip := f.skip_entry (f.lines (level + 1)) e hgap
  rw [← List.append_nil (f.lines level _), f.lines_map] at hfuel
  simp only [List.length_cons, List.length_append] at hfuel
  obtain ⟨fuel, rfl⟩ : ∃ n, fuel = n + 2 := ⟨fuel - 2, by omega⟩
  rw [f.lines_map, value_brace, hskip,
    members_written hgap (isSpace_newLine level) he hes rest [] (by omega),
    foldl_insert (by rwa [List.nil_append]), List.nil_append]
  rw [hskip, f.entry_append]
  rintro ⟨⟩

end

mutual

/-- **A datum that is written with one item on each line is read back.** -/
theorem Form.Readable.writes {f : Form} {d : Datum} (h : f.Readable d) (level : Nat) :
    Writes (f.lines level d) d := by
  match d with
  | .list [] => exact writes_empty.1
  | .map [] => exact writes_empty.2
  | .list (d :: ds) => exact writes_list (h.1.writes _) (Form.ReadableAll.writes h.2 _)
  | .map ((k, d) :: es) =>
    obtain ⟨hnames, hk, hd, hes⟩ := h
    exact writes_map hnames ⟨hk, hd.writes _⟩ (Form.ReadableEntries.reads hes _)
  | .null | .bool _ | .int _ | .float _ | .text _ | .bytes _ | .date _ | .instant _ | .pair _ _
  | .set _ | .table _ | .knot _ _ | .again _ => exact h

theorem Form.ReadableAll.writes {f : Form} {ds : List Datum} (h : f.ReadableAll ds)
    (level : Nat) : ∀ d ∈ ds, Writes (f.lines level d) d := by
  match ds with
  | [] => exact nofun
  | d :: ds => exact List.forall_mem_cons.mpr ⟨h.1.writes level, Form.ReadableAll.writes h.2 level⟩

theorem Form.ReadableEntries.reads {f : Form} {es : List (String × Datum)}
    (h : f.ReadableEntries es) (level : Nat) : ∀ e ∈ es, f.ReadsEntry (f.lines level) e := by
  match es with
  | [] => exact nofun
  | (k, d) :: es =>
    obtain ⟨hk, hd, hes⟩ := h
    exact List.forall_mem_cons.mpr ⟨⟨hk, hd.writes level⟩, Form.ReadableEntries.reads hes level⟩

end

section

variable (f : Form)

theorem Form.readable_null : f.Readable .null :=
  writes_word (w := ("null", .null)) (by simp [words])

theorem Form.readable_bool (b : Bool) : f.Readable (.bool b) := by
  cases b with
  | false => exact writes_word (w := ("false", .bool false)) (by simp [words])
  | true => exact writes_word (w := ("true", .bool true)) (by simp [words])

theorem Form.readable_list {α : Type} {g : α → Datum} {as : List α}
    (h : ∀ a ∈ as, f.Readable (g a)) : f.Readable (.list (as.map g)) := by
  induction as with
  | nil => trivial
  | cons a as ih =>
    obtain ⟨ha, has⟩ := List.forall_mem_cons.mp h
    exact ⟨ha, ih has⟩

end

/-! ### documents -/

theorem document_of_value {s : List Char} {d : Datum} (hmark : '\uFEFF' ∉ s.head?)
    (h : value (2 * s.length + 2) (skip s) = .ok (d, [])) : document s = .ok d := by
  unfold document
  split
  · exact absurd rfl hmark
  · rw [h]
    rfl

theorem exists_value_of_document {s : List Char} {d : Datum} (h : document s = .ok d) :
    ∃ rest, value (2 * s.length + 2) (skip s) = .ok (d, rest) := by
  unfold document at h
  split at h
  · cases h
  · split at h
    · cases h
    · rename_i hvalue
      split at h
      · cases h
        exact ⟨_, hvalue⟩
      · cases h

/-- A text that is read as a datum begins with a value, blanks apart. -/
theorem exists_opening_of_read {content : String} {d : Datum} (h : read content = .ok d) :
    ∃ c cs, skip content.toList = c :: cs ∧ c ∈ openings := by
  unfold read at h
  split at h
  · rename_i hread
    cases h
    obtain ⟨rest, hvalue⟩ := exists_value_of_document hread
    exact exists_opening hvalue
  · cases h

/-- **A document that is written with one item on each line is read back.** -/
theorem read_indented {f : Form} {d : Datum} (h : f.Readable d) :
    read (indented f d) = .ok d := by
  have hwrites := h.writes 0
  have hskip : skip (f.lines 0 d) = f.lines 0 d := by
    have hnil : ∀ c ∈ ([] : List Char), isSpace c = true := List.forall_mem_nil _
    have hskip := hwrites.skip_eq hnil []
    rwa [List.nil_append, List.append_nil] at hskip
  have hmark : '\uFEFF' ∉ (f.lines 0 d).head? := by
    have hmark := hwrites.not_mem_head? (c := '\uFEFF') (by decide) []
    rwa [List.append_nil] at hmark
  have hvalue := hwrites (2 * (f.lines 0 d).length + 2) [] (by omega) closed_nil
  rw [List.append_nil] at hvalue
  rw [read, indented, String.toList_ofList, document_of_value hmark (by rw [hskip, hvalue])]

end Ladybug.Json

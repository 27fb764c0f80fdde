import Ladybug.Proofs.Decimal.Shortest
import Ladybug.Proofs.Json.Scalars
import Ladybug.Proofs.Json.Written

/-!
# What JSON gives

Whatever a text says, its integers have not too many digits, its other numbers are numbers of the
format, its texts are rows of code points, and its objects have distinct names.

* `Given`          such data
* `Whole`          the pieces of a string, no mark standing alone
* `string_given`   strings
* `given`          values, items and entries, by the rounds of the reader
* `given_of_read`  documents
-/

namespace Ladybug.Json
open Ladybug

/-- Integers that can be written, numbers of the format, texts of code points, and objects with
distinct names. -/
inductive Given : Datum → Prop where
  | null : Given .null
  | bool (b : Bool) : Given (.bool b)
  | int {i : Int} (short : Decimal.isLong i = false) : Given (.int i)
  | float {x : Binary} (number : x.Representable) : Given (.float x)
  | text {s : String} (codes : Text.Sound s.toList) : Given (.text s)
  | list {ds : List Datum} (items : ∀ d ∈ ds, Given d) : Given (.list ds)
  | map {es : List (String × Datum)} (names : (es.map Prod.fst).Nodup)
      (codes : ∀ e ∈ es, Text.Sound e.1.toList) (values : ∀ e ∈ es, Given e.2) : Given (.map es)

/-! ### strings -/

/-- The pieces of a string: code units from escapes, and code points as texts hold them. -/
inductive Whole : List Piece → Prop where
  | nil : Whole []
  | unit {u : Nat} {ps : List Piece} (hu : u < 0x10000) (h : Whole ps) : Whole (.unit u :: ps)
  | code {n : Nat} {ps : List Piece} (hn : n < 0x110000) (h : Whole ps) :
      Whole ((Text.ofCode n).map .char ++ ps)

theorem exists_ofCode_cons (n : Nat) : ∃ c cs, Text.ofCode n = c :: cs := by
  unfold Text.ofCode
  split_ifs <;> exact ⟨_, _, rfl⟩

/-- A pair of halves is one code point. -/
theorem sound_pair {h l : Nat} (hh : 0xD800 ≤ h ∧ h < 0xDC00) (hl : 0xDC00 ≤ l ∧ l < 0xE000)
    {cs : List Char} (hcs : Text.Sound cs) :
    Text.Sound (Char.ofNat (0x10000 + (h - 0xD800) * 0x400 + (l - 0xDC00)) :: cs) := by
  generalize hn : 0x10000 + (h - 0xD800) * 0x400 + (l - 0xDC00) = n
  have hhalf : Text.isHalf n = false := by
    simp only [Text.isHalf, Bool.and_eq_false_iff, decide_eq_false_iff_not]
    omega
  have hmark : n ≠ Text.mark.toNat := by
    have heq : Text.mark.toNat = 0xFFFF := rfl
    omega
  have hcode : Text.ofCode n = [Char.ofNat n] := by
    simp only [Text.ofCode, hhalf, beq_false_of_ne hmark, Bool.false_eq_true, ↓reduceIte]
  have hsound := Text.Sound.code (n := n) (by omega) hcs
  rwa [hcode] at hsound

/-- What the pieces of a string hold is a text, also with one more escape before them. -/
theorem Whole.sound {ps : List Piece} (h : Whole ps) :
    Text.Sound (joined ps) ∧ ∀ u < 0x10000, Text.Sound (joined (.unit u :: ps)) := by
  have hcode {u : Nat} (hu : u < 0x10000) {cs : List Char} (hcs : Text.Sound cs) :
      Text.Sound (Text.ofCode u ++ cs) := .code (by omega) hcs
  induction h with
  | nil => exact ⟨.nil, fun u hu => hcode hu .nil⟩
  | @unit l ps hl _ ih =>
    refine ⟨ih.2 l hl, fun u hu => ?_⟩
    rw [joined]
    split_ifs with hpair
    · simp only [Bool.and_eq_true, decide_eq_true_eq] at hpair
      exact sound_pair ⟨hpair.1.1.1, hpair.1.1.2⟩ ⟨hpair.1.2, hpair.2⟩ ih.1
    · exact hcode hu (ih.2 l hl)
  | @code n ps hn _ ih =>
    rw [joined_chars]
    have hsound : Text.Sound (Text.ofCode n ++ joined ps) := .code hn ih.1
    refine ⟨hsound, fun u hu => ?_⟩
    have hplain : joined (.unit u :: ((Text.ofCode n).map .char ++ ps))
        = Text.ofCode u ++ joined ((Text.ofCode n).map .char ++ ps) := by
      obtain ⟨c, cs, hc⟩ := exists_ofCode_cons n
      rw [hc]
      rfl
    rw [hplain, joined_chars]
    exact hcode hu hsound

theorem hexValue?_given {c : Char} {a : Nat} (h : Text.hexValue? c = some a) :
    a < 16 ∧ c ≠ Text.mark := by
  constructor
  · have h0 : '0'.toNat = 48 ∧ '9'.toNat = 57 := ⟨rfl, rfl⟩
    have ha : 'a'.toNat = 97 ∧ 'f'.toNat = 102 := ⟨rfl, rfl⟩
    have hA : 'A'.toNat = 65 ∧ 'F'.toNat = 70 := ⟨rfl, rfl⟩
    have hle (x y : Char) : x ≤ y ↔ x.toNat ≤ y.toNat := by
      rw [Char.le_def, UInt32.le_iff_toNat_le]
      rfl
    unfold Text.hexValue? at h
    simp only [Bool.and_eq_true, decide_eq_true_eq, hle] at h
    split_ifs at h <;> cases h <;> omega
  · rintro rfl
    have hnone : Text.hexValue? Text.mark = none := by decide
    rw [hnone] at h
    cases h

theorem hexUnit?_given {a b c d : Char} {u : Nat} (h : hexUnit? a b c d = some u) :
    u < 0x10000 ∧ Text.mark ∉ [a, b, c, d] := by
  simp only [hexUnit?, Option.bind_eq_bind, Option.bind_eq_some_iff, Option.some.injEq] at h
  obtain ⟨w, hw, x, hx, y, hy, z, hz, rfl⟩ := h
  obtain ⟨hw, ha⟩ := hexValue?_given hw
  obtain ⟨hx, hb⟩ := hexValue?_given hx
  obtain ⟨hy, hc⟩ := hexValue?_given hy
  obtain ⟨hz, hd⟩ := hexValue?_given hz
  refine ⟨by omega, ?_⟩
  simp only [List.mem_cons, List.not_mem_nil, or_false, not_or]
  exact ⟨ha.symm, hb.symm, hc.symm, hd.symm⟩

theorem escape?_given {c : Char} {u : Nat} (h : escape? c = some u) :
    u < 0x10000 ∧ c ≠ Text.mark := by
  constructor
  · unfold escape? at h
    split at h <;> cases h <;> omega
  · rintro rfl
    cases h

/-- What one step of a string can do: end, take an escape, or take a character. -/
theorem pieces_cases {start s rest : List Char} {done ps : List Piece}
    (h : pieces start s done = .ok (ps, rest)) :
    (s = '"' :: rest ∧ ps = done.reverse) ∨
      (∃ a b c d more u, s = '\\' :: 'u' :: a :: b :: c :: d :: more ∧ hexUnit? a b c d = some u
        ∧ pieces start more (.unit u :: done) = .ok (ps, rest)) ∨
      (∃ c more u, s = '\\' :: c :: more ∧ escape? c = some u
        ∧ pieces start more (.unit u :: done) = .ok (ps, rest)) ∨
      ∃ c more, s = c :: more ∧ c ≠ '"' ∧ c ≠ '\\' ∧ 0x1F < c.toNat
        ∧ pieces start more (.char c :: done) = .ok (ps, rest) := by
  unfold pieces at h
  split at h
  case h_1 => cases h
  case h_2 =>
    cases h
    exact .inl ⟨rfl, rfl⟩
  case h_3 => cases h
  case h_4 done a b c d e more =>
    split at h
    · exact .inr (.inl ⟨a, b, c, d, _, _, rfl, ‹_›, h⟩)
    · cases h
  case h_5 => cases h
  case h_6 done c more _ _ =>
    split at h
    · exact .inr (.inr (.inl ⟨c, more, _, rfl, ‹_›, h⟩))
    · cases h
  case h_7 done c more hquote hnil hunit hshort hslash =>
    split_ifs at h with hcontrol
    refine .inr (.inr (.inr ⟨c, more, rfl, hquote, ?_, Nat.lt_of_not_le hcontrol, h⟩))
    rintro rfl
    cases more with
    | nil => exact hnil rfl rfl
    | cons d more => exact hslash d more rfl rfl

theorem pieces_given {s : List Char} (hs : Text.Sound s) {start rest : List Char}
    {done ps : List Piece} (h : pieces start s done = .ok (ps, rest)) :
    Text.Sound rest ∧ ∃ qs, ps = done.reverse ++ qs ∧ Whole qs := by
  induction hk : s.length using Nat.strongRecOn generalizing s done with
  | ind k ih =>
    subst hk
    have hunit {more : List Char} {u : Nat} (hu : u < 0x10000) (hlt : more.length < s.length)
        (hmore : Text.Sound more) (h : pieces start more (.unit u :: done) = .ok (ps, rest)) :
        Text.Sound rest ∧ ∃ qs, ps = done.reverse ++ qs ∧ Whole qs := by
      obtain ⟨hrest, qs, rfl, hqs⟩ := ih _ hlt hmore h rfl
      exact ⟨hrest, .unit u :: qs, by simp, .unit hu hqs⟩
    rcases pieces_cases h with ⟨rfl, rfl⟩ | ⟨a, b, c, d, more, u, rfl, hu, h⟩
      | ⟨c, more, u, rfl, hu, h⟩ | ⟨c, more, rfl, -, -, -, h⟩
    · exact ⟨hs.tail (by decide), [], (List.append_nil _).symm, .nil⟩
    · obtain ⟨hu, hmark⟩ := hexUnit?_given hu
      have hmore : Text.Sound more := by
        have hescape : Text.mark ∉ ['\\', 'u', a, b, c, d] :=
          List.not_mem_cons_of_ne_of_not_mem (by decide)
            (List.not_mem_cons_of_ne_of_not_mem (by decide) hmark)
        exact Text.Sound.of_append hs hescape
      exact hunit hu (by simp only [List.length_cons]; omega) hmore h
    · obtain ⟨hu, hmark⟩ := escape?_given hu
      exact hunit hu (by simp only [List.length_cons]; omega) ((hs.tail (by decide)).tail hmark) h
    · by_cases hmark : c = Text.mark
      · subst hmark
        obtain ⟨n, d, ds, hn, rfl, hcode, hhigh, hds⟩ := hs.pair
        have hno {c : Char} (hc : c.toNat < 0xE000) : d ≠ c := by
          rintro rfl
          omega
        -- what comes after a mark is no quote, no escape and no control
        rcases pieces_cases h with ⟨h, -⟩ | ⟨_, _, _, _, _, _, h, -⟩ | ⟨_, _, _, h, -⟩
          | ⟨_, _, h, -, -, -, hread⟩
        · exact absurd (List.cons.inj h).1 (hno (by decide))
        · exact absurd (List.cons.inj h).1 (hno (by decide))
        · exact absurd (List.cons.inj h).1 (hno (by decide))
        · cases h
          have hlt : ds.length < (Text.mark :: d :: ds).length := by
            simp only [List.length_cons]
            omega
          obtain ⟨hrest, qs, rfl, hqs⟩ := ih _ hlt hds hread rfl
          have hwhole := Whole.code hn hqs
          rw [hcode] at hwhole
          exact ⟨hrest, _, by simp, hwhole⟩
      · obtain ⟨hrest, qs, rfl, hqs⟩ := ih _ (by simp) (hs.tail hmark) h rfl
        have hcode : Text.ofCode c.toNat = [c] := Text.ofCode_toNat hmark
        have hwhole := Whole.code (Text.toNat_lt c) hqs
        rw [hcode] at hwhole
        exact ⟨hrest, _, by simp, hwhole⟩

theorem string_given {s rest : List Char} (hs : Text.Sound s) {t : String}
    (h : string s = .ok (t, rest)) : Text.Sound t.toList ∧ Text.Sound rest := by
  unfold string at h
  cases hread : pieces ('"' :: s) s [] with
  | error m =>
    rw [hread] at h
    cases h
  | ok r =>
    obtain ⟨ps, more⟩ := r
    rw [hread] at h
    cases h
    obtain ⟨hrest, qs, hps, hqs⟩ := pieces_given hs hread
    rw [List.reverse_nil, List.nil_append] at hps
    rw [String.toList_ofList]
    exact ⟨hps ▸ hqs.sound.1, hrest⟩

/-! ### scalars -/

theorem skip_given {s : List Char} (h : Text.Sound s) : Text.Sound (skip s) :=
  h.dropWhile (by decide)

theorem dropDigits_given {s : List Char} (h : Text.Sound s) : Text.Sound (s.dropWhile isDigit) :=
  h.dropWhile (by decide)

theorem wholeDigits_given {s : List Char} (h : Text.Sound s) :
    Text.Sound (s.drop (wholeDigits s).length) := by
  unfold wholeDigits
  split
  · exact h.tail (by decide)
  · have hdrop : (s.takeWhile isDigit ++ s.dropWhile isDigit).drop (s.takeWhile isDigit).length
        = s.dropWhile isDigit := List.drop_left
    rw [List.takeWhile_append_dropWhile] at hdrop
    rw [hdrop]
    exact dropDigits_given h

theorem fraction_given {s : List Char} (h : Text.Sound s) : Text.Sound (fraction s).2 := by
  unfold fraction
  split
  · have hrest := h.tail (by decide)
    split
    · exact h
    · exact dropDigits_given hrest
  · exact h

theorem power_given {s : List Char} (h : Text.Sound s) : Text.Sound (power s).2 := by
  unfold power
  split
  case h_1 e rest =>
    split_ifs with he
    · have hmark : e ≠ Text.mark := by
        rintro rfl
        cases he
      have hrest := h.tail hmark
      dsimp only
      split
      · exact h
      · refine dropDigits_given ?_
        split
        · exact hrest.tail (by decide)
        · exact hrest.tail (by decide)
        · exact hrest
    · exact h
  case h_2 => exact h

theorem not_isLong_of_lt {i : Int} {digits : Nat} (h : i.natAbs < 10 ^ digits)
    (hdigits : digits ≤ Decimal.mostDigits) : Decimal.isLong i = false := by
  rw [Decimal.isLong, Nat.pow_eq, decide_eq_false_iff_not, Nat.not_le]
  generalize Decimal.mostDigits = most at hdigits
  exact Nat.lt_of_lt_of_le h (Nat.pow_le_pow_right (by decide) hdigits)

theorem digits_not_isLong {ds : List Char} (h : ds.length ≤ Decimal.mostDigits) {i : Int}
    (hi : i.natAbs = Text.digitsValue ds) : Decimal.isLong i = false :=
  not_isLong_of_lt (hi ▸ Decimal.digitsValue_lt ds) h

theorem wholeNumber_given {negative : Bool} {ds : List Char} {d : Datum}
    (h : wholeNumber negative ds = .ok d) : Given d := by
  unfold wholeNumber at h
  split_ifs at h with hlong
  all_goals
    cases h
    exact .int (digits_not_isLong (Nat.le_of_not_lt hlong) (by simp))

theorem number?_given {s rest : List Char} (hs : Text.Sound s) {r : Except Cause Datum}
    (h : number? s = some (r, rest)) : Text.Sound rest ∧ ∀ d, r = .ok d → Given d := by
  unfold number? at h
  dsimp only at h
  split at h
  case h_1 => cases h
  case h_2 =>
    have hrest : Text.Sound rest := by
      split_ifs at h <;> cases h
      all_goals
        refine power_given (fraction_given (wholeDigits_given ?_))
        split
        · exact hs.tail (by decide)
        · exact hs
    refine ⟨hrest, ?_⟩
    split_ifs at h <;> cases h
    · exact fun d hd => wholeNumber_given hd
    · rintro _ ⟨⟩
      exact .float (Binary.representable_ofDecimal _ _ _)

theorem word?_given {s rest : List Char} (hs : Text.Sound s) {d : Datum}
    (h : word? s = some (d, rest)) : Given d ∧ Text.Sound rest := by
  obtain ⟨w, hw, hread⟩ := List.exists_of_findSome?_eq_some h
  split_ifs at hread with hpre
  cases hread
  have hmark : ∀ w ∈ words, Text.mark ∉ w.1.toList := by decide
  obtain ⟨more, rfl⟩ := List.isPrefixOf_iff_prefix.mp hpre
  have hgiven : Given w.2 := by
    simp only [words, List.mem_cons, List.not_mem_nil, or_false] at hw
    rcases hw with rfl | rfl | rfl | rfl | rfl | rfl
    · exact .null
    · exact .bool true
    · exact .bool false
    all_goals exact .float trivial
  refine ⟨hgiven, ?_⟩
  have hdrop : (w.1.toList ++ more).drop w.1.length = more := by
    rw [← String.length_toList]
    exact List.drop_left
  rw [hdrop]
  exact hs.of_append (hmark w hw)

/-! ### entries -/

theorem mem_insert {es : List (String × Datum)} {name : String} {d : Datum} {e : String × Datum}
    (h : e ∈ Datum.insert es name d) : e = (name, d) ∨ e ∈ es := by
  induction es with
  | nil => exact .inl (List.mem_singleton.mp h)
  | cons e' es ih =>
    rw [Datum.insert] at h
    split_ifs at h
    · exact (List.mem_cons.mp h).imp_right (List.mem_cons_of_mem e')
    · rcases List.mem_cons.mp h with rfl | h
      · exact .inr List.mem_cons_self
      · exact (ih h).imp_right (List.mem_cons_of_mem e')

theorem nodup_insert {es : List (String × Datum)} (h : (es.map Prod.fst).Nodup) (name : String)
    (d : Datum) : ((Datum.insert es name d).map Prod.fst).Nodup := by
  induction es with
  | nil => exact List.nodup_singleton name
  | cons e es ih =>
    obtain ⟨hnew, hes⟩ := List.nodup_cons.mp h
    rw [Datum.insert]
    split_ifs with he
    · have heq : e.1 = name := beq_iff_eq.mp he
      exact heq ▸ h
    · refine List.nodup_cons.mpr ⟨fun hmem => ?_, ih hes⟩
      obtain ⟨e', he', heq⟩ := List.mem_map.mp hmem
      rcases mem_insert he' with rfl | he'
      · exact he (beq_iff_eq.mpr heq.symm)
      · exact hnew (heq ▸ List.mem_map_of_mem he')

theorem Given.insert {es : List (String × Datum)} (h : Given (.map es)) {name : String}
    (hname : Text.Sound name.toList) {d : Datum} (hd : Given d) :
    Given (.map (Datum.insert es name d)) := by
  cases h with
  | map names codes values =>
    refine .map (nodup_insert names name d) (fun e he => ?_) fun e he => ?_
    · rcases mem_insert he with rfl | he
      · exact hname
      · exact codes e he
    · rcases mem_insert he with rfl | he
      · exact hd
      · exact values e he

/-! ### values -/

/-- The reader, in a number of rounds, gives only such data, and leaves a text. -/
structure Gives (fuel : Nat) : Prop where
  value : ∀ {s rest : List Char} {d : Datum}, Text.Sound s → value fuel s = .ok (d, rest) →
    Given d ∧ Text.Sound rest
  items : ∀ {s rest : List Char} {done : List Datum} {d : Datum}, Text.Sound s →
    (∀ d ∈ done, Given d) → items fuel s done = .ok (d, rest) → Given d ∧ Text.Sound rest
  members : ∀ {s rest : List Char} {done : List (String × Datum)} {d : Datum}, Text.Sound s →
    Given (.map done) → members fuel s done = .ok (d, rest) → Given d ∧ Text.Sound rest

theorem given_empty : Given (.list []) ∧ Given (.map []) :=
  ⟨.list (List.forall_mem_nil _),
    .map List.nodup_nil (List.forall_mem_nil _) (List.forall_mem_nil _)⟩

section
variable {fuel : Nat} (ih : Gives fuel) {s rest : List Char} {d : Datum} (hs : Text.Sound s)
include ih hs

theorem Gives.value_succ (h : Json.value (fuel + 1) s = .ok (d, rest)) :
    Given d ∧ Text.Sound rest := by
  unfold Json.value at h
  split at h
  case h_1 s =>
    split at h
    · rename_i hread
      cases h
      obtain ⟨ht, hrest⟩ := string_given (hs.tail (by decide)) hread
      exact ⟨.text ht, hrest⟩
    · cases h
  case h_2 s =>
    have hskip := skip_given (hs.tail (by decide))
    split at h
    · rename_i hclose
      cases h
      exact ⟨given_empty.1, (hclose ▸ hskip).tail (by decide)⟩
    · exact ih.items hskip (List.forall_mem_nil _) h
  case h_3 s =>
    have hskip := skip_given (hs.tail (by decide))
    split at h
    · rename_i hclose
      cases h
      exact ⟨given_empty.2, (hclose ▸ hskip).tail (by decide)⟩
    · exact ih.members hskip given_empty.2 h
  case h_4 =>
    split at h
    · rename_i hword
      cases h
      exact word?_given hs hword
    · split at h
      · rename_i hnumber
        cases h
        obtain ⟨hrest, hd⟩ := number?_given hs hnumber
        exact ⟨hd _ rfl, hrest⟩
      · cases h
      · cases h

theorem Gives.items_succ {done : List Datum} (hdone : ∀ d ∈ done, Given d)
    (h : Json.items (fuel + 1) s done = .ok (d, rest)) : Given d ∧ Text.Sound rest := by
  unfold Json.items at h
  split at h
  · cases h
  · rename_i item more hitem
    obtain ⟨hitem, hmore⟩ := ih.value hs hitem
    have hskip := skip_given hmore
    have hdone : ∀ d ∈ item :: done, Given d := List.forall_mem_cons.mpr ⟨hitem, hdone⟩
    split at h
    · rename_i hclose
      cases h
      refine ⟨.list fun d hd => hdone d (List.mem_reverse.mp hd), ?_⟩
      exact (hclose ▸ hskip).tail (by decide)
    · rename_i hcomma
      exact ih.items (skip_given ((hcomma ▸ hskip).tail (by decide))) hdone h
    · cases h

theorem Gives.members_succ {done : List (String × Datum)} (hdone : Given (.map done))
    (h : Json.members (fuel + 1) s done = .ok (d, rest)) : Given d ∧ Text.Sound rest := by
  unfold Json.members at h
  split at h
  · split at h
    · cases h
    · rename_i hname
      obtain ⟨hname, hafter⟩ := string_given (hs.tail (by decide)) hname
      have hskip := skip_given hafter
      split at h
      · rename_i hcolon
        have hbody := skip_given ((hcolon ▸ hskip).tail (by decide))
        split at h
        · cases h
        · rename_i hvalue
          obtain ⟨hvalue, hmore⟩ := ih.value hbody hvalue
          have hdone := hdone.insert hname hvalue
          have hskip := skip_given hmore
          dsimp only at h
          split at h
          · rename_i hclose
            cases h
            exact ⟨hdone, (hclose ▸ hskip).tail (by decide)⟩
          · rename_i hcomma
            exact ih.members (skip_given ((hcomma ▸ hskip).tail (by decide))) hdone h
          · cases h
      · cases h
  · cases h

end

/-- **Whatever the reader gives is given by JSON**, in however many rounds. -/
theorem gives (fuel : Nat) : Gives fuel := by
  induction fuel with
  | zero => exact ⟨nofun, nofun, nofun⟩
  | succ fuel ih =>
    exact ⟨fun hs h => ih.value_succ hs h, fun hs hdone h => ih.items_succ hs hdone h,
      fun hs hdone h => ih.members_succ hs hdone h⟩

theorem given_of_read {content : String} (hcontent : Text.Sound content.toList) {d : Datum}
    (h : read content = .ok d) : Given d := by
  unfold read at h
  split at h
  · rename_i hread
    cases h
    obtain ⟨rest, hvalue⟩ := exists_value_of_document hread
    exact ((gives _).value (skip_given hcontent) hvalue).1
  · cases h

end Ladybug.Json

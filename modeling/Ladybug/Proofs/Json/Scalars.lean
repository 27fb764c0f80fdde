import Ladybug.Json.Reader
import Ladybug.Json.Writer
import Ladybug.Proofs.Decimal

/-!
# JSON scalars that are written and read back

A number is read as far as it goes, so what comes after a scalar must not go on with it.

* `Closed`           a text that goes on with no number
* `Writes`           a text that is read as a datum, whatever closed text comes after it
* `exists_opening`   the characters with which values begin
* `writes_int`       an integer that is not too long
* `Form.ReadsText`   a text that a form writes so that it is read back
* `readsText_of_plain`   a text that needs no escapes
-/

namespace Ladybug.Json
open Ladybug

/-! ### what comes after a value -/

/-- Neither digits nor a point nor a power of ten come first. -/
def Closed (rest : List Char) : Prop :=
  ∀ c ∈ rest.head?, isDigit c = false ∧ c ≠ '.' ∧ c ≠ 'e' ∧ c ≠ 'E'

/-- The text `cs` is read as `d`, whatever closed text comes after it. -/
def Writes (cs : List Char) (d : Datum) : Prop :=
  ∀ fuel rest, cs.length ≤ fuel → Closed rest → value fuel (cs ++ rest) = .ok (d, rest)

theorem closed_nil : Closed [] := nofun

theorem closed_cons {c : Char} (h : c ∈ [' ', '\t', '\n', '\r', ',', ']', '\x7d'])
    (cs : List Char) : Closed (c :: cs) := by
  have hall : ∀ c ∈ [' ', '\t', '\n', '\r', ',', ']', '\x7d'],
      isDigit c = false ∧ c ≠ '.' ∧ c ≠ 'e' ∧ c ≠ 'E' := forall_of_all (by decide)
  rintro _ ⟨⟩
  exact hall c h

/-! ### how values begin -/

/-- the characters with which values begin -/
def openings : List Char := "\"[\x7b-ntfNI0123456789".toList

theorem isDigit_eq {c : Char} : isDigit c = c.isDigit := by
  simp [isDigit, Char.isDigit, Char.le_def]

theorem mem_openings_of_isDigit {c : Char} (h : isDigit c = true) : c ∈ openings :=
  Decimal.forall_digit (P := (· ∈ openings)) (by decide) (isDigit_eq.symm.trans h)

/-- A text begins with a word only if it begins with its first character. -/
theorem word?_eq_none {c : Char} (h : c ∉ openings) (cs : List Char) : word? (c :: cs) = none := by
  have hwords : ∀ w ∈ words, w.1.toList.headD ' ' ∈ openings ∧ w.1.toList ≠ [] := by decide
  refine List.findSome?_eq_none_iff.mpr fun w hw => if_neg fun hpre => ?_
  obtain ⟨hmem, hne⟩ := hwords w hw
  obtain ⟨a, as, ha⟩ := List.exists_cons_of_ne_nil hne
  rw [ha] at hmem hpre
  have hac : a = c := (List.cons_prefix_cons.mp (List.isPrefixOf_iff_prefix.mp hpre)).1
  exact h (hac ▸ hmem)

theorem number?_eq_none {c : Char} (h : c ∉ openings) (cs : List Char) :
    number? (c :: cs) = none := by
  have hdigit : isDigit c = false :=
    Bool.eq_false_iff.mpr fun hd => h (mem_openings_of_isDigit hd)
  have hminus : c ≠ '-' := fun hc => h (hc ▸ by decide)
  have hzero : c ≠ '0' := fun hc => h (hc ▸ by decide)
  simp [number?, wholeDigits, hminus, hzero, hdigit]

theorem exists_opening {fuel : Nat} {s rest : List Char} {d : Datum}
    (h : value fuel s = .ok (d, rest)) : ∃ c cs, s = c :: cs ∧ c ∈ openings := by
  cases fuel with
  | zero => cases h
  | succ fuel =>
    cases s with
    | nil => cases h
    | cons c cs =>
      refine ⟨c, cs, rfl, Classical.byContradiction fun hc => ?_⟩
      have hquote : c ≠ '"' := fun e => hc (e ▸ by decide)
      have hbracket : c ≠ '[' := fun e => hc (e ▸ by decide)
      have hbrace : c ≠ '\x7b' := fun e => hc (e ▸ by decide)
      simp [value, hquote, hbracket, hbrace, word?_eq_none hc, number?_eq_none hc] at h

/-! ### integers -/

theorem fraction_closed {rest : List Char} (h : Closed rest) : fraction rest = ([], rest) := by
  cases rest with
  | nil => rfl
  | cons c cs =>
    obtain ⟨-, hpoint, -, -⟩ := h c rfl
    simp [fraction, hpoint]

theorem power_closed {rest : List Char} (h : Closed rest) : power rest = (none, rest) := by
  cases rest with
  | nil => rfl
  | cons c cs =>
    obtain ⟨-, -, hsmall, hlarge⟩ := h c rfl
    simp [power, hsmall, hlarge]

/-- Digits that begin with a zero only if they are nothing else. -/
structure IsWhole (ds : List Char) : Prop where
  ne_nil : ds ≠ []
  digit : ∀ c ∈ ds, c.isDigit = true
  head : '0' ∈ ds.head? → ds = ['0']

theorem isWhole_toDigits (n : Nat) : IsWhole (Nat.toDigits 10 n) where
  ne_nil := List.ne_nil_of_length_pos Nat.length_toDigits_pos
  digit _ hc := Decimal.isDigit_of_mem_toDigits hc
  head h := by
    rw [Decimal.toDigits_of_head h]
    rfl

theorem wholeDigits_append {ds rest : List Char} (h : IsWhole ds)
    (hrest : ∀ c ∈ rest.head?, isDigit c = false) : wholeDigits (ds ++ rest) = ds := by
  by_cases hzero : '0' ∈ ds.head?
  · rw [h.head hzero]
    rfl
  · have hdigits : ∀ c ∈ ds, isDigit c = true := fun c hc => isDigit_eq.trans (h.digit c hc)
    have htake : (ds ++ rest).takeWhile isDigit = ds := Text.takeWhile_prefix hdigits hrest
    obtain ⟨c, cs, rfl⟩ := List.exists_cons_of_ne_nil h.ne_nil
    have hc : c ≠ '0' := by
      rintro rfl
      exact hzero rfl
    simpa [wholeDigits, hc] using htake

/-- A number is read part by part: the sign, the digits before the point, those after it, and the
power of ten. -/
theorem number?_of_parts (negative : Bool) {whole tail decimals more rest : List Char}
    {p : Option Int} (hwhole : IsWhole whole) (htail : ∀ c ∈ tail.head?, isDigit c = false)
    (hfraction : fraction tail = (decimals, more)) (hpower : power more = (p, rest)) :
    number? (Decimal.sign negative ++ (whole ++ tail)) =
      some (if decimals.isEmpty && p.isNone then wholeNumber negative whole
        else .ok (.float (Binary.ofDecimal negative (Text.digitsValue (whole ++ decimals))
          (p.getD 0 - decimals.length))), rest) := by
  have hread := wholeDigits_append hwhole htail
  have hdrop : (whole ++ tail).drop whole.length = tail := List.drop_left
  obtain ⟨d, ds, rfl⟩ := List.exists_cons_of_ne_nil hwhole.ne_nil
  have hminus : d ≠ '-' := by
    rintro rfl
    exact absurd (hwhole.digit '-' List.mem_cons_self) (by decide)
  rw [List.cons_append] at hread hdrop ⊢
  cases negative with
  | true =>
    simp only [Decimal.sign, ↓reduceIte, List.singleton_append, number?, hread, hdrop, hfraction,
      hpower]
    split_ifs <;> rfl
  | false =>
    have hdrop : (ds ++ tail).drop ds.length = tail := hdrop
    by_cases hnone : (decimals.isEmpty && p.isNone) = true <;>
      simp [Decimal.sign, number?, hminus, hread, hdrop, hfraction, hpower, hnone]

theorem number?_toDigits (negative : Bool) (n : Nat) {rest : List Char} (h : Closed rest) :
    number? (Decimal.sign negative ++ (Nat.toDigits 10 n ++ rest))
      = some (wholeNumber negative (Nat.toDigits 10 n), rest) :=
  number?_of_parts negative (isWhole_toDigits n) (fun c hc => (h c hc).1) (fraction_closed h)
    (power_closed h)

theorem word?_of_digit {c : Char} (h : c.isDigit = true) (negative : Bool) (cs : List Char) :
    word? (Decimal.sign negative ++ c :: cs) = none := by
  have hne : 'n' ≠ c ∧ 't' ≠ c ∧ 'f' ≠ c ∧ 'N' ≠ c ∧ 'I' ≠ c ∧ '-' ≠ c :=
    Decimal.forall_digit
      (P := fun c => 'n' ≠ c ∧ 't' ≠ c ∧ 'f' ≠ c ∧ 'N' ≠ c ∧ 'I' ≠ c ∧ '-' ≠ c) (by decide) h
  cases negative <;> simp [Decimal.sign, word?, words, hne]

/-- **The names that stand for a value are read back.** -/
theorem writes_word {w : String × Datum} (h : w ∈ words) : Writes w.1.toList w.2 := by
  simp only [words, List.mem_cons, List.not_mem_nil, or_false] at h
  rcases h with rfl | rfl | rfl | rfl | rfl | rfl
  all_goals
    intro fuel rest hfuel _
    obtain ⟨fuel, rfl⟩ := Nat.exists_eq_add_of_le' (Nat.le_of_add_left_le hfuel)
    rfl

/-- A text that is read as a number, and begins with no word. -/
theorem writes_of_number? {cs : List Char} {d : Datum}
    (hword : ∀ rest, word? (cs ++ rest) = none)
    (hnumber : ∀ rest, Closed rest → number? (cs ++ rest) = some (.ok d, rest)) : Writes cs d := by
  intro fuel rest hfuel hrest
  have hread := hnumber rest hrest
  cases cs with
  | nil => cases hnumber [] closed_nil
  | cons c cs =>
    obtain ⟨fuel, rfl⟩ := Nat.exists_eq_add_of_le' (Nat.le_of_add_left_le hfuel)
    have hquote : c ≠ '"' := by
      rintro rfl
      cases hread
    have hbracket : c ≠ '[' := by
      rintro rfl
      cases hread
    have hbrace : c ≠ '\x7b' := by
      rintro rfl
      cases hread
    have hword := hword rest
    rw [List.cons_append] at hword hread ⊢
    simp [value, hquote, hbracket, hbrace, hword, hread]

theorem wholeNumber_toDigits {i : Int} (h : Decimal.isLong i = false) :
    wholeNumber (decide (i < 0)) (Nat.toDigits 10 i.natAbs) = .ok (.int i) := by
  simp only [Decimal.isLong, Nat.pow_eq, decide_eq_false_iff_not, Nat.not_le] at h
  have hlength : (Nat.toDigits 10 i.natAbs).length ≤ Decimal.mostDigits := by
    have hpos : 0 < Decimal.mostDigits := by decide
    generalize Decimal.mostDigits = k at h hpos
    exact (Nat.length_toDigits_le_iff (by decide) hpos).mpr h
  rw [wholeNumber, if_neg (Nat.not_lt.mpr hlength), Decimal.digitsValue_toDigits,
    Int.ofNat_eq_natCast]
  by_cases hi : i < 0
  · simp only [decide_eq_true hi, ↓reduceIte]
    rw [show -(i.natAbs : Int) = i by omega]
  · simp only [decide_eq_false hi, Bool.false_eq_true, ↓reduceIte]
    rw [show (i.natAbs : Int) = i by omega]

/-- A number of one digit has not too many. -/
theorem not_isLong {i : Int} (h : i.natAbs < 10) : Decimal.isLong i = false := by
  have hlong : 10 ≤ 10 ^ Decimal.mostDigits := Nat.le_self_pow (by decide) 10
  exact decide_eq_false (Nat.not_le.mpr (Nat.lt_of_lt_of_le h hlong))

/-- **An integer is read back**, unless it has too many digits. -/
theorem writes_int {i : Int} (h : Decimal.isLong i = false) :
    Writes (toString i).toList (.int i) := by
  rw [Decimal.toList_toString]
  refine writes_of_number? (fun rest => ?_) fun rest hrest => ?_
  · obtain ⟨c, cs, hcs, hdigit⟩ := Decimal.exists_toDigits i.natAbs
    rw [List.append_assoc, hcs]
    exact word?_of_digit hdigit _ (cs ++ rest)
  · rw [List.append_assoc, number?_toDigits _ _ hrest, wholeNumber_toDigits h]

/-! ### texts -/

/-- A form writes a text so that it is read back, the opening quote having been read. -/
def Form.ReadsText (f : Form) (s : String) : Prop :=
  ∀ rest, Json.string ((Text.codes s.toList).flatMap f.escape ++ '"' :: rest) = .ok (s, rest)

theorem writes_text {f : Form} {s : String} (h : f.ReadsText s) :
    Writes (f.string s) (.text s) := by
  intro fuel rest hfuel _
  obtain ⟨fuel, rfl⟩ := Nat.exists_eq_add_of_le' (Nat.le_of_add_left_le hfuel)
  have hread := h rest
  rw [Form.string, List.cons_append, List.cons_append, List.append_assoc]
  simp [value, hread]

/-- A character that a form writes as it is and that has no meaning of its own in a text. -/
def Form.Plain (f : Form) (c : Char) : Prop :=
  f.escape c.toNat = [c] ∧ c ≠ Text.mark ∧ c ≠ '"' ∧ c ≠ '\\' ∧ 0x1F < c.toNat

instance (f : Form) (c : Char) : Decidable (f.Plain c) :=
  inferInstanceAs (Decidable (_ ∧ _ ∧ _ ∧ _ ∧ _))

theorem pieces_chars {cs : List Char} (h : ∀ c ∈ cs, c ≠ '"' ∧ c ≠ '\\' ∧ 0x1F < c.toNat)
    (start rest : List Char) (done : List Piece) :
    pieces start (cs ++ rest) done = pieces start rest ((cs.map .char).reverse ++ done) := by
  induction cs generalizing done with
  | nil => rfl
  | cons c cs ih =>
    obtain ⟨hquote, hslash, hcontrol⟩ := h c List.mem_cons_self
    have hrest := ih (fun d hd => h d (List.mem_cons_of_mem c hd)) (.char c :: done)
    simp [pieces, hslash, Nat.not_le.mpr hcontrol, hrest]

theorem joined_chars (cs : List Char) (ps : List Piece) :
    joined (cs.map .char ++ ps) = cs ++ joined ps := by
  induction cs with
  | nil => rfl
  | cons c cs ih => rw [List.map_cons, List.cons_append, joined, ih, List.cons_append]

/-- **A text of plain characters is read back.** -/
theorem readsText_of_plain {f : Form} {s : String} (h : ∀ c ∈ s.toList, f.Plain c) :
    f.ReadsText s := by
  intro rest
  have hmark : Text.mark ∉ s.toList := fun hm => (h _ hm).2.1 rfl
  have hwritten : (Text.codes s.toList).flatMap f.escape = s.toList := by
    rw [Text.codes_of_not_mem hmark, List.flatMap_map]
    rw [List.flatMap_congr fun c hc => (h c hc).1, List.flatMap_singleton']
  have hpieces := pieces_chars (fun c hc => (h c hc).2.2) ('"' :: (s.toList ++ '"' :: rest))
    ('"' :: rest) []
  have hjoined := joined_chars s.toList []
  rw [List.append_nil] at hpieces hjoined
  rw [hwritten, string, hpieces, pieces]
  simp only [List.reverse_reverse, hjoined, joined, List.append_nil, String.ofList_toList]

/-- the same, the characters being checked one by one -/
theorem readsText_of_all {f : Form} {s : String}
    (h : (s.toList.all fun c => decide (f.Plain c)) = true) : f.ReadsText s :=
  readsText_of_plain (forall_of_all h)

end Ladybug.Json

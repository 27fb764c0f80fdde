import Ladybug.Proofs.Script.Scanned

/-!
# Cutting a text into texts

A script is cut into pieces one after the other. No piece ends between a mark and the character that
is marked, so each of them is a text of its own; and a piece that is a token has no line feeds.

* `Joint`              where a text may end
* `comment?_parts`, `numberRest_parts`, `stringRest?_parts`   how far comments, numbers and strings go
* `Piece.Proper`       a piece that is a text, without line feeds if it is a token
* `cut_cutOff`         a piece is cut off between two texts
* `pieces_proper`      all pieces of a text are proper, and together they are the text
-/

namespace Ladybug.Script

open Text (Sound)

/-! ### where pieces end -/

/-- Where a text ends that goes on with `rest`, no mark is cut off: a mark is followed by nothing,
or by a new line. -/
def Joint (text rest : List Char) : Prop :=
  text.getLast? = some Text.mark → ∀ c ∈ rest.head?, c = '\n'

theorem Joint.sound {text rest : List Char} (h : Joint text rest) (hsound : Sound (text ++ rest)) :
    Sound text ∧ Sound rest := by
  apply hsound.parted
  intro hlast c hc
  rw [h hlast c hc]
  decide

theorem joint_of_not_mem {text rest : List Char} (h : Text.mark ∉ text) : Joint text rest :=
  fun hlast => absurd (List.mem_of_getLast? hlast) h

theorem joint_concat (before : List Char) {rest : List Char} {c : Char} (hc : c ≠ Text.mark) :
    Joint (before ++ [c]) rest := by
  intro hlast
  rw [List.getLast?_concat] at hlast
  exact absurd (Option.some.inj hlast) hc

/-- The part of a text that is of one class, and the rest of it. -/
theorem exists_takeWhile (p : Char → Bool) (s : List Char) :
    ∃ text rest, s = text ++ rest ∧ (s.takeWhile p).length = text.length ∧
      (∀ x ∈ text, p x = true) ∧ ∀ x ∈ rest.head?, p x = false := by
  refine ⟨s.takeWhile p, s.dropWhile p, List.takeWhile_append_dropWhile.symm, rfl,
    List.all_eq_true.mp List.all_takeWhile, fun x hx => ?_⟩
  have hhead := List.head?_dropWhile_not p s
  rw [show (s.dropWhile p).head? = some x from hx] at hhead
  exact hhead

/-- A line, and what comes after it. -/
theorem exists_line (s : List Char) :
    ∃ line rest, s = line ++ rest ∧ lineLength s = line.length ∧ ∀ c ∈ rest.head?, c = '\n' := by
  obtain ⟨line, rest, hs, hlength, -, hrest⟩ := exists_takeWhile (· != '\n') s
  exact ⟨line, rest, hs, hlength, fun c hc => by simpa using hrest c hc⟩

theorem upTo?_parts {last s : List Char} {n k : Nat} (h : upTo? last s n = some k) :
    ∃ before after, s = before ++ last ++ after ∧ k = n + before.length + last.length := by
  induction s generalizing n with
  | nil => cases h
  | cons c cs ih =>
    unfold upTo? at h
    split_ifs at h with hfound
    · obtain ⟨after, hafter⟩ := List.isPrefixOf_iff_prefix.mp hfound
      exact ⟨[], after, hafter.symm, (Option.some.inj h).symm⟩
    · obtain ⟨before, after, rfl, rfl⟩ := ih h
      refine ⟨c :: before, after, rfl, ?_⟩
      rw [List.length_cons]
      omega

theorem between?_parts {first last s : List Char} {n : Nat} (h : between? first last s = some n) :
    ∃ before after, s = before ++ last ++ after ∧ n = (before ++ last).length := by
  unfold between? at h
  split_ifs at h with hfirst
  obtain ⟨inside, rfl⟩ := List.isPrefixOf_iff_prefix.mp hfirst
  rw [List.drop_left] at h
  obtain ⟨before, after, rfl, rfl⟩ := upTo?_parts h
  refine ⟨first ++ before, after, ?_, ?_⟩
  · simp only [List.append_assoc]
  · simp only [List.length_append]

theorem blockEnd?_parts {lineStart : Bool} {s : List Char} {n k : Nat}
    (h : blockEnd? lineStart s n = some k) :
    ∃ before after, s = before ++ after ∧ k = n + before.length + lineLength after := by
  induction s generalizing lineStart n with
  | nil => cases h
  | cons c cs ih =>
    unfold blockEnd? at h
    split_ifs at h
    · exact ⟨[], c :: cs, rfl, (Option.some.inj h).symm⟩
    · obtain ⟨before, after, rfl, rfl⟩ := ih h
      refine ⟨c :: before, after, rfl, ?_⟩
      rw [List.length_cons]
      omega

/-- a comment, and what comes after it -/
structure CommentParts (s : List Char) (n : Nat) : Prop where
  parts : ∃ text rest, s = text ++ rest ∧ n = text.length ∧ Joint text rest
  pos : 0 < n

/-- A comment up to the end of the line. -/
theorem lineComment_parts {s opening : List Char} {x : Char} (hopening : x :: opening <+: s)
    (hx : x ≠ '\n') : CommentParts s (lineLength s) := by
  obtain ⟨more, rfl⟩ := hopening
  obtain ⟨line, rest, hs, hlength, hrest⟩ := exists_line (x :: opening ++ more)
  constructor
  · exact ⟨line, rest, hs, hlength, fun _ => hrest⟩
  · simp [lineLength, hx]

/-- A comment between two marks. -/
theorem markedComment_parts (last : List Char) {s first : List Char} {x : Char} {n : Nat}
    (hx : x ≠ Text.mark) (h : between? first (last ++ [x]) s = some n) : CommentParts s n := by
  obtain ⟨before, after, hs, rfl⟩ := between?_parts h
  constructor
  · refine ⟨_, after, hs, rfl, ?_⟩
    rw [← List.append_assoc]
    exact joint_concat _ hx
  · simp only [List.length_append, List.length_singleton]
    omega

/-- A comment up to the line that ends it. -/
theorem blockComment_parts {s : List Char} {n : Nat} (hs : 6 ≤ s.length)
    (h : blockEnd? false (s.drop 6) 6 = some n) : CommentParts s n := by
  obtain ⟨before, after, hdrop, rfl⟩ := blockEnd?_parts h
  obtain ⟨line, rest, rfl, hlength, hrest⟩ := exists_line after
  constructor
  · refine ⟨s.take 6 ++ before ++ line, rest, ?_, ?_, fun _ => hrest⟩
    · rw [List.append_assoc, List.append_assoc, ← hdrop, List.take_append_drop]
    · rw [hlength, List.length_append, List.length_append, List.length_take_of_le hs]
  · omega

theorem comment?_parts {d : Dialect} {lineStart : Bool} {s : List Char} {n : Nat}
    (h : comment? d lineStart s = some n) : CommentParts s n := by
  have hhash (hs : ['#'].isPrefixOf s = true) : CommentParts s (lineLength s) :=
    lineComment_parts (List.isPrefixOf_iff_prefix.mp hs) (by decide)
  cases d with
  | braced | functional =>
    simp only [comment?] at h
    split_ifs at h with hslashes
    · cases h
      rw [show "//".toList = ['/', '/'] by decide, List.isPrefixOf_iff_prefix] at hslashes
      exact lineComment_parts hslashes (by decide)
    · exact markedComment_parts ['*'] (by decide) h
  | indented =>
    simp only [comment?] at h
    split_ifs at h with hs
    · cases h
      exact hhash hs
    · split at h
      · rename_i hquotes
        exact markedComment_parts ['"', '"'] (by decide) (hquotes.trans h)
      · exact markedComment_parts ['\'', '\''] (by decide) h
  | ended =>
    simp only [comment?] at h
    split_ifs at h with hs hbegin
    · cases h
      exact hhash hs
    · simp only [Bool.and_eq_true, List.isPrefixOf_iff_prefix] at hbegin
      exact blockComment_parts (hbegin.1.2.length_le) h

/-- The rest of a number: digits, and perhaps a point among them. -/
theorem numberRest_parts (cs : List Char) : ∃ text left, cs = text ++ left ∧
    numberRest cs = text.length ∧ ∀ x ∈ text, Text.isDigit x = true ∨ x = '.' := by
  obtain ⟨whole, rest, rfl, hlength, hwhole, -⟩ := exists_takeWhile Text.isDigit cs
  have hshort : ∃ text left, whole ++ rest = text ++ left ∧ whole.length = text.length ∧
      ∀ x ∈ text, Text.isDigit x = true ∨ x = '.' :=
    ⟨whole, rest, rfl, rfl, fun x hx => .inl (hwhole x hx)⟩
  simp only [numberRest, hlength, List.drop_left]
  split
  case h_1 ds =>
    obtain ⟨decimals, after, rfl, hlength', hdecimals, -⟩ := exists_takeWhile Text.isDigit ds
    rw [hlength']
    split_ifs
    · exact hshort
    · refine ⟨whole ++ '.' :: decimals, after, by simp, ?_, fun x hx => ?_⟩
      · simp only [List.length_append, List.length_cons]
        omega
      · rcases List.mem_append.mp hx with hx | hx
        · exact .inl (hwhole x hx)
        · rcases List.mem_cons.mp hx with rfl | hx
          · exact .inr rfl
          · exact .inl (hdecimals x hx)
  case h_2 => exact hshort

theorem stringRest?_parts {quote : Char} {s : List Char} {n k : Nat}
    (h : stringRest? quote s n = some k) :
    ∃ body after, s = body ++ quote :: after ∧ k = n + body.length + 1 ∧ '\n' ∉ body := by
  fun_induction stringRest? quote s n with
  | case1 => cases h
  | case2 => cases h
  | case3 => cases h
  | case4 c cs n hc ih =>
    obtain ⟨body, after, rfl, rfl, hbody⟩ := ih h
    refine ⟨'\\' :: c :: body, after, rfl, ?_, ?_⟩
    · simp only [List.length_cons]
      omega
    · have hfeed : '\n' ≠ c := fun e => hc (e ▸ rfl)
      simp [hfeed, hbody]
  | case5 c cs n _ _ hc =>
    cases h
    exact ⟨[], cs, by rw [beq_iff_eq.mp hc]; rfl, rfl, List.not_mem_nil⟩
  | case6 => cases h
  | case7 c cs n _ _ _ hc ih =>
    obtain ⟨body, after, rfl, rfl, hbody⟩ := ih h
    refine ⟨c :: body, after, rfl, ?_, ?_⟩
    · rw [List.length_cons]
      omega
    · have hfeed : '\n' ≠ c := fun e => hc (e ▸ rfl)
      simp [hfeed, hbody]

/-! ### cutting one piece -/

/-- A piece that is a text of its own and goes on with one; a token has no line feeds. -/
structure Piece.Proper (p : Piece) : Prop where
  ne_nil : p.text ≠ []
  sound : Sound p.text
  inline : p.kind.isSome → '\n' ∉ p.text

/-- What is cut off a text that begins with `c` is a proper piece, and the rest is a text. -/
inductive CutOff (kind : Option Kind) (c : Char) : Nat → List Char → Prop
  | mk {text left : List Char} (piece : Piece.Proper ⟨kind, c :: text⟩) (rest : Sound left) :
      CutOff kind c text.length (text ++ left)

section
variable {kind : Option Kind} {c : Char} {text left rest : List Char}

theorem cutOff_of_joint (text : List Char) (h : Sound (c :: text ++ left))
    (hjoint : Joint (c :: text) left)
    (hinline : kind.isSome → '\n' ∉ c :: text) : CutOff kind c text.length (text ++ left) := by
  obtain ⟨htext, hleft⟩ := hjoint.sound h
  exact .mk ⟨List.cons_ne_nil c text, htext, hinline⟩ hleft

/-- A piece whose characters are of a class to which neither the mark nor the line feed belongs. -/
theorem cutOff_of_class {p : Char → Prop} (h : Sound (c :: text ++ left))
    (hp : ∀ x ∈ c :: text, p x) (hmark : ¬ p Text.mark) (hfeed : ¬ p '\n') :
    CutOff kind c text.length (text ++ left) :=
  cutOff_of_joint text h (joint_of_not_mem fun hm => hmark (hp _ hm)) fun _ hm => hfeed (hp _ hm)

/-- A piece of one character. -/
theorem cutOff_single (h : Sound (c :: rest)) (hc : c ≠ Text.mark) (hfeed : kind.isSome → c ≠ '\n') :
    CutOff kind c 0 rest := by
  refine cutOff_of_joint [] h (joint_concat [] hc) ?_
  intro hkind hm
  exact hfeed hkind (List.mem_singleton.mp hm).symm

/-- A gap, or a name. -/
theorem takeWhile_cutOff {p : Char → Bool} (h : Sound (c :: rest)) (hc : p c = true)
    (hmark : ¬ p Text.mark = true) (hfeed : ¬ p '\n' = true) :
    CutOff kind c (rest.takeWhile p).length rest := by
  obtain ⟨text, left, rfl, hlength, htext, -⟩ := exists_takeWhile p rest
  rw [hlength]
  exact cutOff_of_class (p := fun x => p x = true) h (List.forall_mem_cons.mpr ⟨hc, htext⟩) hmark
    hfeed

/-- A number. -/
theorem number_cutOff (h : Sound (c :: rest)) (hc : Text.isDigit c = true) :
    CutOff kind c (numberRest rest) rest := by
  obtain ⟨text, left, rfl, hlength, htext⟩ := numberRest_parts rest
  rw [hlength]
  refine cutOff_of_class (p := fun x => Text.isDigit x = true ∨ x = '.') h ?_ (by decide)
    (by decide)
  exact List.forall_mem_cons.mpr ⟨.inl hc, htext⟩

/-- A string, with the quotes around it. -/
theorem string_cutOff {n : Nat} (h : Sound (c :: rest)) (hc : c ≠ Text.mark) (hfeed : c ≠ '\n')
    (hstring : stringRest? c rest 0 = some n) : CutOff kind c n rest := by
  obtain ⟨body, after, rfl, rfl, hbody⟩ := stringRest?_parts hstring
  have hlength : 0 + body.length + 1 = (body ++ [c]).length := by simp
  have hparts : body ++ c :: after = body ++ [c] ++ after := by simp
  rw [hparts] at h
  rw [hlength, hparts]
  refine cutOff_of_joint (body ++ [c]) h (joint_concat (c :: body) hc) fun _ => ?_
  simp [hfeed.symm, hbody]

/-- A comment. -/
theorem CommentParts.cutOff {n : Nat} (h : CommentParts (c :: rest) n) (hs : Sound (c :: rest)) :
    CutOff none c (n - 1) rest := by
  obtain ⟨⟨text, left, hparts, rfl, hjoint⟩, hpos⟩ := h
  cases text with
  | nil => exact absurd hpos (Nat.lt_irrefl 0)
  | cons x xs =>
    obtain ⟨rfl, rfl⟩ := List.cons.inj hparts
    exact cutOff_of_joint xs hs hjoint nofun

/-- An operator. What is marked belongs to its mark. -/
theorem operator_cutOff (h : Sound (c :: rest)) (hfeed : c ≠ '\n') :
    CutOff (some .op) c (opRest c rest) rest := by
  by_cases hc : c = Text.mark
  · subst hc
    obtain ⟨n, x, xs, hn, rfl, hcode, hmarked, hsound⟩ := h.pair
    have hrest : opRest Text.mark (x :: xs) = [x].length := rfl
    have hx : x ≠ '\n' := by
      rintro rfl
      exact absurd hmarked (by decide)
    rw [hrest]
    show CutOff _ _ [x].length ([x] ++ xs)
    refine .mk ⟨List.cons_ne_nil _ _, ?_, fun _ => ?_⟩ hsound
    · have hpair := Sound.code hn .nil
      rwa [hcode] at hpair
    · simp [hfeed.symm, hx.symm]
  · cases rest with
    | nil => exact cutOff_single h hc fun _ => hfeed
    | cons x xs =>
      simp only [opRest]
      split_ifs with hlong
      · have hpair : (c, x) ∈ longOps := by simpa [hc] using hlong
        have hsecond : ∀ p ∈ longOps, p.2 ≠ Text.mark ∧ p.2 ≠ '\n' := forall_of_all (by decide)
        obtain ⟨hx, hx'⟩ := hsecond _ hpair
        refine cutOff_of_joint [x] h (joint_concat [c] hx) fun _ => ?_
        simp [hfeed.symm, hx'.symm]
      · exact cutOff_single h hc fun _ => hfeed

/-- **A piece is cut off between two texts.** -/
theorem cut_cutOff {d : Dialect} {lineStart : Bool} {n : Nat} (h : Sound (c :: rest))
    (hcut : cut d lineStart c rest = (kind, n)) : CutOff kind c n rest := by
  have hblank : Text.isBlank Text.mark = false := by decide
  unfold cut at hcut
  split at hcut
  case isTrue hgap =>
    cases hcut
    exact takeWhile_cutOff h hgap (by decide) (by decide)
  case isFalse hgap =>
  split at hcut
  case isTrue hfeed =>
    cases hcut
    refine cutOff_single h ?_ nofun
    rw [beq_iff_eq.mp hfeed]
    decide
  case isFalse hfeed =>
  have hfeed : c ≠ '\n' := fun e => hfeed (beq_iff_eq.mpr e)
  split at hcut
  case h_1 hcomment =>
    cases hcut
    exact (comment?_parts hcomment).cutOff h
  case h_2 =>
  split at hcut
  case isTrue hname =>
    cases hcut
    exact takeWhile_cutOff h (by rw [isNameChar, hname, Bool.true_or]) (by decide) (by decide)
  case isFalse =>
  split at hcut
  case isTrue hdigit =>
    cases hcut
    exact number_cutOff h hdigit
  case isFalse =>
  generalize hstring :
    (if c == '"' || c == '\'' then stringRest? c rest 0 else none) = string at hcut
  cases string with
  | some k =>
    cases hcut
    split_ifs at hstring with hquote
    have hc : c ≠ Text.mark := by
      rintro rfl
      exact absurd hquote (by decide)
    exact string_cutOff h hc hfeed hstring
  | none =>
  dsimp only at hcut
  split at hcut
  case isTrue hblank' =>
    cases hcut
    refine cutOff_single h ?_ nofun
    rintro rfl
    rw [hblank] at hblank'
    cases hblank'
  case isFalse =>
    cases hcut
    exact operator_cutOff h hfeed

end

/-! ### all pieces -/

theorem piecesFrom_proper (d : Dialect) (lineStart : Bool) {s : List Char} (h : Sound s)
    (done : List Piece) : ∃ ps, piecesFrom d lineStart s done = done.reverse ++ ps ∧
      textOf ps = s ∧ ∀ p ∈ ps, p.Proper := by
  induction hn : s.length using Nat.strongRecOn generalizing s lineStart done with
  | ind n ih =>
    subst hn
    cases s with
    | nil =>
      refine ⟨[], ?_, rfl, nofun⟩
      rw [piecesFrom, List.append_nil]
    | cons c rest =>
      rcases hcut : cut d lineStart c rest with ⟨kind, n⟩
      rw [piecesFrom, hcut]
      obtain ⟨piece, hleft⟩ := cut_cutOff h hcut
      rename_i text left
      simp only [List.take_left, List.drop_left]
      have hlt : left.length < (c :: (text ++ left)).length := by
        simp only [List.length_cons, List.length_append]
        omega
      obtain ⟨ps, hps, htext, hproper⟩ := ih left.length hlt _ hleft (⟨kind, c :: text⟩ :: done) rfl
      refine ⟨⟨kind, c :: text⟩ :: ps, ?_, ?_, List.forall_mem_cons.mpr ⟨piece, hproper⟩⟩
      · rw [hps, List.reverse_cons, List.append_assoc, List.singleton_append]
      · rw [textOf_cons, htext, List.cons_append]

/-- **The pieces of a text are proper, and together they are the text.** -/
theorem pieces_proper (d : Dialect) {s : List Char} (h : Sound s) :
    textOf (pieces d s) = s ∧ ∀ p ∈ pieces d s, p.Proper := by
  obtain ⟨ps, hps, htext, hproper⟩ := piecesFrom_proper d true h []
  rw [pieces, hps, List.reverse_nil, List.nil_append]
  exact ⟨htext, hproper⟩

end Ladybug.Script

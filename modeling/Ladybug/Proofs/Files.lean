import Ladybug.Files
import Ladybug.Proofs.Text

/-!
# Files that are written and read back

A file is written beside its place and then put there. Neither changes which places are directories,
so what succeeded once succeeds again.

* `textOf_encode`        a text in ASCII, without carriage returns, is read back
* `SameDirectories`      nothing but files differs
* `Leads`                a way that is there already, directories all along
* `leads_of_makeFrom`    the way is there when it has been made
* `Takes`                a file can be written beside its place and put there
* `Takes.rename_write`   then it is, and can be again
* `takes_or_write`       a file that is there is replaced, or nothing is written
-/

namespace Ladybug

/-- What has a key is found among those that have not another. -/
theorem find?_others {α κ : Type} [BEq κ] [LawfulBEq κ] (f : α → κ) {k l : κ} (h : l ≠ k)
    (xs : List α) :
    (xs.filter fun x => f x != k).find? (fun x => f x == l) = xs.find? fun x => f x == l := by
  rw [List.find?_filter]
  congr 1
  funext x
  by_cases hx : f x = l
  · simp [hx, h]
  · simp [hx]

/-! ### texts -/

namespace Text

theorem decode?_encode {cs : List Char} (h : ∀ c ∈ cs, c.toNat < 0x80) :
    decode? (encode cs) = some cs := by
  have hbytes : encode cs = cs.map fun c => c.toNat.toUInt8 := by
    have hmark : mark ∉ cs := fun hm => absurd (h mark hm) (by decide)
    rw [encode, codes_of_not_mem hmark, List.flatMap_map, ← List.flatMap_pure_eq_map]
    refine List.flatMap_congr fun c hc => ?_
    rw [encodeCode, if_pos (h c hc)]
    rfl
  have hread (done : List Char) : (cs.map fun c => c.toNat.toUInt8).foldlM Decoding.next
      ⟨done, none⟩ = some ⟨cs.reverse ++ done, none⟩ := by
    clear hbytes
    induction cs generalizing done with
    | nil => rfl
    | cons c cs ih =>
      rw [List.forall_mem_cons] at h
      have hbyte : c.toNat.toUInt8.toNat = c.toNat := by
        rw [Nat.toUInt8_eq, UInt8.toNat_ofNat', Nat.mod_eq_of_lt (by omega)]
      have hnext : Decoding.next ⟨done, none⟩ c.toNat.toUInt8 = some ⟨c :: done, none⟩ := by
        simp only [Decoding.next, Decoding.first, hbyte, if_pos h.1, Char.ofNat_toNat]
      rw [List.map_cons, List.foldlM_cons, hnext, Option.bind_eq_bind, Option.bind_some, ih h.2,
        List.reverse_cons, List.append_assoc]
      rfl
  rw [decode?, hbytes, hread]
  simp

theorem unify_eq_self {cs : List Char} (h : '\r' ∉ cs) : unify cs = cs := by
  induction cs using unify.induct with
  | case1 => rfl
  | case2 cs ih => exact absurd List.mem_cons_self h
  | case3 c cs _ ih =>
    rw [List.mem_cons, not_or] at h
    rw [unify, if_neg (by simpa using Ne.symm h.1), ih h.2]
    assumption

theorem taken_eq_self {cs : List Char} (h : mark ∉ cs) : taken cs = cs := by
  rw [taken, List.flatMap_congr fun c hc => ofCode_toNat (fun hm => h (hm ▸ hc)),
    List.flatMap_singleton']

end Text

namespace Files

/-- A text in ASCII, without carriage returns, is read back. -/
theorem textOf_encode {s : String} (hascii : ∀ c ∈ s.toList, c.toNat < 0x80)
    (hreturn : '\r' ∉ s.toList) : textOf (Text.encode s.toList) = .ok s := by
  have hmark : Text.mark ∉ s.toList := fun hm => absurd (hascii _ hm) (by decide)
  simp only [textOf, Text.decode?_encode hascii, Text.unify_eq_self hreturn,
    Text.taken_eq_self hmark, String.ofList_toList]

/-! ### places -/

section
variable {fs : Files} {p q : Place}

theorem find?_remove_of_ne (h : q ≠ p) : (fs.remove p).find? q = fs.find? q := by
  simp only [find?, remove, find?_others Prod.fst h fs.entries]

theorem find?_put_of_ne (e : Entry) (h : q ≠ p) : (fs.put p e).find? q = fs.find? q := by
  have hothers := find?_others Prod.fst h fs.entries
  have hp : ¬ p = q := Ne.symm h
  simp only [find?, put, List.find?_append, hothers]
  simp [hp]

theorem find?_remove_self (h : isOrigin p = false) : (fs.remove p).find? p = none := by
  simp [find?, remove, h]

/-- Working directory and roots are directories. -/
theorem not_isOrigin (h : fs.isDirectory p = false) : isOrigin p = false := by
  refine Bool.eq_false_iff.mpr fun hp => ?_
  rw [isDirectory, find?, hp] at h
  cases h

/-- Nothing but files differs. -/
def SameDirectories (fs fs' : Files) : Prop := ∀ p, fs'.isDirectory p = fs.isDirectory p

theorem SameDirectories.trans {fs' fs'' : Files} (h : fs.SameDirectories fs')
    (h' : fs'.SameDirectories fs'') : fs.SameDirectories fs'' := fun p => (h' p).trans (h p)

theorem sameDirectories_put (h : fs.isDirectory p = false) (bytes : List UInt8) :
    fs.SameDirectories (fs.put p (.file bytes)) := by
  intro q
  by_cases hq : q = p
  · rw [hq, h, isDirectory, find?_put _ _ (not_isOrigin h)]
    rfl
  · rw [isDirectory, isDirectory, find?_put_of_ne _ hq]

theorem sameDirectories_remove (h : fs.isDirectory p = false) :
    fs.SameDirectories (fs.remove p) := by
  intro q
  by_cases hq : q = p
  · rw [hq, h, isDirectory, find?_remove_self (not_isOrigin h)]
    rfl
  · rw [isDirectory, isDirectory, find?_remove_of_ne hq]

end

/-! ### ways -/

section
variable {fs fs' : Files}

theorem SameDirectories.follow (h : fs.SameDirectories fs') (p : Place) (names : List String) :
    fs'.follow p names = fs.follow p names := by
  induction names generalizing p with
  | nil => rfl
  | cons name names ih =>
    simp only [Files.follow, h p, ih]

theorem SameDirectories.locate? (h : fs.SameDirectories fs') (path : Path) :
    fs'.locate? path = fs.locate? path :=
  h.follow (origin path) path.parts

/-- A way that is there, directories all along. -/
def Leads (fs : Files) (p : Place) : List String → Prop
  | [] => True
  | name :: names => ∃ q, next? p name = some q ∧ fs.isDirectory q = true ∧ fs.Leads q names

theorem Leads.of_isDirectory {p : Place} {names : List String} (h : fs.Leads p names)
    (hkept : ∀ q, fs.isDirectory q = true → fs'.isDirectory q = true) : fs'.Leads p names := by
  induction names generalizing p with
  | nil => trivial
  | cons name names ih =>
    obtain ⟨q, hnext, hq, hrest⟩ := h
    exact ⟨q, hnext, hkept q hq, ih hrest⟩

theorem makeFrom_directory {p q : Place} {name : String} (hnext : next? p name = some q)
    (hq : fs.isDirectory q = true) (names : List String) :
    fs.makeFrom p (name :: names) = fs.makeFrom q names := by
  rw [isDirectory, beq_iff_eq] at hq
  simp only [makeFrom, hnext, hq]

/-- Nothing is made on a way that is there. -/
theorem Leads.makeFrom {p : Place} {names : List String} (h : fs.Leads p names) :
    fs.makeFrom p names = (fs, true) := by
  induction names generalizing p with
  | nil => rfl
  | cons name names ih =>
    obtain ⟨q, hnext, hq, hrest⟩ := h
    rw [makeFrom_directory hnext hq, ih hrest]

theorem isDirectory_put_self (fs : Files) (p : Place) :
    (fs.put p .directory).isDirectory p = true := by
  cases hp : isOrigin p with
  | true => rw [isDirectory, find?, hp, if_pos rfl, beq_self_eq_true]
  | false => rw [isDirectory, find?_put _ _ hp, beq_self_eq_true]

theorem isDirectory_put_directory {q : Place} (h : fs.isDirectory q = true) (p : Place) :
    (fs.put p .directory).isDirectory q = true := by
  by_cases hq : q = p
  · rw [hq, isDirectory_put_self]
  · rwa [isDirectory, find?_put_of_ne _ hq]

/-- Directories that are there stay, and the way is there when it has been made. -/
theorem leads_of_makeFrom {p : Place} {names : List String}
    (h : fs.makeFrom p names = (fs', true)) :
    (∀ q, fs.isDirectory q = true → fs'.isDirectory q = true) ∧ fs'.Leads p names := by
  induction names generalizing fs p with
  | nil =>
    cases h
    exact ⟨fun q hq => hq, trivial⟩
  | cons name names ih =>
    unfold Files.makeFrom at h
    split at h
    · cases h
    · rename_i q hnext
      split at h
      · rename_i hfound
        obtain ⟨hkept, hleads⟩ := ih h
        exact ⟨hkept, q, hnext, hkept q (beq_iff_eq.mpr hfound), hleads⟩
      · cases h
      · obtain ⟨hkept, hleads⟩ := ih h
        exact ⟨fun r hr => hkept r (isDirectory_put_directory hr q),
          q, hnext, hkept q (isDirectory_put_self fs q), hleads⟩

theorem isDirectory_of_follow {p q : Place} {name : String} {names : List String}
    (h : fs.follow p (name :: names) = some q) : fs.isDirectory p = true := by
  rw [Files.follow] at h
  split_ifs at h with hp
  exact (Bool.not_eq_false _).mp fun hno => hp (by rw [hno]; rfl)

/-- What lies at the end of a way lies in a directory at the end of a way. -/
theorem leads_of_follow {p q : Place} {names : List String} {last : String}
    (h : fs.follow p (names ++ [last]) = some q) : fs.Leads p names := by
  induction names generalizing p with
  | nil => trivial
  | cons name names ih =>
    rw [List.cons_append, Files.follow] at h
    split_ifs at h
    cases hnext : next? p name with
    | none =>
      rw [hnext] at h
      cases h
    | some r =>
      rw [hnext] at h
      have hr : fs.isDirectory r = true := by
        cases names with
        | nil | cons => exact isDirectory_of_follow h
      exact ⟨r, hnext, hr, ih h⟩

/-! ### a file that takes the place of another -/

/-- A file can be written at `spare` and put at `target` from there. -/
structure Takes (fs : Files) (spare target : Path) : Prop where
  way : fs.Leads (origin target) target.parent.parts
  spare : ∃ p, fs.locate? spare = some p ∧ fs.isDirectory p = false
  place : ∃ q, fs.locate? target = some q ∧ fs.isDirectory q = false

theorem Takes.of_sameDirectories {spare target : Path} (h : fs.Takes spare target)
    (hsame : fs.SameDirectories fs') : fs'.Takes spare target where
  way := h.way.of_isDirectory fun q hq => (hsame q).trans hq
  spare := by simpa only [hsame.locate?, hsame _] using h.spare
  place := by simpa only [hsame.locate?, hsame _] using h.place

/-- **A file is written beside its place and put there**, and can be again. -/
theorem Takes.rename_write {spare target : Path} (h : fs.Takes spare target)
    (bytes : List UInt8) : ∃ written renamed, fs.write spare bytes = (written, true)
      ∧ written.rename spare target = (renamed, true)
      ∧ renamed.entry? target = some (.file bytes) ∧ renamed.Takes spare target := by
  obtain ⟨p, hp, hpfile⟩ := h.spare
  obtain ⟨q, hq, hqfile⟩ := h.place
  have hwritten := sameDirectories_put hpfile bytes
  have hremoved : (fs.put p (.file bytes)).SameDirectories _ :=
    sameDirectories_remove ((hwritten p).trans hpfile)
  have hrenamed : fs.SameDirectories (((fs.put p (.file bytes)).remove p).put q (.file bytes)) :=
    (hwritten.trans hremoved).trans
      (sameDirectories_put (((hwritten.trans hremoved) q).trans hqfile) bytes)
  refine ⟨fs.put p (.file bytes), ((fs.put p (.file bytes)).remove p).put q (.file bytes), ?_, ?_,
    ?_, h.of_sameDirectories hrenamed⟩
  · simp only [Files.write, hp, hpfile, Bool.false_eq_true, ↓reduceIte]
  · simp only [Files.rename, hwritten.locate?, hp, hq, find?_put _ _ (not_isOrigin hpfile),
      hwritten q, hqfile, Bool.false_eq_true, ↓reduceIte]
  · have hfound := find?_put ((fs.put p (.file bytes)).remove p) (.file bytes)
      (not_isOrigin hqfile)
    simp only [ entry?, hrenamed.locate?, hq, Option.bind_eq_bind, Option.bind_some, hfound]

/-- A file that is there is written beside its place and put there, or nothing is written. -/
theorem takes_or_write (spare : Path) {target : Path} {bytes : List UInt8}
    (hparts : target.parts ≠ []) (hfile : fs.entry? target = some (.file bytes)) :
    fs.Leads (origin target) target.parent.parts ∧
      (fs.Takes spare target ∨ ∀ content, fs.write spare content = (fs, false)) := by
  obtain ⟨q, hq, hfound⟩ := Option.bind_eq_some_iff.mp hfile
  have hfollow : fs.follow (origin target)
      (target.parent.parts ++ [target.parts.getLast hparts]) = some q := by
    rw [Path.parent, List.dropLast_append_getLast]
    exact hq
  have hleads := leads_of_follow hfollow
  have hqfile : fs.isDirectory q = false := by
    rw [isDirectory, hfound]
    rfl
  refine ⟨hleads, ?_⟩
  cases hp : fs.locate? spare with
  | none => exact .inr fun content => by simp only [Files.write, hp]
  | some p =>
    cases hpfile : fs.isDirectory p with
    | false => exact .inl ⟨hleads, ⟨p, hp, hpfile⟩, q, hq, hqfile⟩
    | true => exact .inr fun content => by simp only [Files.write, hp, hpfile, ↓reduceIte]

/-- What has been written and put in its place once can be so again, if the way was made first. -/
theorem takes_of_rename_write {made written renamed : Files} {spare target : Path}
    {bytes : List UInt8} (hmade : fs.makeDirectories target.parent = (made, true))
    (hwritten : made.write spare bytes = (written, true))
    (hrenamed : written.rename spare target = (renamed, true)) : made.Takes spare target := by
  obtain ⟨p, hp, hpfile, rfl⟩ : ∃ p, made.locate? spare = some p ∧ made.isDirectory p = false
      ∧ made.put p (.file bytes) = written := by
    unfold Files.write at hwritten
    split at hwritten
    · cases hwritten
    · split_ifs at hwritten with hdirectory
      · cases hwritten
      · exact ⟨_, ‹_›, Bool.eq_false_iff.mpr hdirectory, congrArg Prod.fst hwritten⟩
  have hsame := sameDirectories_put hpfile bytes
  refine ⟨(leads_of_makeFrom hmade).2, ⟨p, hp, hpfile⟩, ?_⟩
  unfold Files.rename at hrenamed
  rw [hsame.locate?, hsame.locate?, hp] at hrenamed
  split at hrenamed
  case h_2 => cases hrenamed
  case h_1 q _ hq =>
    split at hrenamed
    case h_2 => cases hrenamed
    case h_1 =>
      split_ifs at hrenamed with hdirectory
      · cases hrenamed
      · exact ⟨q, hq, by rwa [hsame, Bool.not_eq_true] at hdirectory⟩

end

end Files

end Ladybug

import FeedAudit.Storage.Sink

/-!
# What stands in files

The location that a path leads to is known from the path alone, whatever stands in between
(`place`): what stands there only decides whether the walk comes to its end. Writing a text to a
file changes the file at this location and no other one (`wrote_writeText`), and what was written is
read again by the path (`readText_of_file?`).
-/

namespace FeedAudit

/-- The text of lines and further lines is one text behind the other. -/
theorem blockText_append (lines others : List String) :
    blockText (lines ++ others) = blockText lines ++ blockText others := by
  rw [blockText, List.map_append, String.join_append, ← blockText, ← blockText]

/-! ## Relative paths -/

namespace Path

/-- Whether a path is absolute is told by its first part. -/
theorem isAbsolute_append {front : String} (hfront : front ≠ "") (rest : String) :
    isAbsolute (front ++ rest) = isAbsolute front := by
  rw [isAbsolute, isAbsolute, String.toList_append]
  cases hchars : front.toList with
  | nil => exact absurd (String.toList_eq_nil_iff.mp hchars) hfront
  | cons c others => rfl

/-- A path without a slash is relative. -/
theorem isAbsolute_of_no_slash {path : String} (hslash : '/' ∉ path.toList) :
    isAbsolute path = false := by
  rw [isAbsolute, beq_eq_false_iff_ne]
  exact fun hfirst => hslash (List.mem_of_head? hfirst)

/-- A path in a directory starts where that of the directory does. -/
theorem isAbsolute_join (dir : String) {name : String} (hname : isAbsolute name = false) :
    isAbsolute (join dir name) = isAbsolute dir := by
  by_cases hdir : dir = ""
  · rw [join, hdir, beq_self_eq_true, Bool.or_true, if_pos rfl, hname]
    rfl
  · rw [join, hname, Bool.false_or, beq_eq_false_iff_ne.mpr hdir, if_neg Bool.false_ne_true]
    split
    · exact isAbsolute_append hdir name
    · rw [String.append_assoc, isAbsolute_append hdir]

/-- Only the root has a path without steps. -/
theorem steps_ne_nil {path : String} (hpath : path ≠ "") (hrelative : isAbsolute path = false) :
    steps path ≠ [] := by
  have hfirst : ∃ c piece others,
      Text.pieces '/' path = String.ofList (c :: piece) :: others := by
    rw [isAbsolute] at hrelative
    rw [Text.pieces]
    cases hchars : path.toList with
    | nil => exact absurd (String.toList_eq_nil_iff.mp hchars) hpath
    | cons c rest =>
      have hc : c ≠ '/' := by
        rintro rfl
        rw [hchars] at hrelative
        cases hrelative
      rw [Text.pieceChars, if_neg hc]
      split
      · exact ⟨c, [], [], rfl⟩
      · exact ⟨c, _, _, rfl⟩
  obtain ⟨c, piece, others, hpieces⟩ := hfirst
  rw [steps, hpieces, List.filter_cons_of_pos (by simp)]
  exact List.cons_ne_nil _ _

end Path

/-- A number has digits only. -/
theorem not_mem_repr {c : Char} (hc : c.isDigit = false) (n : Nat) : c ∉ n.repr.toList := by
  rw [Nat.toList_repr]
  intro hmem
  have hdigit := Nat.isDigit_of_mem_toDigits (by decide) (by decide) hmem
  rw [hc] at hdigit
  cases hdigit

/-- The digits of a number have its value. -/
theorem ofDigitChars_repr (n : Nat) : Nat.ofDigitChars 10 n.repr.toList 0 = n := by
  rw [Nat.toList_repr, Nat.ofDigitChars_toDigits (by decide) (by decide)]

/-- A number is known from its digits. -/
theorem eq_of_repr_eq {m n : Nat} (heq : m.repr = n.repr) : m = n := by
  rw [← ofDigitChars_repr m, heq, ofDigitChars_repr]

/-- A number that is filled up with zeros has digits only. -/
theorem not_mem_padded {c : Char} (hc : c.isDigit = false) (width n : Nat) :
    c ∉ (padded width n).toList := by
  rw [padded, String.toList_append, String.toList_ofList, List.mem_append, List.mem_replicate]
  rintro (⟨-, rfl⟩ | hdigit)
  · cases hc
  · exact not_mem_repr hc n hdigit

/-- A year is written with digits and a sign. -/
theorem not_mem_yearText {c : Char} (hc : c.isDigit = false) (hminus : c ≠ '-') (hplus : c ≠ '+')
    (year : Int) : c ∉ (yearText year).toList := by
  rw [yearText]
  split
  · exact not_mem_padded hc 4 _
  · split <;> simp [not_mem_padded hc, hminus, hplus]

/-- There is no slash in the stamp of a time. -/
theorem Moment.no_slash_stamp (m : Moment) : '/' ∉ m.stamp.toList := by
  have hyear : '/' ∉ (yearText m.date.year).toList :=
    not_mem_yearText rfl (by decide) (by decide) _
  have hnumber : ∀ n, '/' ∉ (padded 2 n).toList := not_mem_padded rfl 2
  simp [stamp, toMinute, hyear, hnumber]

/-- A report is named absolutely exactly if its directory is. -/
theorem isAbsolute_reportPath (dir channel : String) (started : Moment) :
    Path.isAbsolute (reportPath dir channel started) = Path.isAbsolute dir := by
  rw [reportPath, String.append_assoc]
  refine Path.isAbsolute_join dir ?_
  rw [Path.isAbsolute_append (by simp [← String.toList_eq_nil_iff]), Path.isAbsolute_of_no_slash]
  simp [Moment.no_slash_stamp]

namespace FileSystem

variable {fs fs' : FileSystem} {l m : Location}

/-! ## Entries -/

/-- The root is a directory. -/
theorem entry?_nil : fs.entry? [] = some .directory := if_pos rfl

/-- Below the root, an entry is the first one listed for its location. -/
theorem entry?_of_ne_nil (hl : l ≠ []) :
    fs.entry? l = (fs.entries.find? (·.1 == l)).map (·.2) :=
  if_neg hl

/-- Putting an entry in place of another one keeps the others where they are listed. -/
theorem find?_put_present (e : Entry) (hany : fs.entries.any (·.1 == l)) :
    (fs.put l e).entries.find? (·.1 == m) =
      (fs.entries.find? (·.1 == m)).map fun (n, old) => if n = l then (n, e) else (n, old) := by
  rw [put, if_pos hany, List.find?_map]
  congr 1
  have hsame : ((fun x : Location × Entry => x.1 == m) ∘
      fun (n, old) => if n = l then (n, e) else (n, old)) = (·.1 == m) := by
    funext x
    rw [Function.comp_apply]
    dsimp only
    split <;> rfl
  rw [hsame]

/-- What was put at a location stands there. -/
theorem entry?_put_self (hl : l ≠ []) (e : Entry) : entry? (fs.put l e) l = some e := by
  rw [entry?_of_ne_nil hl]
  by_cases hany : fs.entries.any (·.1 == l)
  · obtain ⟨⟨n, old⟩, hfound⟩ := Option.isSome_iff_exists.mp
      (List.find?_isSome.mpr (List.any_eq_true.mp hany))
    have hn : n = l := by simpa using List.find?_some hfound
    rw [find?_put_present e hany, hfound, Option.map_some, Option.map_some]
    dsimp only
    rw [if_pos hn]
  · have hnone : fs.entries.find? (·.1 == l) = none := by
      rw [List.find?_eq_none]
      intro x hx hyes
      exact hany (List.any_eq_true.mpr ⟨x, hx, hyes⟩)
    rw [put, if_neg hany, List.find?_append, hnone, Option.none_or, List.find?_singleton]
    simp

/-- Putting something at a location changes no other one. -/
theorem entry?_put_of_ne (hne : m ≠ l) (e : Entry) :
    entry? (fs.put l e) m = fs.entry? m := by
  by_cases hm : m = []
  · rw [hm, entry?_nil, entry?_nil]
  rw [entry?_of_ne_nil hm, entry?_of_ne_nil hm]
  by_cases hany : fs.entries.any (·.1 == l)
  · rw [find?_put_present e hany]
    cases hfound : fs.entries.find? (·.1 == m) with
    | none => rfl
    | some listed =>
      obtain ⟨n, old⟩ := listed
      have hn : n = m := by simpa using List.find?_some hfound
      have hother : n ≠ l := by
        rw [hn]
        exact hne
      rw [Option.map_some]
      dsimp only
      rw [if_neg hother]
  · have hother : ((l, e).1 == m) = false := beq_eq_false_iff_ne.mpr (Ne.symm hne)
    rw [put, if_neg hany, List.find?_append, List.find?_cons, hother, List.find?_nil,
      Option.or_none]

/-- Putting something at a location does not change where paths start. -/
@[simp] theorem working_put (l : Location) (e : Entry) : (fs.put l e).working = fs.working := by
  rw [put]
  split <;> rfl

/-! ## Files -/

/-- The content of the file at a location. -/
def file? (fs : FileSystem) (l : Location) : Option ByteArray :=
  match fs.entry? l with
  | some (.file content) => some content
  | _ => none

/-- A file that was put at a location holds its content, and the others are as they were. -/
theorem file?_put_file (hl : l ≠ []) (content : ByteArray) :
    (fs.put l (.file content)).file? m = if m = l then some content else fs.file? m := by
  by_cases hm : m = l
  · rw [hm, if_pos rfl, file?, entry?_put_self hl]
  · rw [if_neg hm, file?, entry?_put_of_ne hm, file?]

/-! ## Places -/

/-- The location that a path leads to. -/
def place (fs : FileSystem) (path : String) : Location :=
  (Path.steps path).foldl Location.step (fs.origin path)

/-- Where paths lead depends on the working directory alone. -/
theorem place_congr (hworking : fs'.working = fs.working) : fs'.place = fs.place := by
  funext path
  rw [place, place, origin, origin, hworking]

/-- A walk that comes to its end is known from its steps. -/
theorem walk_eq_foldl {start : Location} {steps : List String}
    (hwalk : fs.walk start steps = .ok l) : l = steps.foldl Location.step start := by
  induction steps generalizing start with
  | nil => exact (Except.ok.inj hwalk).symm
  | cons name rest ih =>
    rw [walk] at hwalk
    split at hwalk
    · cases hwalk
    · cases hwalk
    · exact ih hwalk

/-! ## Directories -/

/-- Seen from the same directory, and with all directories still there. -/
structure Keeps (fs fs' : FileSystem) : Prop where
  working : fs'.working = fs.working
  directory : ∀ l, fs.entry? l = some .directory → fs'.entry? l = some .directory

/-- All directories are kept when nothing is changed. -/
theorem Keeps.refl (fs : FileSystem) : Keeps fs fs := ⟨rfl, fun _ h => h⟩

/-- Directories that are kept by two changes are kept by both together. -/
theorem Keeps.trans {fs'' : FileSystem} (hfirst : Keeps fs fs') (hsecond : Keeps fs' fs'') :
    Keeps fs fs'' :=
  ⟨hsecond.working.trans hfirst.working, fun l hl => hsecond.directory l (hfirst.directory l hl)⟩

/-- Where directories are kept, paths lead where they led. -/
theorem Keeps.place_eq (hkeeps : Keeps fs fs') : fs'.place = fs.place :=
  place_congr hkeeps.working

/-- A walk that comes to its end still does when all directories are still there. -/
theorem Keeps.walk {start : Location} {steps : List String} (hkeeps : Keeps fs fs')
    (hwalk : fs.walk start steps = .ok l) : fs'.walk start steps = .ok l := by
  induction steps generalizing start with
  | nil => exact hwalk
  | cons name rest ih =>
    rw [FileSystem.walk] at hwalk ⊢
    split at hwalk
    · cases hwalk
    · cases hwalk
    · rename_i hentry
      rw [hkeeps.directory start hentry]
      exact ih hwalk

/-- A file that is put where no directory stands keeps all directories. -/
theorem keeps_put_file (hfree : fs.entry? l ≠ some .directory) (content : ByteArray) :
    Keeps fs (fs.put l (.file content)) := by
  refine ⟨working_put l _, fun m hm => ?_⟩
  have hne : m ≠ l := by
    rintro rfl
    exact hfree hm
  rw [entry?_put_of_ne hne, hm]

/-- Making directories that are missing loses none and changes no file. -/
structure OnlyDirectories (fs fs' : FileSystem) : Prop extends Keeps fs fs' where
  files : fs'.file? = fs.file?

/-- Nothing but directories is new when nothing is changed. -/
theorem OnlyDirectories.refl (fs : FileSystem) : OnlyDirectories fs fs := ⟨.refl fs, rfl⟩

/-! ## Writing -/

/-- What a file holds once a text was written to it. -/
def contentAfter (mode : WriteMode) (text : String) (held : Option ByteArray) : ByteArray :=
  match mode with
  | .create => text.toUTF8
  | .append => held.getD ByteArray.empty ++ text.toUTF8

/-- What is located for writing is the place of the path, where no directory stands. -/
theorem locateForWriting_ok {path : String} (hlocate : fs.locateForWriting path = .ok l) :
    l = fs.place path ∧ fs.entry? l ≠ some .directory ∧ path ≠ "" ∧
      Path.endsInSlash path = false ∧ fs.walk (fs.origin path) (Path.steps path) = .ok l := by
  rw [locateForWriting] at hlocate
  split at hlocate
  · cases hlocate
  rename_i hpath
  split at hlocate
  · cases hlocate
  rename_i found hwalk
  have hplace : found = fs.place path := walk_eq_foldl hwalk
  split at hlocate
  · cases hlocate
  · rename_i content hfile
    split at hlocate
    · cases hlocate
    · rename_i hslash
      obtain rfl := Except.ok.inj hlocate
      exact ⟨hplace, by rw [hfile]; nofun, hpath, Bool.eq_false_iff.mpr hslash, hwalk⟩
  · rename_i hnone
    split at hlocate
    · cases hlocate
    · rename_i hslash
      obtain rfl := Except.ok.inj hlocate
      exact ⟨hplace, by rw [hnone]; nofun, hpath, Bool.eq_false_iff.mpr hslash, hwalk⟩

/-- What is held before a write, with the text behind it, is the content after it. -/
theorem heldBefore_append (mode : WriteMode) (text : String) :
    fs.heldBefore mode l ++ text.toUTF8 = contentAfter mode text (fs.file? l) := by
  unfold heldBefore contentAfter file?
  rcases mode with _ | _ <;> rcases fs.entry? l with _ | _ | _ <;> rfl

/-- A text is written to the file of a path when this file alone is changed, no directory is lost
and the path leads to the file from then on. -/
structure Wrote (fs : FileSystem) (path : String) (mode : WriteMode) (text : String)
    (fs' : FileSystem) : Prop extends Keeps fs fs' where
  files : ∀ m, fs'.file? m =
    if m = fs.place path then some (contentAfter mode text (fs.file? m)) else fs.file? m
  locate : fs'.locate path = .ok (fs.place path)

/-- A text that is written is written to the file of its path. -/
theorem wrote_writeText {path : String} {mode : WriteMode} {text : String}
    (hwrite : fs.writeText path mode text = .ok fs') : Wrote fs path mode text fs' := by
  rw [writeText] at hwrite
  split at hwrite
  · cases hwrite
  rename_i l hlocate
  obtain rfl := Except.ok.inj hwrite
  obtain ⟨hplace, hfree, hpath, hslash, hwalk⟩ := locateForWriting_ok hlocate
  have hkeeps := keeps_put_file hfree (fs.heldBefore mode l ++ text.toUTF8)
  have hl : l ≠ [] := by
    rintro rfl
    exact hfree entry?_nil
  refine ⟨hkeeps, fun m => ?_, ?_⟩
  · rw [file?_put_file hl, ← hplace]
    by_cases hm : m = l
    · rw [if_pos hm, if_pos hm, hm, heldBefore_append]
    · rw [if_neg hm, if_neg hm]
  · rw [FileSystem.locate, if_neg hpath, hslash, origin, hkeeps.working, ← hplace]
    exact hkeeps.walk hwalk

/-! ## Reading -/

/-- A path that leads to a place still does when all directories are still there. -/
theorem Keeps.locate {path : String} (hkeeps : Keeps fs fs') (hlocate : fs.locate path = .ok l) :
    fs'.locate path = .ok l := by
  rw [FileSystem.locate] at hlocate ⊢
  split at hlocate
  · cases hlocate
  · rename_i hpath
    rw [if_neg hpath, origin, hkeeps.working]
    exact hkeeps.walk hlocate

/-- A text is read back from its bytes. -/
theorem fromUTF8?_toUTF8 (text : String) : String.fromUTF8? text.toUTF8 = some text :=
  dif_pos text.isValidUTF8

/-- A location has the content of the file that stands there. -/
theorem file?_eq_some_iff {content : ByteArray} :
    fs.file? l = some content ↔ fs.entry? l = some (.file content) := by
  rw [file?]
  cases fs.entry? l with
  | none => simp
  | some e => cases e <;> simp

/-- What is read is the text of the file that the path leads to. -/
theorem readText_of_file? {path text : String} (hlocate : fs.locate path = .ok l)
    (hfile : fs.file? l = some text.toUTF8) : fs.readText path = .ok text := by
  have hbytes : fs.readBytes path = .ok text.toUTF8 := by
    rw [readBytes, hlocate]
    dsimp only
    rw [file?_eq_some_iff.mp hfile]
  rw [readText, hbytes]
  dsimp only
  rw [fromUTF8?_toUTF8]

end FileSystem

end FeedAudit

import FeedAudit.Proofs.Storage
import Mathlib.Data.List.Basic

/-!
# The ways of paths

A path leads over the locations of its *way*, from where it starts to its place. A walk goes on as
long as directories stand on the way, and what comes of making directories, of writing and of
reading is known from what stands there (`makeDirectories_eq`, `writeBlock_snd`, `readBytes_eq`).
Once a block was written to a path, nothing keeps further blocks from being written to it
(`open_of_written`).
-/

namespace FeedAudit

/-! ## Locations on the way -/

namespace Location

/-- The locations that steps lead over, the first and the last one included. -/
def visited : Location → List String → List Location
  | start, [] => [start]
  | start, name :: rest => start :: visited (start.step name) rest

/-- A dot leads nowhere else. -/
theorem step_dot (start : Location) : start.step "." = start := if_pos rfl

/-- Steps lead over the location where they start. -/
theorem start_mem_visited (start : Location) (steps : List String) :
    start ∈ visited start steps := by
  cases steps <;> exact List.mem_cons_self

/-- Steps lead over some location. -/
theorem visited_ne_nil (start : Location) (steps : List String) : visited start steps ≠ [] := by
  cases steps <;> exact List.cons_ne_nil _ _

/-- The last step leads on from where the others end. -/
theorem visited_concat (start : Location) (steps : List String) (name : String) :
    visited start (steps ++ [name]) =
      visited start steps ++ [(steps ++ [name]).foldl step start] := by
  induction steps generalizing start with
  | nil => rfl
  | cons first rest ih =>
    rw [List.cons_append, visited, ih, visited, List.foldl_cons, List.cons_append]

/-- The last location is the one that the steps lead to. -/
theorem visited_eq (start : Location) (steps : List String) :
    visited start steps = (visited start steps).dropLast ++ [steps.foldl step start] := by
  rcases List.eq_nil_or_concat' steps with rfl | ⟨early, name, rfl⟩
  · rfl
  · rw [visited_concat, List.dropLast_concat]

/-- The first steps lead over the first locations. -/
theorem visited_take_isPrefix (start : Location) (steps : List String) (n : Nat) :
    visited start (steps.take n) <+: visited start steps := by
  induction steps generalizing start n with
  | nil => cases n <;> exact List.prefix_rfl
  | cons name rest ih =>
    cases n with
    | zero => exact List.prefix_iff_eq_append.mpr rfl
    | succ n =>
      rw [List.take_succ_cons, visited, visited, List.prefix_cons_inj]
      exact ih (start.step name) n

/-- Dots do not lead anywhere else. -/
theorem visited_filter (start : Location) (steps : List String) :
    (visited start (steps.filter (· != "."))).Sublist (visited start steps) ∧
      (∀ l ∈ visited start steps, l ∈ visited start (steps.filter (· != "."))) ∧
      (steps.filter (· != ".")).foldl step start = steps.foldl step start := by
  induction steps generalizing start with
  | nil => exact ⟨List.Sublist.refl _, fun _ hl => hl, rfl⟩
  | cons name rest ih =>
    by_cases hdot : name = "."
    · obtain ⟨hsub, hmem, hfold⟩ := ih start
      have hout : (name :: rest).filter (· != ".") = rest.filter (· != ".") := by
        rw [List.filter_cons, hdot]
        rfl
      rw [hout, visited, List.foldl_cons, hdot, step_dot]
      refine ⟨hsub.cons start, ?_, hfold⟩
      intro l hl
      rcases List.mem_cons.mp hl with rfl | hrest
      · exact start_mem_visited _ _
      · exact hmem l hrest
    · obtain ⟨hsub, hmem, hfold⟩ := ih (start.step name)
      have hin : (name :: rest).filter (· != ".") = name :: rest.filter (· != ".") :=
        List.filter_cons_of_pos (bne_iff_ne.mpr hdot)
      rw [hin, visited, visited, List.foldl_cons, List.foldl_cons]
      refine ⟨hsub.cons_cons start, ?_, hfold⟩
      intro l hl
      rcases List.mem_cons.mp hl with rfl | hrest
      · exact List.mem_cons_self
      · exact List.mem_cons_of_mem _ (hmem l hrest)

/-- The components of a path lead over the same locations as its steps. -/
theorem visited_components (start : Location) (path : String) :
    (visited start (Path.components path)).Sublist (visited start (Path.steps path)) ∧
      (∀ l ∈ visited start (Path.steps path), l ∈ visited start (Path.components path)) ∧
      (Path.components path).foldl step start = (Path.steps path).foldl step start := by
  rw [Path.components]
  split
  · rename_i hnil
    rw [hnil]
    exact ⟨List.Sublist.refl _, fun _ hl => hl, rfl⟩
  · rename_i first rest hsteps
    rw [hsteps]
    split
    · rename_i hdot
      have hfirst : first = "." := eq_of_beq (Bool.and_eq_true_iff.mp hdot).1
      have hout : (first :: rest).filter (· != ".") = rest.filter (· != ".") := by
        rw [List.filter_cons, hfirst]
        rfl
      have hall := visited_filter start (first :: rest)
      rwa [hout] at hall
    · obtain ⟨hsub, hmem, hfold⟩ := visited_filter (start.step first) rest
      rw [visited, visited, List.foldl_cons, List.foldl_cons]
      refine ⟨hsub.cons_cons start, ?_, hfold⟩
      intro l hl
      rcases List.mem_cons.mp hl with rfl | hrest
      · exact List.mem_cons_self
      · exact List.mem_cons_of_mem _ (hmem l hrest)

end Location

open Location (visited)

namespace FileSystem

variable {fs fs' : FileSystem} {path : String}

/-- The locations that a path leads over, from where it starts to its place. -/
def way (fs : FileSystem) (path : String) : List Location :=
  visited (fs.origin path) (Path.steps path)

/-- The locations at which directories have to stand before the file of a path can be made. -/
def above (fs : FileSystem) (path : String) : List Location :=
  visited (fs.origin path) (Path.components path).dropLast

/-- The way of a path ends at its place. -/
theorem way_eq : fs.way path = (fs.way path).dropLast ++ [fs.place path] :=
  Location.visited_eq _ _

/-- The place of a path is on its way. -/
theorem place_mem_way : fs.place path ∈ fs.way path := by
  rw [way_eq]
  exact List.mem_append_right _ (List.mem_singleton_self _)

/-- The ways of paths depend on the working directory alone. -/
theorem way_congr (hworking : fs'.working = fs.working) : fs'.way = fs.way := by
  funext path
  rw [way, way, origin, origin, hworking]

/-- The locations above files depend on the working directory alone. -/
theorem above_congr (hworking : fs'.working = fs.working) : fs'.above = fs.above := by
  funext path
  rw [above, above, origin, origin, hworking]

/-- The locations above a file are on the way of its path, in this order. -/
theorem above_sublist : (fs.above path).Sublist (fs.way path) := by
  refine List.Sublist.trans ?_ (Location.visited_components _ path).1
  rw [above, List.dropLast_eq_take]
  exact (Location.visited_take_isPrefix _ _ _).sublist

/-- All locations on the way of a path are above its file, but for the place of the file. -/
theorem mem_above_or_eq_place {l : Location} (hl : l ∈ fs.way path) :
    l ∈ fs.above path ∨ l = fs.place path := by
  obtain ⟨-, hmem, hfold⟩ := Location.visited_components (fs.origin path) path
  have hcomponents := hmem l hl
  rw [above, place, ← hfold]
  rcases List.eq_nil_or_concat' (Path.components path) with hnil | ⟨early, name, hlast⟩
  · rw [hnil] at hcomponents ⊢
    exact Or.inl hcomponents
  · rw [hlast] at hcomponents ⊢
    rw [Location.visited_concat, List.mem_append, List.mem_singleton] at hcomponents
    rwa [List.dropLast_concat]

/-! ## Walking -/

/-- Why a walk over locations comes to no end: one of them is no directory. -/
def hindrance (fs : FileSystem) (ls : List Location) : Option IoFault :=
  ls.findSome? fun l =>
    match fs.entry? l with
    | none => some .notFound
    | some (.file _) => some .notADirectory
    | some .directory => none

/-- A walk is hindered at its first location or behind it. -/
theorem hindrance_cons (l : Location) (rest : List Location) :
    fs.hindrance (l :: rest) =
      match fs.entry? l with
      | none => some .notFound
      | some (.file _) => some .notADirectory
      | some .directory => fs.hindrance rest := by
  rw [hindrance, List.findSome?_cons]
  cases fs.entry? l with
  | none => rfl
  | some e => cases e <;> rfl

/-- A walk is not hindered exactly if it leads over directories only. -/
theorem hindrance_eq_none_iff {ls : List Location} :
    fs.hindrance ls = none ↔ ∀ l ∈ ls, fs.entry? l = some .directory := by
  induction ls with
  | nil => exact ⟨fun _ => nofun, fun _ => rfl⟩
  | cons l rest ih =>
    rw [hindrance_cons, List.forall_mem_cons]
    cases fs.entry? l with
    | none => simp
    | some e => cases e <;> simp [ih]

/-- A walk is hindered where nothing stands or where a file stands. -/
theorem hindrance_eq_some {ls : List Location} {fault : IoFault}
    (hsome : fs.hindrance ls = some fault) : fault = .notFound ∨ fault = .notADirectory := by
  induction ls with
  | nil => cases hsome
  | cons l rest ih =>
    rw [hindrance_cons] at hsome
    split at hsome
    · exact Or.inl (Option.some.inj hsome).symm
    · exact Or.inr (Option.some.inj hsome).symm
    · exact ih hsome

/-- A walk is hindered before its last location or there. -/
theorem hindrance_concat (ls : List Location) (l : Location) :
    fs.hindrance (ls ++ [l]) = (fs.hindrance ls).or (fs.hindrance [l]) :=
  List.findSome?_append

/-- A walk is hindered alike if the same stands at all its locations. -/
theorem hindrance_congr {ls : List Location}
    (hsame : ∀ l ∈ ls, fs'.entry? l = fs.entry? l) : fs'.hindrance ls = fs.hindrance ls := by
  induction ls with
  | nil => rfl
  | cons l rest ih =>
    rw [hindrance_cons, hindrance_cons, hsame l List.mem_cons_self,
      ih fun m hm => hsame m (List.mem_cons_of_mem l hm)]

/-- A walk goes on as long as it leads over directories. -/
theorem walk_eq (start : Location) (steps : List String) :
    fs.walk start steps =
      match fs.hindrance (visited start steps).dropLast with
      | some fault => .error fault
      | none => .ok (steps.foldl Location.step start) := by
  induction steps generalizing start with
  | nil => rfl
  | cons name rest ih =>
    rw [walk, Location.visited, List.dropLast_cons_of_ne_nil (Location.visited_ne_nil _ _),
      hindrance_cons, ih, List.foldl_cons]
    cases fs.entry? start with
    | none => rfl
    | some e => cases e <;> rfl

/-- A walk does not even begin where no directory stands. -/
theorem hindrance_of_no_start {start : Location} {steps : List String}
    (hstart : fs.entry? start ≠ some .directory) (hsteps : steps ≠ []) :
    ∃ fault, fs.hindrance (visited start steps).dropLast = some fault := by
  have hfirst : start ∈ (visited start steps).dropLast := by
    cases steps with
    | nil => exact absurd rfl hsteps
    | cons name rest =>
      rw [visited, List.dropLast_cons_of_ne_nil (Location.visited_ne_nil _ _)]
      exact List.mem_cons_self
  cases hwalk : fs.hindrance (visited start steps).dropLast with
  | none => exact absurd (hindrance_eq_none_iff.mp hwalk start hfirst) hstart
  | some fault => exact ⟨fault, rfl⟩

/-! ## Making directories -/

/-- Nothing is changed, but that directories may be made at some locations where nothing stood. -/
structure MadeAt (ls : List Location) (fs fs' : FileSystem) : Prop where
  working : fs'.working = fs.working
  entry : ∀ l, fs'.entry? l = fs.entry? l ∨
    fs.entry? l = none ∧ fs'.entry? l = some .directory ∧ l ∈ ls

/-- No directory is made when nothing is changed. -/
theorem MadeAt.refl (ls : List Location) (fs : FileSystem) : MadeAt ls fs fs :=
  ⟨rfl, fun _ => Or.inl rfl⟩

/-- Directories made at some locations are made at some of further ones. -/
theorem MadeAt.mono {ls ms : List Location} (hmade : MadeAt ls fs fs')
    (hsub : ∀ l ∈ ls, l ∈ ms) : MadeAt ms fs fs' :=
  ⟨hmade.working, fun l => (hmade.entry l).imp_right fun ⟨hnone, hnew, hl⟩ =>
    ⟨hnone, hnew, hsub l hl⟩⟩

/-- Directories made one after the other are made together. -/
theorem MadeAt.trans {ls : List Location} {fs'' : FileSystem} (hfirst : MadeAt ls fs fs')
    (hsecond : MadeAt ls fs' fs'') : MadeAt ls fs fs'' := by
  refine ⟨hsecond.working.trans hfirst.working, fun l => ?_⟩
  rcases hsecond.entry l with hsame | ⟨hnone, hnew, hl⟩
  · rw [hsame]
    exact hfirst.entry l
  · rcases hfirst.entry l with hbefore | ⟨-, hdirectory, -⟩
    · exact Or.inr ⟨hbefore ▸ hnone, hnew, hl⟩
    · rw [hdirectory] at hnone
      cases hnone

/-- Making directories changes no file. -/
theorem MadeAt.file? {ls : List Location} (hmade : MadeAt ls fs fs') : fs'.file? = fs.file? := by
  funext l
  rw [FileSystem.file?, FileSystem.file?]
  rcases hmade.entry l with hsame | ⟨hnone, hnew, -⟩
  · rw [hsame]
  · rw [hnone, hnew]

/-- Making directories keeps those that stood before. -/
theorem MadeAt.directory {ls : List Location} (hmade : MadeAt ls fs fs') {l : Location}
    (hl : fs.entry? l = some .directory) : fs'.entry? l = some .directory := by
  rcases hmade.entry l with hsame | ⟨-, hnew, -⟩
  · rw [hsame, hl]
  · exact hnew

/-- Where directories are made, nothing else is new. -/
theorem MadeAt.onlyDirectories {ls : List Location} (hmade : MadeAt ls fs fs') :
    OnlyDirectories fs fs' :=
  ⟨⟨hmade.working, fun _ => hmade.directory⟩, hmade.file?⟩

/-- A directory may be made where nothing stands. -/
theorem madeAt_put {l : Location} (hnone : fs.entry? l = none) :
    MadeAt [l] fs (fs.put l .directory) := by
  have hl : l ≠ [] := by
    rintro rfl
    rw [entry?_nil] at hnone
    cases hnone
  refine ⟨working_put l _, fun m => ?_⟩
  by_cases hm : m = l
  · rw [hm]
    exact Or.inr ⟨hnone, entry?_put_self hl _, List.mem_singleton_self l⟩
  · exact Or.inl (entry?_put_of_ne hm _)

/-- A directory is made if all before it are there and nothing stands at its location; it is no
fault if it is there already. -/
theorem ensureDirectory_eq (start : Location) (steps : List String) :
    fs.ensureDirectory start steps =
      match fs.hindrance (visited start steps).dropLast with
      | some fault => .error fault
      | none =>
        match fs.entry? (steps.foldl Location.step start) with
        | none => .ok (fs.put (steps.foldl Location.step start) .directory)
        | some .directory => .ok fs
        | some (.file _) => .error .exists := by
  rw [ensureDirectory, makeDirectory, walk_eq]
  -- Whether something stands in the way is told by the walk to the directory above.
  cases hwalk : fs.hindrance (visited start steps).dropLast with
  | some fault =>
    dsimp only
    rcases hindrance_eq_some hwalk with rfl | rfl <;> rfl
  | none =>
    dsimp only
    cases hend : fs.entry? (steps.foldl Location.step start) with
    | none => rfl
    | some e =>
      cases e with
      | file content =>
        have hno : fs.isDirectory start steps = false := by
          rw [isDirectory, walk_eq, hwalk]
          dsimp only
          rw [hend]
        rw [hno]
        rfl
      | directory =>
        have hyes : fs.isDirectory start steps = true := by
          rw [isDirectory, walk_eq, hwalk]
          dsimp only
          rw [hend]
        rw [hyes]
        rfl

/-- Directories that are ensured are made at the locations that steps lead over, where they stand
then. -/
theorem madeAt_ensureDirectory {start : Location} {steps : List String}
    (hensure : fs.ensureDirectory start steps = .ok fs') :
    MadeAt (visited start steps) fs fs' ∧
      (∀ l ∈ visited start steps, fs'.entry? l = some .directory) := by
  rw [ensureDirectory_eq] at hensure
  split at hensure
  · cases hensure
  · rename_i hwalk
    rw [hindrance_eq_none_iff] at hwalk
    have hall : ∀ {made : FileSystem}, MadeAt (visited start steps) fs made →
        made.entry? (steps.foldl Location.step start) = some .directory →
        ∀ l ∈ visited start steps, made.entry? l = some .directory := by
      intro made hmade hend l hl
      rw [Location.visited_eq, List.mem_append, List.mem_singleton] at hl
      rcases hl with hbefore | rfl
      · exact hmade.directory (hwalk l hbefore)
      · exact hend
    split at hensure
    · rename_i hnone
      obtain rfl := Except.ok.inj hensure
      have hmade : MadeAt (visited start steps) fs _ := (madeAt_put hnone).mono (by
        intro l hl
        rw [List.mem_singleton.mp hl, Location.visited_eq]
        exact List.mem_append_right _ (List.mem_singleton_self _))
      refine ⟨hmade, hall hmade (entry?_put_self ?_ _)⟩
      intro hroot
      rw [hroot, entry?_nil] at hnone
      cases hnone
    · rename_i hdirectory
      obtain rfl := Except.ok.inj hensure
      exact ⟨.refl _ _, hall (.refl _ _) hdirectory⟩
    · cases hensure

/-- Whether or not all directories can be made, what is made is made on the way. -/
theorem madeAt_makeDirectories (start : Location) (steps : List String) (n : Nat) :
    MadeAt (visited start (steps.take n)) fs (fs.makeDirectories start steps n).1 := by
  induction n with
  | zero => exact .refl _ _
  | succ n ih =>
    have hsub : ∀ l ∈ visited start (steps.take n), l ∈ visited start (steps.take (n + 1)) := by
      have hpre := Location.visited_take_isPrefix start (steps.take (n + 1)) n
      rw [List.take_take, Nat.min_eq_left (Nat.le_succ n)] at hpre
      exact fun l hl => hpre.subset hl
    rw [makeDirectories]
    split
    · rename_i made hensure
      exact (madeAt_ensureDirectory hensure).1
    · split
      · rename_i above fault habove
        rw [habove] at ih
        exact ih.mono hsub
      · rename_i above habove
        rw [habove] at ih
        split
        · rename_i made hensure
          exact (ih.mono hsub).trans (madeAt_ensureDirectory hensure).1
        · exact ih.mono hsub
    · exact .refl _ _

/-- No directory is made along steps from where no directory stands. -/
theorem makeDirectories_of_no_start {start : Location} {steps : List String} {n : Nat}
    (hstart : fs.entry? start ≠ some .directory) (hn : n ≤ steps.length) :
    (fs.makeDirectories start steps n).1 = fs := by
  induction n with
  | zero => rfl
  | succ n ih =>
    have hbefore := ih (Nat.le_of_succ_le hn)
    have hsteps : steps.take (n + 1) ≠ [] := by
      rw [List.take_succ_eq_append_getElem hn]
      exact List.append_ne_nil_of_right_ne_nil _ (List.cons_ne_nil _ _)
    obtain ⟨fault, hwalk⟩ := hindrance_of_no_start hstart hsteps
    have hrefused : fs.ensureDirectory start (steps.take (n + 1)) = .error fault := by
      rw [ensureDirectory_eq, hwalk]
    rw [makeDirectories, hrefused]
    rcases hindrance_eq_some hwalk with rfl | rfl
    · rcases hresult : fs.makeDirectories start steps n with ⟨above, fault | done⟩ <;>
        rw [hresult] at hbefore
      · exact hbefore
      · obtain rfl : above = fs := hbefore
        dsimp only
        rw [hrefused]
    · rfl

/-- Once directories could be made, they stand all along the way. -/
theorem directory_of_makeDirectories {start : Location} {steps : List String} {n : Nat}
    (hstart : fs.entry? start = some .directory)
    (hmake : (fs.makeDirectories start steps n).2 = .ok ()) :
    ∀ l ∈ visited start (steps.take n),
      entry? (fs.makeDirectories start steps n).1 l = some .directory := by
  cases n with
  | zero =>
    intro l hl
    rw [List.take_zero, Location.visited, List.mem_singleton] at hl
    rw [hl]
    exact hstart
  | succ n =>
    rw [makeDirectories] at hmake ⊢
    split at hmake
    · rename_i made hensure
      exact (madeAt_ensureDirectory hensure).2
    · split at hmake
      · cases hmake
      · split at hmake
        · rename_i made hensure
          exact (madeAt_ensureDirectory hensure).2
        · cases hmake
    · cases hmake

/-- What comes of making directories at locations, each within the one before it: a file at one of
them is a fault, and the fault tells whether only directories stand before the file. -/
def making (fs : FileSystem) (ls : List Location) : Except IoFault Unit :=
  if ∀ l ∈ ls, fs.file? l = none then .ok ()
  else if fs.hindrance ls.dropLast = some .notADirectory then .error .notADirectory
  else .error .exists

/-- Directories can be made exactly if there is no file at any of the locations. -/
theorem making_eq_ok_iff {ls : List Location} :
    fs.making ls = .ok () ↔ ∀ l ∈ ls, fs.file? l = none := by
  rw [making]
  split
  · exact ⟨fun _ => ‹_›, fun _ => rfl⟩
  · rename_i hfile
    split <;> exact ⟨nofun, fun hnone => absurd hnone hfile⟩

/-- With a file in the way, directories cannot be made; the fault tells what stands before the
file. -/
theorem making_of_file {ls : List Location} (hfile : ¬ ∀ l ∈ ls, fs.file? l = none) :
    fs.making ls = if fs.hindrance ls.dropLast = some .notADirectory then .error .notADirectory
      else .error .exists :=
  if_neg hfile

/-- A walk is only stopped as at a file if there is a file. -/
theorem file_of_hindrance {ls : List Location}
    (hstopped : fs.hindrance ls = some .notADirectory) : ¬ ∀ l ∈ ls, fs.file? l = none := by
  intro hnone
  induction ls with
  | nil => cases hstopped
  | cons l rest ih =>
    rw [List.forall_mem_cons] at hnone
    rw [hindrance_cons] at hstopped
    split at hstopped
    · cases hstopped
    · rename_i content hentry
      rw [file?, hentry] at hnone
      cases hnone.1
    · exact ih hstopped hnone.2

/-- A directory is no file. -/
theorem file?_of_directory {l : Location} (hl : fs.entry? l = some .directory) :
    fs.file? l = none := by
  rw [file?, hl]

/-- What comes of making one more directory when the way before it is all of directories. -/
theorem making_concat_of_directories {ls : List Location} (l : Location)
    (hwalk : fs.hindrance ls = none) :
    fs.making (ls ++ [l]) =
      match fs.entry? l with
      | some (.file _) => .error .exists
      | _ => .ok () := by
  have hbefore : ∀ m ∈ ls, fs.file? m = none :=
    fun m hm => file?_of_directory (hindrance_eq_none_iff.mp hwalk m hm)
  have hfree : fs.file? l = none → fs.making (ls ++ [l]) = .ok () := by
    intro hl
    rw [making_eq_ok_iff, List.forall_mem_append, List.forall_mem_singleton]
    exact ⟨hbefore, hl⟩
  cases hentry : fs.entry? l with
  | none => exact hfree (by rw [file?, hentry])
  | some e =>
    cases e with
    | directory => exact hfree (file?_of_directory hentry)
    | file content =>
      have hfile : ¬ ∀ m ∈ ls ++ [l], fs.file? m = none := by
        intro hnone
        have hl := hnone l (List.mem_append_right _ (List.mem_singleton_self l))
        rw [file?, hentry] at hl
        cases hl
      rw [making_of_file hfile, List.dropLast_concat, hwalk]
      rfl

/-- Behind a file that nobody walks to, one more directory changes nothing. -/
theorem making_concat_of_file {ls : List Location} (l : Location)
    (hwalk : fs.hindrance ls = some .notFound) (hfile : ¬ ∀ m ∈ ls, fs.file? m = none) :
    fs.making (ls ++ [l]) = fs.making ls := by
  have hall : ¬ ∀ m ∈ ls ++ [l], fs.file? m = none := by
    intro hnone
    exact hfile fun m hm => hnone m (List.mem_append_left _ hm)
  have hbefore : fs.hindrance ls.dropLast ≠ some .notADirectory := by
    intro hstopped
    rcases List.eq_nil_or_concat' ls with rfl | ⟨early, last, rfl⟩
    · cases hstopped
    · rw [List.dropLast_concat] at hstopped
      rw [hindrance_concat, hstopped] at hwalk
      cases hwalk
  rw [making_of_file hall, making_of_file hfile, List.dropLast_concat, hwalk, if_neg hbefore,
    if_neg (by decide)]

/-- What comes of making directories is known from what stands on the way. -/
theorem makeDirectories_eq {start : Location} {steps : List String} {n : Nat}
    (hstart : fs.entry? start = some .directory) (hn : n ≤ steps.length) :
    (fs.makeDirectories start steps n).2 = fs.making (visited start (steps.take n)) := by
  induction n with
  | zero =>
    refine (making_eq_ok_iff.mpr fun l hl => ?_).symm
    rw [List.take_zero, visited, List.mem_singleton] at hl
    rw [hl, file?_of_directory hstart]
  | succ n ih =>
    have hbefore := ih (Nat.le_of_succ_le hn)
    have hdirectories : (fs.makeDirectories start steps n).2 = .ok () →
        ∀ l ∈ visited start (steps.take n), _ := directory_of_makeDirectories hstart
    have hmade : MadeAt _ fs _ := madeAt_makeDirectories start steps n
    have hvisited : visited start (steps.take (n + 1)) = visited start (steps.take n) ++
        [(steps.take (n + 1)).foldl Location.step start] := by
      rw [List.take_succ_eq_append_getElem hn, Location.visited_concat]
    rw [makeDirectories, ensureDirectory_eq, hvisited, List.dropLast_concat]
    generalize visited start (steps.take n) = ls at *
    generalize hend : (steps.take (n + 1)).foldl Location.step start = l at *
    -- The last directory is made at once if those above it stand; else they are made first, and the
    -- walk is tried again.
    cases hwalk : fs.hindrance ls with
    | none =>
      rw [making_concat_of_directories l hwalk]
      dsimp only
      cases fs.entry? l with
      | none => rfl
      | some e => cases e <;> rfl
    | some fault =>
      dsimp only
      rcases hindrance_eq_some hwalk with rfl | rfl
      · rcases hresult : fs.makeDirectories start steps n with ⟨above, fault | done⟩
        · rw [hresult] at hbefore
          dsimp only at hbefore ⊢
          rw [making_concat_of_file l hwalk, hbefore]
          intro hnone
          rw [making_eq_ok_iff.mpr hnone] at hbefore
          cases hbefore
        · rw [hresult] at hbefore hdirectories hmade
          have hnone := making_eq_ok_iff.mp hbefore.symm
          have habove := hindrance_eq_none_iff.mpr (hdirectories rfl)
          -- Making the directories above has changed no file, so the same is in the way as before.
          have hsame : above.making (ls ++ [l]) = fs.making (ls ++ [l]) := by
            rw [making, making, hmade.file?, List.dropLast_concat, habove, hwalk]
            rfl
          dsimp only
          rw [ensureDirectory_eq, hvisited, List.dropLast_concat, habove, hend, ← hsame,
            making_concat_of_directories l habove]
          dsimp only
          cases above.entry? l with
          | none => rfl
          | some e => cases e <;> rfl
      · have hfile := file_of_hindrance hwalk
        rw [making_of_file, List.dropLast_concat, hwalk, if_pos rfl]
        intro hnone
        exact hfile fun m hm => hnone m (List.mem_append_left _ hm)

/-! ## Writing -/

/-- Ensuring the directory of a file makes directories above the file only. -/
theorem madeAt_ensureParent (path : String) :
    MadeAt (fs.above path) fs (fs.ensureParent path).1 := by
  have hmade : MadeAt _ fs _ := madeAt_makeDirectories (fs.origin path)
    (Path.components path).dropLast (Path.components path).dropLast.length
  rwa [List.take_length] at hmade

/-- Once the directory of a file is ensured, there are directories at all locations above it. -/
theorem directory_of_ensureParent (horigin : fs.entry? (fs.origin path) = some .directory)
    (hmake : (fs.ensureParent path).2 = .ok ()) :
    ∀ l ∈ fs.above path, entry? (fs.ensureParent path).1 l = some .directory := by
  have hall := directory_of_makeDirectories horigin hmake
  rwa [List.take_length] at hall

/-- Ensuring the directory of a file comes to making directories above it. -/
theorem ensureParent_eq (horigin : fs.entry? (fs.origin path) = some .directory) :
    (fs.ensureParent path).2 = fs.making (fs.above path) := by
  have hmake : (fs.ensureParent path).2 = _ := makeDirectories_eq horigin (Nat.le_refl _)
  rwa [List.take_length] at hmake

/-- Where a file is written is known from what stands on the way. -/
theorem locateForWriting_congr (hworking : fs'.working = fs.working)
    (hsame : ∀ l ∈ fs.way path, fs'.entry? l = fs.entry? l) :
    fs'.locateForWriting path = fs.locateForWriting path := by
  have hbefore : ∀ l ∈ (fs.way path).dropLast, fs'.entry? l = fs.entry? l :=
    fun l hl => hsame l (List.dropLast_subset _ hl)
  have hwalk : fs'.walk (fs'.origin path) (Path.steps path) =
      fs.walk (fs.origin path) (Path.steps path) := by
    rw [origin, hworking, ← origin, walk_eq, walk_eq, ← way, hindrance_congr hbefore]
  rw [locateForWriting, locateForWriting, hwalk]
  split
  · rfl
  · split
    · rfl
    · rename_i l hl
      rw [walk_eq_foldl hl, ← place, hsame _ place_mem_way]

/-- A block is written if its directory can be made and its file can be located there. -/
theorem writeBlock_snd (mode : WriteMode) (lines : List String) :
    (fs.writeBlock path mode lines).2 =
      match (fs.ensureParent path).2 with
      | .error fault => .error fault
      | .ok () => ((fs.ensureParent path).1.locateForWriting path).map fun _ => () := by
  rw [writeBlock]
  rcases fs.ensureParent path with ⟨prepared, fault | done⟩
  · rfl
  · dsimp only
    rw [writeText]
    cases prepared.locateForWriting path <;> rfl

/-- Once its directories could be made, what stands on the way of a path is known from its place
alone. -/
theorem entry?_ensureParent (horigin : fs.entry? (fs.origin path) = some .directory)
    (hmake : (fs.ensureParent path).2 = .ok ()) {l : Location} (hl : l ∈ fs.way path) :
    entry? (fs.ensureParent path).1 l =
      if l ∈ fs.above path then some .directory else fs.entry? (fs.place path) := by
  split
  · rename_i habove
    exact directory_of_ensureParent horigin hmake l habove
  · rename_i hbelow
    obtain rfl : l = fs.place path := (mem_above_or_eq_place hl).resolve_left hbelow
    rcases (madeAt_ensureParent path).entry (fs.place path) with hsame | ⟨-, -, habove⟩
    · exact hsame
    · exact absurd habove hbelow

/-- A block that is written is written to the file of its path. -/
theorem wrote_writeBlock {path : String} {mode : WriteMode} {lines : List String}
    (hwrite : fs.writeBlock path mode lines = (fs', .ok ())) :
    Wrote fs path mode (blockText lines) fs' := by
  have honly : OnlyDirectories fs (fs.ensureParent path).1 :=
    (madeAt_ensureParent path).onlyDirectories
  rw [writeBlock] at hwrite
  split at hwrite
  · cases hwrite
  · rename_i prepared hprepared
    rw [hprepared] at honly
    split at hwrite
    · cases hwrite
    · rename_i written hwritten
      obtain rfl := congrArg Prod.fst hwrite
      obtain ⟨hkeeps, hfiles, hlocate⟩ := wrote_writeText hwritten
      rw [honly.place_eq, honly.files] at hfiles
      rw [honly.place_eq] at hlocate
      exact ⟨honly.toKeeps.trans hkeeps, hfiles, hlocate⟩

/-- Of a block that cannot be written nothing is left but directories. -/
theorem onlyDirectories_of_refused {path : String} {mode : WriteMode} {lines : List String}
    {fault : IoFault} (hwrite : (fs.writeBlock path mode lines).2 = .error fault) :
    OnlyDirectories fs (fs.writeBlock path mode lines).1 := by
  have honly : OnlyDirectories fs (fs.ensureParent path).1 :=
    (madeAt_ensureParent path).onlyDirectories
  rw [writeBlock] at hwrite ⊢
  split at hwrite
  · rename_i prepared _ hprepared
    rwa [hprepared] at honly
  · rename_i prepared hprepared
    rw [hprepared] at honly
    split at hwrite
    · exact honly
    · cases hwrite

/-- Nothing is left to be made when all directories are there. -/
theorem ensureParent_of_directories
    (habove : ∀ l ∈ fs.above path, fs.entry? l = some .directory) :
    (fs.ensureParent path).2 = .ok () ∧
      ∀ l, entry? (fs.ensureParent path).1 l = fs.entry? l := by
  have horigin : fs.origin path ∈ fs.above path := Location.start_mem_visited _ _
  refine ⟨?_, fun l => ?_⟩
  · rw [ensureParent_eq (habove _ horigin), making_eq_ok_iff]
    exact fun l hl => file?_of_directory (habove l hl)
  · rcases (madeAt_ensureParent path).entry l with hsame | ⟨hnone, -, hl⟩
    · exact hsame
    · rw [habove l hl] at hnone
      cases hnone

/-- A file that was located for writing is located again once it is there. -/
theorem locateForWriting_put {l : Location} (hlocate : fs.locateForWriting path = .ok l)
    (content : ByteArray) : (fs.put l (.file content)).locateForWriting path = .ok l := by
  obtain ⟨-, hfree, hpath, hslash, hwalk⟩ := locateForWriting_ok hlocate
  have hl : l ≠ [] := by
    rintro rfl
    exact hfree entry?_nil
  have hagain : (fs.put l (.file content)).walk ((fs.put l (.file content)).origin path)
      (Path.steps path) = .ok l := by
    rw [origin, working_put, ← origin]
    exact (keeps_put_file hfree content).walk hwalk
  rw [locateForWriting, if_neg hpath, hagain]
  dsimp only
  rw [entry?_put_self hl]
  dsimp only
  rw [hslash]
  rfl

/-- Nothing is written to a path that starts where no directory stands. -/
theorem writeBlock_of_no_start (horigin : fs.entry? (fs.origin path) ≠ some .directory)
    (mode : WriteMode) (lines : List String) :
    (fs.writeBlock path mode lines).1 = fs ∧
      ∃ fault, (fs.writeBlock path mode lines).2 = .error fault := by
  have hrelative : Path.isAbsolute path = false := by
    by_contra habsolute
    rw [origin, if_pos (Bool.of_not_eq_false habsolute)] at horigin
    exact horigin entry?_nil
  have hlocate : ∃ fault, fs.locateForWriting path = .error fault := by
    rw [locateForWriting]
    split
    · exact ⟨_, rfl⟩
    · rename_i hpath
      obtain ⟨fault, hwalk⟩ := hindrance_of_no_start horigin (Path.steps_ne_nil hpath hrelative)
      rw [walk_eq, hwalk]
      exact ⟨fault, rfl⟩
  have hmade : (fs.ensureParent path).1 = fs :=
    makeDirectories_of_no_start horigin (Nat.le_refl _)
  rw [writeBlock]
  rcases hparent : fs.ensureParent path with ⟨prepared, fault | done⟩ <;> rw [hparent] at hmade
  · exact ⟨hmade, fault, rfl⟩
  · obtain rfl : prepared = fs := hmade
    obtain ⟨fault, hfault⟩ := hlocate
    dsimp only
    rw [writeText, hfault]
    exact ⟨rfl, fault, rfl⟩

/-- The directories of a path are there, and its file can be written. -/
structure Open (fs : FileSystem) (path : String) : Prop where
  above : ∀ l ∈ fs.above path, fs.entry? l = some .directory
  file : ∃ l, fs.locateForWriting path = .ok l

/-- To a file that was written more can be written. -/
theorem open_of_written {mode : WriteMode} {lines : List String}
    (hwritten : (fs.writeBlock path mode lines).2 = .ok ()) :
    Open (fs.writeBlock path mode lines).1 path := by
  have horigin : fs.entry? (fs.origin path) = some .directory := by
    by_contra hnowhere
    obtain ⟨-, fault, hfault⟩ := writeBlock_of_no_start hnowhere mode lines
    rw [hfault] at hwritten
    cases hwritten
  have hmade : MadeAt (fs.above path) fs (fs.ensureParent path).1 := madeAt_ensureParent path
  have hdirectories : (fs.ensureParent path).2 = .ok () → _ := directory_of_ensureParent horigin
  rw [writeBlock] at hwritten ⊢
  rcases hparent : fs.ensureParent path with ⟨prepared, fault | done⟩
  · rw [hparent] at hwritten
    cases hwritten
  rw [hparent] at hwritten hmade hdirectories
  dsimp only at hwritten ⊢
  rw [writeText] at hwritten ⊢
  cases hlocate : prepared.locateForWriting path with
  | error fault =>
    rw [hlocate] at hwritten
    cases hwritten
  | ok l =>
    dsimp only
    have hfree := (locateForWriting_ok hlocate).2.1
    refine ⟨fun m hm => ?_, l, locateForWriting_put hlocate _⟩
    rw [above_congr ((working_put l _).trans hmade.working)] at hm
    exact (keeps_put_file hfree _).directory m (hdirectories rfl m hm)

/-- Every block can be written to an open file, which stays open. -/
theorem Open.written (hopen : Open fs path) (mode : WriteMode) (lines : List String) :
    (fs.writeBlock path mode lines).2 = .ok () ∧ Open (fs.writeBlock path mode lines).1 path := by
  obtain ⟨l, hlocate⟩ := hopen.file
  obtain ⟨hparent, hsame⟩ := ensureParent_of_directories hopen.above
  have hwritten : (fs.writeBlock path mode lines).2 = .ok () := by
    rw [writeBlock_snd, hparent]
    dsimp only
    rw [locateForWriting_congr (madeAt_ensureParent path).working fun l _ => hsame l, hlocate]
    rfl
  exact ⟨hwritten, open_of_written hwritten⟩

/-! ## Reading -/

/-- What is read is known from what stands on the way. -/
theorem readBytes_eq (hpath : path ≠ "") :
    fs.readBytes path =
      match fs.hindrance
          (if Path.endsInSlash path then fs.way path else (fs.way path).dropLast) with
      | some fault => .error fault
      | none =>
        match fs.entry? (fs.place path) with
        | none => .error .notFound
        | some .directory => .error .isADirectory
        | some (.file content) => .ok content := by
  rw [readBytes, locate, if_neg hpath, walk_eq]
  have hplace : (if Path.endsInSlash path then Path.steps path ++ ["."] else
      Path.steps path).foldl Location.step (fs.origin path) = fs.place path := by
    split
    · rw [List.foldl_append]
      exact Location.step_dot _
    · rfl
  have hbefore : (visited (fs.origin path) (if Path.endsInSlash path then
      Path.steps path ++ ["."] else Path.steps path)).dropLast =
        if Path.endsInSlash path then fs.way path else (fs.way path).dropLast := by
    split
    · rw [Location.visited_concat, List.dropLast_concat, way]
    · rfl
  rw [hplace, hbefore]
  cases fs.hindrance (if Path.endsInSlash path then fs.way path else (fs.way path).dropLast) <;>
    rfl

end FileSystem

end FeedAudit

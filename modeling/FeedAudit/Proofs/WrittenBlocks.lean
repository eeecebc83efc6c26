import FeedAudit.Proofs.Ways

/-!
# What written blocks leave in files

Blocks are written to any number of paths, in any order, behind what a file holds or in place of it.
Once all of them are written, a file holds the lines of all blocks that were written to it since it
was last started afresh, behind what it held before if it never was; all other files are as they
were. Main statement: `FileSystem.leaves_writeAll`, which also compares a file with lines that are
kept in memory.
-/

namespace FeedAudit

/-! ## Lines as text -/

theorem blockText_nil : blockText [] = "" := rfl

/-- The text of lines is the first line with its end, and then the text of the others. -/
theorem blockText_cons (line : String) (rest : List String) :
    blockText (line :: rest) = line ++ "\n" ++ blockText rest := by
  rw [blockText, List.map_cons, String.join_cons, ← blockText]

/-- The lines of a block are those with line ends between neighbours, and one more behind them if
there are any. -/
theorem blockText_eq_joined (lines : List String) :
    blockText lines = if lines = [] then "" else Text.joined "\n" lines ++ "\n" := by
  induction lines with
  | nil => rfl
  | cons line rest ih =>
    rw [blockText_cons, ih, if_neg (List.cons_ne_nil line rest)]
    cases rest with
    | nil => simp [Text.joined]
    | cons next others =>
      rw [if_neg (List.cons_ne_nil next others), Text.joined, Text.joined,
        String.intercalate_cons_cons, ← String.append_assoc]

namespace MemorySink

/-- Blocks are appended behind what a sink holds, in order. -/
theorem lines_foldl_append (sink : MemorySink) (blocks : List (List String)) :
    (blocks.foldl append sink).lines = sink.lines ++ blocks.flatten := by
  induction blocks generalizing sink with
  | nil => rw [List.flatten_nil, List.append_nil, List.foldl_nil]
  | cons block rest ih =>
    rw [List.foldl_cons, ih, List.flatten_cons, ← List.append_assoc]
    rfl

end MemorySink

/-- A block that is to be written to a path. -/
structure BlockWrite where
  path : String
  mode : FileSystem.WriteMode
  lines : List String
  deriving DecidableEq, Repr

/-- Blocks that are to be appended to a path, one after the other. -/
def appending (path : String) (blocks : List (List String)) : List BlockWrite :=
  blocks.map fun lines => ⟨path, .append, lines⟩

namespace FileSystem

variable {fs fs' : FileSystem} {calls : List BlockWrite} {l : Location} {path : String}

/-! ## Blocks one after the other -/

/-- Writes blocks one after the other, as long as they can be written. -/
def writeAll (fs : FileSystem) : List BlockWrite → Except IoFault FileSystem
  | [] => .ok fs
  | w :: rest =>
    match fs.writeBlock w.path w.mode w.lines with
    | (written, .ok ()) => written.writeAll rest
    | (_, .error fault) => .error fault

/-- All blocks can be written exactly if the first can and then the others can. -/
theorem writeAll_cons_eq_ok_iff {w : BlockWrite} :
    fs.writeAll (w :: calls) = .ok fs' ↔
      ∃ written, fs.writeBlock w.path w.mode w.lines = (written, .ok ()) ∧
        written.writeAll calls = .ok fs' := by
  rw [writeAll]
  rcases fs.writeBlock w.path w.mode w.lines with ⟨written, fault | done⟩
  · simp
  · simp

/-- All blocks can be written exactly if the early ones can and then the late ones can. -/
theorem writeAll_append_eq_ok_iff {early late : List BlockWrite} :
    fs.writeAll (early ++ late) = .ok fs' ↔
      ∃ between, fs.writeAll early = .ok between ∧ between.writeAll late = .ok fs' := by
  induction early generalizing fs with
  | nil => simp [writeAll]
  | cons w rest ih =>
    rw [List.cons_append, writeAll_cons_eq_ok_iff]
    constructor
    · rintro ⟨written, hwrite, hrest⟩
      obtain ⟨between, hbetween, hlate⟩ := ih.mp hrest
      exact ⟨between, writeAll_cons_eq_ok_iff.mpr ⟨written, hwrite, hbetween⟩, hlate⟩
    · rintro ⟨between, hbetween, hlate⟩
      obtain ⟨written, hwrite, hrest⟩ := writeAll_cons_eq_ok_iff.mp hbetween
      exact ⟨written, hwrite, ih.mpr ⟨between, hrest, hlate⟩⟩

/-- Writing blocks keeps all directories. -/
theorem keeps_writeAll (hwritten : fs.writeAll calls = .ok fs') : Keeps fs fs' := by
  induction calls generalizing fs with
  | nil =>
    obtain rfl := Except.ok.inj hwritten
    exact Keeps.refl fs
  | cons w rest ih =>
    obtain ⟨written, hwrite, hrest⟩ := writeAll_cons_eq_ok_iff.mp hwritten
    exact (wrote_writeBlock hwrite).toKeeps.trans (ih hrest)

/-- In the end the path of every block leads to the location of its file. -/
theorem locate_writeAll (hwritten : fs.writeAll calls = .ok fs') {w : BlockWrite}
    (hw : w ∈ calls) : fs'.locate w.path = .ok (fs.place w.path) := by
  obtain ⟨early, late, rfl⟩ := List.append_of_mem hw
  obtain ⟨between, hearly, hlate⟩ := writeAll_append_eq_ok_iff.mp hwritten
  obtain ⟨written, hwrite, hrest⟩ := writeAll_cons_eq_ok_iff.mp hlate
  rw [← (keeps_writeAll hearly).place_eq]
  exact (keeps_writeAll hrest).locate (wrote_writeBlock hwrite).locate

/-! ## What files hold -/

/-- The lines that blocks bring to a location. -/
def linesTo (fs : FileSystem) (l : Location) (calls : List BlockWrite) : List String :=
  (calls.filter fun w => fs.place w.path = l).flatMap (·.lines)

/-- A block for a location brings its lines there before the others. -/
theorem linesTo_cons_of_place {w : BlockWrite} (hw : fs.place w.path = l) :
    fs.linesTo l (w :: calls) = w.lines ++ fs.linesTo l calls := by
  rw [linesTo, List.filter_cons_of_pos (by simpa using hw), List.flatMap_cons, ← linesTo]

/-- A block for another location brings nothing. -/
theorem linesTo_cons_of_elsewhere {w : BlockWrite} (hw : fs.place w.path ≠ l) :
    fs.linesTo l (w :: calls) = fs.linesTo l calls := by
  rw [linesTo, List.filter_cons_of_neg (by simpa using hw), ← linesTo]

/-- What blocks bring to locations depends on the working directory alone. -/
theorem linesTo_congr (hworking : fs'.working = fs.working) : fs'.linesTo = fs.linesTo := by
  funext l calls
  rw [linesTo, linesTo, place_congr hworking]

/-- A file that no block is written to is as it was. -/
theorem file?_writeAll_of_elsewhere (hwritten : fs.writeAll calls = .ok fs')
    (hcalls : ∀ w ∈ calls, fs.place w.path ≠ l) : fs'.file? l = fs.file? l := by
  induction calls generalizing fs with
  | nil =>
    obtain rfl := Except.ok.inj hwritten
    rfl
  | cons w rest ih =>
    obtain ⟨written, hwrite, hrest⟩ := writeAll_cons_eq_ok_iff.mp hwritten
    have hwrote := wrote_writeBlock hwrite
    rw [List.forall_mem_cons] at hcalls
    rw [ih hrest (by rw [hwrote.place_eq]; exact hcalls.2), hwrote.files,
      if_neg (Ne.symm hcalls.1)]

/-- A file that is not started afresh holds what it held, and behind it what is written to it. -/
theorem getD_file?_writeAll (hwritten : fs.writeAll calls = .ok fs')
    (hcalls : ∀ w ∈ calls, w.mode = .create → fs.place w.path ≠ l) :
    (fs'.file? l).getD ByteArray.empty =
      (fs.file? l).getD ByteArray.empty ++ (blockText (fs.linesTo l calls)).toUTF8 := by
  induction calls generalizing fs with
  | nil =>
    obtain rfl := Except.ok.inj hwritten
    exact ByteArray.append_empty.symm
  | cons w rest ih =>
    obtain ⟨written, hwrite, hrest⟩ := writeAll_cons_eq_ok_iff.mp hwritten
    have hwrote := wrote_writeBlock hwrite
    rw [List.forall_mem_cons] at hcalls
    rw [ih hrest (by rw [hwrote.place_eq]; exact hcalls.2), linesTo_congr hwrote.working,
      hwrote.files]
    by_cases hw : fs.place w.path = l
    · have hmode : w.mode = .append := by
        cases hmode : w.mode with
        | append => rfl
        | create => exact absurd hw (hcalls.1 hmode)
      rw [if_pos hw.symm, hmode, linesTo_cons_of_place hw, blockText_append]
      simp [contentAfter, ByteArray.append_assoc]
    · rw [if_neg (Ne.symm hw), linesTo_cons_of_elsewhere hw]

/-- There is a file wherever a block was written. -/
theorem isSome_file?_writeAll (hwritten : fs.writeAll calls = .ok fs') {w : BlockWrite}
    (hw : w ∈ calls) : (fs'.file? (fs.place w.path)).isSome := by
  have hkept : ∀ {early late : FileSystem} {calls : List BlockWrite},
      early.writeAll calls = .ok late → (early.file? (fs.place w.path)).isSome →
        (late.file? (fs.place w.path)).isSome := by
    intro early late calls hcalls hsome
    induction calls generalizing early with
    | nil =>
      obtain rfl := Except.ok.inj hcalls
      exact hsome
    | cons v rest ih =>
      obtain ⟨written, hwrite, hrest⟩ := writeAll_cons_eq_ok_iff.mp hcalls
      refine ih hrest ?_
      rw [(wrote_writeBlock hwrite).files]
      split
      · rfl
      · exact hsome
  obtain ⟨early, late, rfl⟩ := List.append_of_mem hw
  obtain ⟨between, hearly, hlate⟩ := writeAll_append_eq_ok_iff.mp hwritten
  obtain ⟨written, hwrite, hrest⟩ := writeAll_cons_eq_ok_iff.mp hlate
  refine hkept hrest ?_
  rw [(wrote_writeBlock hwrite).files, (keeps_writeAll hearly).place_eq, if_pos rfl]
  rfl

/-- What blocks leave in files. -/
structure Leaves (fs : FileSystem) (calls : List BlockWrite) (fs' : FileSystem) : Prop where
  /-- Every path leads to the location of its file. -/
  located : ∀ w ∈ calls, fs'.locate w.path = .ok (fs.place w.path)
  /-- A file that no block is written to is as it was. -/
  elsewhere : ∀ l, (∀ w ∈ calls, fs.place w.path ≠ l) → fs'.file? l = fs.file? l
  /-- A file that is never started afresh holds what it held, and behind it all lines that are
  written to it. -/
  appended : ∀ l, (∃ w ∈ calls, fs.place w.path = l) →
    (∀ w ∈ calls, w.mode = .create → fs.place w.path ≠ l) →
    fs'.file? l = some ((fs.file? l).getD ByteArray.empty ++
      (blockText (fs.linesTo l calls)).toUTF8)
  /-- A file that was started afresh holds the lines of the block that last did so, and all lines
  that are written to it from then on. -/
  created : ∀ early w late, calls = early ++ w :: late → w.mode = .create →
    (∀ v ∈ late, v.mode = .create → fs.place v.path ≠ fs.place w.path) →
    fs'.file? (fs.place w.path) =
      some (blockText (w.lines ++ fs.linesTo (fs.place w.path) late)).toUTF8

/-- Blocks that could all be written leave in files what they should. -/
theorem leaves_of_writeAll (hwritten : fs.writeAll calls = .ok fs') : Leaves fs calls fs' := by
  have hsome : ∀ {content : Option ByteArray}, content.isSome →
      content = some (content.getD ByteArray.empty) := by
    intro content hcontent
    obtain ⟨bytes, rfl⟩ := Option.isSome_iff_exists.mp hcontent
    rfl
  refine ⟨fun w => locate_writeAll hwritten, fun l => file?_writeAll_of_elsewhere hwritten, ?_, ?_⟩
  · rintro l ⟨w, hw, rfl⟩ hcalls
    rw [hsome (isSome_file?_writeAll hwritten hw), getD_file?_writeAll hwritten hcalls]
  · rintro early w late rfl hmode hlate
    rw [hsome (isSome_file?_writeAll hwritten (List.mem_append_right _ List.mem_cons_self))]
    obtain ⟨between, hearly, hbehind⟩ := writeAll_append_eq_ok_iff.mp hwritten
    obtain ⟨written, hwrite, hrest⟩ := writeAll_cons_eq_ok_iff.mp hbehind
    have hwrote := wrote_writeBlock hwrite
    have hworking : written.working = fs.working :=
      hwrote.working.trans (keeps_writeAll hearly).working
    rw [getD_file?_writeAll hrest (by rw [place_congr hworking]; exact hlate),
      linesTo_congr hworking, hwrote.files, (keeps_writeAll hearly).place_eq, if_pos rfl, hmode,
      blockText_append]
    simp [contentAfter]

/-! ## Blocks for one file -/

/-- What is listed once an entry was put in place of the one at its location. -/
def relisted (l : Location) (e : Entry) (listed : Location × Entry) : Location × Entry :=
  if listed.1 = l then (listed.1, e) else listed

/-- An entry takes the place of the one at its location, and stands behind all others if there is
none. -/
theorem put_eq (fs : FileSystem) (l : Location) (e : Entry) :
    fs.put l e = if fs.entries.any (·.1 == l) then
      { fs with entries := fs.entries.map (relisted l e) }
    else { fs with entries := fs.entries ++ [(l, e)] } := rfl

/-- An entry is listed at the location where it was. -/
theorem fst_relisted (e : Entry) (listed : Location × Entry) :
    (relisted l e listed).1 = listed.1 := by
  rw [relisted]
  split <;> rfl

/-- Entries at other locations are listed as before. -/
theorem relisted_of_ne (e : Entry) {listed : Location × Entry} (hne : listed.1 ≠ l) :
    relisted l e listed = listed := if_neg hne

/-- Of two entries put at a location the later one is listed. -/
theorem relisted_relisted (e e' : Entry) (listed : Location × Entry) :
    relisted l e' (relisted l e listed) = relisted l e' listed := by
  by_cases hl : listed.1 = l
  · simp [relisted, hl]
  · rw [relisted_of_ne e hl]

/-- Of two entries that are put at a location the second is left. -/
theorem put_put (fs : FileSystem) (l : Location) (e e' : Entry) :
    (fs.put l e).put l e' = fs.put l e' := by
  rw [put_eq fs l e, put_eq fs l e']
  by_cases hany : fs.entries.any (·.1 == l)
  · have hagain : (fs.entries.map (relisted l e)).any (·.1 == l) := by
      simp only [List.any_map, Function.comp_def, fst_relisted]
      exact hany
    rw [if_pos hany, if_pos hany, put_eq, if_pos hagain, List.map_map]
    simp only [Function.comp_def, relisted_relisted]
  · have hagain : (fs.entries ++ [(l, e)]).any (·.1 == l) := by simp
    have hother : fs.entries.map (relisted l e') = fs.entries := by
      conv_rhs => rw [← List.map_id fs.entries]
      refine List.map_congr_left fun listed hlisted => relisted_of_ne e' fun heq => ?_
      exact hany (List.any_eq_true.mpr ⟨listed, hlisted, beq_iff_eq.mpr heq⟩)
    rw [if_neg hany, if_neg hany, put_eq, if_pos hagain, List.map_append, hother]
    simp [relisted]

/-- Where all directories are there, none is made. -/
theorem makeDirectories_of_directories {start : Location} {steps : List String} {n : Nat}
    (hall : ∀ l ∈ Location.visited start (steps.take n), fs.entry? l = some .directory) :
    fs.makeDirectories start steps n = (fs, .ok ()) := by
  cases n with
  | zero => rfl
  | succ n =>
    rw [Location.visited_eq, List.forall_mem_append, List.forall_mem_singleton] at hall
    rw [makeDirectories, ensureDirectory_eq, hindrance_eq_none_iff.mpr hall.1]
    dsimp only
    rw [hall.2]

/-- What is written when the directories are there and the file can be located. -/
theorem writeBlock_of_open (hopen : ∀ l ∈ fs.above path, fs.entry? l = some .directory)
    (hlocate : fs.locateForWriting path = .ok l) (mode : WriteMode) (lines : List String) :
    fs.writeBlock path mode lines =
      (fs.put l (.file (fs.heldBefore mode l ++ (blockText lines).toUTF8)), .ok ()) := by
  have hparent : fs.ensureParent path = (fs, .ok ()) := by
    refine makeDirectories_of_directories ?_
    rw [List.take_length]
    exact hopen
  rw [writeBlock, hparent]
  dsimp only
  rw [writeText, hlocate]

/-- A block that is written is put at the location of its path, once its directories are there. -/
theorem writeBlock_eq_ok {mode : WriteMode} {lines : List String}
    (hwrite : fs.writeBlock path mode lines = (fs', .ok ())) :
    ∃ prepared l, fs.ensureParent path = (prepared, .ok ()) ∧
      prepared.locateForWriting path = .ok l ∧
      fs' = prepared.put l (.file (prepared.heldBefore mode l ++ (blockText lines).toUTF8)) := by
  rw [writeBlock] at hwrite
  rcases hparent : fs.ensureParent path with ⟨prepared, fault | done⟩
  · rw [hparent] at hwrite
    cases hwrite
  · rw [hparent] at hwrite
    dsimp only at hwrite
    rw [writeText] at hwrite
    cases hlocate : prepared.locateForWriting path with
    | error fault =>
      rw [hlocate] at hwrite
      cases hwrite
    | ok l =>
      rw [hlocate] at hwrite
      exact ⟨prepared, l, rfl, hlocate, (congrArg Prod.fst hwrite).symm⟩

/-- A block that is appended to one that was just written is written together with it. -/
theorem writeBlock_append {mode : WriteMode} {lines : List String}
    (hwrite : fs.writeBlock path mode lines = (fs', .ok ())) (others : List String) :
    fs'.writeBlock path .append others = fs.writeBlock path mode (lines ++ others) := by
  have hopen : Open (fs.writeBlock path mode lines).1 path :=
    open_of_written (congrArg Prod.snd hwrite)
  rw [hwrite] at hopen
  obtain ⟨prepared, l, hparent, hlocate, rfl⟩ := writeBlock_eq_ok hwrite
  have hl : l ≠ [] := by
    rintro rfl
    exact (locateForWriting_ok hlocate).2.1 entry?_nil
  have hheld : ∀ content, (prepared.put l (.file content)).heldBefore .append l = content := by
    intro content
    have hentry : entry? (prepared.put l (.file content)) l = some (.file content) :=
      entry?_put_self hl _
    unfold heldBefore
    rw [hentry]
  rw [writeBlock_of_open hopen.above (locateForWriting_put hlocate _), hheld, put_put, writeBlock,
    hparent]
  dsimp only
  rw [writeText, hlocate]
  dsimp only
  rw [blockText_append, String.toUTF8, String.toUTF8, String.toUTF8, String.toByteArray_append,
    ByteArray.append_assoc]

/-- Whether a block can be written, and why not, does not depend on its lines. -/
theorem writeBlock_snd_congr (fs : FileSystem) (path : String) (mode : WriteMode)
    (lines others : List String) :
    (fs.writeBlock path mode lines).2 = (fs.writeBlock path mode others).2 := by
  rw [writeBlock_snd, writeBlock_snd]

/-- To write a block and to append another one to it is to write both at once. -/
theorem writeAll_pair (fs : FileSystem) (path : String) (mode : WriteMode)
    (lines others : List String) :
    fs.writeAll [⟨path, mode, lines⟩, ⟨path, .append, others⟩] =
      fs.writeAll [⟨path, mode, lines ++ others⟩] := by
  have hsame := writeBlock_snd_congr fs path mode lines (lines ++ others)
  rcases hwrite : fs.writeBlock path mode lines with ⟨between, fault | done⟩
  · rw [hwrite] at hsame
    simp only [writeAll, hwrite]
    rcases hboth : fs.writeBlock path mode (lines ++ others) with ⟨both, fault' | done⟩
    · rw [hboth] at hsame
      obtain rfl := Except.error.inj hsame
      rfl
    · rw [hboth] at hsame
      cases hsame
  · simp only [writeAll, hwrite, writeBlock_append hwrite]

/-! ## Files and lines in memory -/

/-- An empty block leaves every file as it was, but that a missing one is made. -/
theorem file?_writeAll_nil (hwritten : fs.writeAll [⟨path, .append, []⟩] = .ok fs') :
    fs'.file? l = if l = fs.place path then some ((fs.file? l).getD ByteArray.empty)
      else fs.file? l := by
  obtain ⟨written, hwrite, hrest⟩ := writeAll_cons_eq_ok_iff.mp hwritten
  obtain rfl := Except.ok.inj hrest
  rw [(wrote_writeBlock hwrite).files]
  simp [contentAfter, blockText_nil]

/-- Blocks that are appended to a path bring their lines to its place, in order. -/
theorem linesTo_appending (fs : FileSystem) (path : String) (blocks : List (List String)) :
    fs.linesTo (fs.place path) (appending path blocks) = blocks.flatten := by
  induction blocks with
  | nil => rfl
  | cons block rest ih =>
    have hfirst : appending path (block :: rest) =
        ⟨path, .append, block⟩ :: appending path rest := rfl
    have hplace : fs.place (BlockWrite.mk path .append block).path = fs.place path := rfl
    rw [hfirst, linesTo_cons_of_place hplace, ih, List.flatten_cons]

/-- Blocks that are appended to a file with nothing in it leave there what is left of them in
memory, and a line end behind it if there are any lines. -/
theorem getD_file?_writeAll_memory {blocks : List (List String)}
    (hwritten : fs.writeAll (appending path blocks) = .ok fs')
    (hbefore : (fs.file? (fs.place path)).getD ByteArray.empty = ByteArray.empty) :
    (fs'.file? (fs.place path)).getD ByteArray.empty =
      (if blocks.flatten = [] then ""
        else (blocks.foldl MemorySink.append {}).contents ++ "\n").toUTF8 := by
  have hmode : ∀ w ∈ appending path blocks, w.mode = .create → fs.place w.path ≠ fs.place path := by
    simp [appending]
  rw [getD_file?_writeAll hwritten hmode, hbefore, linesTo_appending, ByteArray.empty_append,
    blockText_eq_joined, MemorySink.contents, MemorySink.lines_foldl_append]
  rfl

/-- What is left of blocks once all of them are written: in every file the lines of the blocks that
were written to it since it was last started afresh, behind what it held if it never was, and all
other files as they were. So to append two blocks is to append them at once, an empty block does no
more than make its file, and a file that started with nothing in it holds what is left of the same
blocks in memory, with a line end behind it. -/
theorem leaves_writeAll (hwritten : fs.writeAll calls = .ok fs') :
    Leaves fs calls fs' ∧
    (∀ path mode lines others, fs'.writeAll [⟨path, mode, lines⟩, ⟨path, .append, others⟩] =
      fs'.writeAll [⟨path, mode, lines ++ others⟩]) ∧
    (∀ path after, fs'.writeAll [⟨path, .append, []⟩] = .ok after → ∀ l, after.file? l =
      if l = fs'.place path then some ((fs'.file? l).getD ByteArray.empty) else fs'.file? l) ∧
    ∀ path blocks, calls = appending path blocks →
      (fs.file? (fs.place path)).getD ByteArray.empty = ByteArray.empty →
      (fs'.file? (fs.place path)).getD ByteArray.empty =
        (if blocks.flatten = [] then ""
          else (blocks.foldl MemorySink.append {}).contents ++ "\n").toUTF8 := by
  refine ⟨leaves_of_writeAll hwritten, writeAll_pair fs', fun path after hempty l => ?_, ?_⟩
  · exact file?_writeAll_nil hempty
  · rintro path blocks rfl hbefore
    exact getD_file?_writeAll_memory hwritten hbefore

/-- A directory with a log in it. -/
def homeWithLog : FileSystem :=
  (empty ["home"]).put ["home", "run.log"] (.file "old\n".toUTF8)

/-- Blocks for the log and for a report that is started afresh twice. -/
def mixedWrites : List BlockWrite :=
  [⟨"run.log", .append, ["first"]⟩, ⟨"reports/film", .create, ["a"]⟩,
    ⟨"./run.log", .append, ["second", ""]⟩, ⟨"reports/film", .create, ["b"]⟩,
    ⟨"reports//film", .append, ["c\nd"]⟩, ⟨"run.log", .append, []⟩]

/-- The log is continued, and of the report the second one is left. -/
theorem leaves_writeAll_mixed :
    ∃ fs', homeWithLog.writeAll mixedWrites = .ok fs' ∧
      fs'.file? ["home", "run.log"] = some "old\nfirst\nsecond\n\n".toUTF8 ∧
      fs'.file? ["home", "reports", "film"] = some "b\nc\nd\n".toUTF8 := by
  cases hwritten : homeWithLog.writeAll mixedWrites with
  | error fault =>
    have hok : (homeWithLog.writeAll mixedWrites).isOk = true := by decide +kernel
    rw [hwritten] at hok
    cases hok
  | ok fs' =>
    obtain ⟨hleaves, -⟩ := leaves_writeAll hwritten
    refine ⟨fs', rfl, ?_, ?_⟩
    · have hheld : homeWithLog.file? ["home", "run.log"] = some "old\n".toUTF8 := by
        rw [homeWithLog, file?_put_file (List.cons_ne_nil _ _), if_pos rfl]
      have hlines : blockText (homeWithLog.linesTo ["home", "run.log"] mixedWrites) =
          "first\nsecond\n\n" := by decide +kernel
      have hlog := hleaves.appended ["home", "run.log"] (by decide +kernel) (by decide +kernel)
      rw [hlog, hheld, hlines]
      decide +kernel
    · have hplace : homeWithLog.place "reports/film" = ["home", "reports", "film"] := by
        decide +kernel
      have hreport := hleaves.created (mixedWrites.take 3) ⟨"reports/film", .create, ["b"]⟩
        (mixedWrites.drop 4) rfl rfl (by decide +kernel)
      rw [hplace] at hreport
      rw [hreport]
      decide +kernel

end FileSystem

end FeedAudit

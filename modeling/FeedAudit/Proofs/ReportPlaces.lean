import FeedAudit.Proofs.Validity
import FeedAudit.Proofs.Ways
import Mathlib.Data.Fintype.EquivFin

/-!
# Where reports are written

The file of a report is named by the minute and by the name of the channel, put in front of each
other as they are. A name without slashes gives a file right in the report directory, and different
names give different files. In a name with slashes the steps between them count: the report stays in
the directory whatever stands there exactly if no step leads above it (`Confined`), and two reports
are one file if their steps come to the same. Main statement: `reports_apart`.

Nothing keeps names with slashes from being accepted, so that reports may be written elsewhere, and
two of them to one file (`accepted_reports_astray`).
-/

namespace FeedAudit

open Text

/-! ## Steps of paths -/

namespace Path

/-- The steps of two paths with a slash between them are those of one and then of the other. -/
theorem steps_append_slash (front rest : String) :
    steps (front ++ "/" ++ rest) = steps front ++ steps rest := by
  have hslash : "/" = String.singleton '/' := rfl
  rw [steps, hslash, pieces_append, List.filter_append, ← steps, ← steps]

/-- A name without a slash is a single step. -/
theorem steps_of_no_slash {name : String} (hname : name ≠ "") (hslash : '/' ∉ name.toList) :
    steps name = [name] := by
  rw [steps, pieces_of_not_mem hslash, List.filter_cons_of_pos (by simpa using hname),
    List.filter_nil]

/-- A path in a directory goes on where that of the directory ends. -/
theorem steps_join (dir : String) {name : String} (hname : isAbsolute name = false) :
    steps (join dir name) = steps dir ++ steps name := by
  by_cases hdir : dir = ""
  · have hnone : steps "" = [] := by decide
    rw [join, hdir, beq_self_eq_true, Bool.or_true, if_pos rfl, hnone, List.nil_append]
  · rw [join, hname, Bool.false_or, beq_eq_false_iff_ne.mpr hdir, if_neg Bool.false_ne_true]
    split
    · rename_i hends
      obtain ⟨front, hfront⟩ := List.getLast?_eq_some_iff.mp (eq_of_beq hends)
      have hsplit : dir = String.ofList front ++ "/" ++ "" := by
        rw [← String.toList_inj, hfront]
        simp
      have hjoined : dir ++ name = String.ofList front ++ "/" ++ name := by
        rw [hsplit, String.append_empty]
      have hnone : steps "" = [] := by decide
      rw [hjoined, steps_append_slash, hsplit, steps_append_slash, hnone, List.append_nil]
    · exact steps_append_slash dir name

/-- What is put behind a text without adding slashes is put behind its last step. -/
theorem exists_steps_eq_concat (front : String) {tail : String} (htail : tail ≠ "")
    (hslash : '/' ∉ tail.toList) : ∃ early p, steps (front ++ tail) = early ++ [p ++ tail] := by
  have hlast : ∀ cs : List Char, ∃ early p,
      pieceChars '/' (cs ++ tail.toList) = early ++ [p ++ tail.toList] := by
    intro cs
    induction cs with
    | nil => exact ⟨[], [], pieceChars_of_not_mem hslash⟩
    | cons c rest ih =>
      obtain ⟨early, p, hpieces⟩ := ih
      rw [List.cons_append, pieceChars, hpieces]
      split
      · exact ⟨[] :: early, p, rfl⟩
      · cases early with
        | nil => exact ⟨[], c :: p, rfl⟩
        | cons first others => exact ⟨(c :: first) :: others, p, rfl⟩
  obtain ⟨early, p, hpieces⟩ := hlast front.toList
  have hkept : String.ofList p ++ tail ≠ "" := by simp [htail]
  refine ⟨(early.map String.ofList).filter (· != ""), String.ofList p, ?_⟩
  rw [steps, pieces, String.toList_append, hpieces, List.map_append, List.filter_append,
    List.map_singleton, String.ofList_append, String.ofList_toList,
    List.filter_cons_of_pos (by simpa using hkept), List.filter_nil]

end Path

namespace FileSystem

/-- The place of a relative path is found from its directory, step by step. -/
theorem place_join (fs : FileSystem) (dir : String) {name : String}
    (hname : Path.isAbsolute name = false) :
    fs.place (Path.join dir name) = (Path.steps name).foldl Location.step (fs.place dir) := by
  rw [place, place, origin, origin, Path.isAbsolute_join dir hname, Path.steps_join dir hname,
    List.foldl_append]

/-- The file of a path lies in a directory, however deep. -/
def Inside (fs : FileSystem) (dir path : String) : Prop :=
  ∃ below, below ≠ [] ∧ fs.place path = fs.place dir ++ below

/-- Whether or not a block can be written, no other file is changed. -/
theorem file?_writeBlock_of_ne {fs : FileSystem} {path : String} {l : Location}
    (hl : l ≠ fs.place path) (mode : WriteMode) (lines : List String) :
    (fs.writeBlock path mode lines).1.file? l = fs.file? l := by
  rcases hwrite : fs.writeBlock path mode lines with ⟨fs', fault | done⟩
  · have honly := onlyDirectories_of_refused (congrArg Prod.snd hwrite)
    rw [hwrite] at honly
    exact congrFun honly.files l
  · rw [(wrote_writeBlock hwrite).files, if_neg hl]

end FileSystem

/-! ## Steps that stay within a directory -/

namespace Location

/-- The names that lead from a directory to where steps end that start at `below` within it, if no
step leads above the directory. -/
def within (below : Location) : List String → Option Location
  | [] => some below
  | name :: rest =>
    if name = ".." ∧ below = [] then none else within (step below name) rest

/-- A descent in two parts goes on from where the first one ends. -/
theorem within_append (below : Location) (early late : List String) :
    within below (early ++ late) = (within below early).bind fun l => within l late := by
  induction early generalizing below with
  | nil => rfl
  | cons name rest ih =>
    rw [List.cons_append, within, within]
    split
    · rfl
    · exact ih _

/-- A step that does not lead above a directory changes only what stands behind it. -/
theorem step_append {below : Location} {name : String} (hup : ¬(name = ".." ∧ below = []))
    (start : Location) : step (start ++ below) name = start ++ step below name := by
  by_cases hdots : name = ".."
  · have hbelow : below ≠ [] := fun hnil => hup ⟨hdots, hnil⟩
    rw [hdots]
    exact List.dropLast_append_of_ne_nil hbelow
  · unfold step
    rw [if_neg hdots, if_neg hdots]
    split
    · rfl
    · exact List.append_assoc _ _ _

/-- Steps that stay within a directory lead to the same names in every directory. -/
theorem foldl_step_of_within {below l : Location} {steps : List String}
    (hwithin : within below steps = some l) (start : Location) :
    steps.foldl step (start ++ below) = start ++ l := by
  induction steps generalizing below with
  | nil =>
    obtain rfl := Option.some.inj hwithin
    rfl
  | cons name rest ih =>
    rw [within] at hwithin
    split at hwithin
    · cases hwithin
    · rename_i hup
      rw [List.foldl_cons, step_append hup, ih hwithin]

/-- Names that are no steps are not found on the way. -/
theorem not_mem_foldl_step {w : String} {start : Location} {steps : List String}
    (hstart : w ∉ start) (hsteps : w ∉ steps) : w ∉ steps.foldl step start := by
  induction steps generalizing start with
  | nil => exact hstart
  | cons name rest ih =>
    rw [List.mem_cons, not_or] at hsteps
    refine ih ?_ hsteps.2
    unfold step
    split
    · exact hstart
    · split
      · exact fun hmem => hstart (List.dropLast_subset _ hmem)
      · simpa using ⟨hstart, hsteps.1⟩

/-- Steps that lead above a directory lead out of it, if its name does not come back. -/
theorem not_mem_of_not_within {below : Location} {steps : List String} {w : String}
    (hwithin : within below steps = none) (hbelow : w ∉ below) (hsteps : w ∉ steps) :
    w ∉ steps.foldl step (w :: below) := by
  induction steps generalizing below with
  | nil => cases hwithin
  | cons name rest ih =>
    rw [within] at hwithin
    rw [List.foldl_cons]
    split at hwithin
    · rename_i hup
      obtain ⟨rfl, rfl⟩ := hup
      exact not_mem_foldl_step List.not_mem_nil fun hmem => hsteps (List.mem_cons_of_mem _ hmem)
    · rename_i hup
      have hstep : step (w :: below) name = w :: step below name := step_append hup [w]
      rw [hstep]
      have hname : w ∉ [name] := fun hmem =>
        hsteps (List.mem_cons.mpr (Or.inl (List.mem_singleton.mp hmem)))
      have hnext : w ∉ [name].foldl step below := not_mem_foldl_step hbelow hname
      exact ih hwithin hnext fun hmem => hsteps (List.mem_cons_of_mem _ hmem)

end Location

/-! ## Names of reports -/

/-- The name of the file of a report. -/
def reportName (channel : String) (started : Moment) : String :=
  started.stamp ++ "_" ++ channel ++ "_channel.txt"

/-- The report of a channel is named in its directory. -/
theorem reportPath_eq (dir channel : String) (started : Moment) :
    reportPath dir channel started = Path.join dir (reportName channel started) := rfl

/-- The name of a report is relative. -/
theorem isAbsolute_reportName (channel : String) (started : Moment) :
    Path.isAbsolute (reportName channel started) = false := by
  have hname : Path.join "" (reportName channel started) = reportName channel started := by
    rw [Path.join, beq_self_eq_true, Bool.or_true, if_pos rfl]
  have hnone : Path.isAbsolute "" = false := by decide
  rw [← hname, ← reportPath_eq, isAbsolute_reportPath, hnone]

/-- The steps of a report's file within the report directory. -/
def reportSteps (channel : String) (started : Moment) : List String :=
  Path.steps (reportName channel started)

/-- The place of a report is found from the report directory, step by step. -/
theorem place_reportPath (fs : FileSystem) (dir channel : String) (started : Moment) :
    fs.place (reportPath dir channel started) =
      (reportSteps channel started).foldl Location.step (fs.place dir) :=
  fs.place_join dir (isAbsolute_reportName channel started)

/-- The steps of a report's file do not lead above the report directory. -/
def Confined (channel : String) (started : Moment) : Prop :=
  (Location.within [] (reportSteps channel started)).isSome

instance (channel : String) (started : Moment) : Decidable (Confined channel started) :=
  inferInstanceAs (Decidable (_ = true))

/-- The last step leads to the file itself. -/
theorem ne_nil_of_within {channel : String} {started : Moment} {below : Location}
    (hwithin : Location.within [] (reportSteps channel started) = some below) : below ≠ [] := by
  have htail : "_channel.txt" ≠ "" := by decide
  have hslash : '/' ∉ "_channel.txt".toList := by decide
  obtain ⟨early, p, hsteps⟩ :=
    Path.exists_steps_eq_concat (started.stamp ++ "_" ++ channel) htail hslash
  have hlast : '_' ∈ (p ++ "_channel.txt").toList := by
    rw [String.toList_append]
    exact List.mem_append_right _ (by decide)
  have hdot : p ++ "_channel.txt" ≠ "." := fun heq => by
    rw [heq] at hlast
    revert hlast
    decide
  have hdots : p ++ "_channel.txt" ≠ ".." := fun heq => by
    rw [heq] at hlast
    revert hlast
    decide
  rw [reportSteps, reportName, hsteps, Location.within_append, Option.bind_eq_some_iff] at hwithin
  obtain ⟨l, -, hl⟩ := hwithin
  rw [Location.within, if_neg fun hup => hdots hup.1, Location.within, Location.step, if_neg hdot,
    if_neg hdots] at hl
  rw [← Option.some.inj hl]
  exact List.append_ne_nil_of_right_ne_nil _ (List.cons_ne_nil _ _)

/-- A report whose steps never lead above the directory lies below it. -/
theorem place_reportPath_of_within {channel : String} {started : Moment} {below : Location}
    (hwithin : Location.within [] (reportSteps channel started) = some below) (fs : FileSystem)
    (dir : String) : fs.place (reportPath dir channel started) = fs.place dir ++ below := by
  have hfold := Location.foldl_step_of_within hwithin (fs.place dir)
  rw [List.append_nil] at hfold
  rw [place_reportPath, hfold]

/-- A report lies in the report directory, whichever that is, exactly if it is confined. -/
theorem confined_iff_inside {channel : String} {started : Moment} :
    Confined channel started ↔
      ∀ (fs : FileSystem) (dir : String), fs.Inside dir (reportPath dir channel started) := by
  constructor
  · intro hconfined fs dir
    obtain ⟨below, hwithin⟩ := Option.isSome_iff_exists.mp hconfined
    exact ⟨below, ne_nil_of_within hwithin, place_reportPath_of_within hwithin fs dir⟩
  · intro hinside
    by_contra hout
    have hwithin : Location.within [] (reportSteps channel started) = none := by
      simpa [Confined] using hout
    -- In a directory whose name is no step, the way out does not lead back in.
    obtain ⟨w, hw⟩ := Infinite.exists_notMem_finset (reportSteps channel started).toFinset
    rw [List.mem_toFinset] at hw
    have hdir : (FileSystem.mk [] [w]).place "." = [w] := rfl
    obtain ⟨below, -, hplace⟩ := hinside ⟨[], [w]⟩ "."
    rw [place_reportPath, hdir] at hplace
    have hgone := Location.not_mem_of_not_within hwithin List.not_mem_nil hw
    rw [hplace] at hgone
    exact hgone List.mem_cons_self

/-- Two confined reports are one file exactly if their steps come to the same. -/
theorem place_eq_iff_of_confined {channel channel' : String} {started started' : Moment}
    (hconfined : Confined channel started) (hconfined' : Confined channel' started')
    (fs : FileSystem) (dir : String) :
    fs.place (reportPath dir channel started) = fs.place (reportPath dir channel' started') ↔
      Location.within [] (reportSteps channel started) =
        Location.within [] (reportSteps channel' started') := by
  obtain ⟨below, hwithin⟩ := Option.isSome_iff_exists.mp hconfined
  obtain ⟨below', hwithin'⟩ := Option.isSome_iff_exists.mp hconfined'
  rw [place_reportPath_of_within hwithin, place_reportPath_of_within hwithin', hwithin, hwithin',
    List.append_cancel_left_eq, Option.some_inj]

/-! ## Names without slashes -/

/-- What stands behind a first part without the separator is known from the whole. -/
theorem append_separator_inj {sep : Char} {front front' rest rest' : String}
    (hfront : sep ∉ front.toList) (hfront' : sep ∉ front'.toList)
    (heq : front ++ (String.singleton sep ++ rest) = front' ++ (String.singleton sep ++ rest')) :
    rest = rest' := by
  have hsplit := splitFirst_append hfront rest
  rw [String.append_assoc, heq, ← String.append_assoc, splitFirst_append hfront'] at hsplit
  exact (Prod.mk.inj (Option.some.inj hsplit)).2.symm

/-- Whatever the minutes, the name of a report tells the channel. -/
theorem reportName_inj {channel channel' : String} {started started' : Moment}
    (heq : reportName channel started = reportName channel' started') : channel = channel' := by
  have hyear : ∀ m : Moment, '_' ∉ (yearText m.date.year).toList := fun m =>
    not_mem_yearText rfl (by decide) (by decide) _
  have hnumber : ∀ n, '_' ∉ (padded 2 n).toList := not_mem_padded rfl 2
  have hline : "_" = String.singleton '_' := rfl
  have hfront := (String.append_left_inj _).mp heq
  simp only [Moment.stamp, Moment.toMinute, String.append_assoc, hline] at hfront
  have hmonth := append_separator_inj (hyear started) (hyear started') hfront
  have hday := append_separator_inj (hnumber _) (hnumber _) hmonth
  have hhour := append_separator_inj (hnumber _) (hnumber _) hday
  have hminute := append_separator_inj (hnumber _) (hnumber _) hhour
  exact append_separator_inj (hnumber _) (hnumber _) hminute

/-- The report of a channel without slashes in its name stands right in the report directory. -/
theorem within_of_no_slash {channel : String} (hslash : '/' ∉ channel.toList)
    (started : Moment) :
    Location.within [] (reportSteps channel started) = some [reportName channel started] := by
  have hname : '/' ∉ (reportName channel started).toList := by
    simp [reportName, Moment.no_slash_stamp, hslash]
  have hline : '_' ∈ (reportName channel started).toList := by
    simp [reportName]
  have hne : ∀ other : String, '_' ∉ other.toList → reportName channel started ≠ other := by
    rintro other hother rfl
    exact hother hline
  have hdots := hne ".." (by decide)
  rw [reportSteps, Path.steps_of_no_slash (hne "" (by decide)) hname, Location.within,
    if_neg fun hup => hdots hup.1, Location.within, Location.step, if_neg (hne "." (by decide)),
    if_neg hdots, List.nil_append]

/-! ## Reports apart -/

/-- Where reports are written. A report lies in the report directory, whichever that is, exactly if
it is confined, and two confined reports are one file exactly if their steps come to the same. A
report of a channel without slashes in its name is confined, and two of them, whenever started, are
two files if the names are different. Writing to a report changes no other file. -/
theorem reports_apart (fs : FileSystem) (dir channel channel' : String)
    (started started' : Moment) :
    (Confined channel started ↔
      ∀ (fs : FileSystem) (dir : String), fs.Inside dir (reportPath dir channel started)) ∧
    (Confined channel started → Confined channel' started' →
      (fs.place (reportPath dir channel started) = fs.place (reportPath dir channel' started') ↔
        Location.within [] (reportSteps channel started) =
          Location.within [] (reportSteps channel' started'))) ∧
    ('/' ∉ channel.toList → '/' ∉ channel'.toList → channel ≠ channel' →
      fs.Inside dir (reportPath dir channel started) ∧
        fs.Inside dir (reportPath dir channel' started') ∧
        fs.place (reportPath dir channel started) ≠ fs.place (reportPath dir channel' started')) ∧
    ∀ mode lines l, l ≠ fs.place (reportPath dir channel started) →
      (fs.writeBlock (reportPath dir channel started) mode lines).1.file? l = fs.file? l := by
  refine ⟨confined_iff_inside, fun hconfined hconfined' =>
    place_eq_iff_of_confined hconfined hconfined' fs dir, fun hslash hslash' hne => ?_,
    fun mode lines l hl => FileSystem.file?_writeBlock_of_ne hl mode lines⟩
  have hwithin := within_of_no_slash hslash started
  have hwithin' := within_of_no_slash hslash' started'
  refine ⟨⟨_, List.cons_ne_nil _ _, place_reportPath_of_within hwithin fs dir⟩,
    ⟨_, List.cons_ne_nil _ _, place_reportPath_of_within hwithin' fs dir⟩, ?_⟩
  rw [place_reportPath_of_within hwithin, place_reportPath_of_within hwithin']
  intro heq
  exact hne (reportName_inj (List.cons.inj (List.append_cancel_left heq)).1)

/-- Settings with channels whose names have slashes. -/
def slashedSettings : Settings :=
  { source := { inputFile := some "feed.xml" }
    channels := [⟨"a/x", "x.json"⟩, ⟨"a//x", "x.json"⟩, ⟨"a/../../x", "x.json"⟩] }

/-- Settings are accepted by which two channels have one file for their reports, and a third one has
a file outside of the report directory. -/
theorem accepted_reports_astray :
    slashedSettings.validate = .ok () ∧
      slashedSettings.channelNames = ["a/x", "a//x", "a/../../x"] ∧
      (FileSystem.empty ["home"]).place (reportPath "reports" "a/x" ⟨0, 0, 0⟩) =
        (FileSystem.empty ["home"]).place (reportPath "reports" "a//x" ⟨0, 0, 0⟩) ∧
      ¬(FileSystem.empty ["home"]).Inside "reports"
        (reportPath "reports" "a/../../x" ⟨0, 0, 0⟩) := by
  refine ⟨?_, rfl, by decide +kernel, ?_⟩
  · have hnone : slashedSettings.objection? = none := by decide +kernel
    rw [Settings.validate, hnone]
  · have hplace : (FileSystem.empty ["home"]).place (reportPath "reports" "a/../../x" ⟨0, 0, 0⟩) =
        ["home", "x_channel.txt"] := by decide +kernel
    have hdir : (FileSystem.empty ["home"]).place "reports" = ["home", "reports"] := by
      decide +kernel
    rintro ⟨below, -, heq⟩
    rw [hplace, hdir] at heq
    have hnames : "x_channel.txt" = "reports" := (List.cons.inj (List.cons.inj heq).2).1
    revert hnames
    decide

end FeedAudit

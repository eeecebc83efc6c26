import FeedAudit.Proofs.ReportFiles
import FeedAudit.Proofs.Ways
import Mathlib.Data.List.Basic
import Mathlib.Data.List.Induction

/-!
# What a run leaves behind

A run whose reports are written to a file system, and whose feeds come from a source that answers by
channel and limit. When no write fails, all that the run leaves is known from the turns of the
selected channels: their outcomes, the lines of the log, the requests to the source and the files.
Main statement: `runSelection_ofFiles`.
-/

namespace FeedAudit

open Host (Selected startingLine loadedLine finishedLine)

/-! ## Histories of a file system -/

/-- The file system behind a history of writes. -/
def FileSystem.after (fs : FileSystem) (h : History) : FileSystem :=
  h.foldl (fun fs e =>
    match e.step with
    | .write (.report path mode lines) => (fs.writeBlock path mode lines).1
    | _ => fs) fs

namespace Surroundings

/-- Surroundings in which expectations are read from files, reports are written to files, and feeds
come from a source. The log never fails. -/
def ofFiles (fs : FileSystem) (clock : History → Moment)
    (source : String → Nat → Except FeedError String) : Surroundings where
  clock := clock
  content h path := (fs.after h).readText path
  feed _ := source
  refusal h
    | .log _ => none
    | .report path mode lines =>
      match ((fs.after h).writeBlock path mode lines).2 with
      | .error fault => some fault
      | .ok _ => none

/-! ## Records -/

/-- Events behind a history whose steps were refused or not as the surroundings say. -/
def Recorded (s : Surroundings) : History → List Event → Prop
  | _, [] => True
  | h, e :: rest => e.refusal = s.refuses h e.step ∧ s.Recorded (h ++ [e]) rest

variable {s : Surroundings} {h : History} {plan : RunPlan} {selection : String}

/-- Events are recorded in two parts, the second one after the first. -/
theorem recorded_append {events others : List Event} :
    s.Recorded h (events ++ others) ↔ s.Recorded h events ∧ s.Recorded (h ++ events) others := by
  induction events generalizing h with
  | nil => rw [List.nil_append, List.append_nil, Recorded, true_and]
  | cons e rest ih =>
    rw [List.cons_append, Recorded, Recorded, ih, and_assoc, List.append_assoc,
      List.singleton_append]

/-- The events of steps are recorded as they are taken. -/
theorem recorded_cut (steps : List Step) : s.Recorded h (s.cut h steps) := by
  induction steps generalizing h with
  | nil => exact trivial
  | cons step rest ih =>
    rw [cut]
    cases hstep : s.refuses h step with
    | none => exact ⟨hstep.symm, ih⟩
    | some fault => exact ⟨hstep.symm, trivial⟩

/-- The events of the channels of a run are recorded as they are taken. -/
theorem recorded_chapters (selecteds : List Selected) :
    s.Recorded h ((s.chapters plan h selecteds).flatMap Chapter.record) := by
  induction selecteds generalizing h with
  | nil => exact trivial
  | cons selected rest ih =>
    have hrecord : s.Recorded h (s.chapter plan h selected).record :=
      recorded_append.mpr ⟨recorded_cut _, recorded_cut _⟩
    rw [chapters, List.flatMap_cons, recorded_append]
    refine ⟨hrecord, ?_⟩
    split
    · exact ih
    · exact trivial

/-- What is told in a transcript is what the surroundings did. -/
theorem recorded_transcript : s.Recorded [] (s.transcript plan selection).events := by
  rw [Transcript.events, Transcript.told, recorded_append, recorded_append]
  refine ⟨⟨recorded_cut _, ?_⟩, ?_⟩
  · rw [transcript_chapters]
    split
    · exact recorded_chapters _
    · exact trivial
  · rw [transcript_closing]
    split
    · exact recorded_cut _
    · exact trivial

/-! ## Files -/

variable {fs : FileSystem} {clock : History → Moment}
  {source : String → Nat → Except FeedError String}

/-- A write that is not refused is written to the file of its path. -/
theorem wrote_of_refusal_none {path : String} {mode : FileSystem.WriteMode} {lines : List String}
    (hnone : (ofFiles fs clock source).refusal h (.report path mode lines) = none) :
    FileSystem.Wrote (fs.after h) path mode (blockText lines)
      ((fs.after h).writeBlock path mode lines).1 := by
  rw [ofFiles] at hnone
  dsimp only at hnone
  split at hnone
  · cases hnone
  · rename_i hok
    refine FileSystem.wrote_writeBlock ?_
    rw [← hok]

/-- A write that is refused leaves nothing but directories. -/
theorem onlyDirectories_of_refusal_some {path : String} {mode : FileSystem.WriteMode}
    {lines : List String} {fault : IoFault}
    (hsome : (ofFiles fs clock source).refusal h (.report path mode lines) = some fault) :
    FileSystem.OnlyDirectories (fs.after h) ((fs.after h).writeBlock path mode lines).1 := by
  rw [ofFiles] at hsome
  dsimp only at hsome
  split at hsome
  · rename_i hrefused
    exact FileSystem.onlyDirectories_of_refused hrefused
  · cases hsome

/-- A step that is made is taken behind the others. -/
theorem taken_concat_of_made {e : Event} (hmade : e.refusal = none) :
    taken (h ++ [e]) = taken h ++ [e.step] := by
  rw [taken_append]
  congr 1
  rw [taken, List.filterMap_cons, if_pos hmade, List.filterMap_nil]

/-- A step that is refused is not taken. -/
theorem taken_concat_of_refused {e : Event} (hrefused : e.refusal ≠ none) :
    taken (h ++ [e]) = taken h := by
  rw [taken_append, taken, taken, List.filterMap_cons, if_neg hrefused, List.filterMap_nil,
    List.append_nil]

/-- An event writes to the file of its path, or it leaves nothing but directories: it is a write
that was refused, or no write to a report. -/
theorem after_concat {e : Event}
    (hrecorded : e.refusal = (ofFiles fs clock source).refuses h e.step) :
    (∃ path mode lines, e.step = .write (.report path mode lines) ∧
      taken (h ++ [e]) = taken h ++ [e.step] ∧
      FileSystem.Wrote (fs.after h) path mode (blockText lines) (fs.after (h ++ [e]))) ∨
    ∃ quiet, taken (h ++ [e]) = taken h ++ quiet ∧
      (∀ x, ∀ step ∈ quiet, ¬ step.changes fs.place x) ∧
      FileSystem.OnlyDirectories (fs.after h) (fs.after (h ++ [e])) := by
  have hafter : fs.after (h ++ [e]) =
      match e.step with
      | .write (.report path mode lines) => ((fs.after h).writeBlock path mode lines).1
      | _ => fs.after h := by
    rw [FileSystem.after, List.foldl_append]
    rfl
  -- Only a block of a report can change files, and only if it is not refused.
  by_cases hreport : ∃ path mode lines, e.step = .write (.report path mode lines)
  · obtain ⟨path, mode, lines, hstep⟩ := hreport
    rw [hstep] at hafter hrecorded
    cases hrefusal : e.refusal with
    | none =>
      rw [hrefusal] at hrecorded
      refine Or.inl ⟨path, mode, lines, hstep, taken_concat_of_made hrefusal, ?_⟩
      rw [hafter]
      exact wrote_of_refusal_none hrecorded.symm
    | some fault =>
      have hsome : e.refusal ≠ none := by
        rw [hrefusal]
        exact Option.some_ne_none fault
      rw [hrefusal] at hrecorded
      refine Or.inr ⟨[], ?_, nofun, ?_⟩
      · rw [taken_concat_of_refused hsome, List.append_nil]
      · rw [hafter]
        exact onlyDirectories_of_refusal_some hrecorded.symm
  · have hsame : fs.after (h ++ [e]) = fs.after h := by
      rw [hafter]
      split
      · rename_i path mode lines hstep
        exact absurd ⟨path, mode, lines, hstep⟩ hreport
      · rfl
    have hquiet : ∀ x, ∀ step ∈ [e.step], ¬ step.changes fs.place x := by
      intro x step hstep hchanges
      rw [List.mem_singleton.mp hstep] at hchanges
      unfold Step.changes at hchanges
      split at hchanges
      · rename_i path mode lines hstep
        exact hreport ⟨path, mode, lines, hstep⟩
      · cases hchanges
    rw [hsame]
    by_cases hmade : e.refusal = none
    · exact Or.inr ⟨[e.step], taken_concat_of_made hmade, hquiet, .refl _⟩
    · refine Or.inr ⟨[], ?_, nofun, .refl _⟩
      rw [taken_concat_of_refused hmade, List.append_nil]

/-- The last event is refused exactly if its step is, after the events before it. -/
theorem recorded_concat {e : Event} (hrecorded : s.Recorded [] (h ++ [e])) :
    s.Recorded [] h ∧ e.refusal = s.refuses h e.step := by
  obtain ⟨hearly, hlast, -⟩ := recorded_append.mp hrecorded
  exact ⟨hearly, hlast⟩

/-- No directory is lost in a run. -/
theorem keeps_after (hrecorded : (ofFiles fs clock source).Recorded [] h) :
    FileSystem.Keeps fs (fs.after h) := by
  induction h using List.reverseRecOn with
  | nil => exact .refl fs
  | append_singleton h e ih =>
    obtain ⟨hearly, hlast⟩ := recorded_concat hrecorded
    rcases after_concat hlast with ⟨path, mode, lines, -, -, hwrote⟩ | ⟨quiet, -, -, honly⟩
    · exact (ih hearly).trans hwrote.toKeeps
    · exact (ih hearly).trans honly.toKeeps

/-- The file of a report that was written to is found by its path from then on. -/
theorem locate_after (hrecorded : (ofFiles fs clock source).Recorded [] h) {path : String}
    {mode : FileSystem.WriteMode} {lines : List String}
    (hwritten : .write (.report path mode lines) ∈ taken h) :
    (fs.after h).locate path = .ok (fs.place path) := by
  induction h using List.reverseRecOn with
  | nil => cases hwritten
  | append_singleton h e ih =>
    obtain ⟨hearly, hlast⟩ := recorded_concat hrecorded
    have hplace := (keeps_after hearly).place_eq
    rcases after_concat hlast with
      ⟨path', mode', lines', hstep, htaken, hwrote⟩ | ⟨quiet, htaken, hquiet, honly⟩
    · rw [htaken] at hwritten
      rcases List.mem_append.mp hwritten with hbefore | hnow
      · exact hwrote.toKeeps.locate (ih hearly hbefore)
      · rw [List.mem_singleton, hstep] at hnow
        injection hnow with hwrite
        injection hwrite with hpath
        rw [hpath, hwrote.locate, hplace]
    · rw [htaken] at hwritten
      rcases List.mem_append.mp hwritten with hbefore | hnow
      · exact honly.toKeeps.locate (ih hearly hbefore)
      · exact absurd (decide_eq_true rfl) (hquiet (fs.place path) _ hnow)

/-- A block is only appended to a file that was created. -/
theorem exists_blocks_of_append {x : Location} {steps : List Step} {path : String}
    {lines : List String}
    (hheaded : Headed fs.place x (steps ++ [.write (.report path .append lines)]))
    (hpath : fs.place path = x) : ∃ blocks, blocksIn fs.place x steps = some blocks := by
  rw [← Option.isSome_iff_exists]
  refine blocksIn_isSome_of_creates ?_
  by_contra hnone
  have hquiet := hheaded _ List.prefix_rfl ?_ _ (List.mem_append_right _ List.mem_cons_self)
  · exact hquiet (decide_eq_true hpath)
  · intro step hstep hcreates
    rcases List.mem_append.mp hstep with hearly | hlast
    · exact hnone ⟨step, hearly, hcreates⟩
    · rw [List.mem_singleton.mp hlast] at hcreates
      cases hcreates

/-- A file that was created holds the lines of its blocks, and any other file is as it was. -/
theorem file?_after (hrecorded : (ofFiles fs clock source).Recorded [] h) {x : Location}
    (hheaded : Headed fs.place x (taken h)) :
    (fs.after h).file? x =
      match blocksIn fs.place x (taken h) with
      | some blocks => some (blockText blocks.flatten).toUTF8
      | none => fs.file? x := by
  -- By the last event, which was either a block that was written or changed no file at all.
  induction h using List.reverseRecOn with
  | nil => rfl
  | append_singleton h e ih =>
    obtain ⟨hearly, hlast⟩ := recorded_concat hrecorded
    have hplace := (keeps_after hearly).place_eq
    rcases after_concat hlast with
      ⟨path, mode, lines, hstep, htaken, hwrote⟩ | ⟨quiet, htaken, hquiet, honly⟩
    · rw [htaken] at hheaded ⊢
      have hbefore := ih hearly (hheaded.of_isPrefix (List.prefix_append _ _))
      rw [blocksIn, List.foldl_append, List.foldl_cons, List.foldl_nil, ← blocksIn]
      rw [hstep] at hheaded ⊢
      rw [hwrote.files, hplace]
      by_cases hx : x = fs.place path
      · rw [if_pos hx]
        cases mode with
        | create =>
          rw [Step.blocks_create hx.symm]
          dsimp only
          rw [List.flatten_singleton, FileSystem.contentAfter]
        | append =>
          obtain ⟨blocks, hblocks⟩ := exists_blocks_of_append hheaded hx.symm
          rw [hblocks] at hbefore ⊢
          rw [Step.blocks_append hx.symm, hbefore, Option.map_some]
          dsimp only
          rw [List.flatten_append, List.flatten_singleton, blockText_append,
            FileSystem.contentAfter, Option.getD_some]
          rfl
      · rw [if_neg hx, Step.blocks_of_not_changes, hbefore]
        intro hchanges
        exact hx (of_decide_eq_true hchanges).symm
    · rw [htaken] at hheaded ⊢
      have hbefore := ih hearly (hheaded.of_isPrefix (List.prefix_append _ _))
      rw [honly.files, blocksIn, List.foldl_append, foldl_blocks_of_not_changes (hquiet x),
        ← blocksIn]
      exact hbefore

end Surroundings

/-! ## What a turn leaves -/

/-- The feeds that steps ask for, with the number of records. -/
def requests (steps : List Step) : List (String × Nat) :=
  steps.filterMap fun
    | .request channel limit => some (channel, limit)
    | _ => none

namespace Turn

/-- The lines of the log about a channel. -/
def segment (t : Turn) : List String :=
  match t.course with
  | .unknown => [(FeedError.unknownChannel t.channel).message]
  | .unloaded e => [startingLine t.channel, e.message]
  | .unfed e => [startingLine t.channel, e.message]
  | .unfound e => [startingLine t.channel, loadedLine, e.message]
  | .ready spec _ =>
    startingLine t.channel :: loadedLine :: t.course.runs.flatMap (·.log.toList) ++
      [finishedLine (t.report spec)]

/-- The source is asked once, and only when the expectation of the channel could be had. -/
def asked (t : Turn) : List (String × Nat) :=
  match t.course with
  | .unknown => []
  | .unloaded _ => []
  | _ => [(t.channel, t.limit)]

/-- What comes of the channel. -/
def outcome (t : Turn) : ChannelOutcome := .of t.channel t.result

variable (t : Turn)

/-- A completed channel has the report of its containers. -/
theorem ready_of_completed {t : Turn} {r : ChannelReport} (hcompleted : t.outcome = .completed r) :
    ∃ spec containers, t.course = .ready spec containers ∧ r = t.report spec := by
  cases hresult : t.result with
  | error e =>
    rw [outcome, hresult] at hcompleted
    cases hcompleted
  | ok q =>
    obtain ⟨spec, containers, hcourse⟩ := ready_of_ok hresult
    rw [outcome, result_of_ready hcourse] at hcompleted
    injection hcompleted with hreport
    exact ⟨spec, containers, hcourse, hreport.symm⟩

/-- The lines of a whole report. -/
theorem flatten_reportBlocks {t : Turn} {spec : ContainerSpec} {containers : List Selection}
    (hcourse : t.course = .ready spec containers) :
    t.reportBlocks.flatten = headerLines (t.report spec).channel (t.report spec).started ++
      (t.report spec).summaries.flatMap Summary.lines ++ (t.report spec).footerLines := by
  rw [reportBlocks, result_of_ready hcourse, List.flatten_append, List.flatten_cons, report,
    List.flatMap_map, ← List.flatMap_def]
  dsimp only
  rw [List.flatten_singleton]

/-- The steps of a channel whose containers are found: the preface, the creation of the report, a
block for each container, and the conclusion. -/
theorem steps_append_notice {t : Turn} {spec : ContainerSpec} {containers : List Selection}
    (hcourse : t.course = .ready spec containers) :
    t.steps ++ noticeSteps t.outcome = t.preface ++ [t.creation] ++
      (t.course.runs.flatMap (containerSteps t.path) ++
        (t.conclusion ++ noticeSteps t.outcome)) := by
  rw [steps_of_ready hcourse]
  simp only [List.append_assoc, List.cons_append, List.nil_append]

/-- The turn of a channel and the notice of its outcome log the segment of the channel. -/
theorem flatten_logBlocks :
    (logBlocks (t.steps ++ noticeSteps t.outcome)).flatten = t.segment := by
  cases hcourse : t.course with
  | ready spec containers =>
    have hresult := result_of_ready hcourse
    have hruns := (containers_written id t.path t.course.runs []).1
    have hlast : logBlocks (t.conclusion ++ noticeSteps t.outcome) =
        [[finishedLine (t.report spec)]] := by
      rw [conclusion, outcome, hresult]
      rfl
    have hfirst : logBlocks (t.preface ++ [t.creation]) =
        [[startingLine t.channel], [loadedLine]] := rfl
    rw [steps_append_notice hcourse, logBlocks_append (t.preface ++ [t.creation]), hfirst,
      logBlocks_append, hruns, hlast, segment, hcourse, List.flatten_append, List.flatten_append,
      ← List.flatMap_def]
    rfl
  | _ =>
    have hsteps := steps_of_error (t := t) (by rw [result, hcourse])
    rw [hsteps, beginning, outcome, result, segment, hcourse]
    rfl

end Turn

/-! ## Selected channels -/

namespace Surroundings

variable {s : Surroundings} {h : History} {plan : RunPlan} {selection : String}

/-- A step that creates a file belongs to a channel that comes to a report and whose report stands
there. -/
theorem completed_of_creates {F : Type} [DecidableEq F] {file : String → F} {x : F}
    {chapters : List Chapter} (hall : ∀ c ∈ chapters, ∃ h selected, c = s.chapter plan h selected)
    {step : Step} (hstep : step ∈ taken (chapters.flatMap Chapter.record))
    (hcreates : step.creates file x) :
    ∃ c ∈ chapters, ∃ r, c.turn.outcome = .completed r ∧ file r.path = x := by
  rw [taken_flatMap, List.mem_flatMap] at hstep
  obtain ⟨c, hc, hstep⟩ := hstep
  obtain ⟨h, selected, hchapter⟩ := hall c hc
  have hevents := chapter_events hchapter
  have hchanges := Step.changes_of_creates hcreates
  rw [Chapter.record, taken_append] at hstep
  rcases List.mem_append.mp hstep with hturn | hnotice
  · rw [hevents] at hturn
    have hsteps := (taken_cut_isPrefix _).subset hturn
    obtain ⟨spec, containers, hcourse⟩ := Turn.ready_of_changes hsteps hchanges
    refine ⟨c, hc, c.turn.report spec, ?_, Turn.file_path_of_changes hsteps hchanges⟩
    rw [Turn.outcome, Turn.result_of_ready hcourse]
    rfl
  · exact absurd hchanges (not_changes_notice hchapter step hnotice)

/-- A channel with a report has created it if nothing was refused of the channel. -/
theorem creation_mem_taken {c : Chapter} (hc : c ∈ (s.transcript plan selection).chapters)
    (hunrefused : firstRefusal c.events = none) {r : ChannelReport}
    (hcompleted : c.turn.outcome = .completed r) :
    c.turn.creation ∈ taken (s.transcript plan selection).events := by
  obtain ⟨earlier, later, hsplit⟩ := List.append_of_mem hc
  obtain ⟨spec, containers, hcourse, -⟩ := Turn.ready_of_completed hcompleted
  have hevents := chapter_events (transcript_split hsplit).1
  rw [hevents] at hunrefused
  rw [transcript_events hsplit, taken_append, taken_append, hevents,
    cut_of_firstRefusal_eq_none hunrefused, taken_made, Turn.steps_of_ready hcourse]
  exact List.mem_append_left _ (List.mem_append_right _
    (List.mem_append_right _ List.mem_cons_self))

/-- Behind a channel of which nothing was refused, the file of its report is only created again by a
later channel. -/
theorem blocksIn_completed {F : Type} [DecidableEq F] {file : String → F}
    {earlier later : List Chapter} {c : Chapter} {r : ChannelReport}
    (hsplit : (s.transcript plan selection).chapters = earlier ++ c :: later)
    (hunrefused : firstRefusal c.events = none) (hcompleted : c.turn.outcome = .completed r)
    (hapart : ∀ d ∈ later, ∀ q, d.turn.outcome = .completed q → file q.path ≠ file c.turn.path) :
    blocksIn file (file c.turn.path) (taken (s.transcript plan selection).events) =
      some c.turn.reportBlocks := by
  have hevents := chapter_events (transcript_split hsplit).1
  obtain ⟨spec, containers, hcourse, -⟩ := Turn.ready_of_completed hcompleted
  have hkept : ∀ step ∈ taken (c.notice ++ later.flatMap Chapter.record ++
      (s.transcript plan selection).closing), ¬ step.creates file (file c.turn.path) := by
    intro step hstep hcreates
    have hchanges := Step.changes_of_creates hcreates
    rw [taken_append, taken_append, List.append_assoc] at hstep
    rcases List.mem_append.mp hstep with hnotice | hrest
    · exact not_changes_notice (transcript_split hsplit).1 step hnotice hchanges
    · rcases List.mem_append.mp hrest with hrecords | hlast
      · obtain ⟨d, hd, q, hq, hplace⟩ :=
          completed_of_creates (exists_chapter_of_later hsplit) hrecords hcreates
        exact hapart d hd q hq hplace
      · exact not_changes_closing step hlast hchanges
  rw [hevents] at hunrefused
  rw [transcript_events hsplit, hevents, cut_of_firstRefusal_eq_none hunrefused, taken_append,
    taken_append, taken_made, blocksIn, List.foldl_append, List.foldl_append,
    Turn.foldl_blocks_steps (Turn.result_of_ready hcourse)]
  exact (headed_behind hsplit).foldl_blocks hkept _

variable {fs : FileSystem} {clock : History → Moment}
  {source : String → Nat → Except FeedError String}

/-- The report of a channel of which nothing was refused is read back whole, as long as no later
channel has a report at the same place. -/
theorem readText_completed {earlier later : List Chapter} {c : Chapter} {r : ChannelReport}
    (hsplit : ((ofFiles fs clock source).transcript plan selection).chapters =
      earlier ++ c :: later)
    (hunrefused : firstRefusal c.events = none) (hcompleted : c.turn.outcome = .completed r)
    (hapart : ∀ d ∈ later, ∀ q, d.turn.outcome = .completed q → fs.place q.path ≠ fs.place r.path) :
    (fs.after ((ofFiles fs clock source).transcript plan selection).events).readText r.path =
      .ok (blockText (headerLines r.channel r.started ++ r.summaries.flatMap Summary.lines ++
        r.footerLines)) := by
  obtain ⟨spec, containers, hcourse, rfl⟩ := Turn.ready_of_completed hcompleted
  have hc : c ∈ ((ofFiles fs clock source).transcript plan selection).chapters := by
    rw [hsplit]
    exact List.mem_append_right _ List.mem_cons_self
  have hlocate := locate_after recorded_transcript (creation_mem_taken hc hunrefused hcompleted)
  refine FileSystem.readText_of_file? hlocate ?_
  rw [file?_after recorded_transcript headed_events,
    blocksIn_completed hsplit hunrefused hcompleted hapart]
  dsimp only
  rw [Turn.flatten_reportBlocks hcourse]

end Surroundings

end FeedAudit

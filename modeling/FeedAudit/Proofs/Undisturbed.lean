import FeedAudit.Proofs.LeftBehind
import FeedAudit.Proofs.Refusals
import FeedAudit.Proofs.Sparing

/-!
# Channels that others leave undisturbed

In a run whose log never fails, all that the other channels can do to a channel is done by writing
their reports. If these spare its files, the channel comes to what the files as they were and the
source make of it: its expectation is read as if it came first, its report is written unless it
could not have been written before, and what is in the report at the end is its own. Main statement:
`undisturbed_of_spared`. -/

namespace FeedAudit

open Host (Selected startingLine loadedLine finishedLine)

/-! ## The files of a channel -/

/-- The lines of a whole report. -/
def ChannelReport.lines (r : ChannelReport) : List String :=
  headerLines r.channel r.started ++ r.summaries.flatMap Summary.lines ++ r.footerLines

namespace Host.Selected

/-- The files that the expectation of a channel is read from. -/
def specFiles : Selected → List String
  | .known ⟨_, .file path⟩ => [path]
  | _ => []

/-- How far a channel comes by the files as they are and by the source. -/
def courseIn (fs : FileSystem) (source : String → Nat → Except FeedError String) (limit : Nat) :
    Selected → Course
  | .unknown _ => .unknown
  | .known setup =>
    .of
      (match setup.expectation with
      | .given spec => .ok spec
      | .file path => ContainerSpec.ofFile path (fs.readText path))
      ((source setup.channel limit).bind (documentOfFeed setup.channel))

end Host.Selected

namespace Chapter

/-- The files of a channel: that of its report, and those its expectation is read from. -/
def files (c : Chapter) : List String := c.turn.path :: c.selected.specFiles

/-- What a channel leaves at the place of its report: the whole report when it is completed, and
what was there before when it is aborted. -/
def LeavesReport (fs : FileSystem) (dir : String) (c : Chapter) (history : History) : Prop :=
  match c.outcome with
  | .completed r => r.path = reportPath dir r.channel r.started ∧
      (fs.after history).readText r.path = .ok (blockText r.lines)
  | .aborted _ _ => (fs.after history).file? (fs.place c.turn.path) =
      fs.file? (fs.place c.turn.path)

end Chapter

/-! ## Turns whose report may not be created -/

namespace Turn

/-- What comes of the channel, by what comes of creating its report. -/
def outcomeWhen (t : Turn) (created : Except IoFault Unit) : ChannelOutcome :=
  match t.course, created with
  | .ready _ _, .error fault => .aborted t.channel (.io fault)
  | _, _ => t.outcome

/-- The lines of the log about the channel, by what comes of creating its report. -/
def segmentWhen (t : Turn) (created : Except IoFault Unit) : List String :=
  match t.course, created with
  | .ready _ _, .error fault =>
    [startingLine t.channel, loadedLine, (FeedError.io fault).message]
  | _, _ => t.segment

end Turn

/-- A step that writes to a file writes to it by a path. -/
theorem Step.exists_path_of_changes {F : Type} [DecidableEq F] {file : String → F} {x : F}
    {step : Step} (hchanges : step.changes file x) : ∃ path, step.changes id path := by
  unfold changes at hchanges
  split at hchanges
  · rename_i path mode lines
    exact ⟨path, decide_eq_true rfl⟩
  · cases hchanges

namespace Surroundings

variable {fs : FileSystem} {clock : History → Moment}
  {source : String → Nat → Except FeedError String} {s : Surroundings} {h : History}
  {plan : RunPlan} {selection : String}

/-! ## Steps that are never refused -/

/-- A write that is refused is one to a report. -/
theorem refuses_of_quiet {step : Step} (hquiet : ∀ path, ¬ step.changes id path) :
    (ofFiles fs clock source).refuses h step = none := by
  cases step with
  | request channel limit => rfl
  | write w =>
    cases w with
    | log lines => rfl
    | report path mode lines => exact absurd (decide_eq_true rfl) (hquiet path)

/-- A block that can be written is not refused. -/
theorem refuses_of_written {path : String} {mode : FileSystem.WriteMode} {lines : List String}
    (hwritten : ((fs.after h).writeBlock path mode lines).2 = .ok ()) :
    (ofFiles fs clock source).refuses h (.write (.report path mode lines)) = none := by
  rw [refuses, ofFiles]
  dsimp only
  rw [hwritten]

/-- A block that cannot be written is refused with the fault. -/
theorem refuses_of_fault {path : String} {mode : FileSystem.WriteMode} {lines : List String}
    {fault : IoFault} (hfault : ((fs.after h).writeBlock path mode lines).2 = .error fault) :
    (ofFiles fs clock source).refuses h (.write (.report path mode lines)) = some fault := by
  rw [refuses, ofFiles]
  dsimp only
  rw [hfault]

/-- Steps that write to no report are all taken. -/
theorem cut_of_quiet {steps : List Step} (hquiet : ∀ path, ∀ step ∈ steps, ¬ step.changes id path) :
    (ofFiles fs clock source).cut h steps = steps.map Step.made := by
  induction steps generalizing h with
  | nil => rfl
  | cons step rest ih =>
    rw [cut, refuses_of_quiet fun path => hquiet path step List.mem_cons_self]
    dsimp only
    rw [ih fun path other hother => hquiet path other (List.mem_cons_of_mem step hother),
      List.map_cons]

/-- Nothing is refused of what the runner itself writes. -/
theorem firstRefusal_own :
    firstRefusal ((ofFiles fs clock source).transcript plan selection).own = none := by
  have hopening : ((ofFiles fs clock source).transcript plan selection).opening =
      ((ofFiles fs clock source).openingSteps selection).map Step.made :=
    cut_of_quiet fun path => by simp [openingSteps, Step.changes]
  have hnotices : firstRefusal
      (((ofFiles fs clock source).transcript plan selection).chapters.flatMap
      Chapter.notice) = none := by
    rw [firstRefusal_eq_none_iff]
    intro e he
    obtain ⟨c, hc, he⟩ := List.mem_flatMap.mp he
    obtain ⟨h, selected, rfl⟩ := exists_chapter_of_mem hc
    have hnotice : ((ofFiles fs clock source).chapter plan h selected).notice = _ :=
      cut_of_quiet fun path => not_changes_noticeSteps _
    rw [hnotice] at he
    obtain ⟨step, -, rfl⟩ := List.mem_map.mp he
    rfl
  have hclosing : firstRefusal ((ofFiles fs clock source).transcript plan selection).closing =
      none := by
    rw [transcript_closing]
    split
    · rw [cut_of_quiet fun path => by simp [closingSteps, Step.changes]]
      exact firstRefusal_made _
    · rfl
  rw [Transcript.own, firstRefusal_append, firstRefusal_append, hopening, firstRefusal_made,
    hnotices, hclosing]
  rfl

/-! ## What a history can change -/

/-- The files after two histories are those after the second one, from where the first one led. -/
theorem after_append (h others : History) : fs.after (h ++ others) = (fs.after h).after others :=
  List.foldl_append

/-- A history changes nothing if its reports start where no directory stands. -/
theorem after_of_no_start (hnowhere : ∀ e ∈ h, ∀ path, e.step.changes id path →
    fs.entry? (fs.origin path) ≠ some .directory) : fs.after h = fs := by
  induction h using List.reverseRecOn with
  | nil => rfl
  | append_singleton h e ih =>
    rw [after_append, ih fun other hother => hnowhere other (List.mem_append_left _ hother)]
    have hlast := hnowhere e (List.mem_append_right _ (List.mem_singleton_self e))
    rcases e with ⟨step, refusal⟩
    cases step with
    | request channel limit => rfl
    | write w =>
      cases w with
      | log lines => rfl
      | report path mode lines =>
        exact (FileSystem.writeBlock_of_no_start (hlast path (decide_eq_true rfl)) mode lines).1

/-- A history changes what the paths of its reports can change. -/
theorem touched_after {paths : String → Prop}
    (hpaths : ∀ e ∈ h, ∀ path, e.step.changes id path → paths path) :
    FileSystem.Touched paths fs (fs.after h) := by
  induction h using List.reverseRecOn with
  | nil => exact .refl paths fs
  | append_singleton h e ih =>
    have hearly := ih fun other hother => hpaths other (List.mem_append_left _ hother)
    rw [after_append]
    refine hearly.trans ?_
    have hlast := hpaths e (List.mem_append_right _ (List.mem_singleton_self e))
    rcases e with ⟨step, refusal⟩
    cases step with
    | request channel limit => exact .refl paths _
    | write w =>
      cases w with
      | log lines => exact .refl paths _
      | report path mode lines =>
        refine (FileSystem.touched_writeBlock path mode lines).mono ?_
        rintro other rfl
        exact hlast other (decide_eq_true rfl)

/-- Steps that change no report leave all files as they are. -/
theorem after_made_of_quiet {steps : List Step}
    (hquiet : ∀ path, ∀ step ∈ steps, ¬ step.changes id path) :
    fs.after (h ++ steps.map Step.made) = fs.after h := by
  induction steps generalizing h with
  | nil => rw [List.map_nil, List.append_nil]
  | cons step rest ih =>
    have hrest := ih (h := h ++ [step.made]) fun path other hother =>
      hquiet path other (List.mem_cons_of_mem step hother)
    rw [List.append_assoc] at hrest
    rw [List.map_cons, ← List.singleton_append, hrest, after_append]
    cases step with
    | request channel limit => rfl
    | write w =>
      cases w with
      | log lines => rfl
      | report path mode lines =>
        exact absurd (decide_eq_true rfl) (hquiet path _ List.mem_cons_self)

/-- The only report that is written in a chapter is that of its channel. -/
theorem path_of_changes {c : Chapter} {selected : Selected} (hc : c = s.chapter plan h selected)
    {e : Event} (he : e ∈ c.record) {path : String} (hchanges : e.step.changes id path) :
    c.turn.path = path := by
  have hevents := chapter_events hc
  rcases List.mem_append.mp he with hturn | hnotice
  · rw [hevents] at hturn
    have hstep := (map_step_cut_isPrefix _).subset (List.mem_map_of_mem hturn)
    exact Turn.file_path_of_changes hstep hchanges
  · have hstep := List.mem_map_of_mem (f := Event.step) hnotice
    rw [map_step_notice hc] at hstep
    exact absurd hchanges (not_changes_noticeSteps _ _ hstep)

/-- Before a chapter, only the reports of the channels before it are written. -/
theorem path_of_changes_before {earlier later : List Chapter} {c : Chapter}
    (hsplit : (s.transcript plan selection).chapters = earlier ++ c :: later) {e : Event}
    (he : e ∈ c.before) {path : String} (hchanges : e.step.changes id path) :
    ∃ d ∈ earlier, d.turn.path = path := by
  rw [(transcript_split hsplit).2.1] at he
  rcases List.mem_append.mp he with hopening | hrecords
  · have hopened : (s.transcript plan selection).opening = s.cut [] (s.openingSteps selection) :=
      rfl
    rw [hopened] at hopening
    have hstep := (map_step_cut_isPrefix _).subset (List.mem_map_of_mem hopening)
    simp only [openingSteps, List.mem_cons, List.not_mem_nil, or_false] at hstep
    rcases hstep with hstart | hselection
    · rw [hstart] at hchanges
      cases hchanges
    · rw [hselection] at hchanges
      cases hchanges
  · obtain ⟨d, hd, he⟩ := List.mem_flatMap.mp hrecords
    have hmem : d ∈ (s.transcript plan selection).chapters := by
      rw [hsplit]
      exact List.mem_append_left _ hd
    obtain ⟨h, selected, hchapter⟩ := exists_chapter_of_mem hmem
    exact ⟨d, hd, path_of_changes hchapter he hchanges⟩

/-! ## What a channel reads -/

/-- A channel reads the files that have been left so far. -/
theorem course_eq (selected : Selected) :
    (ofFiles fs clock source).course plan h selected =
      selected.courseIn (fs.after h) source plan.limit := by
  cases selected with
  | unknown channel => rfl
  | known setup =>
    have hafter : fs.after (h ++ [(Step.write (.log [startingLine setup.channel])).made]) =
        fs.after h := after_append h _
    obtain ⟨channel, expectation⟩ := setup
    cases expectation with
    | given spec => rfl
    | file path =>
      rw [course, Selected.courseIn]
      dsimp only
      rw [Surroundings.expectation, document]
      change Course.of (ContainerSpec.ofFile path ((fs.after (h ++ _)).readText path)) _ = _
      rw [hafter]
      rfl

/-- The course of a channel is the same when the files it reads are spared. -/
theorem courseIn_of_spared {fs' : FileSystem} {limit : Nat} {selected : Selected}
    (hspared : ∀ path ∈ selected.specFiles, FileSystem.Spared path fs fs') :
    selected.courseIn fs' source limit = selected.courseIn fs source limit := by
  cases selected with
  | unknown channel => rfl
  | known setup =>
    obtain ⟨channel, expectation⟩ := setup
    cases expectation with
    | given spec => rfl
    | file path =>
      rw [Selected.courseIn, Selected.courseIn]
      dsimp only
      rw [FileSystem.readText_of_spared (hspared path (List.mem_singleton_self path))]

/-! ## What a channel writes -/

/-- Steps that write to no report but one that is open are all taken. -/
theorem cut_of_open {path : String} {steps : List Step}
    (hopen : FileSystem.Open (fs.after h) path)
    (honly : ∀ step ∈ steps, ∀ other, step.changes id other → path = other) :
    (ofFiles fs clock source).cut h steps = steps.map Step.made := by
  induction steps generalizing h with
  | nil => rfl
  | cons step rest ih =>
    have hnext : (ofFiles fs clock source).refuses h step = none ∧
        FileSystem.Open (fs.after (h ++ [step.made])) path := by
      rw [after_append]
      cases step with
      | request channel limit => exact ⟨rfl, hopen⟩
      | write w =>
        cases w with
        | log lines => exact ⟨rfl, hopen⟩
        | report other mode lines =>
          obtain rfl : path = other :=
            honly _ List.mem_cons_self other (decide_eq_true rfl)
          obtain ⟨hwritten, hstays⟩ := hopen.written mode lines
          exact ⟨refuses_of_written hwritten, hstays⟩
    rw [cut, hnext.1]
    dsimp only
    rw [ih hnext.2 fun other hother => honly other (List.mem_cons_of_mem step hother),
      List.map_cons]

variable (clock source) in
/-- A turn ends where its report cannot be created, and else it is taken as a whole. -/
theorem cut_steps (t : Turn) :
    (ofFiles fs clock source).cut h t.steps = t.steps.map Step.made ∧
        t.outcomeWhen ((fs.after h).writeBlock t.path .create []).2 = t.outcome ∧
        t.segmentWhen ((fs.after h).writeBlock t.path .create []).2 = t.segment ∨
      ∃ spec containers fault, t.course = .ready spec containers ∧
        ((fs.after h).writeBlock t.path .create []).2 = .error fault ∧
        (ofFiles fs clock source).cut h t.steps =
          t.preface.map Step.made ++ [⟨t.creation, some fault⟩] := by
  cases hcourse : t.course with
  | ready spec containers =>
    have hpreface : (ofFiles fs clock source).cut h t.preface = t.preface.map Step.made :=
      cut_of_quiet fun path => Turn.not_changes_preface
    have hbefore : fs.after (h ++ t.preface.map Step.made) = fs.after h :=
      after_made_of_quiet fun path => Turn.not_changes_preface
    have hcut := cut_append (s := ofFiles fs clock source) (h := h) t.preface
      (t.creation :: (t.course.runs.flatMap (containerSteps t.path) ++ t.conclusion))
    rw [← Turn.steps_of_ready hcourse, hpreface, firstRefusal_made, if_pos rfl, cut] at hcut
    have hlines : ((fs.after h).writeBlock t.path .create []).2 =
        ((fs.after h).writeBlock t.path .create (headerLines t.channel t.started)).2 := by
      rw [FileSystem.writeBlock_snd, FileSystem.writeBlock_snd]
    rw [hlines]
    -- Only the creation can be refused. Once it is made, the file is open to all later writes.
    cases hcreated :
        ((fs.after h).writeBlock t.path .create (headerLines t.channel t.started)).2 with
    | error fault =>
      have hrefuses : (ofFiles fs clock source).refuses (h ++ t.preface.map Step.made)
          t.creation = some fault := refuses_of_fault (by rw [hbefore, hcreated])
      rw [hrefuses] at hcut
      exact Or.inr ⟨spec, containers, fault, rfl, rfl, hcut⟩
    | ok done =>
      have hrefuses : (ofFiles fs clock source).refuses (h ++ t.preface.map Step.made)
          t.creation = none := refuses_of_written (by rw [hbefore, hcreated])
      have hopen : FileSystem.Open
          (fs.after (h ++ t.preface.map Step.made ++ [t.creation.made])) t.path := by
        rw [after_append, hbefore]
        exact FileSystem.open_of_written hcreated
      have honly : ∀ step ∈ t.course.runs.flatMap (containerSteps t.path) ++ t.conclusion,
          ∀ other, step.changes id other → t.path = other := by
        intro step hstep other hchanges
        have hsteps : step ∈ t.steps := by
          rw [Turn.steps_of_ready hcourse]
          exact List.mem_append_right _ (List.mem_cons_of_mem _ hstep)
        exact Turn.file_path_of_changes hsteps hchanges
      rw [hrefuses] at hcut
      dsimp only at hcut
      refine Or.inl ⟨?_, ?_, ?_⟩
      · rw [hcut, cut_of_open hopen honly, Turn.steps_of_ready hcourse]
        simp only [List.map_append, List.map_cons]
      · simp only [Turn.outcomeWhen, hcourse]
      · simp only [Turn.segmentWhen, hcourse]
  | _ =>
    refine Or.inl ⟨?_, ?_, ?_⟩
    · have hresult : ∃ e, t.result = .error e := by
        rw [Turn.result, hcourse]
        exact ⟨_, rfl⟩
      obtain ⟨e, he⟩ := hresult
      exact cut_of_quiet fun path => Turn.not_changes_of_error he
    · simp only [Turn.outcomeWhen, hcourse]
    · simp only [Turn.segmentWhen, hcourse]

/-- What comes of a channel, and what is logged about it, is known from its turn and from whether
its report could be created. -/
theorem chapter_eq {c : Chapter} {selected : Selected}
    (hc : c = (ofFiles fs clock source).chapter plan h selected) :
    c.outcome = c.turn.outcomeWhen ((fs.after h).writeBlock c.turn.path .create []).2 ∧
      (logBlocks (taken c.record)).flatten =
        c.turn.segmentWhen ((fs.after h).writeBlock c.turn.path .create []).2 ∧
      ∀ channel e, c.outcome = .aborted channel e →
        ∀ path, ∀ step ∈ taken c.record, ¬ step.changes id path := by
  have hevents := chapter_events hc
  have hnotice : c.notice = (noticeSteps c.outcome).map Step.made := by
    rw [hc]
    exact cut_of_quiet fun path => not_changes_noticeSteps _
  have hrecord : taken c.record = taken c.events ++ noticeSteps c.outcome := by
    rw [Chapter.record, taken_append, hnotice, taken_made]
  -- The only step that may be refused is the creation of the report.
  rcases cut_steps clock source c.turn with
    ⟨hcut, hout, hsegment⟩ | ⟨spec, containers, fault, hcourse, hcreated, hcut⟩
  · have houtcome : c.outcome = c.turn.outcome := by
      rw [Chapter.outcome, hevents, hcut, ending_of_none (firstRefusal_made _), Turn.outcome]
    rw [hout, hsegment, hrecord, hevents, hcut, taken_made, houtcome]
    refine ⟨rfl, c.turn.flatten_logBlocks, ?_⟩
    intro channel e haborted path step hstep
    have hresult : ∃ e, c.turn.result = .error e := by
      cases hresult : c.turn.result with
      | error e => exact ⟨e, rfl⟩
      | ok r =>
        rw [Turn.outcome, hresult] at haborted
        cases haborted
    obtain ⟨e, hresult⟩ := hresult
    rcases List.mem_append.mp hstep with hturn | hlast
    · exact Turn.not_changes_of_error hresult step hturn
    · exact not_changes_noticeSteps _ step hlast
  · have houtcome : c.outcome = .aborted c.turn.channel (.io fault) := by
      have hrefused : firstRefusal (c.turn.preface.map Step.made ++
          [⟨c.turn.creation, some fault⟩]) = some fault := by
        rw [firstRefusal_append, firstRefusal_made]
        rfl
      rw [Chapter.outcome, hevents, hcut, ending_of_some hrefused]
      rfl
    have htaken : taken c.record =
        c.turn.preface ++ noticeSteps (.aborted c.turn.channel (.io fault)) := by
      rw [hrecord, hevents, hcut, taken_append, taken_made, houtcome]
      rfl
    rw [htaken, hcreated, houtcome]
    refine ⟨?_, ?_, ?_⟩
    · simp only [Turn.outcomeWhen, hcourse]
    · simp only [Turn.segmentWhen, hcourse]
      rfl
    · intro channel e _ path step hstep
      rcases List.mem_append.mp hstep with hturn | hlast
      · exact Turn.not_changes_preface step hturn
      · exact not_changes_noticeSteps _ step hlast

/-! ## One channel of a run -/

/-- What becomes of a channel is what the files as they were and the source make of it. -/
structure Undisturbed (fs : FileSystem) (source : String → Nat → Except FeedError String)
    (plan : RunPlan) (c : Chapter) (history : History) : Prop where
  channel : c.turn.channel = c.selected.channel
  course : c.turn.course = c.selected.courseIn fs source plan.limit
  outcome : c.outcome = c.turn.outcomeWhen (fs.writeBlock c.turn.path .create []).2
  segment : (logBlocks (taken c.record)).flatten =
    c.turn.segmentWhen (fs.writeBlock c.turn.path .create []).2
  report : c.LeavesReport fs plan.reportDir history

/-- The report of a channel in a run is named by the channel and the time of its turn. -/
theorem path_eq {c : Chapter} (hc : c ∈ (s.transcript plan selection).chapters) :
    c.turn.path = reportPath plan.reportDir c.selected.channel (s.clock c.before) := by
  obtain ⟨h, selected, rfl⟩ := exists_chapter_of_mem hc
  exact turn_path s h plan selected

/-- All reports of a run start at the same location. -/
theorem origin_eq {c : Chapter} (hc : c ∈ (s.transcript plan selection).chapters) :
    fs.origin c.turn.path = fs.origin plan.reportDir := by
  rw [FileSystem.origin, FileSystem.origin, path_eq hc, isAbsolute_reportPath]

/-- Whether the report of a channel can be created, and why not, is known from the files as they
were, if it was spared so far. -/
theorem created_eq {earlier later : List Chapter} {c : Chapter}
    (hsplit : (s.transcript plan selection).chapters = earlier ++ c :: later)
    (hspared : FileSystem.Spared c.turn.path fs (fs.after c.before)) :
    ((fs.after c.before).writeBlock c.turn.path .create []).2 =
      (fs.writeBlock c.turn.path .create []).2 := by
  by_cases horigin : fs.entry? (fs.origin c.turn.path) = some .directory
  · exact FileSystem.writeBlock_of_spared hspared horigin .create .create [] []
  -- no report at all is written then, since all of them start at that location
  · have hmem : ∀ d ∈ earlier ++ [c], d ∈ (s.transcript plan selection).chapters := by
      intro d hd
      rw [hsplit, ← List.singleton_append, ← List.append_assoc]
      exact List.mem_append_left later hd
    have hlast : c ∈ earlier ++ [c] := List.mem_append_right _ (List.mem_singleton_self c)
    have hnothing : fs.after c.before = fs := by
      refine after_of_no_start fun e he path hchanges => ?_
      obtain ⟨d, hd, rfl⟩ := path_of_changes_before hsplit he hchanges
      rw [origin_eq (hmem d (List.mem_append_left _ hd)), ← origin_eq (hmem c hlast)]
      exact horigin
    rw [hnothing]

/-- The report of a completed channel is not changed any more by those that spare it. -/
theorem readText_report {earlier later : List Chapter} {c : Chapter}
    (hsplit : ((ofFiles fs clock source).transcript plan selection).chapters =
      earlier ++ c :: later)
    (hapart : ∀ d ∈ later, fs.place d.turn.path ≠ fs.place c.turn.path) {r : ChannelReport}
    (hcompleted : c.outcome = .completed r) :
    r.path = reportPath plan.reportDir r.channel r.started ∧
      (fs.after ((ofFiles fs clock source).transcript plan selection).events).readText r.path =
        .ok (blockText r.lines) := by
  obtain ⟨hchapter, -, -, -⟩ := transcript_split hsplit
  have hunrefused : firstRefusal c.events = none :=
    firstRefusal_eq_none_iff.mpr ((isolates hchapter).of_completed r hcompleted)
  have hturn := chapter_turn hchapter
  have houtcome : c.turn.outcome = .completed r := by
    rw [← hcompleted, Chapter.outcome, ending_of_none hunrefused, Turn.outcome]
  obtain ⟨spec, containers, hcourse, rfl⟩ := Turn.ready_of_completed houtcome
  refine ⟨?_, ?_⟩
  · have hpath : c.turn.path = reportPath plan.reportDir c.turn.channel c.turn.started := by
      rw [hturn, turn_path, turn_channel, turn_started]
    exact hpath
  · rw [ChannelReport.lines]
    refine readText_completed hsplit hunrefused houtcome fun d hd q hq => ?_
    obtain ⟨_, _, _, rfl⟩ := Turn.ready_of_completed hq
    exact hapart d hd

/-- At the place of the report of an aborted channel all is as it was, if the others have their
reports elsewhere. -/
theorem file?_aborted {earlier later : List Chapter} {c : Chapter}
    (hsplit : ((ofFiles fs clock source).transcript plan selection).chapters =
      earlier ++ c :: later)
    (hapart : ∀ d ∈ earlier ++ later, fs.place d.turn.path ≠ fs.place c.turn.path)
    (hquiet : ∀ path, ∀ step ∈ taken c.record, ¬ step.changes id path) :
    (fs.after ((ofFiles fs clock source).transcript plan selection).events).file?
      (fs.place c.turn.path) = fs.file? (fs.place c.turn.path) := by
  have hothers : ∀ d ∈ earlier ++ later,
      d ∈ ((ofFiles fs clock source).transcript plan selection).chapters := by
    intro d hd
    rw [hsplit]
    rcases List.mem_append.mp hd with hearly | hlate
    · exact List.mem_append_left _ hearly
    · exact List.mem_append_right _ (List.mem_cons_of_mem c hlate)
  -- Whoever creates the file of the report has it for its own report; but no other report is there.
  have hnone : ∀ step ∈ taken ((ofFiles fs clock source).transcript plan selection).events,
      ¬ step.creates fs.place (fs.place c.turn.path) := by
    intro step hstep hcreates
    have hchanges := Step.changes_of_creates hcreates
    have hrecords : ∀ chapters : List Chapter, (∀ d ∈ chapters, d ∈ earlier ++ later) →
        step ∉ taken (chapters.flatMap Chapter.record) := by
      intro chapters hsub hmem
      obtain ⟨d, hd, q, hq, hplace⟩ := completed_of_creates
        (fun d hd => exists_chapter_of_mem (hothers d (hsub d hd))) hmem hcreates
      obtain ⟨_, _, _, rfl⟩ := Turn.ready_of_completed hq
      exact hapart d (hsub d hd) hplace
    have hown : step ∉ taken c.record := by
      intro hmem
      obtain ⟨path, hpath⟩ := Step.exists_path_of_changes hchanges
      exact hquiet path step hmem hpath
    rw [Transcript.events, Transcript.told, hsplit, List.flatMap_append, List.flatMap_cons] at hstep
    simp only [taken_append, List.mem_append] at hstep
    rcases hstep with (hopening | hearly | hrecord | hlate) | hclosing
    · exact not_changes_opening step hopening hchanges
    · exact hrecords earlier (fun d => List.mem_append_left _) hearly
    · exact hown hrecord
    · exact hrecords later (fun d => List.mem_append_right _) hlate
    · exact not_changes_closing step hclosing hchanges
  rw [file?_after recorded_transcript headed_events, blocksIn, headed_events.foldl_blocks hnone]

/-- A channel that is spared by the reports of the others becomes what the files as they were and
the source make of it. -/
theorem undisturbed_of_spared {earlier later : List Chapter} {c : Chapter}
    (hsplit : ((ofFiles fs clock source).transcript plan selection).chapters =
      earlier ++ c :: later)
    (hspared : ∀ d ∈ earlier ++ later, ∀ path ∈ c.files, fs.Spares d.turn.path path) :
    Undisturbed fs source plan c
      ((ofFiles fs clock source).transcript plan selection).events := by
  obtain ⟨hchapter, -, -, -⟩ := transcript_split hsplit
  have hturn : c.turn = (ofFiles fs clock source).turn plan c.before c.selected := by
    rw [hchapter]
    rfl
  have hbefore : ∀ path ∈ c.files, FileSystem.Spared path fs (fs.after c.before) := by
    intro path hpath
    refine (touched_after fun e he other => path_of_changes_before hsplit he).spared ?_
    rintro other ⟨d, hd, rfl⟩
    exact hspared d (List.mem_append_left _ hd) path hpath
  have hpath : c.turn.path ∈ c.files := List.mem_cons_self
  have hapart : ∀ d ∈ earlier ++ later, fs.place d.turn.path ≠ fs.place c.turn.path := by
    intro d hd hsame
    refine (hspared d hd c.turn.path hpath).apart ?_
    rw [hsame]
    exact FileSystem.place_mem_way
  have hcreated := created_eq hsplit (hbefore _ hpath)
  obtain ⟨houtcome, hsegment, hquiet⟩ := chapter_eq hchapter
  rw [hcreated] at houtcome hsegment
  refine ⟨?_, ?_, houtcome, hsegment, ?_⟩
  · rw [hturn, turn_channel]
  · rw [hturn, turn_course, course_eq]
    exact courseIn_of_spared fun path hread => hbefore path (List.mem_cons_of_mem _ hread)
  · rw [Chapter.LeavesReport]
    cases hend : c.outcome with
    | completed r =>
      exact readText_report hsplit (fun d hd => hapart d (List.mem_append_right _ hd)) hend
    | aborted channel e => exact file?_aborted hsplit hapart (hquiet channel e hend)

end Surroundings

end FeedAudit

import FeedAudit.Proofs.Turn

/-!
# Transcripts of runs

A run is told in chapters. The *opening* is what the runner itself writes first; each *chapter* is
what becomes of the steps of one selected channel, followed by the runner's notice when the channel
is aborted; the *closing* is the last line of the log. Only a refusal of what the runner itself
writes ends the telling. Main statement: a run leaves just the events of its transcript, and comes
to the outcomes of the chapters unless one of the runner's own writes is refused
(`Surroundings.run_runSelection`).
-/

namespace FeedAudit

open Host (Selected startingLine loadedLine finishedLine)

/-! ## Chapters -/

/-- What comes of a channel by the report or the error of its turn. -/
def ChannelOutcome.of (channel : String) : Except FeedError ChannelReport → ChannelOutcome
  | .ok r => .completed r
  | .error e => .aborted channel e

/-- The steps by which the runner tells of an outcome. -/
def noticeSteps : ChannelOutcome → List Step
  | .completed _ => []
  | .aborted _ e => [.write (.log [e.message])]

/-- What happened for one selected channel. -/
structure Chapter where
  selected : Selected
  /-- What had happened before. -/
  before : History
  turn : Turn
  /-- What the steps of the turn became. -/
  events : List Event
  /-- What the notice of the runner became. -/
  notice : List Event

namespace Chapter

/-- What came of the channel. -/
def outcome (c : Chapter) : ChannelOutcome :=
  .of c.turn.channel (ending c.events c.turn.result)

/-- All that happened. -/
def record (c : Chapter) : List Event := c.events ++ c.notice

end Chapter

/-! ## Transcripts -/

/-- What happened in a run. -/
structure Transcript where
  opening : List Event
  chapters : List Chapter
  closing : List Event

namespace Transcript

/-- What happened before the closing. -/
def told (t : Transcript) : List Event := t.opening ++ t.chapters.flatMap Chapter.record

/-- All that happened. -/
def events (t : Transcript) : List Event := t.told ++ t.closing

/-- What became of the writes of the runner itself. -/
def own (t : Transcript) : List Event :=
  t.opening ++ t.chapters.flatMap Chapter.notice ++ t.closing

/-- What came of the channels. -/
def outcomes (t : Transcript) : List ChannelOutcome := t.chapters.map Chapter.outcome

end Transcript

/-- The line that tells the time of an event. -/
def timeLine (event : String) (moment : Moment) : String := s!"Test {event} at {moment.text}"

namespace Surroundings

/-- The chapter of a selected channel after a history. -/
def chapter (s : Surroundings) (plan : RunPlan) (h : History) (selected : Selected) : Chapter :=
  let turn := s.turn plan h selected
  let events := s.cut h turn.steps
  { selected := selected
    before := h
    turn := turn
    events := events
    notice := s.cut (h ++ events) (noticeSteps (.of turn.channel (ending events turn.result))) }

/-- The chapters of selected channels after a history, up to one whose notice is refused. -/
def chapters (s : Surroundings) (plan : RunPlan) : History → List Selected → List Chapter
  | _, [] => []
  | h, selected :: rest =>
    let c := s.chapter plan h selected
    c :: if firstRefusal c.notice = none then s.chapters plan (h ++ c.record) rest else []

/-- The steps with which the runner opens a run. -/
def openingSteps (s : Surroundings) (selection : String) : List Step :=
  [.write (.log [timeLine "started" (s.clock [])]), .write (.log [Host.selectionLine selection])]

/-- The steps with which the runner closes a run. -/
def closingSteps (s : Surroundings) (h : History) : List Step :=
  [.write (.log [timeLine "finished" (s.clock h)])]

/-- The transcript of a run. -/
def transcript (s : Surroundings) (plan : RunPlan) (selection : String) : Transcript :=
  let opening := s.cut [] (s.openingSteps selection)
  let chapters :=
    if firstRefusal opening = none then s.chapters plan opening (Host.select plan selection)
    else []
  let told := opening ++ chapters.flatMap Chapter.record
  { opening := opening
    chapters := chapters
    closing :=
      if firstRefusal (opening ++ chapters.flatMap Chapter.notice) = none then
        s.cut told (s.closingSteps told)
      else [] }

variable {s : Surroundings} {h : History} {plan : RunPlan}

/-! ## What a run leaves -/

/-- A channel that is run comes to the outcome of its chapter. -/
theorem outcome_eq (selected : Selected) :
    s.host.outcome plan selected h =
      ((s.chapter plan h selected).outcome, h ++ (s.chapter plan h selected).events) := by
  cases selected with
  | known setup =>
    have hturn := follows_turn (s := s) (h := h) plan setup
    have hrun : s.host.outcome plan (.known setup) h =
        (ChannelOutcome.of setup.channel ((s.host.runChannel plan setup).run.run h).1,
          ((s.host.runChannel plan setup).run.run h).2) := by
      rw [Host.outcome]
      change (match (s.host.runChannel plan setup).run.run h with
        | (r, h') => (match r with
          | .ok r => pure (.completed r)
          | .error e => pure (.aborted setup.channel e) : StateM History ChannelOutcome) h') = _
      rcases (s.host.runChannel plan setup).run.run h with ⟨r | e, h'⟩ <;> rfl
    rw [Follows] at hturn
    rw [hrun, hturn]
    rfl
  | unknown channel =>
    have hresult : (s.turn plan h (.unknown channel)).result = .error (.unknownChannel channel) :=
      rfl
    have hsteps : (s.turn plan h (.unknown channel)).steps = [] :=
      Turn.steps_of_error hresult
    rw [chapter, Chapter.outcome]
    dsimp only
    rw [hsteps, cut_nil, List.append_nil, hresult]
    rfl

/-- The notice of an outcome is all that the runner writes about it. -/
theorem follows_notice (o : ChannelOutcome) :
    s.Follows h (s.host.logAborted o) (noticeSteps o) (.ok ()) := by
  cases o with
  | completed r => exact Follows.pure _
  | aborted channel e => exact follows_log _

/-- What is shown on the console leaves no trace. -/
theorem announce_eq (o : ChannelOutcome) : s.host.announce plan.verbosity o h = ((), h) := by
  unfold Host.announce
  cases plan.verbosity with
  | none => rfl
  | some v =>
    dsimp only
    split <;> rfl

/-- A computation that cannot fail returns its value. -/
theorem run_lift {α : Type} (x : StateM History α) :
    (liftM x : Running (StateM History) α).run.run h = (.ok (x h).1, (x h).2) := rfl

/-- One after the other, selected channels leave their chapters. -/
theorem run_runEach (selecteds : List Selected) :
    (s.host.runEach plan selecteds).run.run h =
      (ending ((s.chapters plan h selecteds).flatMap Chapter.notice)
          (.ok ((s.chapters plan h selecteds).map Chapter.outcome)),
        h ++ (s.chapters plan h selecteds).flatMap Chapter.record) := by
  induction selecteds generalizing h with
  | nil =>
    rw [chapters, List.flatMap_nil, List.flatMap_nil, List.append_nil]
    rfl
  | cons selected rest ih =>
    generalize hc : s.chapter plan h selected = c
    have hout := run_lift (h := h) (s.host.outcome plan selected)
    rw [outcome_eq, hc] at hout
    have hbefore : s.cut (h ++ c.events) (noticeSteps c.outcome) = c.notice := by
      rw [← hc]
      rfl
    have hnotice := follows_notice (s := s) (h := h ++ c.events) c.outcome
    rw [Follows, hbefore, List.append_assoc, ← Chapter.record] at hnotice
    rw [chapters, hc, List.flatMap_cons, List.flatMap_cons, List.map_cons, Host.runEach,
      run_bind_ok hout]
    -- A notice that is refused ends the run; what is refused within a turn does not.
    cases hrefusal : firstRefusal c.notice with
    | some fault =>
      rw [ending_of_some hrefusal] at hnotice
      rw [run_bind_error hnotice, if_neg (Option.some_ne_none fault), List.flatMap_nil,
        List.flatMap_nil, List.append_nil, List.append_nil, ending_of_some hrefusal]
    | none =>
      have hannounce := run_lift (h := h ++ c.record) (s.host.announce plan.verbosity c.outcome)
      rw [ending_of_none hrefusal] at hnotice
      rw [announce_eq] at hannounce
      rw [run_bind_ok hnotice, run_bind_ok hannounce, if_pos rfl,
        ending_append_of_none hrefusal, ← List.append_assoc]
      have hrest := ih (h := h ++ c.record)
      cases hothers : firstRefusal ((s.chapters plan (h ++ c.record) rest).flatMap
          Chapter.notice) with
      | none =>
        rw [ending_of_none hothers] at hrest ⊢
        exact run_bind_ok hrest _
      | some fault =>
        rw [ending_of_some hothers] at hrest ⊢
        exact run_bind_error hrest _

/-- Writing the time of an event is a single step. -/
theorem follows_logTime (event : String) :
    s.Follows h (s.host.logTime event) [.write (.log [timeLine event (s.clock h)])] (.ok ()) :=
  Follows.then follows_now (follows_log _)

/-- A run leaves the events of its transcript. It comes to the outcomes of the channels unless one
of the writes of the runner itself is refused. -/
theorem run_runSelection (selection : String) :
    (s.host.runSelection plan selection).run.run [] =
      (ending (s.transcript plan selection).own (.ok (s.transcript plan selection).outcomes),
        (s.transcript plan selection).events) := by
  have hopening : s.Follows [] (s.host.logTime "started" >>= fun _ =>
      s.host.logLine (Host.selectionLine selection)) (s.openingSteps selection) (.ok ()) :=
    (follows_logTime "started").bind (follows_log _)
  rw [Follows, List.nil_append] at hopening
  rw [Host.runSelection, ← bind_assoc]
  rw [transcript, Transcript.own, Transcript.events, Transcript.told, Transcript.outcomes]
  dsimp only
  generalize s.cut [] (s.openingSteps selection) = opening at hopening ⊢
  -- A refusal ends the run in its opening, in what is told of a channel, or in its closing.
  cases hfirst : firstRefusal opening with
  | some fault =>
    rw [ending_of_some hfirst] at hopening
    rw [if_neg (Option.some_ne_none fault), List.flatMap_nil, List.flatMap_nil, List.append_nil,
      hfirst, if_neg (Option.some_ne_none fault), List.append_nil, ending_of_some hfirst]
    exact run_bind_error hopening _
  | none =>
    rw [ending_of_none hfirst] at hopening
    rw [if_pos rfl, run_bind_ok hopening]
    have heach : (s.host.runEach plan (Host.select plan selection)).run.run opening = _ :=
      run_runEach _
    generalize s.chapters plan opening (Host.select plan selection) = chapters at heach ⊢
    have hrefusal : firstRefusal (opening ++ chapters.flatMap Chapter.notice) =
        firstRefusal (chapters.flatMap Chapter.notice) := by
      rw [firstRefusal_append, hfirst, Option.none_or]
    rw [List.append_assoc, ending_append_of_none hfirst, hrefusal]
    cases hnotice : firstRefusal (chapters.flatMap Chapter.notice) with
    | some fault =>
      rw [ending_of_some hnotice] at heach
      rw [if_neg (Option.some_ne_none fault), List.append_nil, List.append_nil,
        ending_of_some hnotice]
      exact run_bind_error heach _
    | none =>
      rw [ending_of_none hnotice] at heach
      rw [if_pos rfl, run_bind_ok heach, ending_append_of_none hnotice]
      generalize opening ++ chapters.flatMap Chapter.record = told
      have hclosing : s.Follows told (s.host.logTime "finished") (s.closingSteps told) (.ok ()) :=
        follows_logTime "finished"
      exact hclosing.bind (Follows.pure _)

/-! ## The order of the chapters -/

@[simp] theorem chapter_selected (selected : Selected) :
    (s.chapter plan h selected).selected = selected := rfl

@[simp] theorem chapter_before (selected : Selected) :
    (s.chapter plan h selected).before = h := rfl

section Chapter

variable {c : Chapter} {selected : Selected} (hc : c = s.chapter plan h selected)

include hc

/-- The turn of a chapter is that of its channel behind what had happened before. -/
theorem chapter_turn : c.turn = s.turn plan h selected := by
  rw [hc]
  rfl

/-- In a chapter the steps of its turn are taken, up to the first one that is refused. -/
theorem chapter_events : c.events = s.cut h c.turn.steps := by
  rw [hc]
  rfl

/-- Behind its turn the notice of the runner is taken, up to the first step that is refused. -/
theorem chapter_notice : c.notice = s.cut (h ++ c.events) (noticeSteps c.outcome) := by
  rw [hc]
  rfl

end Chapter

/-- Every chapter is that of its channel behind the chapters before it, and behind a refused notice
there is none. -/
theorem chapters_split {selecteds : List Selected} {earlier later : List Chapter} {c : Chapter}
    (hsplit : s.chapters plan h selecteds = earlier ++ c :: later) :
    c = s.chapter plan (h ++ earlier.flatMap Chapter.record) c.selected ∧
      firstRefusal (earlier.flatMap Chapter.notice) = none ∧
      (firstRefusal c.notice ≠ none → later = []) := by
  induction selecteds generalizing h earlier with
  | nil =>
    rw [chapters] at hsplit
    simp at hsplit
  | cons selected rest ih =>
    rw [chapters] at hsplit
    cases earlier with
    | nil =>
      obtain ⟨hc, hlater⟩ := List.cons.inj hsplit
      refine ⟨?_, rfl, ?_⟩
      · rw [← hc, List.flatMap_nil, List.append_nil, chapter_selected]
      · intro hrefused
        rw [hc, if_neg hrefused] at hlater
        exact hlater.symm
    | cons first others =>
      obtain ⟨hfirst, hothers⟩ := List.cons.inj hsplit
      rw [hfirst] at hothers
      by_cases hnotice : firstRefusal first.notice = none
      · rw [if_pos hnotice] at hothers
        obtain ⟨hc, hearlier, hlater⟩ := ih hothers
        refine ⟨?_, ?_, hlater⟩
        · rw [List.flatMap_cons, ← List.append_assoc]
          exact hc
        · rw [List.flatMap_cons, firstRefusal_append, hnotice, hearlier]
          rfl
      · rw [if_neg hnotice] at hothers
        simp at hothers

variable (s h plan) in
/-- The chapters are those of selected channels in order. -/
theorem selected_chapters (selecteds : List Selected) :
    (s.chapters plan h selecteds).map Chapter.selected <+: selecteds ∧
      (firstRefusal ((s.chapters plan h selecteds).flatMap Chapter.notice) = none →
        (s.chapters plan h selecteds).map Chapter.selected = selecteds) := by
  induction selecteds generalizing h with
  | nil => exact ⟨List.prefix_rfl, fun _ => rfl⟩
  | cons selected rest ih =>
    rw [chapters, List.map_cons, List.flatMap_cons, chapter_selected, firstRefusal_append]
    cases hnotice : firstRefusal (s.chapter plan h selected).notice with
    | none =>
      obtain ⟨hpre, hall⟩ := ih (h := h ++ (s.chapter plan h selected).record)
      rw [if_pos rfl, Option.none_or]
      exact ⟨(List.prefix_cons_inj selected).mpr hpre, fun hrest => by rw [hall hrest]⟩
    | some fault =>
      rw [if_neg (Option.some_ne_none fault), List.map_nil]
      exact ⟨(List.prefix_cons_inj selected).mpr List.nil_prefix, nofun⟩

/-! ## The order of a transcript -/

variable {selection : String}

/-- Channels are run if nothing was refused when the run began. -/
theorem transcript_chapters : (s.transcript plan selection).chapters =
    if firstRefusal (s.transcript plan selection).opening = none then
      s.chapters plan (s.transcript plan selection).opening (Host.select plan selection)
    else [] := rfl

/-- A run is closed if nothing that the runner writes itself was refused before. -/
theorem transcript_closing : (s.transcript plan selection).closing =
    if firstRefusal ((s.transcript plan selection).opening ++
        (s.transcript plan selection).chapters.flatMap Chapter.notice) = none then
      s.cut (s.transcript plan selection).told
        (s.closingSteps (s.transcript plan selection).told)
    else [] := rfl

/-- Behind a refused opening nothing is told. -/
theorem transcript_of_refused_opening
    (hrefused : firstRefusal (s.transcript plan selection).opening ≠ none) :
    (s.transcript plan selection).chapters = [] ∧ (s.transcript plan selection).closing = [] := by
  have hchapters : (s.transcript plan selection).chapters = [] := by
    rw [transcript_chapters, if_neg hrefused]
  refine ⟨hchapters, ?_⟩
  rw [transcript_closing, hchapters, List.flatMap_nil, List.append_nil, if_neg hrefused]

/-- The channels of the chapters are the selected ones, as far as the runner gets. -/
theorem selected_transcript :
    (s.transcript plan selection).chapters.map Chapter.selected <+: Host.select plan selection ∧
      (firstRefusal (s.transcript plan selection).own = none →
        (s.transcript plan selection).chapters.map Chapter.selected =
          Host.select plan selection) := by
  rw [Transcript.own, firstRefusal_append, firstRefusal_append, transcript_chapters]
  cases hopening : firstRefusal (s.transcript plan selection).opening with
  | some fault =>
    rw [if_neg (Option.some_ne_none fault)]
    exact ⟨List.nil_prefix, nofun⟩
  | none =>
    obtain ⟨hpre, hall⟩ := selected_chapters s (s.transcript plan selection).opening plan
      (Host.select plan selection)
    rw [if_pos rfl, Option.none_or]
    refine ⟨hpre, fun hnone => hall ?_⟩
    exact (Option.or_eq_none_iff.mp hnone).1

/-- Chapters are told behind the opening and the chapters before them, and behind a refused notice
nothing more is told. -/
theorem transcript_split {earlier later : List Chapter} {c : Chapter}
    (hsplit : (s.transcript plan selection).chapters = earlier ++ c :: later) :
    c = s.chapter plan c.before c.selected ∧
      c.before = (s.transcript plan selection).opening ++ earlier.flatMap Chapter.record ∧
      firstRefusal ((s.transcript plan selection).opening ++
        earlier.flatMap Chapter.notice) = none ∧
      (firstRefusal c.notice ≠ none →
        later = [] ∧ (s.transcript plan selection).closing = []) := by
  have hopening : firstRefusal (s.transcript plan selection).opening = none := by
    cases hfirst : firstRefusal (s.transcript plan selection).opening with
    | none => rfl
    | some fault =>
      rw [(transcript_of_refused_opening (by rw [hfirst]; exact Option.some_ne_none fault)).1]
        at hsplit
      simp at hsplit
  have hchapters := hsplit
  rw [transcript_chapters, if_pos hopening] at hchapters
  obtain ⟨hc, hearlier, hlater⟩ := chapters_split hchapters
  have hbefore : c.before =
      (s.transcript plan selection).opening ++ earlier.flatMap Chapter.record := by
    rw [hc, chapter_before]
  refine ⟨by rw [hbefore]; exact hc, hbefore, ?_, fun hrefused => ⟨hlater hrefused, ?_⟩⟩
  · rw [firstRefusal_append, hopening, hearlier]
    rfl
  · rw [transcript_closing, hsplit, if_neg]
    intro hnone
    rw [firstRefusal_eq_none_iff] at hnone
    refine hrefused (firstRefusal_eq_none_iff.mpr fun e he => hnone e ?_)
    refine List.mem_append_right _ (List.mem_flatMap.mpr ⟨c, ?_, he⟩)
    exact List.mem_append_right _ List.mem_cons_self

/-- All that happened is what had happened before a chapter, the chapter, and what happened behind
it. -/
theorem transcript_events {earlier later : List Chapter} {c : Chapter}
    (hsplit : (s.transcript plan selection).chapters = earlier ++ c :: later) :
    (s.transcript plan selection).events =
      c.before ++ c.events ++
        (c.notice ++ later.flatMap Chapter.record ++ (s.transcript plan selection).closing) := by
  obtain ⟨-, hbefore, -, -⟩ := transcript_split hsplit
  rw [Transcript.events, Transcript.told, hsplit, hbefore, List.flatMap_append, List.flatMap_cons,
    Chapter.record]
  simp only [List.append_assoc]

end Surroundings

end FeedAudit

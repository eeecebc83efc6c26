import FeedAudit.Proofs.ReportFiles
import FeedAudit.Proofs.Storage

/-!
# Runs in which writes are refused

Any of the writes of a run may be refused, each as a whole. A refusal in the turn of a channel
aborts this channel alone, and the others are still run; only a refusal of what the runner itself
writes ends the run. Whatever is refused, a report never holds more than the log of its channel, and
no less but for one container. Main statement: `runSelection_of_refusals`.
-/

namespace FeedAudit

open Host (Selected)

namespace Surroundings

variable {s : Surroundings} {h : History} {plan : RunPlan} {selection : String}

/-! ## The writes of the runner -/

/-- What is told of a channel takes the steps for its outcome. -/
theorem map_step_notice {c : Chapter} {selected : Selected} (hc : c = s.chapter plan h selected) :
    c.notice.map Event.step = noticeSteps c.outcome := by
  have hnotice := chapter_notice hc
  rw [hnotice]
  cases c.outcome with
  | completed r => rfl
  | aborted channel e =>
    rw [noticeSteps, cut]
    cases s.refuses (h ++ c.events) (.write (.log [e.message])) <;> rfl

/-- What is told of channels takes the steps for their outcomes, one after the other. -/
theorem map_step_notices {chapters : List Chapter}
    (hall : ∀ c ∈ chapters, ∃ h selected, c = s.chapter plan h selected) :
    (chapters.flatMap Chapter.notice).map Event.step =
      (chapters.map Chapter.outcome).flatMap noticeSteps := by
  induction chapters with
  | nil => rfl
  | cons c rest ih =>
    obtain ⟨h, selected, hc⟩ := hall c List.mem_cons_self
    rw [List.flatMap_cons, List.map_append, List.map_cons, List.flatMap_cons, map_step_notice hc,
      ih fun d hd => hall d (List.mem_cons_of_mem c hd)]

/-- The runner itself writes the first lines of the log, the errors of the aborted channels and the
last line. -/
theorem map_step_own :
    (s.transcript plan selection).own.map Event.step <+:
      s.openingSteps selection ++ (s.transcript plan selection).outcomes.flatMap noticeSteps ++
        s.closingSteps (s.transcript plan selection).told := by
  have hopened : (s.transcript plan selection).opening = s.cut [] (s.openingSteps selection) := rfl
  cases hopening : firstRefusal (s.transcript plan selection).opening with
  | some fault =>
    have hrefused : firstRefusal (s.transcript plan selection).opening ≠ none := by
      rw [hopening]
      exact Option.some_ne_none fault
    obtain ⟨hchapters, hclosing⟩ := transcript_of_refused_opening hrefused
    rw [Transcript.own, hchapters, hclosing, List.flatMap_nil, List.append_nil, List.append_nil,
      List.append_assoc, hopened]
    exact (map_step_cut_isPrefix _).trans (List.prefix_append _ _)
  | none =>
    have hmade : (s.transcript plan selection).opening.map Event.step =
        s.openingSteps selection := by
      rw [hopened] at hopening ⊢
      rw [cut_of_firstRefusal_eq_none hopening, map_step_made]
    rw [Transcript.own, List.map_append, List.map_append, hmade,
      map_step_notices fun c => exists_chapter_of_mem, ← Transcript.outcomes,
      List.prefix_append_right_inj, transcript_closing]
    split
    · exact map_step_cut_isPrefix _
    · exact List.nil_prefix

/-- A refused write of the runner is the last event of all, and no other one is refused. -/
theorem own_refused {e : Event} (he : e ∈ (s.transcript plan selection).own) {fault : IoFault}
    (hrefused : e.refusal = some fault) :
    (s.transcript plan selection).events.getLast? = some e ∧
      firstRefusal (s.transcript plan selection).own = some fault := by
  rw [Transcript.own] at he
  rcases List.mem_append.mp he with hearly | hclosing
  -- Each of the three parts of a run is broken off at a refusal, and the parts behind it are then
  -- empty.
  · rcases List.mem_append.mp hearly with hopening | hnotice
    · have hunbroken : Unbroken (s.transcript plan selection).opening := unbroken_cut _
      obtain ⟨hlast, hfault⟩ := hunbroken.of_refused hopening hrefused
      have hsome : firstRefusal (s.transcript plan selection).opening ≠ none := by
        rw [hfault]
        exact Option.some_ne_none fault
      obtain ⟨hchapters, hclosing⟩ := transcript_of_refused_opening hsome
      rw [Transcript.events, Transcript.told, Transcript.own, hchapters, hclosing,
        List.flatMap_nil, List.flatMap_nil, List.append_nil, List.append_nil]
      exact ⟨hlast, hfault⟩
    · obtain ⟨c, hc, hnotice⟩ := List.mem_flatMap.mp hnotice
      obtain ⟨earlier, later, hsplit⟩ := List.append_of_mem hc
      obtain ⟨hchapter, -, hearlier, hend⟩ := transcript_split hsplit
      have hunbroken : Unbroken c.notice := by
        rw [hchapter]
        exact unbroken_cut _
      obtain ⟨hlast, hfault⟩ := hunbroken.of_refused hnotice hrefused
      obtain ⟨hlater, hclosing⟩ := hend (by rw [hfault]; exact Option.some_ne_none fault)
      rw [transcript_events hsplit, Transcript.own, hsplit, hlater, hclosing, List.flatMap_nil,
        List.append_nil, List.append_nil, List.append_nil, List.getLast?_append, hlast,
        List.flatMap_append, List.flatMap_cons, List.flatMap_nil, List.append_nil,
        ← List.append_assoc, firstRefusal_append, hearlier, hfault]
      exact ⟨rfl, rfl⟩
  · have htold : (s.transcript plan selection).closing = _ := transcript_closing
    split at htold
    · rename_i hnone
      have hunbroken : Unbroken (s.transcript plan selection).closing := by
        rw [htold]
        exact unbroken_cut _
      obtain ⟨hlast, hfault⟩ := hunbroken.of_refused hclosing hrefused
      rw [Transcript.events, Transcript.own, firstRefusal_append, hnone, hfault,
        List.getLast?_append, hlast]
      exact ⟨rfl, rfl⟩
    · rw [htold] at hclosing
      cases hclosing

/-! ## The turns of channels -/

/-- What is refused in a channel's turn ends the turn and aborts the channel. A channel of which
nothing is refused comes to what it comes to when nothing is refused at all. -/
structure Isolates (s : Surroundings) (plan : RunPlan) (c : Chapter) : Prop where
  of_completed : ∀ r, c.outcome = .completed r → ∀ e ∈ c.events, e.refusal = none
  of_refused : ∀ e ∈ c.events, ∀ fault, e.refusal = some fault →
    c.events.getLast? = some e ∧ c.outcome = .aborted c.selected.channel (.io fault)
  of_unrefused : (∀ e ∈ c.events, e.refusal = none) →
    s.unrefusing.host.outcome plan c.selected c.before = (c.outcome, c.before ++ c.events)

/-- Without refusals, from the same moment on, a channel takes all steps of its turn. -/
theorem outcome_unrefusing (selected : Selected) :
    s.unrefusing.host.outcome plan selected h =
      (.of selected.channel (s.turn plan h selected).result,
        h ++ (s.turn plan h selected).steps.map Step.made) := by
  have hturn : s.unrefusing.turn plan h selected = s.turn plan h selected := rfl
  rw [outcome_eq, chapter, Chapter.outcome]
  dsimp only
  rw [hturn, cut_unrefusing, ending_of_none (firstRefusal_made _), turn_channel]

/-- A refusal in a channel ends this channel alone. -/
theorem isolates {c : Chapter} (hc : c = s.chapter plan c.before c.selected) :
    s.Isolates plan c := by
  have hevents := chapter_events hc
  have hturn := chapter_turn hc
  have hunbroken : Unbroken c.events := by
    rw [hevents]
    exact unbroken_cut _
  have hchannel : c.turn.channel = c.selected.channel := by
    rw [hturn, turn_channel]
  have of_refused : ∀ e ∈ c.events, ∀ fault, e.refusal = some fault →
      c.events.getLast? = some e ∧ c.outcome = .aborted c.selected.channel (.io fault) := by
    intro e he fault hrefused
    obtain ⟨hlast, hfault⟩ := hunbroken.of_refused he hrefused
    refine ⟨hlast, ?_⟩
    rw [Chapter.outcome, ending_of_some hfault, hchannel]
    rfl
  refine ⟨?_, of_refused, ?_⟩
  · intro r hcompleted e he
    cases hrefusal : e.refusal with
    | none => rfl
    | some fault =>
      rw [(of_refused e he fault hrefusal).2] at hcompleted
      cases hcompleted
  · intro hnone
    have hfirst := firstRefusal_eq_none_iff.mpr hnone
    rw [outcome_unrefusing, Chapter.outcome, ending_of_none hfirst, hchannel, ← hturn]
    rw [hevents] at hfirst ⊢
    rw [cut_of_firstRefusal_eq_none hfirst]

/-! ## Reports -/

variable {F : Type} [DecidableEq F]

/-- At every moment of a run behind the creation of a channel's report, as long as nobody has
created the file again, the report is the beginning of the one that is left when nothing is refused
from the channel's turn on, and keeps up with the log of the channel. -/
def KeepsReport (s : Surroundings) (plan : RunPlan) (file : String → F) (events : List Event)
    (c : Chapter) : Prop :=
  ∀ own after, c.before ++ own ++ after <+: events → own <+: c.events →
    (after ≠ [] → own = c.events) →
    (∃ step ∈ taken own, step.creates file (file c.turn.path)) →
    (∀ step ∈ taken after, ¬ step.creates file (file c.turn.path)) →
    ∃ blocks report,
      blocksIn file (file c.turn.path) (taken (c.before ++ own ++ after)) = some blocks ∧
      blocksIn file (file c.turn.path)
        (taken (s.unrefusing.host.outcome plan c.selected c.before).2) = some report ∧
      blocks <+: report ∧ c.turn.KeepsUp (logBlocks (taken own)) blocks

/-- The report of a channel keeps up with its log, as long as nobody creates the file again. -/
theorem keepsReport {earlier later : List Chapter} {c : Chapter} (file : String → F)
    (hsplit : (s.transcript plan selection).chapters = earlier ++ c :: later) :
    s.KeepsReport plan file (s.transcript plan selection).events c := by
  intro own after hmoment hown hafter hcreated hkept
  obtain ⟨blocks, hblocks, hpre, hkeeps⟩ :=
    blocksIn_moment hsplit hmoment hown hafter hcreated hkept
  have hchapter := (transcript_split hsplit).1
  have hturn := chapter_turn hchapter
  have hevents := chapter_events hchapter
  have hresult : ∃ r, c.turn.result = .ok r := by
    obtain ⟨step, hstep, hcreates⟩ := hcreated
    have hsteps : step ∈ c.turn.steps := by
      have htaken := (taken_mono hown).subset hstep
      rw [hevents] at htaken
      exact (taken_cut_isPrefix _).subset htaken
    cases hend : c.turn.result with
    | ok r => exact ⟨r, rfl⟩
    | error e =>
      exact absurd (Step.changes_of_creates hcreates) (Turn.not_changes_of_error hend step hsteps)
  obtain ⟨r, hr⟩ := hresult
  refine ⟨blocks, c.turn.reportBlocks, hblocks, ?_, hpre, hkeeps⟩
  rw [outcome_unrefusing, blocksIn, taken_append, taken_made, List.foldl_append, ← hturn]
  exact Turn.foldl_blocks_steps hr _

/-- Whatever writes are refused, a run ends in an error exactly when one of the runner's own writes
is refused, which is then the last event. Otherwise all selected channels are run in order, and a
refusal in the turn of one of them aborts that channel alone. At every moment the report of a
channel, as long as it is not created again, is the beginning of the report without refusals, with
the containers of the channel's log up to the last one. -/
theorem runSelection_of_refusals (s : Surroundings) (plan : RunPlan) (selection : String)
    (file : String → F) :
    let run := (s.host.runSelection plan selection).run.run []
    let t := s.transcript plan selection
    run.2 = t.events ∧
    t.own.map Event.step <+:
      s.openingSteps selection ++ t.outcomes.flatMap noticeSteps ++ s.closingSteps t.told ∧
    (∀ e, run.1 = .error e ↔ ∃ event ∈ t.own, ∃ fault, event.refusal = some fault ∧ e = .io fault) ∧
    (∀ event ∈ t.own, event.refusal ≠ none → t.events.getLast? = some event) ∧
    t.chapters.map Chapter.selected <+: Host.select plan selection ∧
    (∀ outcomes, run.1 = .ok outcomes →
      outcomes = t.outcomes ∧ t.chapters.map Chapter.selected = Host.select plan selection) ∧
    ∀ c ∈ t.chapters, c.before ++ c.record <+: t.events ∧ s.Isolates plan c ∧
      s.KeepsReport plan file t.events c := by
  intro run t
  have hrun : run = (ending t.own (.ok t.outcomes), t.events) := run_runSelection selection
  have hresult : run.1 = ending t.own (.ok t.outcomes) := congrArg Prod.fst hrun
  have hselected : t.chapters.map Chapter.selected <+: Host.select plan selection ∧
      (firstRefusal t.own = none →
        t.chapters.map Chapter.selected = Host.select plan selection) :=
    selected_transcript
  refine ⟨congrArg Prod.snd hrun, map_step_own, ?_, ?_, hselected.1, ?_, ?_⟩
  -- An error is the first refusal among the own writes of the runner, which is the only one.
  · intro e
    constructor
    · intro herror
      cases hfirst : firstRefusal t.own with
      | none =>
        rw [hresult, ending_of_none hfirst] at herror
        cases herror
      | some fault =>
        rw [hresult, ending_of_some hfirst] at herror
        obtain ⟨event, hevent, hrefused⟩ := List.exists_of_findSome?_eq_some hfirst
        exact ⟨event, hevent, fault, hrefused, (Except.error.inj herror).symm⟩
    · rintro ⟨event, hevent, fault, hrefused, rfl⟩
      rw [hresult, ending_of_some (own_refused hevent hrefused).2]
  · intro event hevent hrefused
    obtain ⟨fault, hfault⟩ := Option.ne_none_iff_exists'.mp hrefused
    exact (own_refused hevent hfault).1
  · intro outcomes hok
    cases hfirst : firstRefusal t.own with
    | none =>
      rw [hresult, ending_of_none hfirst] at hok
      exact ⟨(Except.ok.inj hok).symm, hselected.2 hfirst⟩
    | some fault =>
      rw [hresult, ending_of_some hfirst] at hok
      cases hok
  · intro c hc
    obtain ⟨earlier, later, hsplit⟩ := List.append_of_mem hc
    refine ⟨?_, isolates (transcript_split hsplit).1, keepsReport file hsplit⟩
    have hevents : t.events = c.before ++ c.events ++
        (c.notice ++ later.flatMap Chapter.record ++ t.closing) := transcript_events hsplit
    rw [hevents, Chapter.record]
    exact ⟨later.flatMap Chapter.record ++ t.closing, by simp only [List.append_assoc]⟩

/-! ## A file that two channels share -/

/-- Surroundings in which nothing is refused, time stands still and every feed is the same. -/
def still (text : String) : Surroundings where
  clock _ := ⟨0, 0, 0⟩
  content _ _ := .error .notFound
  feed _ _ _ := .ok text
  refusal _ _ := none

/-- Two channels with names of their own, whose reports stand in one file. -/
def sharedFile : RunPlan where
  channels := [⟨"a/x", .given ⟨"movie", [.existing "1" "id"]⟩⟩,
    ⟨"a//x", .given ⟨"movie", [.existing "1" "id"]⟩⟩]
  reportDir := "reports"
  limit := 0
  parallel := false
  verbosity := none

/-- A report is lost when another channel creates a file at the same place, although nothing is
refused. -/
theorem report_lost_to_shared_file :
    let s := still "<r><movie><id>1</id></movie></r>"
    let t := s.transcript sharedFile "all"
    let place := (FileSystem.empty []).place
    (sharedFile.channels.map (·.channel)).Nodup ∧ (∀ e ∈ t.events, e.refusal = none) ∧
    ∃ c ∈ t.chapters, (∃ step ∈ taken c.events, step.creates place (place c.turn.path)) ∧
      ¬ ∃ blocks report,
        blocksIn place (place c.turn.path) (taken t.events) = some blocks ∧
        blocksIn place (place c.turn.path)
          (taken (s.unrefusing.host.outcome sharedFile c.selected c.before).2) = some report ∧
        blocks <+: report := by
  intro s t place
  have hheads : ∃ c ∈ t.chapters,
      (∃ step ∈ taken c.events, step.creates place (place c.turn.path)) ∧
      (blocksIn place (place c.turn.path) (taken t.events)).bind List.head? ≠ none ∧
      (blocksIn place (place c.turn.path) (taken t.events)).bind List.head? ≠
        (blocksIn place (place c.turn.path)
          (taken (s.unrefusing.host.outcome sharedFile c.selected c.before).2)).bind
            List.head? := by
    decide +kernel
  obtain ⟨c, hc, hcreated, hsome, hne⟩ := hheads
  refine ⟨by decide, by decide +kernel, c, hc, hcreated, ?_⟩
  rintro ⟨blocks, report, hblocks, hreport, hpre⟩
  rw [hblocks, Option.bind_some] at hsome hne
  rw [hreport, Option.bind_some] at hne
  obtain ⟨rest, rfl⟩ := hpre
  cases blocks with
  | nil => exact hsome rfl
  | cons first others => exact hne rfl

end Surroundings

end FeedAudit

import FeedAudit.Proofs.Transcript

/-!
# Blocks of report files

Which file a path names is left open here: `file` may be any function from paths, so that several
paths may name one file. A file holds the blocks that were written to it since it was last created.
Nobody writes to a report before creating it (`Headed`), and so what a file holds is known from the
turn that created it last. Main statement: at any moment behind its creation, the report of a turn
is the beginning of the whole report, and it keeps up with the log of the channel up to one
container (`Turn.blocksIn_eq`).
-/

namespace FeedAudit

open Host (Selected startingLine loadedLine finishedLine)

/-! ## Blocks of the log -/

/-- The blocks that steps write to the log. -/
def logBlocks (steps : List Step) : List (List String) :=
  steps.filterMap fun
    | .write (.log lines) => some lines
    | _ => none

/-- The blocks in the log of two lists of steps, one after the other. -/
theorem logBlocks_append (steps others : List Step) :
    logBlocks (steps ++ others) = logBlocks steps ++ logBlocks others :=
  List.filterMap_append

/-! ## Blocks of a file -/

section Files

variable {F : Type} [DecidableEq F] (file : String → F) (x : F)

/-- Whether a step starts a file afresh. -/
def Step.creates : Step → Bool
  | .write (.report path .create _) => file path = x
  | _ => false

/-- Whether a step writes to a file. -/
def Step.changes : Step → Bool
  | .write (.report path _ _) => file path = x
  | _ => false

/-- The blocks of a file behind a step, if it was ever created. -/
def Step.blocks (held : Option (List (List String))) : Step → Option (List (List String))
  | .write (.report path mode lines) =>
    if file path = x then
      match mode with
      | .create => some [lines]
      | .append => held.map (· ++ [lines])
    else held
  | _ => held

/-- The blocks of a file that steps have created. -/
def blocksIn (steps : List Step) : Option (List (List String)) :=
  steps.foldl (Step.blocks file x) none

variable {file x}

/-- A step that creates a file changes it. -/
theorem Step.changes_of_creates {step : Step} (hcreates : step.creates file x) :
    step.changes file x := by
  unfold creates at hcreates
  split at hcreates
  · exact hcreates
  · cases hcreates

/-- A step that does not change a file leaves its blocks as they are. -/
theorem Step.blocks_of_not_changes {step : Step} (hquiet : ¬ step.changes file x)
    (held : Option (List (List String))) : step.blocks file x held = held := by
  unfold changes at hquiet
  unfold blocks
  split at hquiet
  · exact if_neg (by simpa using hquiet)
  · rfl

/-- Creating a file leaves the one block that is written. -/
theorem Step.blocks_create {path : String} (hpath : file path = x) (lines : List String)
    (held : Option (List (List String))) :
    (Step.write (.report path .create lines)).blocks file x held = some [lines] := by
  rw [blocks, if_pos hpath]

/-- Appending to a file adds a block behind those it holds, if there is the file. -/
theorem Step.blocks_append {path : String} (hpath : file path = x) (lines : List String)
    (held : Option (List (List String))) :
    (Step.write (.report path .append lines)).blocks file x held = held.map (· ++ [lines]) := by
  rw [blocks, if_pos hpath]

/-- Steps that do not write to a file leave it as it is. -/
theorem foldl_blocks_of_not_changes {steps : List Step}
    (hquiet : ∀ step ∈ steps, ¬ step.changes file x) (held : Option (List (List String))) :
    steps.foldl (Step.blocks file x) held = held := by
  induction steps with
  | nil => rfl
  | cons step rest ih =>
    rw [List.foldl_cons, Step.blocks_of_not_changes (hquiet step List.mem_cons_self)]
    exact ih fun other hother => hquiet other (List.mem_cons_of_mem _ hother)

/-- A file that was created stays. -/
theorem foldl_blocks_isSome (steps : List Step) {held : Option (List (List String))}
    (hheld : held.isSome) : (steps.foldl (Step.blocks file x) held).isSome := by
  induction steps generalizing held with
  | nil => exact hheld
  | cons step rest ih =>
    refine ih ?_
    unfold Step.blocks
    split
    · split
      · split
        · rfl
        · rwa [Option.isSome_map]
      · exact hheld
    · exact hheld

/-- A file that was created holds blocks. -/
theorem blocksIn_isSome_of_creates {steps : List Step}
    (hcreated : ∃ step ∈ steps, step.creates file x) : (blocksIn file x steps).isSome := by
  obtain ⟨step, hstep, hcreates⟩ := hcreated
  obtain ⟨before, after, rfl⟩ := List.append_of_mem hstep
  rw [blocksIn, List.foldl_append, List.foldl_cons]
  refine foldl_blocks_isSome after ?_
  unfold Step.creates at hcreates
  split at hcreates
  · rw [Step.blocks_create (of_decide_eq_true hcreates)]
    rfl
  · cases hcreates

/-! ## Creation before all else -/

variable (file x) in
/-- Steps that write to a file only behind its creation. -/
def Headed (steps : List Step) : Prop :=
  ∀ early, early <+: steps → (∀ step ∈ early, ¬ step.creates file x) →
    ∀ step ∈ early, ¬ step.changes file x

/-- A file that is created before it is changed is so up to every step. -/
theorem Headed.of_isPrefix {steps others : List Step} (hheaded : Headed file x others)
    (hpre : steps <+: others) : Headed file x steps :=
  fun early hearly => hheaded early (hearly.trans hpre)

/-- A file that is not changed need not be created. -/
theorem headed_of_not_changes {steps : List Step}
    (hquiet : ∀ step ∈ steps, ¬ step.changes file x) : Headed file x steps :=
  fun _ hearly _ step hstep => hquiet step (hearly.subset hstep)

/-- A file that is created by the first step may be changed by all others. -/
theorem headed_cons_of_creates {step : Step} (hcreates : step.creates file x)
    (rest : List Step) : Headed file x (step :: rest) := by
  intro early hearly hnone other hother
  obtain rfl | ⟨tail, rfl, _⟩ := List.prefix_cons_iff.mp hearly
  · cases hother
  · exact absurd hcreates (hnone step List.mem_cons_self)

/-- Either steps end within the first of two lists, or they go on in the second. -/
theorem within_or_beyond {α : Type} {xs ys zs : List α} (hpre : xs <+: ys ++ zs) :
    xs <+: ys ∨ ∃ tail, xs = ys ++ tail ∧ tail <+: zs := by
  rcases List.prefix_or_prefix_of_prefix hpre (List.prefix_append ys zs) with hin | ⟨tail, htail⟩
  · exact Or.inl hin
  · refine Or.inr ⟨tail, htail.symm, ?_⟩
    rw [← htail] at hpre
    exact (List.prefix_append_right_inj ys).mp hpre

/-- A file that is created before it is changed in each of two parts is so in both together. -/
theorem Headed.append {steps others : List Step} (hsteps : Headed file x steps)
    (hothers : Headed file x others) : Headed file x (steps ++ others) := by
  intro early hearly hnone
  rcases within_or_beyond hearly with hin | ⟨tail, rfl, htail⟩
  · exact hsteps early hin hnone
  · intro step hstep
    rcases List.mem_append.mp hstep with hfirst | hsecond
    · exact hsteps steps List.prefix_rfl
        (fun other hother => hnone other (List.mem_append_left _ hother)) step hfirst
    · exact hothers tail htail
        (fun other hother => hnone other (List.mem_append_right _ hother)) step hsecond

/-- A file stays as it is until it is created anew. -/
theorem Headed.foldl_blocks {steps : List Step} (hheaded : Headed file x steps)
    (hnone : ∀ step ∈ steps, ¬ step.creates file x) (held : Option (List (List String))) :
    steps.foldl (Step.blocks file x) held = held :=
  foldl_blocks_of_not_changes (hheaded steps List.prefix_rfl hnone) held

/-! ## Containers -/

variable (file) in
/-- Of the containers, at any moment either all that is in the log is in the report, or the last
one is not there yet. -/
theorem containers_progress (path : String) (runs : List ContainerRun) {done : List Step}
    (hdone : done <+: runs.flatMap (containerSteps path)) :
    ∃ i j, j ≤ i ∧ i ≤ j + 1 ∧ i ≤ runs.length ∧
      logBlocks done = (runs.take i).map (·.log.toList) ∧
      ∀ held, done.foldl (Step.blocks file (file path)) (some held) =
        some (held ++ (runs.take j).map (·.summary.lines)) := by
  induction runs generalizing done with
  | nil =>
    rw [List.prefix_nil.mp hdone]
    exact ⟨0, 0, Nat.le_refl 0, Nat.zero_le 1, Nat.le_refl 0, rfl, fun held => by simp⟩
  | cons run rest ih =>
    rw [List.flatMap_cons, containerSteps, List.cons_append] at hdone
    obtain rfl | ⟨logged, rfl, hlogged⟩ := List.prefix_cons_iff.mp hdone
    · exact ⟨0, 0, Nat.le_refl 0, Nat.zero_le 1, Nat.zero_le _, rfl, fun held => by simp⟩
    rw [List.cons_append, List.nil_append] at hlogged
    obtain rfl | ⟨later, rfl, hlater⟩ := List.prefix_cons_iff.mp hlogged
    · refine ⟨1, 0, Nat.zero_le 1, Nat.le_refl 1, ?_, rfl, fun held => ?_⟩
      · exact Nat.succ_le_succ (Nat.zero_le _)
      · rw [List.take_zero, List.map_nil, List.append_nil]
        rfl
    · obtain ⟨i, j, hji, hij, hi, hlog, hblocks⟩ := ih hlater
      refine ⟨i + 1, j + 1, Nat.succ_le_succ hji, Nat.succ_le_succ hij, Nat.succ_le_succ hi, ?_,
        fun held => ?_⟩
      · rw [List.take_succ_cons, List.map_cons, ← hlog]
        rfl
      · have hfirst : (Step.write (.report path .append run.summary.lines)).blocks file
            (file path) (some held) = some (held ++ [run.summary.lines]) := by
          rw [Step.blocks_append rfl, Option.map_some]
        rw [List.take_succ_cons, List.map_cons, List.foldl_cons, List.foldl_cons]
        change later.foldl _ ((Step.write (.report path .append run.summary.lines)).blocks file
          (file path) (some held)) = _
        rw [hfirst, hblocks, List.append_assoc, List.singleton_append]

variable (file) in
/-- All containers, the log and the report of each one. -/
theorem containers_written (path : String) (runs : List ContainerRun)
    (held : List (List String)) :
    logBlocks (runs.flatMap (containerSteps path)) = runs.map (·.log.toList) ∧
      (runs.flatMap (containerSteps path)).foldl (Step.blocks file (file path)) (some held) =
        some (held ++ runs.map (·.summary.lines)) := by
  induction runs generalizing held with
  | nil => exact ⟨rfl, by simp⟩
  | cons run rest ih =>
    have hfirst : (containerSteps path run).foldl (Step.blocks file (file path)) (some held) =
        some (held ++ [run.summary.lines]) := by
      change Step.blocks file (file path) (some held) (.write (.report path .append _)) = _
      rw [Step.blocks_append rfl, Option.map_some]
    obtain ⟨hlog, hblocks⟩ := ih (held ++ [run.summary.lines])
    rw [List.flatMap_cons, logBlocks_append, hlog, List.foldl_append, hfirst, hblocks,
      List.append_assoc]
    exact ⟨rfl, rfl⟩

/-! ## Reports -/

namespace Turn

/-- The blocks of the whole report. -/
def reportBlocks (t : Turn) : List (List String) :=
  headerLines t.channel t.started :: t.course.runs.map (·.summary.lines) ++
    match t.result with
    | .error _ => []
    | .ok r => [r.footerLines]

/-- The blocks of the log and of the report are behind the header those of the first containers,
and more only when no container is missing. The report has the containers of the log, up to the
last one. -/
def KeepsUp (t : Turn) (logs blocks : List (List String)) : Prop :=
  ∃ i j told closed, j ≤ i ∧ i ≤ j + 1 ∧ i ≤ t.course.runs.length ∧
    logs = [startingLine t.channel] :: [loadedLine] ::
      (t.course.runs.take i).map (·.log.toList) ++ told ∧
    blocks = headerLines t.channel t.started ::
      (t.course.runs.take j).map (·.summary.lines) ++ closed ∧
    (told ≠ [] → i = t.course.runs.length) ∧ (closed ≠ [] → j = t.course.runs.length)

variable {t : Turn}

/-- No report is changed before it is created. -/
theorem not_changes_preface : ∀ step ∈ t.preface, ¬ step.changes file x := by
  simp [preface, Step.changes]

/-- A turn that ends in an error writes to no file. -/
theorem not_changes_of_error {e : FeedError} (hresult : t.result = .error e) :
    ∀ step ∈ t.steps, ¬ step.changes file x := by
  rw [steps_of_error hresult, beginning]
  cases hcourse : t.course with
  | ready spec containers => exact absurd hcourse (not_ready_of_error hresult spec containers)
  | _ => simp [preface, Step.changes]

/-- A turn that writes to a file has found its containers. -/
theorem ready_of_changes {step : Step} (hstep : step ∈ t.steps)
    (hchanges : step.changes file x) : ∃ spec containers, t.course = .ready spec containers := by
  cases hresult : t.result with
  | ok r => exact ready_of_ok hresult
  | error e => exact absurd hchanges (not_changes_of_error hresult step hstep)

/-- The only file a turn writes to is that of its report. -/
theorem file_path_of_changes {step : Step} (hstep : step ∈ t.steps)
    (hchanges : step.changes file x) : file t.path = x := by
  obtain ⟨spec, containers, hcourse⟩ := ready_of_changes hstep hchanges
  rw [steps_of_ready hcourse, List.mem_append, List.mem_cons, List.mem_append] at hstep
  obtain hfirst | rfl | hcontainer | hlast := hstep
  · exact absurd hchanges (not_changes_preface step hfirst)
  · exact of_decide_eq_true hchanges
  · obtain ⟨run, _, hrun⟩ := List.mem_flatMap.mp hcontainer
    simp only [containerSteps, List.mem_cons, List.not_mem_nil, or_false] at hrun
    obtain rfl | rfl := hrun
    · cases hchanges
    · exact of_decide_eq_true hchanges
  · rw [conclusion] at hlast
    split at hlast
    · cases hlast
    · simp only [List.mem_cons, List.not_mem_nil, or_false] at hlast
      obtain rfl | rfl := hlast
      · exact of_decide_eq_true hchanges
      · cases hchanges

/-- A turn creates its report before it writes to it. -/
theorem headed_steps : Headed file x t.steps := by
  by_cases hchanges : ∃ step ∈ t.steps, step.changes file x
  · obtain ⟨step, hstep, hchanges⟩ := hchanges
    obtain ⟨spec, containers, hcourse⟩ := ready_of_changes hstep hchanges
    have hpath := file_path_of_changes hstep hchanges
    rw [steps_of_ready hcourse]
    have hcreates : t.creation.creates file x := decide_eq_true hpath
    exact (headed_of_not_changes not_changes_preface).append (headed_cons_of_creates hcreates _)
  · exact headed_of_not_changes fun step hstep hyes => hchanges ⟨step, hstep, hyes⟩

variable (file) in
/-- What is done behind the last container is the footer and then the last line of the log. -/
theorem conclusion_progress {r : ChannelReport} (hresult : t.result = .ok r) {done : List Step}
    (hdone : done <+: t.conclusion) :
    ∃ closed, closed <+: [r.footerLines] ∧
      ∀ held, done.foldl (Step.blocks file (file t.path)) (some held) = some (held ++ closed) := by
  rw [conclusion, hresult] at hdone
  obtain rfl | ⟨footed, rfl, hfooted⟩ := List.prefix_cons_iff.mp hdone
  · exact ⟨[], List.nil_prefix, fun held => by simp⟩
  · refine ⟨[r.footerLines], List.prefix_rfl, fun held => ?_⟩
    have hquiet : ∀ step ∈ footed, ¬ step.changes file (file t.path) := by
      intro step hstep
      have hlog := hfooted.subset hstep
      rw [List.mem_singleton] at hlog
      rw [hlog]
      simp [Step.changes]
    have hfooter : (Step.write (.report t.path .append r.footerLines)).blocks file
        (file t.path) (some held) = some (held ++ [r.footerLines]) := by
      rw [Step.blocks_append rfl, Option.map_some]
    rw [List.foldl_cons, hfooter]
    exact foldl_blocks_of_not_changes hquiet _

/-- Once a turn has created its report, at any moment the report is the beginning of the whole one
and keeps up with the log, whatever the file held before. -/
theorem progress {done : List Step} (hdone : done <+: t.steps)
    (hcreated : ∃ step ∈ done, step.creates file x) :
    ∃ blocks, (∀ held, done.foldl (Step.blocks file x) held = some blocks) ∧
      blocks <+: t.reportBlocks ∧ t.KeepsUp (logBlocks done) blocks := by
  obtain ⟨step, hstep, hcreates⟩ := hcreated
  have hchanges := Step.changes_of_creates hcreates
  obtain ⟨spec, containers, hcourse⟩ := ready_of_changes (hdone.subset hstep) hchanges
  obtain rfl := file_path_of_changes (hdone.subset hstep) hchanges
  have hr := result_of_ready hcourse
  generalize t.report spec = r at hr
  rw [steps_of_ready hcourse] at hdone
  have hno : ¬ done <+: t.preface :=
    fun hin => not_changes_preface step (hin.subset hstep) hchanges
  obtain hin | ⟨created, rfl, hcreated⟩ := within_or_beyond hdone
  · exact absurd hin hno
  obtain rfl | ⟨later, rfl, hlater⟩ := List.prefix_cons_iff.mp hcreated
  · rw [List.append_nil] at hno
    exact absurd List.prefix_rfl hno
  have hcreation : ∀ held, (t.preface ++ t.creation :: later).foldl
      (Step.blocks file (file t.path)) held =
        later.foldl (Step.blocks file (file t.path)) (some [headerLines t.channel t.started]) := by
    intro held
    rw [List.foldl_append, foldl_blocks_of_not_changes not_changes_preface, List.foldl_cons,
      creation, Step.blocks_create rfl]
  have hlogs : logBlocks (t.preface ++ t.creation :: later) =
      [startingLine t.channel] :: [loadedLine] :: logBlocks later := rfl
  have hreport : t.reportBlocks = headerLines t.channel t.started ::
      (t.course.runs.map (·.summary.lines) ++ [r.footerLines]) := by
    rw [reportBlocks, hr]
    rfl
  rw [hlogs, hreport]
  -- The steps behind the creation end among the containers, or they go beyond the last of them.
  obtain hin | ⟨behind, rfl, hbehind⟩ := within_or_beyond hlater
  · obtain ⟨i, j, hji, hij, hi, hlog, hblocks⟩ := containers_progress file _ _ hin
    refine ⟨_, fun held => (hcreation held).trans (hblocks _), ?_, i, j, [], [], hji, hij, hi, ?_,
      ?_, fun hne => absurd rfl hne, fun hne => absurd rfl hne⟩
    · rw [List.singleton_append, List.prefix_cons_inj]
      exact ((List.take_prefix j _).map _).trans (List.prefix_append _ _)
    · rw [hlog, List.append_nil]
    · rw [List.append_nil]
      rfl
  · obtain ⟨hlog, hblocks⟩ := containers_written file t.path t.course.runs
      [headerLines t.channel t.started]
    obtain ⟨closed, hclosed, hfooter⟩ := conclusion_progress file hr hbehind
    refine ⟨headerLines t.channel t.started :: t.course.runs.map (·.summary.lines) ++ closed,
      fun held => ?_, ?_, t.course.runs.length, t.course.runs.length, logBlocks behind, closed,
      Nat.le_refl _, Nat.le_succ _, Nat.le_refl _, ?_, ?_, fun _ => rfl, fun _ => rfl⟩
    · rw [hcreation, List.foldl_append, hblocks, hfooter]
      rfl
    · rw [List.cons_append, List.prefix_cons_inj, List.prefix_append_right_inj]
      exact hclosed
    · rw [List.take_length, logBlocks_append, hlog]
      rfl
    · rw [List.take_length]

/-- A turn that comes to its end leaves the whole report. -/
theorem foldl_blocks_steps {r : ChannelReport} (hresult : t.result = .ok r)
    (held : Option (List (List String))) :
    t.steps.foldl (Step.blocks file (file t.path)) held = some t.reportBlocks := by
  obtain ⟨spec, containers, hcourse⟩ := ready_of_ok hresult
  obtain ⟨-, hblocks⟩ := containers_written file t.path t.course.runs
    [headerLines t.channel t.started]
  rw [steps_of_ready hcourse, List.foldl_append,
    foldl_blocks_of_not_changes not_changes_preface, List.foldl_cons, creation,
    Step.blocks_create rfl, List.foldl_append, hblocks, conclusion, reportBlocks, hresult,
    List.foldl_cons, Step.blocks_append rfl]
  rfl

end Turn

/-! ## Runs -/

/-- The notices of the runner are only written to the log. -/
theorem not_changes_noticeSteps (o : ChannelOutcome) :
    ∀ step ∈ noticeSteps o, ¬ step.changes file x := by
  cases o <;> simp [noticeSteps, Step.changes]

namespace Surroundings

variable {s : Surroundings} {h : History} {plan : RunPlan} {selection : String}

/-- Steps that are taken only as far as none is refused are headed if they all are. -/
theorem headed_cut {steps : List Step} (hheaded : Headed file x steps) :
    Headed file x (taken (s.cut h steps)) :=
  hheaded.of_isPrefix (taken_cut_isPrefix steps)

/-- No report is changed by what is told of a channel. -/
theorem not_changes_notice {c : Chapter} {selected : Host.Selected}
    (hc : c = s.chapter plan h selected) : ∀ step ∈ taken c.notice, ¬ step.changes file x := by
  have hnotice := chapter_notice hc
  intro step hstep
  rw [hnotice] at hstep
  exact not_changes_noticeSteps _ step ((taken_cut_isPrefix _).subset hstep)

/-- No report is changed when a run begins. -/
theorem not_changes_opening :
    ∀ step ∈ taken (s.transcript plan selection).opening, ¬ step.changes file x := by
  intro step hstep
  have hopened := (taken_cut_isPrefix (s.openingSteps selection)).subset hstep
  simp only [openingSteps, List.mem_cons, List.not_mem_nil, or_false] at hopened
  obtain rfl | rfl := hopened <;> exact Bool.false_ne_true

/-- No report is changed when a run is over. -/
theorem not_changes_closing :
    ∀ step ∈ taken (s.transcript plan selection).closing, ¬ step.changes file x := by
  intro step hstep
  rw [transcript_closing] at hstep
  split at hstep
  · rw [List.mem_singleton.mp ((taken_cut_isPrefix _).subset hstep)]
    exact Bool.false_ne_true
  · cases hstep

/-- A channel creates every report that it changes. -/
theorem headed_record (c : Chapter) {selected : Host.Selected}
    (hc : c = s.chapter plan h selected) : Headed file x (taken c.record) := by
  have hevents := chapter_events hc
  rw [Chapter.record, taken_append, hevents]
  exact (headed_cut Turn.headed_steps).append (headed_of_not_changes (not_changes_notice hc))

/-- The channels of a run create every report before they change it. -/
theorem headed_records {chapters : List Chapter}
    (hall : ∀ c ∈ chapters, ∃ h selected, c = s.chapter plan h selected) :
    Headed file x (taken (chapters.flatMap Chapter.record)) := by
  induction chapters with
  | nil => exact headed_of_not_changes nofun
  | cons c rest ih =>
    obtain ⟨h, selected, hc⟩ := hall c List.mem_cons_self
    rw [List.flatMap_cons, taken_append]
    exact (headed_record c hc).append (ih fun d hd => hall d (List.mem_cons_of_mem c hd))

/-- Every channel of a run is run behind what had happened before. -/
theorem chapter_of_mem {c : Chapter} (hc : c ∈ (s.transcript plan selection).chapters) :
    c = s.chapter plan c.before c.selected := by
  obtain ⟨earlier, later, hsplit⟩ := List.append_of_mem hc
  exact (transcript_split hsplit).1

/-- Every channel of a run is run after some history. -/
theorem exists_chapter_of_mem {c : Chapter} (hc : c ∈ (s.transcript plan selection).chapters) :
    ∃ h selected, c = s.chapter plan h selected :=
  ⟨c.before, c.selected, chapter_of_mem hc⟩

/-- Every channel that is run behind another one is run after some history. -/
theorem exists_chapter_of_later {earlier later : List Chapter} {c : Chapter}
    (hsplit : (s.transcript plan selection).chapters = earlier ++ c :: later) :
    ∀ d ∈ later, ∃ h selected, d = s.chapter plan h selected := by
  intro d hd
  have hmem : d ∈ (s.transcript plan selection).chapters := by
    rw [hsplit]
    exact List.mem_append_right _ (List.mem_cons_of_mem c hd)
  exact exists_chapter_of_mem hmem

/-- What is written behind a chapter's own steps goes to files that are created again. -/
theorem headed_behind {earlier later : List Chapter} {c : Chapter}
    (hsplit : (s.transcript plan selection).chapters = earlier ++ c :: later) :
    Headed file x (taken (c.notice ++ later.flatMap Chapter.record ++
      (s.transcript plan selection).closing)) := by
  rw [taken_append, taken_append]
  exact ((headed_of_not_changes (not_changes_notice (transcript_split hsplit).1)).append
    (headed_records (exists_chapter_of_later hsplit))).append
      (headed_of_not_changes not_changes_closing)

/-- In a whole run nobody writes to a file before creating it. -/
theorem headed_events : Headed file x (taken (s.transcript plan selection).events) := by
  rw [Transcript.events, Transcript.told, taken_append, taken_append]
  exact ((headed_of_not_changes not_changes_opening).append
    (headed_records fun c => exists_chapter_of_mem)).append
      (headed_of_not_changes not_changes_closing)

/-- At any moment behind its creation by a turn, and as long as nobody has created it again, the
file of the report holds the beginning of the whole report and keeps up with the log. -/
theorem blocksIn_moment {earlier later : List Chapter} {c : Chapter}
    (hsplit : (s.transcript plan selection).chapters = earlier ++ c :: later)
    {own after : List Event}
    (hmoment : c.before ++ own ++ after <+: (s.transcript plan selection).events)
    (hown : own <+: c.events) (hafter : after ≠ [] → own = c.events)
    (hcreated : ∃ step ∈ taken own, step.creates file x)
    (hkept : ∀ step ∈ taken after, ¬ step.creates file x) :
    ∃ blocks, blocksIn file x (taken (c.before ++ own ++ after)) = some blocks ∧
      blocks <+: c.turn.reportBlocks ∧ c.turn.KeepsUp (logBlocks (taken own)) blocks := by
  have hevents := chapter_events (transcript_split hsplit).1
  have hdone : taken own <+: c.turn.steps := by
    rw [hevents] at hown
    exact (taken_mono hown).trans (taken_cut_isPrefix _)
  obtain ⟨blocks, hblocks, hpre, hkeeps⟩ := Turn.progress hdone hcreated
  have hheaded : Headed file x (taken after) := by
    by_cases hnil : after = []
    · rw [hnil]
      exact headed_of_not_changes nofun
    · rw [transcript_events hsplit, hafter hnil, List.prefix_append_right_inj] at hmoment
      exact (headed_behind hsplit).of_isPrefix (taken_mono hmoment)
  refine ⟨blocks, ?_, hpre, hkeeps⟩
  rw [blocksIn, taken_append, taken_append, List.foldl_append, List.foldl_append, hblocks]
  exact hheaded.foldl_blocks hkept _

end Surroundings

end Files

end FeedAudit

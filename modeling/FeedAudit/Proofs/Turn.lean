import FeedAudit.Proofs.History

/-!
# Turns of channels

When it is a channel's turn, its expectation, its feed and the clock decide what is written: the
*course* says how far the channel comes, and with it all steps of its turn and its result are known
before any of them is taken. Main statement: running a channel follows the steps of its turn
(`Surroundings.follows_turn`), with one refusal ending them early.
-/

namespace FeedAudit

open Host (Selected startingLine loadedLine finishedLine)

/-! ## Courses -/

/-- How far a channel comes by its expectation and its feed. -/
inductive Course where
  /-- No channel of the name can be tested. -/
  | unknown
  /-- The expectation cannot be had. -/
  | unloaded (e : FeedError)
  /-- The document cannot be had. -/
  | unfed (e : FeedError)
  /-- The containers are not found in the document. -/
  | unfound (e : FeedError)
  /-- The containers are checked. -/
  | ready (spec : ContainerSpec) (containers : List Selection)

namespace Course

/-- The course by what comes of the expectation and of the feed. -/
def of (expectation : Except FeedError ContainerSpec)
    (document : Except FeedError Markup.Document) : Course :=
  match expectation with
  | .error e => .unloaded e
  | .ok spec =>
    match document with
    | .error e => .unfed e
    | .ok document =>
      match (findContainers document spec).mapError FeedError.ofContainers with
      | .error e => .unfound e
      | .ok containers => .ready spec containers

/-- What comes of the containers that are checked. -/
def runs : Course → List ContainerRun
  | .ready spec containers => containers.map (checkContainer · spec)
  | _ => []

end Course

/-! ## Turns -/

/-- All that decides what is written when it is a channel's turn. -/
structure Turn where
  channel : String
  /-- The largest number of records the feed is asked for. -/
  limit : Nat
  /-- The file of the report. -/
  path : String
  course : Course
  started : Moment
  /-- When the last container has been written. -/
  finished : Moment

/-- The steps in which what came of a container is written. -/
def containerSteps (path : String) (run : ContainerRun) : List Step :=
  [.write (.log run.log.toList), .write (.report path .append run.summary.lines)]

namespace Turn

/-- The step that creates the report. -/
def creation (t : Turn) : Step :=
  .write (.report t.path .create (headerLines t.channel t.started))

/-- The steps before the containers are looked for. -/
def preface (t : Turn) : List Step :=
  [.write (.log [startingLine t.channel]), .request t.channel t.limit, .write (.log [loadedLine])]

/-- The steps before the containers are checked. -/
def beginning (t : Turn) : List Step :=
  match t.course with
  | .unknown => []
  | .unloaded _ => [.write (.log [startingLine t.channel])]
  | .unfed _ => [.write (.log [startingLine t.channel]), .request t.channel t.limit]
  | .unfound _ => t.preface
  | .ready _ _ => t.preface ++ [t.creation]

/-- The steps up to the last container. -/
def approach (t : Turn) : List Step :=
  t.beginning ++ t.course.runs.flatMap (containerSteps t.path)

/-- When the containers have been written does not matter before. -/
theorem approach_finished (t : Turn) (m : Moment) :
    Turn.approach { t with finished := m } = t.approach := rfl

/-- The report on containers that were all written. -/
def report (t : Turn) (spec : ContainerSpec) : ChannelReport :=
  ⟨t.channel, t.started, t.finished, t.course.runs.map (·.summary), spec.nodeCount, t.path⟩

/-- The report or the error, if no step is refused. -/
def result (t : Turn) : Except FeedError ChannelReport :=
  match t.course with
  | .unknown => .error (.unknownChannel t.channel)
  | .unloaded e => .error e
  | .unfed e => .error e
  | .unfound e => .error e
  | .ready spec _ => .ok (t.report spec)

/-- The steps behind the last container. -/
def conclusion (t : Turn) : List Step :=
  match t.result with
  | .error _ => []
  | .ok r => [.write (.report t.path .append r.footerLines), .write (.log [finishedLine r])]

/-- All steps, if none is refused. -/
def steps (t : Turn) : List Step := t.approach ++ t.conclusion

/-- A channel whose containers are found comes to its report. -/
theorem result_of_ready {t : Turn} {spec : ContainerSpec} {containers : List Selection}
    (hcourse : t.course = .ready spec containers) : t.result = .ok (t.report spec) := by
  rw [result, hcourse]

/-- A turn with a report has found its containers. -/
theorem ready_of_ok {t : Turn} {r : ChannelReport} (hresult : t.result = .ok r) :
    ∃ spec containers, t.course = .ready spec containers := by
  rw [result] at hresult
  cases hcourse : t.course with
  | ready spec containers => exact ⟨spec, containers, rfl⟩
  | _ =>
    rw [hcourse] at hresult
    cases hresult

/-- A channel that comes to an error has no containers to check. -/
theorem not_ready_of_error {t : Turn} {e : FeedError} (hresult : t.result = .error e)
    (spec : ContainerSpec) (containers : List Selection) : t.course ≠ .ready spec containers := by
  intro hcourse
  rw [result, hcourse] at hresult
  cases hresult

/-- A turn that ends in an error has no steps behind the beginning. -/
theorem steps_of_error {t : Turn} {e : FeedError} (hresult : t.result = .error e) :
    t.steps = t.beginning := by
  have hruns : t.course.runs = [] := by
    cases hcourse : t.course with
    | ready spec containers => exact absurd hcourse (not_ready_of_error hresult spec containers)
    | _ => rfl
  rw [steps, approach, conclusion, hresult, hruns]
  simp

/-- A turn whose containers are found creates its report and writes all of it. -/
theorem steps_of_ready {t : Turn} {spec : ContainerSpec} {containers : List Selection}
    (hcourse : t.course = .ready spec containers) :
    t.steps = t.preface ++
      t.creation :: (t.course.runs.flatMap (containerSteps t.path) ++ t.conclusion) := by
  rw [steps, approach, beginning, hcourse]
  rfl

end Turn

namespace Surroundings

/-- How far a channel comes whose turn it is after a history. What its expectation and its feed are
is asked behind the first line of its log. -/
def course (s : Surroundings) (plan : RunPlan) (h : History) : Selected → Course
  | .unknown _ => .unknown
  | .known setup =>
    let begun := h ++ [(Step.write (.log [startingLine setup.channel])).made]
    .of (s.expectation begun setup.expectation) (s.document begun setup.channel plan.limit)

/-- The turn of a channel after a history. -/
def turn (s : Surroundings) (plan : RunPlan) (h : History) (selected : Selected) : Turn :=
  let started := s.clock h
  let t : Turn :=
    { channel := selected.channel
      limit := plan.limit
      path := reportPath plan.reportDir selected.channel started
      course := s.course plan h selected
      started := started
      finished := started }
  { t with finished := s.clock (h ++ t.approach.map Step.made) }

variable {s : Surroundings} {h : History} {plan : RunPlan} {selected : Selected}

section Fields

variable (s h plan selected)

@[simp] theorem turn_channel : (s.turn plan h selected).channel = selected.channel := rfl

@[simp] theorem turn_limit : (s.turn plan h selected).limit = plan.limit := rfl

@[simp] theorem turn_started : (s.turn plan h selected).started = s.clock h := rfl

/-- The report of a channel is named by the channel and the time at which it is started. -/
@[simp] theorem turn_path :
    (s.turn plan h selected).path = reportPath plan.reportDir selected.channel (s.clock h) := by
  rw [turn]

@[simp] theorem turn_course : (s.turn plan h selected).course = s.course plan h selected := rfl

/-- A channel is finished when its containers have been written. -/
theorem turn_finished :
    (s.turn plan h selected).finished =
      s.clock (h ++ (s.turn plan h selected).approach.map Step.made) := by
  rw [turn, Turn.approach_finished]

end Fields

/-! ## Containers -/

/-- The lines of a container go to the log and to the report, in two steps. -/
theorem follows_flush (path : String) (run : ContainerRun) :
    s.Follows h (s.host.flush path run) (containerSteps path run) (.ok run.summary) :=
  (follows_log run.log.toList).bind
    ((follows_report path .append run.summary.lines).bind (Follows.pure _))

/-- The lines of containers go to the log and to the report, one container after the other. -/
theorem follows_flushAll (path : String) (runs : List ContainerRun) :
    s.Follows h (s.host.flushAll path runs) (runs.flatMap (containerSteps path))
      (.ok (runs.map (·.summary))) := by
  induction runs generalizing h with
  | nil => exact Follows.pure _
  | cons run rest ih =>
    have hrest := (ih (h := h ++ (containerSteps path run).map Step.made)).bind
      (f := fun others => pure (run.summary :: others)) (Follows.pure _)
    rw [List.append_nil] at hrest
    exact (follows_flush path run).bind hrest

/-! ## The channel -/

/-- A computation without steps is followed by the next one right away. -/
theorem Follows.then {α β : Type} {x : Running (StateM History) α}
    {f : α → Running (StateM History) β} {others : List Step} {a : α}
    {result : Except FeedError β} (hx : s.Follows h x [] (.ok a))
    (hf : s.Follows h (f a) others result) : s.Follows h (x >>= f) others result := by
  rw [← List.append_nil h] at hf
  exact hx.bind hf

/-- Once its containers are found, a channel writes its report from the header to the footer and
the last line of its log. -/
theorem follows_writing (plan : RunPlan) (t : Turn) {spec : ContainerSpec}
    {containers : List Selection}
    (hcourse : t.course = .ready spec containers)
    (hfinished : t.finished =
      s.clock (h ++ (t.creation :: t.course.runs.flatMap (containerSteps t.path)).map Step.made)) :
    s.Follows h
      (do
        s.host.report t.path .create (headerLines t.channel t.started)
        let summaries ← s.host.checkAndWrite plan t.path spec containers
        let finished ← s.host.now
        let r : ChannelReport :=
          ⟨t.channel, t.started, finished, summaries, spec.nodeCount, t.path⟩
        s.host.report t.path .append r.footerLines
        s.host.logLine (finishedLine r)
        return r)
      (t.creation :: t.course.runs.flatMap (containerSteps t.path) ++ t.conclusion)
      t.result := by
  have hruns : t.course.runs = containers.map (checkContainer · spec) := by
    rw [hcourse, Course.runs]
  have hresult := Turn.result_of_ready hcourse
  have hconclusion : t.conclusion =
      [.write (.report t.path .append (t.report spec).footerLines)] ++
        ([.write (.log [finishedLine (t.report spec)])] ++ []) := by
    rw [Turn.conclusion, hresult]
    rfl
  have hcreate : s.Follows h
      (s.host.report t.path .create (headerLines t.channel t.started)) [t.creation] (.ok ()) :=
    follows_report _ _ _
  rw [hresult, hconclusion, List.cons_append, ← List.singleton_append]
  refine hcreate.bind ?_
  rw [Host.checkAndWrite_eq, ← hruns]
  refine (follows_flushAll _ _).bind ?_
  -- The time at which the channel is finished is read behind its last container.
  refine Follows.then follows_now ?_
  rw [List.append_assoc, ← List.map_append, List.singleton_append, ← hfinished]
  exact (follows_report _ _ _).bind ((follows_log _).bind (Follows.pure (.ok (t.report spec))))

/-- Running a channel takes the steps of its turn up to the first one that is refused. -/
theorem follows_turn (plan : RunPlan) (setup : ChannelSetup) :
    s.Follows h (s.host.runChannel plan setup) (s.turn plan h (.known setup)).steps
      (s.turn plan h (.known setup)).result := by
  have hchannel := turn_channel s h plan (.known setup)
  have hlimit := turn_limit s h plan (.known setup)
  have hstarted := turn_started s h plan (.known setup)
  have hpath := turn_path s h plan (.known setup)
  have hcourse := turn_course s h plan (.known setup)
  have hfinished := turn_finished s h plan (.known setup)
  generalize s.turn plan h (.known setup) = t at *
  rw [Selected.channel] at hchannel hpath
  rw [Host.runChannel]
  refine Follows.then follows_now ?_
  rw [Surroundings.course] at hcourse
  generalize hbegun : h ++ [(Step.write (.log [startingLine setup.channel])).made] = begun
    at hcourse
  have hstart : s.Follows h (s.host.logLine (startingLine setup.channel))
      [.write (.log [startingLine setup.channel])] (.ok ()) := follows_log _
  have hload := follows_expectation (s := s) (h := begun) setup.expectation
  -- One case for each course: the turn ends early where something it asks for cannot be had.
  cases hspec : s.expectation begun setup.expectation with
  | error e =>
    have hunloaded : t.course = .unloaded e := by rw [hcourse, hspec]; rfl
    have hresult : t.result = .error e := by rw [Turn.result, hunloaded]
    rw [Turn.steps_of_error hresult, hresult, Turn.beginning, hunloaded, hchannel]
    rw [hspec] at hload
    subst hbegun
    exact hstart.bind (hload.bind_error _)
  | ok spec =>
    have hfeed := follows_document (s := s) (h := begun) setup.channel plan.limit
    rw [hspec] at hload
    cases hdocument : s.document begun setup.channel plan.limit with
    | error e =>
      have hunfed : t.course = .unfed e := by rw [hcourse, hspec, hdocument]; rfl
      have hresult : t.result = .error e := by rw [Turn.result, hunfed]
      rw [Turn.steps_of_error hresult, hresult, Turn.beginning, hunfed, hchannel, hlimit]
      rw [hdocument] at hfeed
      subst hbegun
      exact hstart.bind (hload.then (hfeed.bind_error _))
    | ok document =>
      rw [hdocument] at hfeed
      cases hfound : (findContainers document spec).mapError FeedError.ofContainers with
      | error e =>
        have hunfound : t.course = .unfound e := by
          rw [hcourse, hspec, hdocument, Course.of]
          rw [hfound]
        have hresult : t.result = .error e := by rw [Turn.result, hunfound]
        rw [Turn.steps_of_error hresult, hresult, Turn.beginning, hunfound, Turn.preface,
          hchannel, hlimit]
        subst hbegun
        refine hstart.bind (hload.then (hfeed.bind ?_))
        rw [hfound]
        exact (follows_log [loadedLine]).bind ((Follows.pure (.error e)).bind_error _)
      | ok containers =>
        have hready : t.course = .ready spec containers := by
          rw [hcourse, hspec, hdocument, Course.of]
          rw [hfound]
        have hbeginning : t.beginning = [.write (.log [startingLine setup.channel])] ++
            ([.request setup.channel plan.limit] ++ ([.write (.log [loadedLine])] ++
              [t.creation])) := by
          rw [Turn.beginning, hready, Turn.preface, hchannel, hlimit]
          rfl
        have hwriting := follows_writing (s := s) plan (h := begun ++
          [Step.request setup.channel plan.limit].map Step.made ++
            [Step.write (.log [loadedLine])].map Step.made) t hready (by
              rw [hfinished, Turn.approach, hbeginning, ← hbegun]
              simp only [List.map_cons, List.map_nil, List.append_assoc, List.cons_append,
                List.nil_append])
        have hsteps : t.steps = [.write (.log [startingLine setup.channel])] ++
            ([.request setup.channel plan.limit] ++ ([.write (.log [loadedLine])] ++
              (t.creation :: t.course.runs.flatMap (containerSteps t.path) ++ t.conclusion))) := by
          rw [Turn.steps_of_ready hready, Turn.preface, hchannel, hlimit]
          rfl
        rw [hsteps]
        rw [← hstarted] at hpath ⊢
        rw [hchannel] at hwriting
        rw [hpath] at hwriting ⊢
        subst hbegun
        refine hstart.bind (hload.then (hfeed.bind ?_))
        rw [hfound]
        exact (follows_log [loadedLine]).bind
          (Follows.then (Follows.pure (.ok containers)) hwriting)

end Surroundings

end FeedAudit

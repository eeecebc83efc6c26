import FeedAudit.Proofs.Independence
import Mathlib.Data.List.Forall2

/-!
# Containers checked side by side

When the containers of a channel are checked side by side, all of them are checked before the first
one is written, in whatever order the workers of a pool finish them; in turn, each is written before
the next one is checked. Nobody who sees the writes can tell the difference. Main statement:
`runChannel_sideBySide`. For every host the computations are equal, and where the clocks of two runs
do not agree, nothing but the times differs.
-/

namespace FeedAudit

open Host (Selected startingLine finishedLine)

/-! ## Pools -/

namespace Pool

section Places

variable (spec : ContainerSpec) (containers : List Selection)

/-- The container at a position is finished, and what came of it is put in its place. -/
def fill (places : List (Option ContainerRun)) (i : Nat) : List (Option ContainerRun) :=
  places.set i (containers[i]?.map (checkContainer · spec))

/-- The places of a pool that has finished containers in the given order. -/
def filled (order : List Nat) : List (Option ContainerRun) :=
  order.foldl (fill spec containers) (List.replicate containers.length none)

/-- The places of a pool while it is at work: those of the containers that have been finished hold
what came of them, and the others are empty. -/
structure AtWork (places : List (Option ContainerRun)) (done : List Nat) : Prop where
  length_eq : places.length = containers.length
  of_mem : ∀ i ∈ done, ∀ container, containers[i]? = some container →
    places[i]? = some (some (checkContainer container spec))
  of_not_mem : ∀ i, i ∉ done → i < containers.length → places[i]? = some none

end Places

variable {spec : ContainerSpec} {containers : List Selection}

/-- A pool starts with all places empty. -/
theorem atWork_start : AtWork spec containers (List.replicate containers.length none) [] := by
  refine ⟨List.length_replicate, fun i hi => absurd hi List.not_mem_nil, ?_⟩
  intro i _ hbound
  exact List.getElem?_replicate_of_lt hbound

/-- Whichever container is finished next, its place is filled and the others stay. -/
theorem AtWork.step {places : List (Option ContainerRun)} {done : List Nat}
    (hwork : AtWork spec containers places done) (i : Nat) :
    AtWork spec containers (fill spec containers places i) (i :: done) := by
  unfold fill
  refine ⟨?_, ?_, ?_⟩
  · rw [List.length_set, hwork.length_eq]
  · intro j hj container hcontainer
    have hbound : j < places.length := by
      rw [hwork.length_eq]
      exact (List.getElem?_eq_some_iff.mp hcontainer).1
    by_cases heq : i = j
    · subst heq
      rw [List.getElem?_set_self hbound, hcontainer, Option.map_some]
    · have hdone : j ∈ done := (List.mem_cons.mp hj).resolve_left fun h => heq h.symm
      rw [List.getElem?_set_ne heq]
      exact hwork.of_mem j hdone container hcontainer
  · intro j hj hbound
    have hne : i ≠ j := fun h => hj (List.mem_cons.mpr (Or.inl h.symm))
    have hopen : j ∉ done := fun h => hj (List.mem_cons_of_mem i h)
    rw [List.getElem?_set_ne hne]
    exact hwork.of_not_mem j hopen hbound

/-- In whatever order containers are finished, their places are filled and the others stay. -/
theorem AtWork.run {places : List (Option ContainerRun)} {done : List Nat}
    (hwork : AtWork spec containers places done) (order : List Nat) :
    AtWork spec containers (order.foldl (fill spec containers) places)
      (order.reverse ++ done) := by
  induction order generalizing places done with
  | nil => exact hwork
  | cons i rest ih =>
    rw [List.foldl_cons, List.reverse_cons, List.append_assoc, List.singleton_append]
    exact ih (hwork.step i)

/-- In whatever order the containers are finished, what came of them is collected in document
order. -/
theorem filled_eq {order : List Nat} (hperm : order.Perm (List.range containers.length)) :
    filled spec containers order = (checkSideBySide spec containers).map some := by
  have hwork : AtWork spec containers (filled spec containers order) (order.reverse ++ []) :=
    atWork_start.run order
  have hall : ∀ i < containers.length, i ∈ order.reverse ++ [] := by
    intro i hi
    rw [List.append_nil, List.mem_reverse]
    exact hperm.mem_iff.mpr (List.mem_range.mpr hi)
  apply List.ext_getElem?
  intro i
  rw [checkSideBySide_eq, List.getElem?_map, List.getElem?_map]
  cases hcontainer : containers[i]? with
  | none =>
    have hbound : (filled spec containers order).length ≤ i := by
      rw [hwork.length_eq]
      exact List.getElem?_eq_none_iff.mp hcontainer
    rw [List.getElem?_eq_none hbound]
    rfl
  | some container =>
    have hbound := (List.getElem?_eq_some_iff.mp hcontainer).1
    rw [hwork.of_mem i (hall i hbound) container hcontainer]
    rfl

end Pool

/-! ## Every host -/

namespace Host

variable {m : Type → Type} [Monad m]

/-- Side by side or in turn, a channel is run in the same way. -/
theorem runChannel_parallel (host : Host m) (plan : RunPlan) (parallel : Bool)
    (setup : ChannelSetup) :
    host.runChannel { plan with parallel := parallel } setup = host.runChannel plan setup := by
  unfold runChannel
  simp only [checkAndWrite_eq]

/-- Channels are run the same, whether their containers are checked side by side or in turn. -/
theorem runEach_parallel (host : Host m) (plan : RunPlan) (parallel : Bool)
    (selected : List Selected) :
    host.runEach { plan with parallel := parallel } selected = host.runEach plan selected := by
  induction selected with
  | nil => rfl
  | cons first rest ih =>
    have houtcome : host.outcome { plan with parallel := parallel } first =
        host.outcome plan first := by
      cases first with
      | known setup => rw [outcome, outcome, runChannel_parallel]
      | unknown channel => rfl
    rw [runEach, runEach, houtcome]
    simp only [ih]

/-- A whole run is the same as well. -/
theorem runSelection_parallel (host : Host m) (plan : RunPlan) (parallel : Bool)
    (selection : String) :
    host.runSelection { plan with parallel := parallel } selection =
      host.runSelection plan selection := by
  have hselect : select { plan with parallel := parallel } selection = select plan selection := rfl
  unfold runSelection
  rw [hselect]
  simp only [runEach_parallel]

end Host

/-! ## Up to times -/

/-- Names for the report of one channel that differ in the time they tell at most. -/
def SameReport (p q : String) : Prop :=
  ∃ dir channel started started',
    p = reportPath dir channel started ∧ q = reportPath dir channel started'

/-- Lines of reports that differ in the times they tell at most. -/
inductive SameLines : List String → List String → Prop
  | refl (lines : List String) : SameLines lines lines
  | header (channel : String) (started started' : Moment) :
    SameLines (headerLines channel started) (headerLines channel started')
  | footer {r q : ChannelReport} (hreport : r.SameButTimes q) :
    SameLines r.footerLines q.footerLines

/-- Writes that differ in times at most. -/
inductive Write.SameButTimes : Write → Write → Prop
  | log (lines : List String) : SameButTimes (.log lines) (.log lines)
  | report {p q : String} (mode : FileSystem.WriteMode) {lines lines' : List String}
    (hpath : SameReport p q) (hlines : SameLines lines lines') :
    SameButTimes (.report p mode lines) (.report q mode lines')

/-- Steps that differ in times at most. -/
inductive Step.SameButTimes : Step → Step → Prop
  | write {w v : Write} (hwrite : w.SameButTimes v) : SameButTimes (.write w) (.write v)
  | request (channel : String) (limit : Nat) :
    SameButTimes (.request channel limit) (.request channel limit)

/-- Writing the same lines to the log is the same step. -/
theorem Step.SameButTimes.of_log (lines : List String) :
    Step.SameButTimes (.write (.log lines)) (.write (.log lines)) :=
  .write (.log lines)

/-- Events that differ in times at most: both were refused, by the same fault, or neither. -/
structure Event.SameButTimes (e f : Event) : Prop where
  step : e.step.SameButTimes f.step
  refusal : e.refusal = f.refusal

/-- Histories that differ in times at most. -/
abbrev SameHistory (h h' : History) : Prop := List.Forall₂ Event.SameButTimes h h'

/-- A report or an error that differ in times at most. -/
def SameEnd : Except FeedError ChannelReport → Except FeedError ChannelReport → Prop
  | .ok r, .ok q => r.SameButTimes q
  | .error e, .error f => e = f
  | _, _ => False

/-- Histories that differ in times at most have the same first refusal. -/
theorem firstRefusal_eq_of_same {events events' : List Event} (hsame : SameHistory events events') :
    firstRefusal events = firstRefusal events' := by
  induction hsame with
  | nil => rfl
  | cons hfirst _ ih => rw [firstRefusal_cons, firstRefusal_cons, hfirst.refusal, ih]

/-- What is made of events that differ in times at most differs in times at most. -/
theorem sameEnd_ending {events events' : List Event} (hevents : SameHistory events events')
    {result result' : Except FeedError ChannelReport} (hresult : SameEnd result result') :
    SameEnd (ending events result) (ending events' result') := by
  unfold ending
  rw [firstRefusal_eq_of_same hevents]
  cases firstRefusal events' with
  | none => exact hresult
  | some fault => rfl

/-! ## Turns -/

/-- Turns that differ in times at most. -/
structure Turn.SameButTimes (t t' : Turn) : Prop where
  channel : t.channel = t'.channel
  limit : t.limit = t'.limit
  path : SameReport t.path t'.path
  course : t.course = t'.course

namespace Turn.SameButTimes

variable {t t' : Turn}

/-- The reports of such turns differ in times at most. -/
theorem report_same (hturn : t.SameButTimes t') (spec : ContainerSpec) :
    (t.report spec).SameButTimes (t'.report spec) := by
  unfold Turn.report
  rw [hturn.channel, hturn.course]
  rfl

/-- Such turns come to the same report or error, up to the times. -/
theorem result_same (hturn : t.SameButTimes t') : SameEnd t.result t'.result := by
  unfold Turn.result
  rw [← hturn.course]
  cases t.course with
  | ready spec containers => exact hturn.report_same spec
  | unknown => exact congrArg FeedError.unknownChannel hturn.channel
  | _ => rfl

/-- Such turns begin with the same steps, up to the times. -/
theorem preface_same (hturn : t.SameButTimes t') :
    List.Forall₂ Step.SameButTimes t.preface t'.preface := by
  unfold Turn.preface
  rw [hturn.channel, hturn.limit]
  exact .cons (.of_log _) (.cons (.request _ _) (.cons (.of_log _) .nil))

/-- Such turns create the same report, up to the times. -/
theorem creation_same (hturn : t.SameButTimes t') : t.creation.SameButTimes t'.creation := by
  unfold Turn.creation
  rw [hturn.channel]
  exact .write (.report .create hturn.path (.header _ _ _))

/-- Up to the containers such turns take the same steps, up to the times. -/
theorem beginning_same (hturn : t.SameButTimes t') :
    List.Forall₂ Step.SameButTimes t.beginning t'.beginning := by
  have hpreface := hturn.preface_same
  unfold Turn.beginning
  rw [← hturn.course]
  cases t.course with
  | unknown => exact .nil
  | unloaded e =>
    rw [hturn.channel]
    exact .cons (.of_log _) .nil
  | unfed e =>
    rw [hturn.channel, hturn.limit]
    exact .cons (.of_log _) (.cons (.request _ _) .nil)
  | unfound e => exact hpreface
  | ready spec containers => exact List.rel_append hpreface (.cons hturn.creation_same .nil)

/-- The blocks of the same containers are written by the same steps, up to the name of the
report. -/
theorem containers_same {p q : String} (hpath : SameReport p q) (runs : List ContainerRun) :
    List.Forall₂ Step.SameButTimes (runs.flatMap (containerSteps p))
      (runs.flatMap (containerSteps q)) := by
  induction runs with
  | nil => exact .nil
  | cons run rest ih =>
    have hrun : List.Forall₂ Step.SameButTimes (containerSteps p run) (containerSteps q run) :=
      .cons (.of_log _) (.cons (.write (.report .append hpath (.refl _))) .nil)
    rw [List.flatMap_cons, List.flatMap_cons]
    exact List.rel_append hrun ih

/-- Such turns end with the same steps, up to the times. -/
theorem conclusion_same (hturn : t.SameButTimes t') :
    List.Forall₂ Step.SameButTimes t.conclusion t'.conclusion := by
  cases hcourse : t.course with
  | ready spec containers =>
    have hreport := hturn.report_same spec
    have hline : finishedLine (t.report spec) = finishedLine (t'.report spec) := by
      rw [hreport]
      rfl
    have hresult := result_of_ready hcourse
    have hresult' := result_of_ready (hturn.course.symm.trans hcourse)
    unfold Turn.conclusion
    rw [hresult, hresult']
    simp only
    rw [hline]
    exact .cons (.write (.report .append hturn.path (.footer hreport))) (.cons (.of_log _) .nil)
  | _ =>
    have hcourse' := hturn.course.symm.trans hcourse
    unfold Turn.conclusion Turn.result
    rw [hcourse, hcourse']
    exact .nil

/-- The steps of turns that differ in times at most differ in times at most. -/
theorem steps_same (hturn : t.SameButTimes t') :
    List.Forall₂ Step.SameButTimes t.steps t'.steps := by
  have hcontainers := containers_same hturn.path t.course.runs
  rw [hturn.course] at hcontainers
  unfold Turn.steps Turn.approach
  rw [hturn.course]
  exact List.rel_append (List.rel_append hturn.beginning_same hcontainers) hturn.conclusion_same

end Turn.SameButTimes

/-! ## Clocks that do not agree -/

namespace Surroundings

/-- Surroundings that answer alike wherever the histories differ in times at most. What their
clocks show does not matter. -/
structure AgreeButTimes (s s' : Surroundings) : Prop where
  content : ∀ h h', SameHistory h h' → ∀ path, s.content h path = s'.content h' path
  feed : ∀ h h', SameHistory h h' → ∀ channel limit,
    s.feed h channel limit = s'.feed h' channel limit
  refusal : ∀ h h', SameHistory h h' → ∀ w v : Write, w.SameButTimes v →
    s.refusal h w = s'.refusal h' v

variable {s s' : Surroundings} {h h' : History}

/-- Surroundings that agree but for times refuse the same steps. -/
theorem AgreeButTimes.refuses_eq (hagree : s.AgreeButTimes s') (hsame : SameHistory h h')
    {step step' : Step} (hstep : step.SameButTimes step') :
    s.refuses h step = s'.refuses h' step' := by
  cases hstep with
  | write hwrite => exact hagree.refusal h h' hsame _ _ hwrite
  | request channel limit => rfl

/-- Steps that differ in times at most are taken up to the same one. -/
theorem AgreeButTimes.cut_same (hagree : s.AgreeButTimes s') (hsame : SameHistory h h')
    {steps steps' : List Step} (hsteps : List.Forall₂ Step.SameButTimes steps steps') :
    SameHistory (s.cut h steps) (s'.cut h' steps') := by
  induction hsteps generalizing h h' with
  | nil => exact .nil
  | @cons step step' rest rest' hstep _ ih =>
    have hrefuses := hagree.refuses_eq hsame hstep
    unfold cut
    rw [hrefuses]
    cases s'.refuses h' step' with
    | none =>
      have hmade : step.made.SameButTimes step'.made := ⟨hstep, rfl⟩
      exact .cons hmade (ih (List.rel_append hsame (.cons hmade .nil)))
    | some fault => exact .cons ⟨hstep, rfl⟩ .nil

/-- Surroundings that agree but for times have the same expectations. -/
theorem AgreeButTimes.expectation_eq (hagree : s.AgreeButTimes s') (hsame : SameHistory h h')
    (source : ExpectationSource) : s.expectation h source = s'.expectation h' source := by
  cases source with
  | given spec => rfl
  | file path =>
    have hcontent := hagree.content h h' hsame path
    exact congrArg (ContainerSpec.ofFile path) hcontent

/-- Surroundings that agree but for times have the same feeds. -/
theorem AgreeButTimes.document_eq (hagree : s.AgreeButTimes s') (hsame : SameHistory h h')
    (channel : String) (limit : Nat) :
    s.document h channel limit = s'.document h' channel limit := by
  unfold document
  rw [hagree.feed h h' hsame channel limit]

/-- A channel takes the same course in surroundings that agree but for times. -/
theorem AgreeButTimes.course_eq (hagree : s.AgreeButTimes s') (hsame : SameHistory h h')
    {plan plan' : RunPlan} (hlimit : plan.limit = plan'.limit) (selected : Selected) :
    s.course plan h selected = s'.course plan' h' selected := by
  cases selected with
  | unknown channel => rfl
  | known setup =>
    have hline : (Step.write (.log [startingLine setup.channel])).made.SameButTimes
        (Step.write (.log [startingLine setup.channel])).made := ⟨.write (.log _), rfl⟩
    have hbegun := List.rel_append hsame (.cons hline .nil)
    have hexpectation := hagree.expectation_eq hbegun setup.expectation
    have hdocument := hagree.document_eq hbegun setup.channel plan.limit
    unfold course
    rw [← hlimit]
    exact congrArg₂ Course.of hexpectation hdocument

/-- The turns of a channel in surroundings that agree but for times differ in times at most. -/
theorem AgreeButTimes.turn_same (hagree : s.AgreeButTimes s') (hsame : SameHistory h h')
    {plan plan' : RunPlan} (hdir : plan.reportDir = plan'.reportDir)
    (hlimit : plan.limit = plan'.limit) (selected : Selected) :
    (s.turn plan h selected).SameButTimes (s'.turn plan' h' selected) := by
  refine ⟨rfl, hlimit, ?_, hagree.course_eq hsame hlimit selected⟩
  rw [turn_path, turn_path, hdir]
  exact ⟨_, _, _, _, rfl, rfl⟩

/-- Surroundings that answer by the question and by how much has happened, whatever happened. The
`n`-th event is refused if `refusals n` says so. -/
def counting (clock : History → Moment) (content : Nat → String → Except IoFault String)
    (feed : Nat → String → Nat → Except FeedError String) (refusals : Nat → Option IoFault) :
    Surroundings where
  clock := clock
  content h := content h.length
  feed h := feed h.length
  refusal h _ := refusals h.length

/-- Surroundings that count what happens agree but for times under any two clocks. -/
theorem agreeButTimes_counting (clock clock' : History → Moment)
    (content : Nat → String → Except IoFault String)
    (feed : Nat → String → Nat → Except FeedError String) (refusals : Nat → Option IoFault) :
    (counting clock content feed refusals).AgreeButTimes
      (counting clock' content feed refusals) := by
  refine ⟨?_, ?_, ?_⟩
  · intro h h' hsame path
    have hlength : h.length = h'.length := hsame.length_eq
    exact congrArg (content · path) hlength
  · intro h h' hsame channel limit
    have hlength : h.length = h'.length := hsame.length_eq
    exact congrArg (feed · channel limit) hlength
  · intro h h' hsame w v _
    have hlength : h.length = h'.length := hsame.length_eq
    exact congrArg refusals hlength

/-- A channel whose containers are checked side by side is run like one whose containers are checked
in turn. In whatever order a pool finishes the containers, what came of them is written in document
order. For every host the computations are equal, and so are whole runs. Where the clocks of two
runs do not agree, the same steps are taken up to the first one that is refused, and they come to
the same report or error, up to the times. -/
theorem runChannel_sideBySide (plan : RunPlan) (setup : ChannelSetup) :
    let sideBySide : RunPlan := { plan with parallel := true }
    let inTurn : RunPlan := { plan with parallel := false }
    (∀ (spec : ContainerSpec) (containers : List Selection) (order : List Nat),
      order.Perm (List.range containers.length) →
      ∃ runs, Pool.filled spec containers order = runs.map some ∧
        ∀ (m : Type → Type) [Monad m] (host : Host m) (path : String),
          host.checkAndWrite sideBySide path spec containers = host.flushAll path runs ∧
          host.checkAndWrite inTurn path spec containers = host.flushAll path runs) ∧
    (∀ (m : Type → Type) [Monad m] (host : Host m),
      host.runChannel sideBySide setup = host.runChannel inTurn setup ∧
      ∀ selection, host.runSelection sideBySide selection = host.runSelection inTurn selection) ∧
    (∀ (s s' : Surroundings) (h h' : History), s.AgreeButTimes s' → SameHistory h h' →
      ∃ result result' events events',
        (s.host.runChannel sideBySide setup).run.run h = (result, h ++ events) ∧
        (s'.host.runChannel inTurn setup).run.run h' = (result', h' ++ events') ∧
        Unbroken events ∧ SameHistory events events' ∧ SameEnd result result') ∧
    ∀ (document : Markup.Document) (spec : ContainerSpec),
      checkContainers document spec true = checkContainers document spec false := by
  intro sideBySide inTurn
  refine ⟨?_, ?_, ?_, ?_⟩
  · intro spec containers order hperm
    refine ⟨checkSideBySide spec containers, Pool.filled_eq hperm, ?_⟩
    intro m _ host path
    rw [host.checkAndWrite_eq, host.checkAndWrite_eq, checkSideBySide_eq]
    exact ⟨rfl, rfl⟩
  · intro m _ host
    refine ⟨?_, fun selection => ?_⟩
    · exact (host.runChannel_parallel plan true setup).trans
        (host.runChannel_parallel plan false setup).symm
    · exact (host.runSelection_parallel plan true selection).trans
        (host.runSelection_parallel plan false selection).symm
  · intro s s' h h' hagree hsame
    have hturn : (s.turn sideBySide h (.known setup)).SameButTimes
        (s'.turn inTurn h' (.known setup)) := hagree.turn_same hsame rfl rfl _
    have hevents := hagree.cut_same hsame hturn.steps_same
    exact ⟨_, _, _, _, follows_turn sideBySide setup, follows_turn inTurn setup,
      unbroken_cut _, hevents, sameEnd_ending hevents hturn.result_same⟩
  · intro document spec
    rw [checkContainers_eq, checkContainers_eq]

/-! ## Two containers -/

/-- A feed of two movies. -/
def twoMovies : String := "<r><movie><id>7</id></movie><movie><name/></movie></r>"

/-- The movies of a feed. -/
def moviesOf (text : String) : List Selection :=
  match documentOfFeed "movie" text with
  | .ok document => (findContainers document movieSpec).toOption.getD []
  | .error _ => []

def diskFull : IoFault := .other "No space left on device (os error 28)"

/-- Surroundings in which the feed has two movies and the eighth event is refused, by a clock that
stands still. -/
def fullDisk (seconds : Int) : Surroundings :=
  counting (clockAt seconds) (fun _ _ => .error .notFound) (fun _ _ _ => .ok twoMovies)
    fun n => if n = 7 then some diskFull else none

def movieSetup : ChannelSetup := ⟨"movie", .given movieSpec⟩

/-- The second of two movies is finished first, and its block of the report is refused. With the
movies in turn and a minute later, other lines are written, but the steps are the same up to the
times, with the same refusal. -/
theorem runChannel_sideBySide_twoMovies :
    let sideBySide : RunPlan := { planOf [movieSetup] with parallel := true }
    let inTurn : RunPlan := { planOf [movieSetup] with parallel := false }
    [1, 0].Perm (List.range (moviesOf twoMovies).length) ∧
    (∃ runs : List ContainerRun,
      Pool.filled movieSpec (moviesOf twoMovies) [1, 0] = runs.map some) ∧
    (fullDisk 0).AgreeButTimes (fullDisk 60) ∧ SameHistory [] [] ∧
    ∃ result result' events events',
      ((fullDisk 0).host.runChannel sideBySide movieSetup).run.run [] = (result, events) ∧
      ((fullDisk 60).host.runChannel inTurn movieSetup).run.run [] = (result', events') ∧
      events.length = 8 ∧ firstRefusal events = some diskFull ∧ events ≠ events' ∧
      SameHistory events events' ∧ SameEnd result result' := by
  intro sideBySide inTurn
  obtain ⟨hpool, -, hclocks, -⟩ := runChannel_sideBySide (planOf [movieSetup]) movieSetup
  have hlength : (moviesOf twoMovies).length = 2 := by decide +kernel
  have hperm : [1, 0].Perm (List.range (moviesOf twoMovies).length) := by
    rw [hlength]
    decide
  have hagree : (fullDisk 0).AgreeButTimes (fullDisk 60) := agreeButTimes_counting _ _ _ _ _
  have hstart : SameHistory [] [] := .nil
  obtain ⟨runs, hruns, -⟩ := hpool movieSpec (moviesOf twoMovies) [1, 0] hperm
  obtain ⟨result, result', events, events', hrun, hrun', -, hevents, hresult⟩ :=
    hclocks (fullDisk 0) (fullDisk 60) [] [] hagree hstart
  rw [List.nil_append] at hrun hrun'
  have hfirst : (((fullDisk 0).host.runChannel sideBySide movieSetup).run.run []).2 = events :=
    congrArg Prod.snd hrun
  have hsecond : (((fullDisk 60).host.runChannel inTurn movieSetup).run.run []).2 = events' :=
    congrArg Prod.snd hrun'
  refine ⟨hperm, ⟨runs, hruns⟩, hagree, hstart, result, result', events, events', hrun, hrun',
    ?_, ?_, ?_, hevents, hresult⟩
  · rw [← hfirst]
    decide +kernel
  · rw [← hfirst]
    decide +kernel
  · rw [← hfirst, ← hsecond]
    decide +kernel

end Surroundings

end FeedAudit

import FeedAudit.Channel.Runner
import FeedAudit.Feed.Source
import Mathlib.Data.List.Forall2
import Mathlib.Tactic.Common

/-!
# How runs end

A run may be ended by an error, and every step of it may change the state of its host.
`Running.Ends` says what a computation returns and which errors end it, from every state with a
property that it keeps; `Host.Reaches` are the states that a run can come to.

Main statements: `Host.ends_runSelection` and `Host.outcomeOf_known`. A run yields one outcome for
each channel that is selected, unless the log refuses a line on the way; and no outcome of a channel
that can be tested says that it is not known.
-/

namespace FeedAudit

/-! ## How computations end -/

namespace Running

variable {σ α β : Type}

/-- From every state with the property `keeps`, which it keeps, `x` returns a value with the
property `returns`, or an error with the property `stops` ends it. -/
def Ends (x : Running (StateM σ) α) (keeps : σ → Prop) (stops : FeedError → Prop)
    (returns : α → Prop) : Prop :=
  ∀ w, keeps w → keeps (x.run.run w).2 ∧
    match (x.run.run w).1 with
    | .ok a => returns a
    | .error e => stops e

variable {x : Running (StateM σ) α} {keeps : σ → Prop} {stops stops' : FeedError → Prop}
  {returns : α → Prop} {returns' : β → Prop}

/-- What follows a computation is about what it returns. -/
theorem Ends.bind {f : α → Running (StateM σ) β} (hx : x.Ends keeps stops returns)
    (hf : ∀ a, returns a → (f a).Ends keeps stops returns') :
    (x >>= f).Ends keeps stops returns' := by
  intro w hw
  have hrun : (x >>= f).run.run w = (ExceptT.bindCont f (x.run.run w).1).run (x.run.run w).2 := rfl
  obtain ⟨hkept, hends⟩ := hx w hw
  rw [hrun]
  cases hresult : (x.run.run w).1 with
  | error e =>
    rw [hresult] at hends
    exact ⟨hkept, hends⟩
  | ok a =>
    rw [hresult] at hends
    exact hf a hends _ hkept

/-- A computation that some errors may end ends with one of a wider class as well. -/
theorem Ends.mono (hx : x.Ends keeps stops returns) (h : ∀ e, stops e → stops' e) :
    x.Ends keeps stops' returns := by
  intro w hw
  obtain ⟨hkept, hends⟩ := hx w hw
  refine ⟨hkept, ?_⟩
  cases hresult : (x.run.run w).1 with
  | error e =>
    rw [hresult] at hends
    exact h e hends
  | ok a =>
    rw [hresult] at hends
    exact hends

/-- A value that is returned at once changes nothing and is no error. -/
theorem ends_pure {a : α} (h : returns a) :
    (pure a : Running (StateM σ) α).Ends keeps stops returns :=
  fun _ hw => ⟨hw, h⟩

/-- A computation that no error can end. -/
theorem ends_lift {y : StateM σ α} (hkeeps : ∀ w, keeps w → keeps (y.run w).2)
    (h : ∀ w, keeps w → returns (y.run w).1) :
    (liftM y : Running (StateM σ) α).Ends keeps stops returns :=
  fun w hw => ⟨hkeeps w hw, h w hw⟩

/-- A computation of which only the errors matter. -/
theorem ends_mk {y : StateM σ (Except FeedError α)} (hkeeps : ∀ w, keeps w → keeps (y.run w).2)
    (h : ∀ w e, keeps w → (y.run w).1 = .error e → stops e) :
    Ends (ExceptT.mk y) keeps stops fun _ => True := by
  intro w hw
  refine ⟨hkeeps w hw, ?_⟩
  have hrun : ((ExceptT.mk y).run.run w).1 = (y.run w).1 := rfl
  rw [hrun]
  cases hresult : (y.run w).1 with
  | error e => exact h w e hw hresult
  | ok a => trivial

/-- A result that is known beforehand changes nothing; it may be an error. -/
theorem ends_result {result : Except FeedError α} (h : ∀ e, result = .error e → stops e) :
    Ends (σ := σ) (ExceptT.mk (pure result)) keeps stops fun _ => True :=
  ends_mk (fun _ hw => hw) fun _ e _ => h e

/-- A step of the host ends a computation with the fault that it is refused with. -/
theorem ends_io {step : StateM σ (Except IoFault α)} (hkeeps : ∀ w, keeps w → keeps (step.run w).2)
    (h : ∀ w fault, keeps w → (step.run w).1 = .error fault → stops (.io fault)) :
    (Running.io step).Ends keeps stops fun _ => True := by
  apply ends_mk hkeeps
  intro w e hw hresult
  change (step.run w).1.mapError FeedError.io = .error e at hresult
  cases hstep : (step.run w).1 with
  | error fault =>
    rw [hstep] at hresult
    cases hresult
    exact h w fault hw hstep
  | ok a =>
    rw [hstep] at hresult
    cases hresult

end Running

open Running

/-! ## Errors of known channels -/

/-- An error that does not say that a channel is not known. -/
def FeedError.KnowsChannel : FeedError → Prop
  | .unknownChannel _ => False
  | _ => True

section Errors

variable {e : FeedError}

/-- Nothing that comes of a request makes a channel unknown. -/
theorem Attempt.knowsChannel_of_settle {url : String} {seconds : Nat} {attempt : Attempt}
    (h : attempt.settle url seconds = .error e) : e.KnowsChannel := by
  cases attempt with
  | answered status body =>
    rw [settle] at h
    split_ifs at h
    · cases body with
      | error fault =>
        cases h
        trivial
      | ok text => cases h
    · cases h
      trivial
  | timedOut =>
    cases h
    trivial
  | failed fault =>
    cases h
    trivial

/-- A file that cannot be read as an expectation does not make a channel unknown. -/
theorem ContainerSpec.knowsChannel_of_ofFile {path : String} {content : Except IoFault String}
    (h : ContainerSpec.ofFile path content = .error e) : e.KnowsChannel := by
  unfold ContainerSpec.ofFile at h
  split at h
  · cases h
    trivial
  · split at h
    · cases h
    · cases h
      trivial

/-- A feed that is malformed does not make a channel unknown. -/
theorem knowsChannel_of_documentOfFeed {source text : String}
    (h : documentOfFeed source text = .error e) : e.KnowsChannel := by
  unfold documentOfFeed at h
  cases hread : Markup.Document.read text with
  | error fault =>
    rw [hread] at h
    cases h
    trivial
  | ok document =>
    rw [hread] at h
    cases h

/-- A document without the containers does not make a channel unknown. -/
theorem knowsChannel_of_findContainers {document : Markup.Document} {spec : ContainerSpec}
    (h : (findContainers document spec).mapError FeedError.ofContainers = .error e) :
    e.KnowsChannel := by
  cases hfound : findContainers document spec with
  | error fault =>
    rw [hfound] at h
    cases h
    cases fault <;> trivial
  | ok containers =>
    rw [hfound] at h
    cases h

end Errors

/-! ## States of a host -/

namespace Host

variable {σ : Type}

/-- `host.Reaches w v` says that what a run asks of the host can lead from the state `w` to `v`. -/
inductive Reaches (host : Host (StateM σ)) (w : σ) : σ → Prop
  | start : host.Reaches w w
  | now {v : σ} (before : host.Reaches w v) : host.Reaches w (host.now.run v).2
  | readText {v : σ} (path : String) (before : host.Reaches w v) :
      host.Reaches w ((host.readText path).run v).2
  | fetch {v : σ} (channel : String) (limit : Nat) (before : host.Reaches w v) :
      host.Reaches w ((host.fetch channel limit).run v).2
  | appendLog {v : σ} (lines : List String) (before : host.Reaches w v) :
      host.Reaches w ((host.appendLog lines).run v).2
  | writeReport {v : σ} (path : String) (mode : FileSystem.WriteMode) (lines : List String)
      (before : host.Reaches w v) : host.Reaches w ((host.writeReport path mode lines).run v).2
  | print {v : σ} (text : String) (before : host.Reaches w v) :
      host.Reaches w ((host.print text).run v).2

variable (host : Host (StateM σ)) (plan : RunPlan) (w : σ)

/-- An error of the log: on the way from `w` it refuses lines. -/
def LogRefuses (e : FeedError) : Prop :=
  ∃ fault lines v, host.Reaches w v ∧ ((host.appendLog lines).run v).1 = .error fault ∧
    e = .io fault

/-- An outcome that a selected channel has on the way from `w`. -/
def OutcomeOf (selected : Selected) (o : ChannelOutcome) : Prop :=
  ∃ v, host.Reaches w v ∧ ((host.outcome plan selected).run v).1 = o

/-- The errors of a host's feeds never say that a channel is not known. -/
def FetchKnows : Prop :=
  ∀ channel limit v e, ((host.fetch channel limit).run v).1 = .error e → e.KnowsChannel

/-! ## Steps of a run -/

section Steps

variable {stops : FeedError → Prop}

/-- Reading the clock cannot fail. -/
theorem ends_now :
    (liftM host.now : Running (StateM σ) Moment).Ends (host.Reaches w) stops fun _ => True :=
  ends_lift (fun _ hv => .now hv) fun _ _ => trivial

/-- Writing to the log fails only if the log refuses lines. -/
theorem ends_log (lines : List String) :
    (host.log lines).Ends (host.Reaches w) (host.LogRefuses w) fun _ => True :=
  ends_io (fun _ hv => .appendLog lines hv) fun v fault hv hfault =>
    ⟨fault, lines, v, hv, hfault, rfl⟩

/-- A log that refuses lines does not make a channel unknown. -/
theorem ends_log_knows (lines : List String) :
    (host.log lines).Ends (host.Reaches w) FeedError.KnowsChannel fun _ => True := by
  apply (host.ends_log w lines).mono
  rintro e ⟨fault, _, _, _, _, rfl⟩
  trivial

/-- A report that refuses lines does not make a channel unknown. -/
theorem ends_report (path : String) (mode : FileSystem.WriteMode) (lines : List String) :
    (host.report path mode lines).Ends (host.Reaches w) FeedError.KnowsChannel fun _ => True :=
  ends_io (fun _ hv => .writeReport path mode lines hv) fun _ _ _ _ => trivial

/-- An expectation that cannot be loaded does not make a channel unknown. -/
theorem ends_expectation (source : ExpectationSource) :
    (host.expectation source).Ends (host.Reaches w) FeedError.KnowsChannel fun _ => True := by
  cases source with
  | given spec => exact ends_pure trivial
  | file path =>
    exact ends_mk (fun _ hv => .readText path hv) fun _ _ _ h =>
      ContainerSpec.knowsChannel_of_ofFile h

/-- A feed that cannot be fetched or read does not make a channel unknown. -/
theorem ends_document (hfetch : host.FetchKnows) (channel : String) (limit : Nat) :
    (host.document channel limit).Ends (host.Reaches w) FeedError.KnowsChannel fun _ => True := by
  have htext : Ends (ExceptT.mk (host.fetch channel limit)) (host.Reaches w) FeedError.KnowsChannel
      fun _ => True :=
    ends_mk (fun _ hv => .fetch channel limit hv) fun v e _ => hfetch channel limit v e
  apply htext.bind
  intro text _
  exact ends_result fun _ => knowsChannel_of_documentOfFeed

/-- Writing what came of containers does not make a channel unknown. -/
theorem ends_flushAll (path : String) (runs : List ContainerRun) :
    (host.flushAll path runs).Ends (host.Reaches w) FeedError.KnowsChannel fun _ => True := by
  induction runs with
  | nil => exact ends_pure trivial
  | cons run rest ih =>
    have hflush : (host.flush path run).Ends (host.Reaches w) FeedError.KnowsChannel
        fun _ => True :=
      (host.ends_log_knows w _).bind fun _ _ => (host.ends_report w _ _ _).bind fun _ _ =>
        ends_pure trivial
    rw [flushAll]
    exact hflush.bind fun _ _ => ih.bind fun _ _ => ends_pure trivial

/-- Writing the time of an event fails only if the log refuses lines. -/
theorem ends_logTime (event : String) :
    (host.logTime event).Ends (host.Reaches w) (host.LogRefuses w) fun _ => True :=
  (host.ends_now w).bind fun _ _ => host.ends_log w _

/-- Telling that a channel was aborted fails only if the log refuses lines. -/
theorem ends_logAborted (o : ChannelOutcome) :
    (host.logAborted o).Ends (host.Reaches w) (host.LogRefuses w) fun _ => True := by
  cases o with
  | completed report => exact ends_pure trivial
  | aborted channel e => exact host.ends_log w [e.message]

/-- Showing an outcome on the console cannot fail. -/
theorem ends_announce (verbosity : Option Verbosity) (o : ChannelOutcome) :
    (liftM (host.announce verbosity o) : Running (StateM σ) Unit).Ends (host.Reaches w) stops
      fun _ => True := by
  apply ends_lift
  · intro v hv
    cases verbosity with
    | none => exact hv
    | some shown =>
      rw [announce]
      split_ifs
      · exact hv
      · exact .print _ hv
  · exact fun _ _ => trivial

end Steps

/-! ## One channel -/

section Channel

variable {host plan w}

/-- A channel that is run to its end has a report of its own name; and no error that ends it says
that it is not known. -/
theorem ends_runChannel (hfetch : host.FetchKnows) (setup : ChannelSetup) :
    (host.runChannel plan setup).Ends (host.Reaches w) FeedError.KnowsChannel
      fun r => r.channel = setup.channel := by
  unfold runChannel
  apply (host.ends_now w).bind
  intro started _
  apply (host.ends_log_knows w _).bind
  intro _ _
  apply (host.ends_expectation w setup.expectation).bind
  intro spec _
  apply (host.ends_document w hfetch setup.channel plan.limit).bind
  intro document _
  apply (host.ends_log_knows w _).bind
  intro _ _
  have hcontainers : Ends (σ := σ)
      (ExceptT.mk (pure ((findContainers document spec).mapError .ofContainers)))
      (host.Reaches w) FeedError.KnowsChannel fun _ => True :=
    ends_result fun _ => knowsChannel_of_findContainers
  apply hcontainers.bind
  intro containers _
  apply (host.ends_report w _ _ _).bind
  intro _ _
  rw [checkAndWrite_eq]
  apply (host.ends_flushAll w _ _).bind
  intro summaries _
  apply (host.ends_now w).bind
  intro finished _
  apply (host.ends_report w _ _ _).bind
  intro _ _
  apply (host.ends_log_knows w _).bind
  intro _ _
  exact ends_pure rfl

/-- A configured channel is aborted with the error that ends its run, and else completed with its
report. -/
theorem run_outcome_known (setup : ChannelSetup) (v : σ) :
    (host.outcome plan (.known setup)).run v =
      (match ((host.runChannel plan setup).run.run v).1 with
        | .ok r => .completed r
        | .error e => .aborted setup.channel e,
      ((host.runChannel plan setup).run.run v).2) := by
  rw [outcome]
  change (match (host.runChannel plan setup).run.run v with
    | (result, v') => (match result with
      | .ok r => pure (.completed r)
      | .error e => pure (.aborted setup.channel e) : StateM σ ChannelOutcome).run v') = _
  rcases (host.runChannel plan setup).run.run v with ⟨r | e, v'⟩ <;> rfl

/-- A selected channel comes to an outcome; a run is ended only by a log that refuses lines. -/
theorem ends_outcome (hfetch : host.FetchKnows) (selected : Selected) :
    (liftM (host.outcome plan selected) : Running (StateM σ) ChannelOutcome).Ends (host.Reaches w)
      (host.LogRefuses w) (host.OutcomeOf plan w selected) := by
  apply ends_lift
  · intro v hv
    cases selected with
    | known setup =>
      rw [run_outcome_known]
      exact (ends_runChannel hfetch setup v hv).1
    | unknown channel => exact hv
  · exact fun v hv => ⟨v, hv, rfl⟩

/-- What comes of a channel that can be tested is about that channel. -/
theorem outcomeOf_known (hfetch : host.FetchKnows) {setup : ChannelSetup} {o : ChannelOutcome}
    (h : host.OutcomeOf plan w (.known setup) o) :
    o.channel = setup.channel ∧ ∀ channel name, o ≠ .aborted channel (.unknownChannel name) := by
  obtain ⟨v, hv, rfl⟩ := h
  have hchannel : (host.runChannel plan setup).Ends (host.Reaches w) FeedError.KnowsChannel
      fun r => r.channel = setup.channel := ends_runChannel hfetch setup
  obtain ⟨-, hends⟩ := hchannel v hv
  rw [run_outcome_known]
  cases hresult : ((host.runChannel plan setup).run.run v).1 with
  | ok r =>
    rw [hresult] at hends
    refine ⟨hends, fun channel name h => ?_⟩
    cases h
  | error e =>
    rw [hresult] at hends
    refine ⟨rfl, fun channel name h => ?_⟩
    cases h
    exact hends

/-! ## Selected channels -/

/-- Channels that are run one after the other have one outcome each. -/
theorem ends_runEach (hfetch : host.FetchKnows) (selected : List Selected) :
    (host.runEach plan selected).Ends (host.Reaches w) (host.LogRefuses w)
      (List.Forall₂ (host.OutcomeOf plan w) selected) := by
  induction selected with
  | nil => exact ends_pure .nil
  | cons first rest ih =>
    rw [runEach]
    apply (ends_outcome hfetch first).bind
    intro o ho
    apply (host.ends_logAborted w o).bind
    intro _ _
    apply (host.ends_announce w plan.verbosity o).bind
    intro _ _
    apply ih.bind
    intro others hothers
    exact ends_pure (.cons ho hothers)

/-- A run yields one outcome for each channel that its selection means, unless the log refuses a
line on the way. -/
theorem ends_runSelection (hfetch : host.FetchKnows) (selection : String) :
    (host.runSelection plan selection).Ends (host.Reaches w) (host.LogRefuses w)
      (List.Forall₂ (host.OutcomeOf plan w) (select plan selection)) := by
  apply (host.ends_logTime w "started").bind
  intro _ _
  apply (host.ends_log w _).bind
  intro _ _
  apply (ends_runEach hfetch _).bind
  intro outcomes houtcomes
  apply (host.ends_logTime w "finished").bind
  intro _ _
  exact ends_pure houtcomes

end Channel

end Host

end FeedAudit

import FeedAudit.Channel.Runner

/-!
# Runs and their histories

What a run does to the world is its *history*: the writes it asks for and the feeds it requests, one
after the other, each write with the fault that refused it, if any. `Surroundings` answer a run, and
their answers may depend in any way on the history so far; they refuse writes as they like. A write
is refused as a whole or made as a whole.

A computation *follows* steps (`Surroundings.Follows`) if it takes them in order up to the first one
that is refused: with that fault it stops, and otherwise it comes to its end. Computations that
follow steps compose (`Follows.bind`), and so the steps of larger computations are read off their
parts.
-/

namespace FeedAudit

/-! ## Histories -/

/-- A write to the log or to a report. -/
inductive Write where
  | log (lines : List String)
  | report (path : String) (mode : FileSystem.WriteMode) (lines : List String)
  deriving DecidableEq, Repr

/-- What a run does to the world. -/
inductive Step where
  | write (w : Write)
  | request (channel : String) (limit : Nat)
  deriving DecidableEq, Repr

/-- A step that was taken. -/
structure Event where
  step : Step
  /-- The fault by which the step was refused. -/
  refusal : Option IoFault
  deriving DecidableEq, Repr

/-- A step that was not refused. -/
def Step.made (step : Step) : Event := ⟨step, none⟩

/-- The steps of events in which all of them were made. -/
@[simp] theorem map_step_made (steps : List Step) :
    (steps.map Step.made).map Event.step = steps := by
  rw [List.map_map]
  exact List.map_id steps

/-- All steps so far, the oldest first. -/
abbrev History := List Event

/-- The fault of the first step that was refused. -/
def firstRefusal (events : List Event) : Option IoFault := events.findSome? (·.refusal)

@[simp] theorem firstRefusal_nil : firstRefusal [] = none := rfl

/-- The first refusal is that of the first event, or else the first one behind it. -/
theorem firstRefusal_cons (e : Event) (rest : List Event) :
    firstRefusal (e :: rest) = e.refusal.or (firstRefusal rest) := by
  rw [firstRefusal, List.findSome?_cons]
  cases e.refusal <;> rfl

/-- The first refusal is in the first events, or else the first one in the others. -/
theorem firstRefusal_append (events others : List Event) :
    firstRefusal (events ++ others) = (firstRefusal events).or (firstRefusal others) :=
  List.findSome?_append

/-- There is no first refusal exactly if no event was refused. -/
theorem firstRefusal_eq_none_iff {events : List Event} :
    firstRefusal events = none ↔ ∀ e ∈ events, e.refusal = none :=
  List.findSome?_eq_none_iff

/-- Steps that were made are not refused. -/
@[simp] theorem firstRefusal_made (steps : List Step) :
    firstRefusal (steps.map Step.made) = none := by
  rw [firstRefusal_eq_none_iff]
  intro e he
  obtain ⟨step, _, rfl⟩ := List.mem_map.mp he
  rfl

/-- The steps that were not refused. -/
def taken (events : List Event) : List Step :=
  events.filterMap fun e => if e.refusal = none then some e.step else none

/-- The steps taken in two lists of events, one after the other. -/
theorem taken_append (events others : List Event) :
    taken (events ++ others) = taken events ++ taken others :=
  List.filterMap_append

/-- The steps taken in several lists of events, one after the other. -/
theorem taken_flatMap {α : Type} (xs : List α) (f : α → List Event) :
    taken (xs.flatMap f) = xs.flatMap fun x => taken (f x) := by
  induction xs with
  | nil => rfl
  | cons x rest ih => rw [List.flatMap_cons, List.flatMap_cons, taken_append, ih]

/-- Steps that were made were taken. -/
@[simp] theorem taken_made (steps : List Step) : taken (steps.map Step.made) = steps := by
  induction steps with
  | nil => rfl
  | cons step rest ih =>
    rw [List.map_cons, ← List.singleton_append, taken_append, ih]
    rfl

/-- What has been taken is never taken back. -/
theorem taken_mono {events others : List Event} (hpre : events <+: others) :
    taken events <+: taken others :=
  hpre.filterMap _

/-- The only event that may have been refused is the last one. -/
def Unbroken (events : List Event) : Prop := ∀ e ∈ events.dropLast, e.refusal = none

/-- Events of which none was refused are unbroken. -/
theorem unbroken_of_none {events : List Event} (hnone : firstRefusal events = none) :
    Unbroken events :=
  fun e he => firstRefusal_eq_none_iff.mp hnone e (List.dropLast_subset events he)

/-- Unbroken events stay unbroken behind others of which none was refused. -/
theorem Unbroken.append {events others : List Event} (hnone : firstRefusal events = none)
    (hothers : Unbroken others) : Unbroken (events ++ others) := by
  cases others with
  | nil =>
    rw [List.append_nil]
    exact unbroken_of_none hnone
  | cons next rest =>
    intro e he
    rw [List.dropLast_append_of_ne_nil (List.cons_ne_nil next rest)] at he
    rcases List.mem_append.mp he with hfirst | hsecond
    · exact firstRefusal_eq_none_iff.mp hnone e hfirst
    · exact hothers e hsecond

/-- An event that was refused is the last one, and its fault the only one. -/
theorem Unbroken.of_refused {events : List Event} (hunbroken : Unbroken events) {e : Event}
    (he : e ∈ events) {fault : IoFault} (hrefused : e.refusal = some fault) :
    events.getLast? = some e ∧ firstRefusal events = some fault := by
  have hne : events ≠ [] := List.ne_nil_of_mem he
  have hsplit := List.dropLast_concat_getLast hne
  have hlast : e = events.getLast hne := by
    rw [← hsplit] at he
    rcases List.mem_append.mp he with hearly | hlast
    · rw [hunbroken e hearly] at hrefused
      cases hrefused
    · exact List.mem_singleton.mp hlast
  refine ⟨by rw [hlast, List.getLast?_eq_some_getLast hne], ?_⟩
  rw [← hsplit, firstRefusal_append, firstRefusal_eq_none_iff.mpr hunbroken, Option.none_or,
    firstRefusal_cons, ← hlast, hrefused]
  rfl

/-! ## Surroundings -/

/-- Answers to all that a run asks, each given what has happened so far. -/
structure Surroundings where
  clock : History → Moment
  content : History → String → Except IoFault String
  feed : History → String → Nat → Except FeedError String
  /-- The fault by which a write is refused. -/
  refusal : History → Write → Option IoFault

namespace Surroundings

/-- A write, which is recorded whether it is made or refused. -/
def write (s : Surroundings) (w : Write) : StateM History (Except IoFault Unit) := fun h =>
  match s.refusal h w with
  | none => (.ok (), h ++ [⟨.write w, none⟩])
  | some fault => (.error fault, h ++ [⟨.write w, some fault⟩])

/-- The host by which surroundings answer. What is shown on the console is not recorded. -/
def host (s : Surroundings) : Host (StateM History) where
  now h := (s.clock h, h)
  readText path h := (s.content h path, h)
  fetch channel limit h := (s.feed h channel limit, h ++ [(Step.request channel limit).made])
  appendLog lines := s.write (.log lines)
  writeReport path mode lines := s.write (.report path mode lines)
  print _ := pure ()

/-- The same surroundings without any refusal. -/
def unrefusing (s : Surroundings) : Surroundings := { s with refusal := fun _ _ => none }

/-- The fault by which a step is refused; a request is not. -/
def refuses (s : Surroundings) (h : History) : Step → Option IoFault
  | .write w => s.refusal h w
  | .request _ _ => none

/-- The events when steps are taken in order up to the first one that is refused. -/
def cut (s : Surroundings) : History → List Step → List Event
  | _, [] => []
  | h, step :: rest =>
    match s.refuses h step with
    | none => step.made :: s.cut (h ++ [step.made]) rest
    | some fault => [⟨step, some fault⟩]

variable {s : Surroundings} {h : History}

@[simp] theorem cut_nil : s.cut h [] = [] := rfl

/-- Steps of which none is refused are all taken. -/
theorem cut_of_firstRefusal_eq_none {steps : List Step}
    (hnone : firstRefusal (s.cut h steps) = none) : s.cut h steps = steps.map Step.made := by
  induction steps generalizing h with
  | nil => rfl
  | cons step rest ih =>
    rw [cut] at hnone ⊢
    cases hstep : s.refuses h step with
    | none =>
      rw [hstep, firstRefusal_cons] at hnone
      rw [List.map_cons, ← ih hnone]
    | some fault =>
      rw [hstep, firstRefusal_cons] at hnone
      cases hnone

/-- Further steps are taken only if none of the first ones is refused. -/
theorem cut_append (first second : List Step) :
    s.cut h (first ++ second) =
      s.cut h first ++
        if firstRefusal (s.cut h first) = none then s.cut (h ++ first.map Step.made) second
        else [] := by
  induction first generalizing h with
  | nil => simp
  | cons step rest ih =>
    rw [List.cons_append, cut, cut]
    cases hstep : s.refuses h step with
    | none =>
      dsimp only
      rw [ih, firstRefusal_cons, List.map_cons, List.append_assoc]
      rfl
    | some fault =>
      dsimp only
      rw [firstRefusal_cons, if_neg (by simp), List.append_nil]

/-- Steps that are cut off were taken up to the last one, which was refused. -/
theorem cut_of_firstRefusal_eq_some {steps : List Step} {fault : IoFault}
    (hsome : firstRefusal (s.cut h steps) = some fault) :
    ∃ before step after, steps = before ++ step :: after ∧
      s.cut h steps = before.map Step.made ++ [⟨step, some fault⟩] := by
  induction steps generalizing h with
  | nil => cases hsome
  | cons step rest ih =>
    rw [cut] at hsome ⊢
    cases hstep : s.refuses h step with
    | none =>
      rw [hstep, firstRefusal_cons] at hsome
      obtain ⟨before, last, after, hrest, hcut⟩ := ih hsome
      exact ⟨step :: before, last, after, by rw [hrest, List.cons_append], by
        rw [hcut, List.map_cons, List.cons_append]⟩
    | some other =>
      rw [hstep, firstRefusal_cons] at hsome
      cases hsome
      exact ⟨[], step, rest, rfl, rfl⟩

/-- Steps are taken in order and none is left out in between. -/
theorem taken_cut_isPrefix (steps : List Step) : taken (s.cut h steps) <+: steps := by
  cases hcut : firstRefusal (s.cut h steps) with
  | none =>
    have hall : taken (s.cut h steps) = steps := by
      rw [cut_of_firstRefusal_eq_none hcut, taken_made]
    exact ⟨[], by rw [hall, List.append_nil]⟩
  | some fault =>
    obtain ⟨before, step, after, hsteps, hevents⟩ := cut_of_firstRefusal_eq_some hcut
    rw [hevents, taken_append, taken_made, hsteps]
    exact ⟨step :: after, by simp [taken]⟩

/-- Nothing is taken behind a refusal. -/
theorem unbroken_cut (steps : List Step) : Unbroken (s.cut h steps) := by
  cases hcut : firstRefusal (s.cut h steps) with
  | none => exact unbroken_of_none hcut
  | some fault =>
    obtain ⟨before, step, after, -, hevents⟩ := cut_of_firstRefusal_eq_some hcut
    rw [hevents]
    exact Unbroken.append (firstRefusal_made before) nofun

/-- Whether refused or not, steps are tried in their order. -/
theorem map_step_cut_isPrefix (steps : List Step) : (s.cut h steps).map Event.step <+: steps := by
  cases hcut : firstRefusal (s.cut h steps) with
  | none =>
    have hall : (s.cut h steps).map Event.step = steps := by
      rw [cut_of_firstRefusal_eq_none hcut, map_step_made]
    exact ⟨[], by rw [hall, List.append_nil]⟩
  | some fault =>
    obtain ⟨before, step, after, hsteps, hevents⟩ := cut_of_firstRefusal_eq_some hcut
    rw [hevents, hsteps, List.map_append, map_step_made]
    exact ⟨after, by simp⟩

/-- Without refusals all steps are taken. -/
theorem cut_unrefusing (steps : List Step) : s.unrefusing.cut h steps = steps.map Step.made := by
  induction steps generalizing h with
  | nil => rfl
  | cons step rest ih =>
    have hstep : s.unrefusing.refuses h step = none := by
      cases step <;> rfl
    rw [cut, hstep, List.map_cons]
    dsimp only
    rw [ih]

end Surroundings

/-! ## Computations that follow steps -/

/-- What a computation comes to after events: the first refusal among them ends it, and otherwise
it has the given result. -/
def ending {α : Type} (events : List Event) (result : Except FeedError α) : Except FeedError α :=
  match firstRefusal events with
  | some fault => .error (.io fault)
  | none => result

/-- Without a refusal, a computation comes to its own result. -/
theorem ending_of_none {α : Type} {events : List Event} (hnone : firstRefusal events = none)
    (result : Except FeedError α) : ending events result = result := by
  rw [ending, hnone]

/-- A refusal ends a computation with the fault. -/
theorem ending_of_some {α : Type} {events : List Event} {fault : IoFault}
    (hsome : firstRefusal events = some fault) (result : Except FeedError α) :
    ending events result = .error (.io fault) := by
  rw [ending, hsome]

/-- Events of which none was refused do not change what those behind them come to. -/
theorem ending_append_of_none {α : Type} {events : List Event}
    (hnone : firstRefusal events = none) (others : List Event) (result : Except FeedError α) :
    ending (events ++ others) result = ending others result := by
  rw [ending, ending, firstRefusal_append, hnone, Option.none_or]

namespace Surroundings

variable {α β : Type} {s : Surroundings} {h : History}

/-- After a history, a computation takes steps up to the first one that is refused, and comes to a
result when none is. -/
def Follows (s : Surroundings) (h : History) (x : Running (StateM History) α) (steps : List Step)
    (result : Except FeedError α) : Prop :=
  x.run.run h = (ending (s.cut h steps) result, h ++ s.cut h steps)

/-- A result that is known beforehand takes no steps. -/
theorem Follows.pure (result : Except FeedError α) :
    s.Follows h (ExceptT.mk (Pure.pure result)) [] result := by
  rw [Follows, cut_nil, List.append_nil]
  rfl

/-- A computation that returns a value goes on with it. -/
theorem run_bind_ok {x : Running (StateM History) α} {a : α} {h' : History}
    (hx : x.run.run h = (.ok a, h')) (f : α → Running (StateM History) β) :
    (x >>= f).run.run h = (f a).run.run h' := by
  have hcont : (x >>= f).run.run h =
      (ExceptT.bindCont f (x.run.run h).1).run (x.run.run h).2 := rfl
  rw [hcont, hx]
  rfl

/-- An error ends a computation before the rest of it. -/
theorem run_bind_error {x : Running (StateM History) α} {e : FeedError} {h' : History}
    (hx : x.run.run h = (.error e, h')) (f : α → Running (StateM History) β) :
    (x >>= f).run.run h = (.error e, h') := by
  have hcont : (x >>= f).run.run h =
      (ExceptT.bindCont f (x.run.run h).1).run (x.run.run h).2 := rfl
  rw [hcont, hx]
  rfl

/-- What comes after a computation is done when none of its steps is refused. -/
theorem Follows.bind {x : Running (StateM History) α} {f : α → Running (StateM History) β}
    {steps others : List Step} {a : α} {result : Except FeedError β}
    (hx : s.Follows h x steps (.ok a))
    (hf : s.Follows (h ++ steps.map Step.made) (f a) others result) :
    s.Follows h (x >>= f) (steps ++ others) result := by
  rw [Follows] at hx hf
  rw [Follows, cut_append]
  cases hcut : firstRefusal (s.cut h steps) with
  | none =>
    have hmade := cut_of_firstRefusal_eq_none hcut
    rw [ending_of_none hcut, hmade] at hx
    rw [run_bind_ok hx, if_pos rfl, hmade, ending_append_of_none (firstRefusal_made steps),
      ← List.append_assoc]
    exact hf
  | some fault =>
    rw [ending_of_some hcut] at hx
    rw [run_bind_error hx, if_neg (Option.some_ne_none fault), List.append_nil,
      ending_of_some hcut]

/-- An error of a computation leaves out what comes after it. -/
theorem Follows.bind_error {x : Running (StateM History) α} (f : α → Running (StateM History) β)
    {steps : List Step} {e : FeedError} (hx : s.Follows h x steps (.error e)) :
    s.Follows h (x >>= f) steps (.error e) := by
  rw [Follows] at hx ⊢
  cases hcut : firstRefusal (s.cut h steps) with
  | none =>
    rw [ending_of_none hcut] at hx ⊢
    exact run_bind_error hx f
  | some fault =>
    rw [ending_of_some hcut] at hx ⊢
    exact run_bind_error hx f

/-! ## The steps of a host -/

/-- A write is a step of its own. -/
theorem follows_write (w : Write) :
    s.Follows h (Running.io (s.write w)) [.write w] (.ok ()) := by
  have hrun : (Running.io (s.write w)).run.run h =
      ((s.write w h).1.mapError FeedError.io, (s.write w h).2) := rfl
  rw [Follows, hrun, write, cut, refuses]
  cases hstep : s.refusal h w with
  | none => rfl
  | some fault => rfl

/-- Writing to the log is a single step. -/
theorem follows_log (lines : List String) :
    s.Follows h (s.host.log lines) [.write (.log lines)] (.ok ()) :=
  follows_write _

/-- Writing to a report is a single step. -/
theorem follows_report (path : String) (mode : FileSystem.WriteMode) (lines : List String) :
    s.Follows h (s.host.report path mode lines) [.write (.report path mode lines)] (.ok ()) :=
  follows_write _

/-- Reading the clock takes no step. -/
theorem follows_now : s.Follows h (liftM s.host.now) [] (.ok (s.clock h)) := by
  rw [Follows, cut_nil, List.append_nil]
  rfl

/-- The expectation of a channel, as far as it can be had. -/
def expectation (s : Surroundings) (h : History) : ExpectationSource →
    Except FeedError ContainerSpec
  | .given spec => .ok spec
  | .file path => ContainerSpec.ofFile path (s.content h path)

/-- Loading an expectation takes no step that could be refused. -/
theorem follows_expectation (source : ExpectationSource) :
    s.Follows h (s.host.expectation source) [] (s.expectation h source) := by
  rw [Follows, cut_nil, List.append_nil]
  cases source <;> rfl

/-- The document of a channel's feed, as far as it can be had. -/
def document (s : Surroundings) (h : History) (channel : String) (limit : Nat) :
    Except FeedError Markup.Document :=
  (s.feed h channel limit).bind (documentOfFeed channel)

/-- A feed is asked for once, whatever comes of it. -/
theorem follows_document (channel : String) (limit : Nat) :
    s.Follows h (s.host.document channel limit) [.request channel limit]
      (s.document h channel limit) := by
  have hfetch : s.Follows h (ExceptT.mk (s.host.fetch channel limit)) [.request channel limit]
      (s.feed h channel limit) := rfl
  rw [Host.document, document]
  cases hfeed : s.feed h channel limit with
  | error e =>
    rw [hfeed] at hfetch
    exact hfetch.bind_error _
  | ok text =>
    rw [hfeed] at hfetch
    exact hfetch.bind (Follows.pure _)

end Surroundings

end FeedAudit

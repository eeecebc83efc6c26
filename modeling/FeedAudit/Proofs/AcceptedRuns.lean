import FeedAudit.Proofs.Endings
import FeedAudit.Proofs.Masking
import FeedAudit.Proofs.Validity

/-!
# Runs with accepted settings

The settings, the program and the runner each make a list of the channels and look a selection up in
it. For settings that were accepted they agree: the runner finds what is selected, and every channel
that it finds has one outcome.

Main statement: `Settings.validate_runSelection`. Settings are accepted exactly if they are valid;
and a run with accepted settings, on whatever machine, yields outcomes just for the channels that
are selected, unless the log refuses a line, none of them about a channel that is not known, with
the feeds from the source that is given.
-/

namespace FeedAudit

/-! ## Errors of feeds -/

section Fetching

variable {σ : Type} {settings : FetchSettings} {e : FeedError}

/-- No answer to a request makes a channel unknown. -/
theorem knowsChannel_of_fetchWithin {request : StateM σ Attempt} {wait : Nat → StateM σ Unit}
    {url : String} {failures left : Nat} {v : σ}
    (h : ((fetchWithin request wait settings url failures left).run v).1 = .error e) :
    e.KnowsChannel := by
  induction left generalizing failures v with
  | zero => exact Attempt.knowsChannel_of_settle h
  | succ left ih =>
    have hrun : (fetchWithin request wait settings url failures (left + 1)).run v =
        StateT.run (if (request.run v).1.retryable = true then do
            wait (settings.retryDelay failures)
            fetchWithin request wait settings url (failures + 1) left
          else return (request.run v).1.settle url settings.timeoutSeconds) (request.run v).2 := rfl
    rw [hrun] at h
    split_ifs at h
    · exact ih h
    · exact Attempt.knowsChannel_of_settle h

/-- A source that fails does not make a channel unknown, be it a file or an address. -/
theorem FeedSource.knowsChannel_of_fetch {source : FeedSource}
    {readText : String → StateM σ (Except IoFault String)}
    {request : FetchSettings → String → StateM σ Attempt} {wait : Nat → StateM σ Unit}
    {channel : String} {limit : Nat} {v : σ}
    (h : ((source.fetch readText request wait settings channel limit).run v).1 = .error e) :
    e.KnowsChannel := by
  cases source with
  | file path =>
    change ((readText path).run v).1.mapError FeedError.io = .error e at h
    cases hread : ((readText path).run v).1 with
    | error fault =>
      rw [hread] at h
      cases h
      trivial
    | ok text =>
      rw [hread] at h
      cases h
  | domain name key => exact knowsChannel_of_fetchWithin h

end Fetching

/-! ## Runs with settings -/

namespace Settings

variable {s : Settings}

/-- There is always a channel to be tested: the usual one, if none is configured. -/
theorem effectiveChannels_ne_nil (s : Settings) : s.effectiveChannels ≠ [] := by
  unfold effectiveChannels
  by_cases hnone : s.channels.isEmpty = true
  · rw [if_pos hnone]
    exact List.cons_ne_nil _ _
  · rw [if_neg hnone]
    rintro hnil
    exact hnone (List.isEmpty_iff.mpr hnil)

/-- Where names are distinct, one channel has a name that occurs. -/
theorem exists_filter_eq_singleton {entries : List ChannelEntry} {name : String}
    (distinct : (entries.map (·.name)).Nodup) (mem : name ∈ entries.map (·.name)) :
    ∃ e, entries.filter (·.name == name) = [e] := by
  induction entries with
  | nil => cases mem
  | cons e rest ih =>
    rw [List.map_cons] at distinct mem
    obtain ⟨hfresh, hrest⟩ := List.nodup_cons.mp distinct
    by_cases heq : e.name = name
    · have hothers : rest.filter (·.name == name) = [] := by
        apply List.filter_eq_nil_iff.mpr
        intro other hother hname
        apply hfresh
        rw [heq, ← beq_iff_eq.mp hname]
        exact List.mem_map_of_mem hother
      refine ⟨e, ?_⟩
      rw [List.filter_cons, if_pos (beq_iff_eq.mpr heq), hothers]
    · have hmem : name ∈ rest.map (·.name) :=
        (List.mem_cons.mp mem).resolve_left fun hname => heq hname.symm
      obtain ⟨other, hother⟩ := ih hrest hmem
      refine ⟨other, ?_⟩
      rw [List.filter_cons, if_neg (by simpa using heq), hother]

/-- All channels are selected by their common name, in the order of the settings. -/
theorem select_plan_of_all (h : s.run.channel = allChannels) :
    Host.select s.plan s.run.channel = s.effectiveChannels.map fun e => .known e.setup := by
  rw [h, Host.select_all, plan, List.map_map]
  rfl

/-- The channel of a selected name is found by the runner, and it is the only one. -/
theorem Valid.select_plan (hvalid : s.Valid) (h : s.run.channel ≠ allChannels) :
    ∃ e, s.effectiveChannels.filter (·.name == s.run.channel) = [e] ∧
      Host.select s.plan s.run.channel = [.known e.setup] := by
  have hmem : s.run.channel ∈ s.channelNames := hvalid.selection_known.resolve_left h
  obtain ⟨e, he⟩ := exists_filter_eq_singleton hvalid.names_distinct hmem
  have hfind : s.effectiveChannels.find? (·.name == s.run.channel) = some e := by
    rw [← List.head?_filter, he, List.head?_cons]
  have hsetup : s.plan.channels.find? (·.channel == s.run.channel) = some e.setup := by
    rw [plan, List.find?_map]
    exact congrArg (Option.map ChannelEntry.setup) hfind
  refine ⟨e, he, ?_⟩
  rw [Host.select, if_neg h, hsetup]

/-- Settings configure a source that they give: the file if there is one, and else the domain with
the key. -/
inductive Configures (s : Settings) : FeedSource → Prop
  | file {path : String} (file_given : s.source.inputFile = some path) : s.Configures (.file path)
  | domain {name key : String} (no_file : s.source.inputFile = none)
      (domain_given : s.source.domain = some name) (key_given : s.source.apiKey = some key) :
      s.Configures (.domain name key)

/-- Accepted settings say what is needed to fetch every channel. -/
theorem Valid.configures (hvalid : s.Valid) : s.Configures s.feedSource := by
  unfold feedSource
  cases hfile : s.source.inputFile with
  | some path => exact .file hfile
  | none =>
    have hboth : s.source.domain.isSome ∧ s.source.apiKey.isSome := by
      apply hvalid.source_given.resolve_left
      rw [hfile]
      exact Bool.false_ne_true
    obtain ⟨name, hname⟩ := Option.isSome_iff_exists.mp hboth.1
    obtain ⟨key, hkey⟩ := Option.isSome_iff_exists.mp hboth.2
    rw [hname, hkey]
    exact .domain hfile hname hkey

variable {σ : Type}

/-- `s.Tested host w e o` says that running the channel of an entry, on the way from the state `w`,
had the outcome `o`, which is about that channel and does not say that it is not known. -/
structure Tested (s : Settings) (host : Host (StateM σ)) (w : σ) (e : ChannelEntry)
    (o : ChannelOutcome) : Prop where
  ran : host.OutcomeOf s.plan w (.known e.setup) o
  channel_eq : o.channel = e.name
  known : ∀ channel name, o ≠ .aborted channel (.unknownChannel name)

/-- What a run with settings may come to from a state. -/
inductive Yields (s : Settings) (host : Host (StateM σ)) (w : σ) :
    Except FeedError (List ChannelOutcome) → Prop
  /-- The log refused a line of the runner. -/
  | refused {e : FeedError} (refuses : host.LogRefuses w e) : s.Yields host w (.error e)
  /-- All channels are selected, and each has one outcome. -/
  | all {outcomes : List ChannelOutcome} (selected : s.run.channel = allChannels)
      (some_outcome : outcomes ≠ [])
      (each : List.Forall₂ (s.Tested host w) s.effectiveChannels outcomes) :
      s.Yields host w (.ok outcomes)
  /-- One channel is selected, the only one of its name, and it has the only outcome. -/
  | one {e : ChannelEntry} {o : ChannelOutcome} (selected : s.run.channel ≠ allChannels)
      (unique : s.effectiveChannels.filter (·.name == s.run.channel) = [e])
      (tested : s.Tested host w e o) : s.Yields host w (.ok [o])

section Hosts

variable {machine : Machine (StateM σ)} {started : Moment} {w : σ}

/-- The source of a machine never makes a channel unknown. -/
theorem fetchKnows_host : (machine.host s started).FetchKnows :=
  fun _ _ _ _ h => FeedSource.knowsChannel_of_fetch h

/-- What comes of a channel on a machine is about that channel. -/
theorem tested_of_outcomeOf {e : ChannelEntry} {o : ChannelOutcome}
    (h : (machine.host s started).OutcomeOf s.plan w (.known e.setup) o) :
    s.Tested (machine.host s started) w e o := by
  obtain ⟨hchannel, hknown⟩ := Host.outcomeOf_known fetchKnows_host h
  exact ⟨h, hchannel, hknown⟩

/-- Runs with valid settings yield what is selected. -/
theorem Valid.yields (hvalid : s.Valid) : s.Yields (machine.host s started) w
    (((machine.host s started).runSelection s.plan s.run.channel).run.run w).1 := by
  have hends : ((machine.host s started).runSelection s.plan s.run.channel).Ends
      ((machine.host s started).Reaches w) ((machine.host s started).LogRefuses w)
      (List.Forall₂ ((machine.host s started).OutcomeOf s.plan w)
        (Host.select s.plan s.run.channel)) :=
    Host.ends_runSelection fetchKnows_host s.run.channel
  obtain ⟨-, hrun⟩ := hends w .start
  cases hresult : (((machine.host s started).runSelection s.plan s.run.channel).run.run w).1 with
  | error e =>
    rw [hresult] at hrun
    exact .refused hrun
  | ok outcomes =>
    rw [hresult] at hrun
    dsimp only at hrun
    by_cases hall : s.run.channel = allChannels
    · rw [select_plan_of_all hall, List.forall₂_map_left_iff] at hrun
      have hsome : outcomes ≠ [] := by
        rintro rfl
        exact s.effectiveChannels_ne_nil (List.forall₂_nil_right_iff.mp hrun)
      exact .all hall hsome (hrun.imp fun _ _ => tested_of_outcomeOf)
    · obtain ⟨e, hunique, hselect⟩ := hvalid.select_plan hall
      rw [hselect] at hrun
      cases hrun with
      | cons hfirst hrest =>
        cases hrest
        exact .one hall hunique (tested_of_outcomeOf hfirst)

end Hosts

/-- Settings are accepted exactly if they are valid. With settings that were accepted, the feeds
come from the file or the domain and key that are given; and on every machine and in every state, a
run yields one outcome for every channel, and there is at least one, if all are selected, and
otherwise the one outcome of the only channel of the selected name, unless the log refuses a line.
No outcome says that a channel is not known. -/
theorem validate_runSelection (s : Settings) :
    (s.validate = .ok () ↔ s.Valid) ∧
    (s.validate = .ok () → s.Configures s.feedSource ∧
      ∀ (σ : Type) (machine : Machine (StateM σ)) (started : Moment) (w : σ),
        s.Yields (machine.host s started) w
          (((machine.host s started).runSelection s.plan s.run.channel).run.run w).1) := by
  refine ⟨validate_eq_ok_iff, fun haccepted => ?_⟩
  have hvalid := validate_eq_ok_iff.mp haccepted
  exact ⟨hvalid.configures, fun σ machine started w => hvalid.yields⟩

/-- Settings that give a domain and a key, and nothing else. -/
def reachable : Settings := { source := { domain := some "example.com", apiKey := some "k3y" } }

/-- All channels of the convention are selected, and on a machine whose requests are forbidden each
has its outcome. -/
theorem validate_runSelection_reachable :
    reachable.validate = .ok () ∧ reachable.Configures (.domain "example.com" "k3y") ∧
    ∃ outcomes, (((forbiddenMachine.host reachable ⟨0, 0, 0⟩).runSelection reachable.plan
        reachable.run.channel).run.run []).1 = .ok outcomes ∧
      outcomes.map ChannelOutcome.channel = ["movie", "game", "website", "tv", "book", "music"] ∧
      List.Forall₂ (reachable.Tested (forbiddenMachine.host reachable ⟨0, 0, 0⟩) [])
        conventionalChannels outcomes := by
  have haccepted : reachable.validate = .ok () := by decide +kernel
  obtain ⟨hsource, hyields⟩ := (validate_runSelection reachable).2 haccepted
  have hrun := hyields (List String) forbiddenMachine ⟨0, 0, 0⟩ []
  have hnames : (((forbiddenMachine.host reachable ⟨0, 0, 0⟩).runSelection reachable.plan
      reachable.run.channel).run.run []).1.toOption.map (·.map ChannelOutcome.channel) =
        some ["movie", "game", "website", "tv", "book", "music"] := by decide +kernel
  cases hresult : (((forbiddenMachine.host reachable ⟨0, 0, 0⟩).runSelection reachable.plan
      reachable.run.channel).run.run []).1 with
  | error e =>
    rw [hresult] at hnames
    cases hnames
  | ok outcomes =>
    rw [hresult] at hnames hrun
    cases hrun with
    | all _ _ each => exact ⟨haccepted, hsource, outcomes, rfl, Option.some.inj hnames, each⟩
    | one selected => exact absurd rfl selected

end Settings

end FeedAudit

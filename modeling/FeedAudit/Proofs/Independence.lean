import FeedAudit.Proofs.Undisturbed

/-!
# Channels that do not depend on each other

A channel among others, whatever becomes of these, is like the same channel alone, up to the times,
if their reports spare its files. Main statement: `runSelection_of_spared`. Reports with places of
their own are not enough, as `among_others_unlike_alone` shows.
-/

namespace FeedAudit

open Host (Selected)

/-! ## Up to times -/

/-- Reports that differ in their times at most, and in the name of the file that tells a time. -/
def ChannelReport.SameButTimes (r q : ChannelReport) : Prop :=
  r = { q with started := r.started, finished := r.finished, path := r.path }

/-- Outcomes that differ in their times at most. -/
def ChannelOutcome.SameButTimes : ChannelOutcome → ChannelOutcome → Prop
  | .completed r, .completed q => r.SameButTimes q
  | .aborted channel e, .aborted other f => channel = other ∧ e = f
  | _, _ => False

/-- The error of an aborted channel in words. -/
def ChannelOutcome.failure : ChannelOutcome → Option String
  | .completed _ => none
  | .aborted _ e => some e.message

/-- Outcomes that are the same but for times have the same failure, if any. -/
theorem ChannelOutcome.SameButTimes.failure_eq {o p : ChannelOutcome} (hsame : o.SameButTimes p) :
    o.failure = p.failure := by
  cases o with
  | completed r =>
    cases p with
    | completed q => rfl
    | aborted other f => exact hsame.elim
  | aborted channel e =>
    cases p with
    | completed q => exact hsame.elim
    | aborted other f => rw [failure, failure, hsame.2]

namespace Turn

variable {t t' : Turn}

/-- Turns of one channel with one course come to the same, up to the times. -/
theorem sameButTimes_outcomeWhen (hchannel : t.channel = t'.channel)
    (hcourse : t.course = t'.course)
    (created : Except IoFault Unit) :
    (t.outcomeWhen created).SameButTimes (t'.outcomeWhen created) := by
  obtain ⟨channel, limit, path, course, started, finished⟩ := t
  obtain ⟨channel', limit', path', course', started', finished'⟩ := t'
  obtain rfl : channel = channel' := hchannel
  obtain rfl : course = course' := hcourse
  cases course with
  | ready spec containers =>
    cases created with
    | ok done => rfl
    | error fault => exact ⟨rfl, rfl⟩
  | _ => exact ⟨rfl, rfl⟩

/-- Turns of one channel with one course log the same. -/
theorem segmentWhen_congr (hchannel : t.channel = t'.channel) (hcourse : t.course = t'.course)
    (created : Except IoFault Unit) : t.segmentWhen created = t'.segmentWhen created := by
  obtain ⟨channel, limit, path, course, started, finished⟩ := t
  obtain ⟨channel', limit', path', course', started', finished'⟩ := t'
  obtain rfl : channel = channel' := hchannel
  obtain rfl : course = course' := hcourse
  cases course with
  | ready spec containers => cases created <;> rfl
  | _ => rfl

end Turn

namespace Surroundings

variable {fs : FileSystem} {clock : History → Moment} {selection : String}

/-! ## Among others and alone -/

/-- A channel among others is like the channel alone: up to the times, it comes to the same, logs
the same and leaves the same report. -/
structure LikeAlone (fs : FileSystem) (dir : String) (c : Chapter) (history : History)
    (alone : Chapter) (historyAlone : History) : Prop where
  outcome : c.outcome.SameButTimes alone.outcome
  segment : (logBlocks (taken c.record)).flatten = (logBlocks (taken alone.record)).flatten
  report : c.LeavesReport fs dir history
  reportAlone : alone.LeavesReport fs dir historyAlone

/-- A channel of a run does not depend on the others: wherever it is the only one that is selected,
with the same files, the same source and the same directory and limit, it is run alone and becomes
what it becomes among the others. The dated names of its report have to be writable alike. -/
def DependsOnNone (fs : FileSystem) (source : String → Nat → Except FeedError String)
    (plan : RunPlan) (c : Chapter) (history : History) : Prop :=
  ∀ (clock' : History → Moment) (plan' : RunPlan) (selection' : String),
    plan'.reportDir = plan.reportDir → plan'.limit = plan.limit →
    Host.select plan' selection' = [c.selected] →
    let s' := ofFiles fs clock' source
    let t' := s'.transcript plan' selection'
    ∃ alone, t'.chapters = [alone] ∧
      (s'.host.runSelection plan' selection').run.run [] = (.ok [alone.outcome], t'.events) ∧
      ((fs.writeBlock c.turn.path .create []).2 = (fs.writeBlock alone.turn.path .create []).2 →
        LikeAlone fs plan.reportDir c history alone t'.events)

/-- All selected channels are run, since nothing is refused of what the runner itself writes. -/
theorem run_eq (fs : FileSystem) (clock : History → Moment)
    (source : String → Nat → Except FeedError String) (plan : RunPlan) (selection : String) :
    ((ofFiles fs clock source).host.runSelection plan selection).run.run [] =
        (.ok ((ofFiles fs clock source).transcript plan selection).outcomes,
          ((ofFiles fs clock source).transcript plan selection).events) ∧
      ((ofFiles fs clock source).transcript plan selection).chapters.map Chapter.selected =
        Host.select plan selection := by
  rw [run_runSelection, ending_of_none firstRefusal_own]
  exact ⟨rfl, selected_transcript.2 firstRefusal_own⟩

/-- In a run whose log never fails all selected channels are run. A channel that is spared by the
reports of the others, whatever becomes of these, does not depend on them. -/
theorem runSelection_of_spared (fs : FileSystem) (clock : History → Moment)
    (source : String → Nat → Except FeedError String) (plan : RunPlan) (selection : String) :
    let s := ofFiles fs clock source
    let t := s.transcript plan selection
    (s.host.runSelection plan selection).run.run [] = (.ok t.outcomes, t.events) ∧
    t.chapters.map Chapter.selected = Host.select plan selection ∧
    ∀ earlier c later, t.chapters = earlier ++ c :: later →
      c.before ++ c.record <+: t.events ∧
      ((∀ d ∈ earlier ++ later, ∀ path ∈ c.files, fs.Spares d.turn.path path) →
        DependsOnNone fs source plan c t.events) := by
  intro s t
  obtain ⟨hrun, hselected⟩ := run_eq fs clock source plan selection
  refine ⟨hrun, hselected, fun earlier c later hsplit => ⟨?_, ?_⟩⟩
  · rw [transcript_events hsplit, Chapter.record]
    exact ⟨later.flatMap Chapter.record ++ (s.transcript plan selection).closing,
      by simp only [List.append_assoc]⟩
  intro hspared clock' plan' selection' hdir hlimit halone s' t'
  obtain ⟨hrun', hselected'⟩ := run_eq fs clock' source plan' selection'
  rw [halone] at hselected'
  obtain ⟨alone, hone, hsame⟩ := List.map_eq_singleton_iff.mp hselected'
  have houtcomes : t'.outcomes = [alone.outcome] := by
    rw [Transcript.outcomes, hone, List.map_singleton]
  refine ⟨alone, hone, by rw [hrun', houtcomes], fun halike => ?_⟩
  -- Both the channel among others and the channel alone are as undisturbed as if nobody else had
  -- run.
  have hfirst := undisturbed_of_spared hsplit hspared
  have hsplit' : ((ofFiles fs clock' source).transcript plan' selection').chapters =
      [] ++ alone :: [] := hone
  have hnobody : ∀ d ∈ ([] : List Chapter) ++ [], ∀ path ∈ alone.files,
      fs.Spares d.turn.path path := by
    intro d hd
    cases hd
  have hsecond := undisturbed_of_spared hsplit' hnobody
  have hchannel : c.turn.channel = alone.turn.channel := by
    rw [hfirst.channel, hsecond.channel, hsame]
  have hcourse : c.turn.course = alone.turn.course := by
    rw [hfirst.course, hsecond.course, hsame, hlimit]
  refine ⟨?_, ?_, hfirst.report, ?_⟩
  · rw [hfirst.outcome, hsecond.outcome, halike]
    exact Turn.sameButTimes_outcomeWhen hchannel hcourse _
  · rw [hfirst.segment, hsecond.segment, halike]
    exact Turn.segmentWhen_congr hchannel hcourse _
  · rw [← hdir]
    exact hsecond.report

/-! ## Three channels in one directory -/

/-- Files and directories below the working directory. -/
def homeWith (entries : List (Location × Entry)) : FileSystem :=
  entries.foldl (fun fs e => fs.put ("home" :: e.1) e.2) (.empty ["home"])

def planOf (channels : List ChannelSetup) : RunPlan where
  channels := channels
  reportDir := "reports"
  limit := 0
  parallel := false
  verbosity := none

/-- A clock that stands still. -/
def clockAt (seconds : Int) (_ : History) : Moment := ⟨seconds, 0, 0⟩

/-- A source that has one feed for all channels. -/
def movieFeed (_ : String) (_ : Nat) : Except FeedError String :=
  .ok "<r><movie><id>7</id></movie></r>"

def movieSpec : ContainerSpec := ⟨"movie", [.existing "1" "id"]⟩

/-- The text of a file that holds `movieSpec`. -/
def movieText : String :=
  "\x7b\"container\": \"movie\", \"elements\": [" ++
    "\x7b\"element_id\": \"1\", \"element_name\": \"id\"\x7d]\x7d"

def movieFiles : FileSystem :=
  homeWith [(["specs"], .directory), (["specs", "movie.json"], .file movieText.toUTF8)]

/-- A channel between one whose expectation is missing and one that leaves a report. -/
def moviePlan : RunPlan :=
  planOf [⟨"series", .file "specs/series.json"⟩, ⟨"movie", .file "specs/movie.json"⟩,
    ⟨"news", .given movieSpec⟩]

def movieTranscript (selection : String) : Transcript :=
  (ofFiles movieFiles (clockAt 0) movieFeed).transcript moviePlan selection

/-- The report of a channel that is run at the start of the clock is named for that time. -/
theorem path_movieTranscript {c : Chapter} (hc : c ∈ (movieTranscript selection).chapters) :
    c.turn.path = reportPath "reports" c.selected.channel ⟨0, 0, 0⟩ := by
  rw [movieTranscript] at hc
  rw [path_eq hc]
  rfl

/-- Between the two others, the channel is like the channel alone. -/
theorem runSelection_of_spared_movie :
    ∃ series movie news alone, (movieTranscript allChannels).chapters = [series, movie, news] ∧
      (∀ d ∈ [series, news], ∀ path ∈ movie.files, movieFiles.Spares d.turn.path path) ∧
      (movieTranscript "movie").chapters = [alone] ∧
      LikeAlone movieFiles "reports" movie (movieTranscript allChannels).events alone
        (movieTranscript "movie").events := by
  obtain ⟨-, hselected, hchapters⟩ :=
    runSelection_of_spared movieFiles (clockAt 0) movieFeed moviePlan allChannels
  rw [← movieTranscript] at hselected hchapters
  rw [Host.select_all] at hselected
  obtain ⟨series, rest, hthree, hseries, hrest⟩ := List.map_eq_cons_iff.mp hselected
  obtain ⟨movie, rest, rfl, hmovie, hrest⟩ := List.map_eq_cons_iff.mp hrest
  obtain ⟨news, rest, rfl, hnews, hrest⟩ := List.map_eq_cons_iff.mp hrest
  obtain rfl := List.map_eq_nil_iff.mp hrest
  have hdated : ∀ d ∈ [series, movie, news],
      d.turn.path = reportPath "reports" d.selected.channel ⟨0, 0, 0⟩ := by
    rw [← hthree]
    exact fun d hd => path_movieTranscript hd
  rw [List.forall_mem_cons, List.forall_mem_cons, List.forall_mem_singleton, hseries, hmovie,
    hnews] at hdated
  obtain ⟨hseriesPath, hmoviePath, hnewsPath⟩ := hdated
  have hfiles : movie.files = [reportPath "reports" "movie" ⟨0, 0, 0⟩, "specs/movie.json"] := by
    rw [Chapter.files, hmoviePath, hmovie]
    rfl
  have hspared : ∀ d ∈ [series] ++ [news], ∀ path ∈ movie.files,
      movieFiles.Spares d.turn.path path := by
    rw [hfiles, List.forall_mem_append, List.forall_mem_singleton, List.forall_mem_singleton,
      hseriesPath, hnewsPath]
    decide +kernel
  have hlone : Host.select moviePlan "movie" = [movie.selected] := by
    rw [hmovie]
    rfl
  obtain ⟨alone, hone, -, hlike⟩ := (hchapters [series] movie [news] hthree).2 hspared (clockAt 0)
    moviePlan "movie" rfl rfl hlone
  rw [← movieTranscript] at hone hlike
  have halone : alone.turn.path = movie.turn.path := by
    have hselected' := (run_eq movieFiles (clockAt 0) movieFeed moviePlan "movie").2
    rw [← movieTranscript, hone, hlone] at hselected'
    have hmem : alone ∈ (movieTranscript "movie").chapters := by
      rw [hone]
      exact List.mem_singleton_self alone
    rw [path_movieTranscript hmem, (List.cons.inj hselected').1, hmoviePath, hmovie]
  exact ⟨series, movie, news, alone, hthree, hspared, hone, hlike (by rw [halone])⟩

/-! ## Channels that are not spared -/

/-- With names of their own, and reports at places of which none is at or below another one, a
channel among all comes to something else than alone. -/
def UnlikeAlone (fs : FileSystem) (clock clock' : History → Moment) (plan : RunPlan)
    (channel : String) : Prop :=
  let t := (ofFiles fs clock movieFeed).transcript plan allChannels
  let t' := (ofFiles fs clock' movieFeed).transcript plan channel
  (plan.channels.map (·.channel)).Nodup ∧
    (t.chapters.map fun c => fs.place c.turn.path).Pairwise (fun l m => ¬ l <+: m ∧ ¬ m <+: l) ∧
    ∃ c ∈ t.chapters, ∃ alone, t'.chapters = [alone] ∧
      c.turn.channel = channel ∧ alone.turn.channel = channel ∧
      ¬ c.outcome.SameButTimes alone.outcome

/-- A test for `UnlikeAlone` that tells outcomes apart by what their errors say. -/
def unlikeAlone (fs : FileSystem) (clock clock' : History → Moment) (plan : RunPlan)
    (channel : String) : Bool :=
  let t := (ofFiles fs clock movieFeed).transcript plan allChannels
  let t' := (ofFiles fs clock' movieFeed).transcript plan channel
  decide (plan.channels.map (·.channel)).Nodup &&
    decide ((t.chapters.map fun c => fs.place c.turn.path).Pairwise fun l m =>
      ¬ l <+: m ∧ ¬ m <+: l) &&
    match t'.chapters with
    | [alone] => t.chapters.any fun c => c.turn.channel = channel &&
        alone.turn.channel = channel && c.outcome.failure != alone.outcome.failure
    | _ => false

/-- The comparison finds a difference only where there is one. -/
theorem unlikeAlone_sound {clock' : History → Moment} {plan : RunPlan} {channel : String}
    (hunlike : unlikeAlone fs clock clock' plan channel) :
    UnlikeAlone fs clock clock' plan channel := by
  rw [unlikeAlone] at hunlike
  split at hunlike
  · rename_i alone halone
    simp only [Bool.and_eq_true, decide_eq_true_eq, List.any_eq_true, bne_iff_ne] at hunlike
    obtain ⟨⟨hnames, hplaces⟩, c, hc, ⟨hchannel, hlone⟩, hfailure⟩ := hunlike
    exact ⟨hnames, hplaces, c, hc, alone, halone, hchannel, hlone,
      fun hsame => hfailure hsame.failure_eq⟩
  · rw [Bool.and_false] at hunlike
    cases hunlike

def reportsWith (entries : List (Location × Entry)) : FileSystem :=
  homeWith ((["reports"], .directory) :: entries.map fun e => ("reports" :: e.1, e.2))

/-- Reports with places of their own are not enough for a channel to be like the channel alone. It
is not if its expectation is read by way of a directory that another report needs; if it is read
from the file of another report, or from where a directory is made for it; if the way to its report
is blocked by another report, or goes on from a directory that is made for another one; and if two
names of its report, which tell different minutes, are not writable alike. -/
theorem among_others_unlike_alone :
    UnlikeAlone movieFiles (clockAt 0) (clockAt 0)
      (planOf [⟨"news", .given movieSpec⟩, ⟨"movie", .file "reports/../specs/movie.json"⟩])
      "movie" ∧
    UnlikeAlone (reportsWith []) (clockAt 0) (clockAt 0)
      (planOf [⟨"a/../x", .given movieSpec⟩, ⟨"movie", .file "reports/x_channel.txt/"⟩]) "movie" ∧
    UnlikeAlone (reportsWith []) (clockAt 0) (clockAt 0)
      (planOf [⟨"a/x", .given movieSpec⟩, ⟨"movie", .file "reports/1970_01_01_00_00_a"⟩])
      "movie" ∧
    UnlikeAlone (reportsWith []) (clockAt 0) (clockAt 0)
      (planOf [⟨"a/../x", .given movieSpec⟩, ⟨"b/../x_channel.txt/../y", .given movieSpec⟩])
      "b/../x_channel.txt/../y" ∧
    UnlikeAlone (reportsWith [(["x"], .file ByteArray.empty)]) (clockAt 0) (clockAt 0)
      (planOf [⟨"a/x", .given movieSpec⟩, ⟨"a/../x/../y", .given movieSpec⟩]) "a/../x/../y" ∧
    UnlikeAlone (reportsWith [(["1970_01_01_00_01_movie_channel.txt"], .directory)])
      (clockAt 0) (clockAt 60) (planOf [⟨"movie", .given movieSpec⟩]) "movie" := by
  refine ⟨unlikeAlone_sound ?_, unlikeAlone_sound ?_, unlikeAlone_sound ?_, unlikeAlone_sound ?_,
    unlikeAlone_sound ?_, unlikeAlone_sound ?_⟩ <;> decide +kernel

end Surroundings

end FeedAudit

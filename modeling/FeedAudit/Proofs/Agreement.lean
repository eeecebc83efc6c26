import FeedAudit.Console
import FeedAudit.Proofs.Consistency
import FeedAudit.Proofs.FlatVerdict
import FeedAudit.Proofs.LeftBehind

/-!
# Summaries agree

The outcome of a run is told in many places: in the exit code, in the counts and the last lines of
the reports, in the log, and on the console. Each of them works the verdict out from data of its
own. Here they are shown to tell the same, and to tell the truth: what they say is decided by the
verdicts that occur anywhere in the results (`ElementResult.Occurs`), at any depth, in an element,
a text or an attribute.

Main statement: `summaries_agree`, for outcomes whose results were left by checks. The outcomes of a
run are such outcomes (`Surroundings.checked_of_runSelection`).
-/

namespace FeedAudit

open Narrated

/-! ## Verdicts anywhere in a result -/

/-- A verdict occurs in a result: it is the verdict on the element, on its text or on one of its
attributes, or it occurs in one of the children. -/
inductive ElementResult.Occurs (v : Verdict) : ElementResult → Prop
  | own {r : ElementResult} (h : r.verdict = v) : Occurs v r
  | text {r : ElementResult} {x : ValueResult} (hx : r.value = some x) (h : x.verdict = v) :
      Occurs v r
  | attr {r : ElementResult} {a : AttributeResult} (ha : a ∈ r.attributeResults)
      (h : a.verdict = v) : Occurs v r
  | child {r c : ElementResult} (hc : c ∈ r.childResults) (h : Occurs v c) : Occurs v r

/-- A verdict occurs in one of the results of a container. -/
def Summary.Occurs (v : Verdict) (s : Summary) : Prop := ∃ e ∈ s.results, e.Occurs v

/-- A verdict occurs in one of the containers of a report. -/
def ChannelReport.Occurs (v : Verdict) (r : ChannelReport) : Prop := ∃ s ∈ r.summaries, s.Occurs v

/-- Nothing that occurs in a tree of consistent results is more severe than its root. -/
theorem ElementResult.Occurs.severity_le {v : Verdict} {r : ElementResult} (h : r.Occurs v)
    {depth : Nat} (hconsistent : ∀ n ∈ r.nodes depth, n.2.Consistent) :
    v.severity ≤ r.verdict.severity := by
  induction h generalizing depth with
  | own h => exact Nat.le_of_eq (congrArg Verdict.severity h.symm)
  | text hx h =>
    rw [← h]
    exact (hconsistent _ (root_mem_nodes depth _)).severity_part_le (value_mem_partVerdicts hx)
  | attr ha h =>
    rw [← h]
    exact (hconsistent _ (root_mem_nodes depth _)).severity_attribute_le ha
  | child hc _ ih =>
    have hbelow := ih fun n hn => hconsistent n (nodes_subset_of_child hc depth hn)
    exact Nat.le_trans hbelow ((hconsistent _ (root_mem_nodes depth _)).severity_child_le hc)

/-- A verdict sums up all verdicts that occur somewhere if it occurs there itself and none of them
is more severe. -/
theorem Verdict.sumsUp_of_severity_le {v : Verdict} {P : Verdict → Prop} (hown : P v)
    (hle : ∀ w, P w → w.severity ≤ v.severity) : v.SumsUp (P .fail) (P .block) := by
  cases v with
  | pass =>
    have hnofail : ¬P .fail := fun h => absurd (hle _ h) (by decide)
    have hnoblock : ¬P .block := fun h => absurd (hle _ h) (by decide)
    exact ⟨by simp [hnofail], by simp [hnofail, hnoblock]⟩
  | block =>
    have hnofail : ¬P .fail := fun h => absurd (hle _ h) (by decide)
    exact ⟨by simp [hnofail], by simp [hown]⟩
  | fail => exact ⟨by simp [hown], by simp [hown]⟩

/-- The verdict on an element that was checked sums up all verdicts that occur in its result. -/
theorem sumsUp_occurs (context : Selection) (spec : ElementSpec) :
    (checkElement context spec).result.verdict.SumsUp
      ((checkElement context spec).result.Occurs .fail)
      ((checkElement context spec).result.Occurs .block) :=
  Verdict.sumsUp_of_severity_le (P := fun v => (checkElement context spec).result.Occurs v)
    (.own rfl) fun _ h => h.severity_le (consistent_checkElement context spec 0)

/-! ## Checked outcomes -/

/-- All results in a report were left by checks. -/
def ChannelReport.Checked (r : ChannelReport) : Prop :=
  ∀ s ∈ r.summaries, ∀ e ∈ s.results, ∃ context spec log,
    e = ((checkElement context spec).run log).1

/-- All results in the report of an outcome, if it has one, were left by checks. -/
def ChannelOutcome.Checked (o : ChannelOutcome) : Prop := ∀ r, o = .completed r → r.Checked

namespace ChannelReport

variable {r : ChannelReport}

/-- The results of containers are left by the checks of their elements. -/
theorem checked_of_containers
    (h : ∀ s ∈ r.summaries, ∃ container spec, s = (checkContainer container spec).summary) :
    r.Checked := by
  intro s hs e he
  obtain ⟨container, spec, rfl⟩ := h s hs
  rw [summary_checkContainer] at he
  obtain ⟨element, _, rfl⟩ := List.mem_map.mp he
  exact ⟨container, element, .empty, rfl⟩

/-- The verdict on a container sums up all verdicts that occur in its results. -/
theorem Checked.sumsUp_summary (h : r.Checked) {s : Summary} (hs : s ∈ r.summaries) :
    s.verdict.SumsUp (s.Occurs .fail) (s.Occurs .block) := by
  refine Verdict.SumsUp.worst_map fun e he => ?_
  obtain ⟨context, spec, log, rfl⟩ := h s hs e he
  rw [(steady_checkElement context spec).fst_run]
  exact sumsUp_occurs context spec

/-- The verdict on a channel sums up all verdicts that occur in its report. -/
theorem Checked.sumsUp (h : r.Checked) : r.verdict.SumsUp (r.Occurs .fail) (r.Occurs .block) :=
  Verdict.SumsUp.worst_map fun _ hs => h.sumsUp_summary hs

/-- A report whose results were left by checks has not passed exactly if something in it failed or
was blocked. -/
theorem Checked.verdict_ne_pass_iff (h : r.Checked) :
    r.verdict ≠ .pass ↔ r.Occurs .fail ∨ r.Occurs .block := by
  rw [Ne, h.sumsUp.pass_iff]
  tauto

/-! ## Counts -/

/-- A verdict is counted exactly if some container has it. -/
theorem count_pos_iff (v : Verdict) : 0 < r.count v ↔ ∃ s ∈ r.summaries, s.verdict = v := by
  rw [count, List.length_pos_iff_exists_mem]
  simp

/-- Every container is counted once. -/
theorem count_add_count_add_count (r : ChannelReport) :
    r.count .pass + r.count .fail + r.count .block = r.containers := by
  unfold count containers
  induction r.summaries with
  | nil => rfl
  | cons s rest ih =>
    rw [List.length_cons, ← ih]
    cases hs : s.verdict <;> simp [hs] <;> omega

/-- The verdict on a channel by its counts. -/
theorem verdict_eq (r : ChannelReport) :
    r.verdict = if 0 < r.count .fail then .fail else if 0 < r.count .block then .block
      else .pass := by
  have hsums : r.verdict.SumsUp (∃ s ∈ r.summaries, s.verdict = .fail)
      (∃ s ∈ r.summaries, s.verdict = .block) :=
    Verdict.SumsUp.worst_map fun s _ => .self s.verdict
  exact (hsums.congr (count_pos_iff .fail).symm (count_pos_iff .block).symm).eq_ite

end ChannelReport

/-! ## What is shown -/

/-- A text begins with another one. -/
def BeginsWith (front s : String) : Prop := ∃ rest, s = front ++ rest

namespace BeginsWith

variable {front front' s t : String}

/-- A text begins with its first part. -/
theorem append_self (front rest : String) : BeginsWith front (front ++ rest) := ⟨rest, rfl⟩

/-- What a text begins with, every longer text begins with as well. -/
theorem append (h : BeginsWith front s) (t : String) : BeginsWith front (s ++ t) := by
  obtain ⟨rest, rfl⟩ := h
  exact ⟨rest ++ t, String.append_assoc⟩

/-- A text that begins with something is not empty. -/
theorem ne_empty (h : BeginsWith front s) (hfront : front ≠ "") : s ≠ "" := by
  obtain ⟨rest, rfl⟩ := h
  exact append_ne_empty hfront rest

/-- The first characters of a text are those of what it begins with. -/
theorem take_eq (h : BeginsWith front s) {n : Nat} (hn : n ≤ front.toList.length) :
    s.toList.take n = front.toList.take n := by
  obtain ⟨rest, rfl⟩ := h
  rw [String.toList_append, List.take_append_of_le_length hn]

end BeginsWith

namespace Verdict

/-- The number of a colour ends at the fourth character, and labels without colours are longer. -/
theorem le_length_label (colors : Bool) (v : Verdict) : 4 ≤ (v.label colors).toList.length := by
  cases colors <;> cases v <;> decide

/-- The labels of different verdicts differ in their sign or, on a terminal, in their colour. -/
theorem beginsWith_label_iff {colors : Bool} {v w : Verdict} {s : String}
    (h : BeginsWith (w.label colors) s) : BeginsWith (v.label colors) s ↔ v = w := by
  constructor
  · intro hv
    have htake : (v.label colors).toList.take 4 = (w.label colors).toList.take 4 := by
      rw [← hv.take_eq (v.le_length_label colors), ← h.take_eq (w.le_length_label colors)]
    cases colors <;> cases v <;> cases w <;> first | rfl | exact absurd htake (by decide)
  · rintro rfl
    exact h

end Verdict

namespace ChannelReport

variable {r : ChannelReport}

/-- Lines that end with the word of a verdict tell the verdicts apart. -/
theorem append_word_inj {line : String} {v w : Verdict} : line ++ v.word = line ++ w.word ↔ v = w :=
  (String.append_right_inj line).trans Verdict.word_inj

/-- The last line of a report but one tells the verdict, and no other line tells another one. -/
theorem resultLine_mem_footerLines (r : ChannelReport) (v : Verdict) :
    s!"Channel result: {v.word}" ∈ r.footerLines ↔ v = r.verdict := by
  -- No other line starts with the same two letters.
  have hother {front line : String} (hline : BeginsWith front line)
      (hlength : 2 ≤ front.toList.length) (hne : front.toList.take 2 ≠ ['C', 'h']) :
      s!"Channel result: {v.word}" ≠ line := by
    rintro rfl
    have htake := (BeginsWith.append_self "Channel result: " v.word).take_eq (n := 2) (by decide)
    exact hne ((hline.take_eq hlength).symm.trans htake)
  have hrule : BeginsWith "==" (ruleLine '=') :=
    ⟨String.ofList (List.replicate 118 '='), by decide⟩
  have hcounts : BeginsWith "Containers tested: " r.countsLine :=
    ((((BeginsWith.append_self _ _).append _).append _).append _).append _
  have hfinished : s!"Channel result: {v.word}" ≠ s!"Test finished at {r.finished.text}" :=
    hother (.append_self "Test finished at " _) (by decide) (by decide)
  have hduration (text : String) : s!"Channel result: {v.word}" ≠ "Duration: " ++ text ++ "s" :=
    hother ((BeginsWith.append_self "Duration: " _).append _) (by decide) (by decide)
  have hnodes : s!"Channel result: {v.word}" ≠ s!"Element checks per container: {r.nodeCount}" :=
    hother (.append_self "Element checks per container: " _) (by decide) (by decide)
  have hresult : s!"Channel result: {v.word}" = s!"Channel result: {r.verdict.word}" ↔
      v = r.verdict := append_word_inj
  unfold footerLines
  simp only [List.mem_cons, List.not_mem_nil, hother hrule (by decide) (by decide), hfinished,
    hduration, hother hcounts (by decide) (by decide), hnodes, hresult, false_or, or_false]

/-- The last line in the log of a channel tells the verdict. -/
theorem finishedLine_eq_iff (r : ChannelReport) (v : Verdict) :
    Host.finishedLine r = s!"Finished test for channel '{r.channel}', Test result: {v.word}" ↔
      v = r.verdict := by
  unfold Host.finishedLine
  exact append_word_inj.trans eq_comm

/-- The first line of what the console shows of a channel. -/
def heading (colors : Bool) (r : ChannelReport) : String :=
  s!"{r.verdict.label colors}  channel '{r.channel}' ({durationText r.nanos})"

/-- The first line on a channel starts with the label of the verdict on it. -/
theorem beginsWith_heading (colors : Bool) (r : ChannelReport) :
    BeginsWith (r.verdict.label colors) (r.heading colors) :=
  ((((BeginsWith.append_self _ _).append _).append _).append _).append _

/-- A quiet console shows the first line of a channel that did not pass, and nothing else. -/
theorem consoleText_quiet (colors : Bool) (r : ChannelReport) :
    r.consoleText colors .quiet = if r.verdict.isPass then "" else r.heading colors := rfl

/-- The counts of a channel and the path of its report follow at the normal level. -/
theorem consoleText_normal (colors : Bool) (r : ChannelReport) :
    r.consoleText colors .normal =
      r.heading colors ++ r.countsText colors ++ s!"\n  Report: {r.path}" := rfl

/-- Behind what the console shows anyway, it lists the containers that did not pass when it is
verbose. -/
theorem consoleText_verbose (colors : Bool) (r : ChannelReport) :
    r.consoleText colors .verbose = r.consoleText colors .normal ++
      String.join ((r.summaries.filter fun s => s.verdict ≠ .pass).map fun s =>
        s!"\n    {s.verdict.label colors} container {s.containerId}") := by
  have hfilter : r.summaries.filter (fun s => !s.verdict.isPass) =
      r.summaries.filter fun s => decide (s.verdict ≠ .pass) :=
    List.filter_congr fun s _ => s.verdict.not_isPass
  rw [← hfilter]
  rfl

/-- What the console shows of a channel starts with the label of the verdict on it. -/
theorem beginsWith_consoleText {colors : Bool} {verbosity : Verbosity}
    (h : r.consoleText colors verbosity ≠ "") :
    BeginsWith (r.verdict.label colors) (r.consoleText colors verbosity) := by
  have hnormal : BeginsWith (r.verdict.label colors) (r.consoleText colors .normal) := by
    rw [consoleText_normal]
    exact ((r.beginsWith_heading colors).append _).append _
  cases verbosity with
  | quiet =>
    rw [consoleText_quiet] at h ⊢
    split at h
    · exact absurd rfl h
    · next hfailing =>
      rw [if_neg hfailing]
      exact r.beginsWith_heading colors
  | normal => exact hnormal
  | verbose =>
    rw [consoleText_verbose]
    exact hnormal.append _

/-- A quiet console shows nothing exactly of a channel that passed. -/
theorem consoleText_quiet_eq_empty_iff (colors : Bool) (r : ChannelReport) :
    r.consoleText colors .quiet = "" ↔ r.verdict = .pass := by
  have hheading : r.heading colors ≠ "" :=
    (r.beginsWith_heading colors).ne_empty (by cases colors <;> cases r.verdict <;> decide)
  rw [consoleText_quiet, ← Verdict.isPass_iff]
  split
  · next hpass => simp [hpass]
  · next hfailing => simp [hheading, hfailing]

/-! ## Agreement -/

/-- What is counted and shown of a report tells one verdict, which is decided by what occurs in its
results. -/
structure Agrees (r : ChannelReport) : Prop where
  counts : r.count .pass + r.count .fail + r.count .block = r.containers
  verdict_eq : r.verdict =
    if 0 < r.count .fail then .fail else if 0 < r.count .block then .block else .pass
  sumsUp : r.verdict.SumsUp (r.Occurs .fail) (r.Occurs .block)
  summaries : ∀ s ∈ r.summaries, s.verdict.SumsUp (s.Occurs .fail) (s.Occurs .block)
  footer : ∀ v : Verdict, s!"Channel result: {v.word}" ∈ r.footerLines ↔ v = r.verdict
  finished : ∀ v : Verdict,
    Host.finishedLine r = s!"Finished test for channel '{r.channel}', Test result: {v.word}" ↔
      v = r.verdict
  label : ∀ colors verbosity, r.consoleText colors verbosity ≠ "" →
    ∀ v : Verdict, BeginsWith (v.label colors) (r.consoleText colors verbosity) ↔ v = r.verdict
  listing : ∀ colors, r.consoleText colors .verbose = r.consoleText colors .normal ++
    String.join ((r.summaries.filter fun s => s.verdict ≠ .pass).map fun s =>
      s!"\n    {s.verdict.label colors} container {s.containerId}")
  exitCode_eq : exitCode [.completed r] = if r.verdict = .pass then 0 else 1

/-- Everything that is shown of a report agrees if its results were left by checks. -/
theorem Checked.agrees (h : r.Checked) : r.Agrees where
  counts := r.count_add_count_add_count
  verdict_eq := r.verdict_eq
  sumsUp := h.sumsUp
  summaries _ hs := h.sumsUp_summary hs
  footer := r.resultLine_mem_footerLines
  finished := r.finishedLine_eq_iff
  label _ _ hshown _ := Verdict.beginsWith_label_iff (beginsWith_consoleText hshown)
  listing colors := r.consoleText_verbose colors
  exitCode_eq := by
    cases hv : r.verdict <;> simp [exitCode, ChannelOutcome.isAborted, ChannelOutcome.isFailing, hv,
      Verdict.isPass]

end ChannelReport

/-! ## Outcomes -/

namespace ChannelOutcome

/-- An outcome is aborted exactly if it holds an error. -/
theorem isAborted_iff (o : ChannelOutcome) :
    o.isAborted = true ↔ ∃ channel e, o = aborted channel e := by
  cases o <;> simp [isAborted]

/-- An outcome fails exactly if it holds a report that did not pass. -/
theorem isFailing_iff (o : ChannelOutcome) :
    o.isFailing = true ↔ ∃ r, o = completed r ∧ r.verdict ≠ .pass := by
  cases o <;> simp [isFailing, ← Verdict.isPass_iff]

/-- A quiet console shows nothing exactly of a channel that ran to its end and passed. -/
theorem consoleText_quiet_eq_empty_iff (colors : Bool) (o : ChannelOutcome) :
    o.consoleText colors .quiet = "" ↔ ∃ r, o = completed r ∧ r.verdict = .pass := by
  cases o with
  | aborted channel e =>
    have hlabel : abortedLabel colors ≠ "" := by cases colors <;> decide
    have hshown : (aborted channel e).consoleText colors .quiet ≠ "" :=
      append_ne_empty (append_ne_empty (append_ne_empty (append_ne_empty hlabel _) _) _) _
    simp [hshown]
  | completed r =>
    rw [consoleText, r.consoleText_quiet_eq_empty_iff]
    simp

end ChannelOutcome

/-- The summaries of a run agree. The exit code tells whether a channel was aborted and else whether
anything in a report failed or was blocked; a quiet console shows nothing exactly of what passed;
and all that is counted and shown of a report tells one verdict, decided by what occurs in it. -/
theorem summaries_agree (outcomes : List ChannelOutcome) (h : ∀ o ∈ outcomes, o.Checked) :
    let aborted := ∃ channel e, .aborted channel e ∈ outcomes
    let flawed := ∃ r, .completed r ∈ outcomes ∧ (r.Occurs .fail ∨ r.Occurs .block)
    (exitCode outcomes = 2 ↔ aborted) ∧
      (exitCode outcomes = 1 ↔ ¬aborted ∧ flawed) ∧
      (exitCode outcomes = 0 ↔ ¬aborted ∧ ¬flawed) ∧
      (∀ (colors : Bool) (o : ChannelOutcome),
        o.consoleText colors .quiet = "" ↔ ∃ r, o = .completed r ∧ r.verdict = .pass) ∧
      ∀ r, .completed r ∈ outcomes → r.Agrees := by
  intro aborted flawed
  have haborted : outcomes.any ChannelOutcome.isAborted = true ↔ aborted := by
    rw [List.any_eq_true]
    constructor
    · rintro ⟨o, ho, hisAborted⟩
      obtain ⟨channel, e, rfl⟩ := o.isAborted_iff.mp hisAborted
      exact ⟨channel, e, ho⟩
    · rintro ⟨channel, e, ho⟩
      exact ⟨_, ho, rfl⟩
  have hflawed : outcomes.any ChannelOutcome.isFailing = true ↔ flawed := by
    rw [List.any_eq_true]
    constructor
    · rintro ⟨o, ho, hisFailing⟩
      obtain ⟨r, rfl, hverdict⟩ := o.isFailing_iff.mp hisFailing
      exact ⟨r, ho, (h _ ho r rfl).verdict_ne_pass_iff.mp hverdict⟩
    · rintro ⟨r, ho, hoccurs⟩
      have hverdict := (h _ ho r rfl).verdict_ne_pass_iff.mpr hoccurs
      exact ⟨_, ho, (ChannelOutcome.isFailing_iff _).mpr ⟨r, rfl, hverdict⟩⟩
  rw [← haborted, ← hflawed]
  refine ⟨?_, ?_, ?_, ChannelOutcome.consoleText_quiet_eq_empty_iff,
    fun r hr => (h _ hr r rfl).agrees⟩
  all_goals
    unfold exitCode
    split_ifs <;> simp_all

/-- A film by its title. -/
def filmTitled (title : String) : Selection :=
  .ofPlace ⟨1, some ⟨none, "film"⟩, [], [], [.element ⟨none, "title"⟩ [] [] [.text title]]⟩

/-- The expectation of the title of a film. -/
def upSpec : ContainerSpec := ⟨"film", [.withValue (.existing "1" "title") "Up"]⟩

/-- The report on two films, one of which has another title. -/
def twoFilms : ChannelReport where
  channel := "film"
  started := ⟨0, 0, 0⟩
  finished := ⟨0, 0, 0⟩
  summaries := ["Up", "Cars"].map fun title => (checkContainer (filmTitled title) upSpec).summary
  nodeCount := upSpec.nodeCount
  path := "film.txt"

/-- One of the two films passes and the other one fails, and so does the channel. -/
theorem summaries_agree_twoFilms :
    (∀ o ∈ [ChannelOutcome.completed twoFilms], o.Checked) ∧
      exitCode [.completed twoFilms] = 1 ∧ twoFilms.count .pass = 1 ∧ twoFilms.count .fail = 1 ∧
      twoFilms.Occurs .fail ∧ twoFilms.Agrees := by
  have hchecked : ∀ o ∈ [ChannelOutcome.completed twoFilms], o.Checked := by
    intro o ho r hr
    obtain rfl := List.mem_singleton.mp ho
    obtain rfl := ChannelOutcome.completed.inj hr
    refine ChannelReport.checked_of_containers fun s hs => ?_
    obtain ⟨title, _, rfl⟩ := List.mem_map.mp hs
    exact ⟨_, _, rfl⟩
  obtain ⟨-, -, -, -, hagrees⟩ := summaries_agree [.completed twoFilms] hchecked
  have hcode : exitCode [.completed twoFilms] = 1 := by decide +kernel
  have hreport := hagrees twoFilms (List.mem_singleton.mpr rfl)
  have hfail : twoFilms.verdict = .fail := by decide +kernel
  have hoccurs : twoFilms.Occurs .fail := hreport.sumsUp.fail_iff.mp hfail
  exact ⟨hchecked, hcode, by decide +kernel, by decide +kernel, hoccurs, hreport⟩

/-! ## Runs -/

/-- The results in the outcome of a channel by itself were left by checks. -/
theorem Turn.checked_outcome (t : Turn) : t.outcome.Checked := by
  intro r hr
  obtain ⟨spec, containers, hcourse, rfl⟩ := ready_of_completed hr
  refine ChannelReport.checked_of_containers fun s hs => ?_
  rw [report, hcourse, Course.runs, List.map_map] at hs
  obtain ⟨container, _, rfl⟩ := List.mem_map.mp hs
  exact ⟨container, spec, rfl⟩

/-- The results in the outcome of a channel within a run were left by checks. -/
theorem Chapter.checked_outcome (c : Chapter) : c.outcome.Checked := by
  cases hfirst : firstRefusal c.events with
  | none =>
    rw [outcome, ending_of_none hfirst]
    exact c.turn.checked_outcome
  | some fault =>
    rw [outcome, ending_of_some hfirst]
    intro r hr
    cases hr

/-- All results in the outcomes of a run were left by checks. -/
theorem Surroundings.checked_of_runSelection {s : Surroundings} {plan : RunPlan}
    {selection : String} {outcomes : List ChannelOutcome}
    (h : ((s.host.runSelection plan selection).run.run []).1 = .ok outcomes) :
    ∀ o ∈ outcomes, o.Checked := by
  rw [run_runSelection] at h
  cases hfirst : firstRefusal (s.transcript plan selection).own with
  | none =>
    rw [ending_of_none hfirst] at h
    obtain rfl := Except.ok.inj h
    exact List.forall_mem_map.mpr fun c _ => c.checked_outcome
  | some fault =>
    rw [ending_of_some hfirst] at h
    cases h

end FeedAudit

import FeedAudit.Settings.Validity
import Mathlib.Data.List.Nodup
import Mathlib.Data.List.TakeWhile
import Mathlib.Tactic.Common

/-!
# Valid settings

Settings are looked at one thing after the other, and the names of their channels one after the
other, each together with those before it. `Settings.Valid` says what must hold of settings as a
whole.

Main statement: `Settings.validate_eq_ok_iff`. Nothing is found to object to exactly if the settings
are valid.
-/

namespace FeedAudit

/-! ## Blank names -/

namespace Text

/-- Nothing is left of a trimmed text exactly if it is all blanks. -/
theorem trimChars_eq_nil_iff {cs : List Char} :
    trimChars cs = [] ↔ ∀ c ∈ cs, isBlank c = true := by
  constructor
  · intro h
    have hback : (cs.dropWhile isBlank).reverse.dropWhile isBlank = [] :=
      List.reverse_eq_nil_iff.mp h
    have hrest : ∀ c ∈ cs.dropWhile isBlank, isBlank c = true := by
      simpa using List.dropWhile_eq_nil_iff.mp hback
    -- What is left in front starts with no blank, so there is nothing left.
    have hnil : cs.dropWhile isBlank = [] := by
      by_contra hne
      have hhead := List.head_dropWhile_not isBlank hne
      rw [hrest _ (List.head_mem hne)] at hhead
      cases hhead
    exact List.dropWhile_eq_nil_iff.mp hnil
  · intro h
    have hnil : cs.dropWhile isBlank = [] := List.dropWhile_eq_nil_iff.mpr h
    rw [trimChars, hnil]
    rfl

/-- A text trims to nothing exactly if it is blank. -/
theorem trim_eq_empty_iff {s : String} : trim s = "" ↔ IsBlank s := by
  rw [← String.toList_eq_nil_iff, toList_trim, trimChars_eq_nil_iff, IsBlank]

end Text

/-! ## Names of channels -/

/-- There is no objection exactly if there is not this one and no other. -/
theorem objections_eq_none_iff {found : Prop} [Decidable found] {objection : Objection}
    {others : Option Objection} :
    (if found then some objection else others) = none ↔ ¬found ∧ others = none := by
  by_cases hfound : found
  · simp [hfound]
  · simp [hfound]

/-- A name is accepted exactly if it is not blank, not the name for all channels, and not there
before. -/
theorem nameObjection_eq_none_iff {before : List String} {name : String} :
    nameObjection before name = none ↔
      ¬Text.IsBlank name ∧ name ≠ allChannels ∧ name ∉ before := by
  rw [nameObjection, objections_eq_none_iff, objections_eq_none_iff, objections_eq_none_iff,
    Text.trim_eq_empty_iff]
  simp

/-- Each name is held against those before it only; together they are distinct. -/
theorem namesObjection_eq_none_iff {before names : List String} :
    namesObjection before names = none ↔ names.Nodup ∧
      ∀ name ∈ names, ¬Text.IsBlank name ∧ name ≠ allChannels ∧ name ∉ before := by
  induction names generalizing before with
  | nil => simp [namesObjection]
  | cons name rest ih =>
    rw [namesObjection, List.nodup_cons, List.forall_mem_cons, ← nameObjection_eq_none_iff]
    cases nameObjection before name with
    | some objection => simp
    | none =>
      dsimp only
      rw [ih]
      simp only [List.mem_append, List.mem_singleton, not_or, true_and]
      constructor
      · rintro ⟨hnodup, hrest⟩
        have hname : name ∉ rest := fun hmem => (hrest name hmem).2.2.2 rfl
        refine ⟨⟨hname, hnodup⟩, fun other hother => ?_⟩
        obtain ⟨hblank, hreserved, hbefore, -⟩ := hrest other hother
        exact ⟨hblank, hreserved, hbefore⟩
      · rintro ⟨⟨hname, hnodup⟩, hrest⟩
        refine ⟨hnodup, fun other hother => ?_⟩
        obtain ⟨hblank, hreserved, hbefore⟩ := hrest other hother
        have hne : other ≠ name := by
          rintro rfl
          exact hname hother
        exact ⟨hblank, hreserved, hbefore, hne⟩

/-! ## Settings -/

namespace Settings

/-- Settings are valid if their channels have names of their own, the selection means some of them,
a source is given, and the numbers and switches are in their bounds. -/
structure Valid (s : Settings) : Prop where
  names_not_blank : ∀ name ∈ s.channelNames, ¬Text.IsBlank name
  names_distinct : s.channelNames.Nodup
  names_not_reserved : allChannels ∉ s.channelNames
  selection_known : s.run.channel = allChannels ∨ s.run.channel ∈ s.channelNames
  timeout_positive : 0 < s.source.timeoutSeconds
  retries_bounded : s.source.retryAttempts ≤ 10
  source_given : s.source.inputFile.isSome ∨ s.source.domain.isSome ∧ s.source.apiKey.isSome
  not_verbose_and_quiet : ¬(s.output.verbose = true ∧ s.output.quiet = true)

variable {s : Settings}

/-- The values of settings are accepted exactly if the selected channel is one of them, the times
and the source are there, and the console is not both verbose and quiet. -/
theorem valueObjection_eq_none_iff : s.valueObjection = none ↔
    (s.run.channel = allChannels ∨ s.run.channel ∈ s.channelNames) ∧
      0 < s.source.timeoutSeconds ∧ s.source.retryAttempts ≤ 10 ∧
      (s.source.inputFile.isSome ∨ s.source.domain.isSome ∧ s.source.apiKey.isSome) ∧
      ¬(s.output.verbose = true ∧ s.output.quiet = true) := by
  have hsource : s.hasSource = true ↔
      (s.source.inputFile.isSome ∨ s.source.domain.isSome ∧ s.source.apiKey.isSome) := by
    simp [hasSource]
  have hselection : ¬(s.run.channel ≠ allChannels ∧ s.run.channel ∉ s.channelNames) ↔
      (s.run.channel = allChannels ∨ s.run.channel ∈ s.channelNames) := by
    rw [not_and_or, not_not, not_not]
  rw [valueObjection, objections_eq_none_iff, objections_eq_none_iff, objections_eq_none_iff,
    objections_eq_none_iff, objections_eq_none_iff, hselection, Nat.pos_iff_ne_zero, mostRetries,
    Nat.not_lt, ← hsource]
  simp

/-- Settings are accepted exactly if they are valid. -/
theorem validate_eq_ok_iff : s.validate = .ok () ↔ s.Valid := by
  have hobjection : s.validate = .ok () ↔ s.objection? = none := by
    unfold validate
    cases s.objection? <;> simp
  rw [hobjection, objection?, Option.or_eq_none_iff, namesObjection_eq_none_iff,
    valueObjection_eq_none_iff]
  constructor
  · rintro ⟨⟨hnodup, hnames⟩, hselection, htimeout, hretries, hsource, hboth⟩
    have hreserved : allChannels ∉ s.channelNames := fun hmem => (hnames _ hmem).2.1 rfl
    exact ⟨fun name hmem => (hnames name hmem).1, hnodup, hreserved, hselection, htimeout, hretries,
      hsource, hboth⟩
  · rintro ⟨hblank, hnodup, hreserved, hselection, htimeout, hretries, hsource, hboth⟩
    refine ⟨⟨hnodup, fun name hmem => ⟨hblank name hmem, ?_, List.not_mem_nil⟩⟩, hselection,
      htimeout, hretries, hsource, hboth⟩
    rintro rfl
    exact hreserved hmem

end Settings

end FeedAudit

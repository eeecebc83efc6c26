import FeedAudit.Expectation.Pattern
import FeedAudit.Proofs.Validity
import Mathlib.Data.List.Basic

/-!
# The values that a pattern accepts

A pattern is read from its text, and lists of values lose the empty members at their end on the way.
Here the accepted values are told from the text alone: from its pieces between the commas, and from
which of them are blank.

Main statement: `Pattern.mismatch_parse`. A star accepts what is not empty, a text without commas
accepts itself, and a list accepts its trimmed pieces; of these the empty one only counts if some
blank piece is followed by one that is not blank.
-/

namespace FeedAudit

open Text

/-! ## Trimmed texts -/

namespace Text

/-- A text has a blank as its first or last character. -/
def HasOuterBlank (s : String) : Prop :=
  (∃ c, s.toList.head? = some c ∧ isBlank c = true) ∨
    ∃ c, s.toList.getLast? = some c ∧ isBlank c = true

/-- Trimming does not bring in any characters. -/
theorem mem_of_mem_trimChars {c : Char} {cs : List Char} (h : c ∈ trimChars cs) : c ∈ cs := by
  unfold trimChars at h
  rw [List.mem_reverse] at h
  have hback := (List.dropWhile_sublist isBlank).mem h
  rw [List.mem_reverse] at hback
  exact (List.dropWhile_sublist isBlank).mem hback

/-- What is left behind the blanks does not start with one. -/
theorem not_isBlank_head_dropWhile {c : Char} (cs : List Char)
    (h : (cs.dropWhile isBlank).head? = some c) : isBlank c = false := by
  have hhead := List.head?_dropWhile_not isBlank cs
  rw [h] at hhead
  exact hhead

/-- Trimming leaves no blank at either end. -/
theorem not_hasOuterBlank_trim (s : String) : ¬HasOuterBlank (trim s) := by
  have hlast : ∀ c, (trimChars s.toList).getLast? = some c → isBlank c = false := by
    intro c hc
    rw [trimChars, List.getLast?_reverse] at hc
    exact not_isBlank_head_dropWhile _ hc
  have hfirst : ∀ c, (trimChars s.toList).head? = some c → isBlank c = false := by
    intro c hc
    -- What is kept is what the front was left with, less a piece at its end.
    have hfront : trimChars s.toList <+: s.toList.dropWhile isBlank := by
      have hback : (s.toList.dropWhile isBlank).reverse.dropWhile isBlank <:+
          (s.toList.dropWhile isBlank).reverse := List.dropWhile_suffix isBlank
      rw [← List.reverse_prefix, List.reverse_reverse] at hback
      exact hback
    obtain ⟨after, hafter⟩ := hfront
    apply not_isBlank_head_dropWhile s.toList
    rw [← hafter, List.head?_append, hc]
    rfl
  unfold HasOuterBlank
  rw [toList_trim]
  rintro (⟨c, hc, hblank⟩ | ⟨c, hc, hblank⟩)
  · rw [hfirst c hc] at hblank
    cases hblank
  · rw [hlast c hc] at hblank
    cases hblank

end Text

/-! ## Members of a list -/

namespace Pattern

theorem dropTrailingEmpty_nil : dropTrailingEmpty [] = [] := rfl

/-- A member is kept unless it is empty and nothing behind it is kept. -/
theorem dropTrailingEmpty_cons (m : String) (rest : List String) :
    dropTrailingEmpty (m :: rest) =
      if m = "" ∧ dropTrailingEmpty rest = [] then [] else m :: dropTrailingEmpty rest := by
  unfold dropTrailingEmpty
  rw [List.reverse_cons, List.dropWhile_append]
  by_cases hrest : (rest.reverse.dropWhile (· == "")) = []
  · by_cases hm : m = ""
    · simp [hrest, hm]
    · simp [hrest, hm]
  · simp [hrest]

/-- Nothing is left exactly of members that are all empty. -/
theorem dropTrailingEmpty_eq_nil_iff {members : List String} :
    dropTrailingEmpty members = [] ↔ ∀ m ∈ members, m = "" := by
  induction members with
  | nil => simp [dropTrailingEmpty_nil]
  | cons m rest ih =>
    rw [dropTrailingEmpty_cons, List.forall_mem_cons, ← ih]
    simp

/-- A member is kept if it is not empty, or if one that is not empty stands behind it. -/
theorem mem_dropTrailingEmpty_iff {a : String} {members : List String} :
    a ∈ dropTrailingEmpty members ↔
      a ∈ members ∧ (a = "" → ∃ later, later ≠ "" ∧ ["", later].Sublist members) := by
  induction members with
  | nil => simp [dropTrailingEmpty_nil]
  | cons m rest ih =>
    rw [dropTrailingEmpty_cons]
    -- The first member is dropped only together with all others, which are then empty as well.
    by_cases hdropped : m = "" ∧ dropTrailingEmpty rest = []
    · have hempty : ∀ x ∈ m :: rest, x = "" :=
        List.forall_mem_cons.mpr ⟨hdropped.1, dropTrailingEmpty_eq_nil_iff.mp hdropped.2⟩
      rw [if_pos hdropped]
      constructor
      · intro hnil
        cases hnil
      · rintro ⟨hmem, hlater⟩
        obtain ⟨later, hne, hsub⟩ := hlater (hempty a hmem)
        have hlaterMem : later ∈ m :: rest := hsub.mem (by simp)
        exact absurd (hempty later hlaterMem) hne
    · rw [if_neg hdropped, List.mem_cons, ih]
      constructor
      · rintro (rfl | ⟨hmem, hlater⟩)
        · refine ⟨List.mem_cons_self, fun ha => ?_⟩
          have hkept : ¬∀ x ∈ rest, x = "" := fun hall =>
            hdropped ⟨ha, dropTrailingEmpty_eq_nil_iff.mpr hall⟩
          push Not at hkept
          obtain ⟨later, hmem, hne⟩ := hkept
          exact ⟨later, hne, List.cons_sublist_cons'.mpr
            (.inr ⟨ha.symm, List.singleton_sublist.mpr hmem⟩)⟩
        · refine ⟨List.mem_cons_of_mem m hmem, fun ha => ?_⟩
          obtain ⟨later, hne, hsub⟩ := hlater ha
          exact ⟨later, hne, hsub.cons m⟩
      · rintro ⟨hmem, hlater⟩
        by_cases ham : a = m
        · exact .inl ham
        · refine .inr ⟨(List.mem_cons.mp hmem).resolve_left ham, fun ha => ?_⟩
          obtain ⟨later, hne, hsub⟩ := hlater ha
          rcases List.cons_sublist_cons'.mp hsub with hsub | ⟨hm, -⟩
          · exact ⟨later, hne, hsub⟩
          · exact absurd (ha.trans hm) ham

/-- Behind an empty member stands one that is not empty exactly if behind a blank piece stands one
that is not blank. -/
theorem exists_later_iff {parts : List String} :
    (∃ later, later ≠ "" ∧ ["", later].Sublist (parts.map trim)) ↔
      ∃ blank later, [blank, later].Sublist parts ∧ IsBlank blank ∧ ¬IsBlank later := by
  constructor
  · rintro ⟨later, hne, hsub⟩
    obtain ⟨kept, hkept, hmap⟩ := List.sublist_map_iff.mp hsub
    obtain ⟨blank, others, rfl, hblank, hothers⟩ := List.map_eq_cons_iff.mp hmap.symm
    obtain ⟨second, rest, rfl, hsecond, hrest⟩ := List.map_eq_cons_iff.mp hothers
    obtain rfl := List.map_eq_nil_iff.mp hrest
    refine ⟨blank, second, hkept, trim_eq_empty_iff.mp hblank, fun hnot => hne ?_⟩
    rw [← hsecond, trim_eq_empty_iff.mpr hnot]
  · rintro ⟨blank, later, hsub, hblank, hnot⟩
    have hmap := hsub.map trim
    rw [List.map_cons, List.map_cons, List.map_nil, trim_eq_empty_iff.mpr hblank] at hmap
    exact ⟨trim later, fun hempty => hnot (trim_eq_empty_iff.mp hempty), hmap⟩

/-- The members of a list are its trimmed pieces, but an empty one only if it comes from a blank
piece in front of one that is not blank. -/
theorem mem_membersOf_iff {written actual : String} :
    actual ∈ membersOf written ↔
      (∃ piece ∈ pieces ',' written, trim piece = actual) ∧
        (actual = "" → ∃ blank later, [blank, later].Sublist (pieces ',' written) ∧
          IsBlank blank ∧ ¬IsBlank later) := by
  rw [membersOf, mem_dropTrailingEmpty_iff, List.mem_map, exists_later_iff]

/-! ## Values that are no members -/

/-- No member of a list has a comma. -/
theorem not_comma_of_mem_membersOf {written actual : String} (h : actual ∈ membersOf written) :
    ',' ∉ actual.toList := by
  obtain ⟨⟨piece, hpiece, rfl⟩, -⟩ := mem_membersOf_iff.mp h
  intro hcomma
  rw [toList_trim] at hcomma
  exact not_mem_of_mem_pieces hpiece (mem_of_mem_trimChars hcomma)

/-- The members of an enumeration are trimmed. -/
theorem not_hasOuterBlank_of_mem_membersOf {written actual : String}
    (h : actual ∈ membersOf written) : ¬HasOuterBlank actual := by
  obtain ⟨⟨piece, -, rfl⟩, -⟩ := mem_membersOf_iff.mp h
  exact not_hasOuterBlank_trim piece

/-- A list of blanks and commas has no members. -/
theorem membersOf_eq_nil_of_blank {written : String}
    (h : ∀ c ∈ written.toList, isBlank c = true ∨ c = ',') : membersOf written = [] := by
  rw [membersOf, dropTrailingEmpty_eq_nil_iff]
  intro m hm
  obtain ⟨piece, hpiece, rfl⟩ := List.mem_map.mp hm
  rw [trim_eq_empty_iff]
  intro c hc
  have hne : c ≠ ',' := by
    rintro rfl
    exact not_mem_of_mem_pieces hpiece hc
  exact (h c (subset_of_mem_pieces hpiece hc)).resolve_right hne

/-! ## Patterns as they are written -/

theorem parse_star : parse "*" = .wildcard := if_pos rfl

section Parse

variable {written : String}

/-- A text with a comma is not the wildcard. -/
theorem ne_star_of_comma (h : ',' ∈ written.toList) : written ≠ "*" := by
  rintro rfl
  revert h
  decide

/-- A text with a comma is an enumeration. -/
theorem parse_of_comma (h : ',' ∈ written.toList) :
    parse written = .enumeration written (membersOf written) := by
  rw [parse, if_neg (ne_star_of_comma h), if_pos h]

/-- A text without a comma, other than the wildcard, stands for itself. -/
theorem parse_of_no_comma (hstar : written ≠ "*") (h : ',' ∉ written.toList) :
    parse written = .literal written := by
  rw [parse, if_neg hstar, if_neg h]

/-- A pattern accepts its own text unless it is a list. -/
theorem mismatch?_self_iff : (parse written).mismatch? written = none ↔ ',' ∉ written.toList := by
  by_cases hcomma : ',' ∈ written.toList
  · have hmem : written ∉ membersOf written := fun hmem =>
      not_comma_of_mem_membersOf hmem hcomma
    rw [parse_of_comma hcomma]
    simp [mismatch?, hmem, hcomma]
  · by_cases hstar : written = "*"
    · subst hstar
      decide
    · rw [parse_of_no_comma hstar hcomma]
      simp [mismatch?, hcomma]

/-- Nothing but an empty value is told to be empty, and only where any other would do. -/
theorem mismatch?_eq_empty_iff {actual : String} :
    (parse written).mismatch? actual = some .empty ↔ written = "*" ∧ actual = "" := by
  by_cases hcomma : ',' ∈ written.toList
  · rw [parse_of_comma hcomma]
    simp [mismatch?, ne_star_of_comma hcomma]
  · by_cases hstar : written = "*"
    · rw [hstar, parse_star]
      simp [mismatch?]
    · rw [parse_of_no_comma hstar hcomma]
      simp [mismatch?, hstar]

end Parse

/-- What a pattern accepts, told from its text: a star accepts every value that is not empty, a text
without commas accepts itself, and a list accepts its trimmed pieces, an empty one only if a blank
piece is followed by one that is not blank. So no list accepts a value with a comma or with a blank
at an end, a list of blanks and commas accepts nothing, and a pattern accepts its own text exactly
if that has no comma. A value is found to be empty only where it had to be any other, and a pattern
is read again from its text as it was. -/
theorem mismatch_parse (written actual : String) :
    ((parse "*").mismatch? actual = none ↔ actual ≠ "") ∧
    (written ≠ "*" → ',' ∉ written.toList →
      ((parse written).mismatch? actual = none ↔ actual = written)) ∧
    (',' ∈ written.toList →
      ((parse written).mismatch? actual = none ↔
        (∃ piece ∈ pieces ',' written, trim piece = actual) ∧
          (actual = "" → ∃ blank later, [blank, later].Sublist (pieces ',' written) ∧
            IsBlank blank ∧ ¬IsBlank later))) ∧
    (',' ∈ written.toList → ',' ∈ actual.toList ∨ HasOuterBlank actual →
      (parse written).mismatch? actual = some .incorrect) ∧
    (',' ∈ written.toList → (∀ c ∈ written.toList, isBlank c = true ∨ c = ',') →
      (parse written).mismatch? actual = some .incorrect) ∧
    ((parse written).mismatch? written = none ↔ ',' ∉ written.toList) ∧
    ((parse written).mismatch? actual = some .empty ↔ written = "*" ∧ actual = "") ∧
    (parse written).text = written ∧ parse (parse written).text = parse written := by
  refine ⟨?_, ?_, ?_, ?_, ?_, mismatch?_self_iff, mismatch?_eq_empty_iff, text_parse written,
    sound_parse written⟩
  · rw [parse_star]
    simp [mismatch?]
  · intro hstar hcomma
    rw [parse_of_no_comma hstar hcomma]
    simp [mismatch?]
  · intro hcomma
    rw [parse_of_comma hcomma, ← mem_membersOf_iff]
    simp [mismatch?]
  · intro hcomma hactual
    have hmem : actual ∉ membersOf written := by
      intro hmem
      rcases hactual with hcomma' | hblank
      · exact not_comma_of_mem_membersOf hmem hcomma'
      · exact not_hasOuterBlank_of_mem_membersOf hmem hblank
    rw [parse_of_comma hcomma]
    simp [mismatch?, hmem]
  · intro hcomma hblank
    rw [parse_of_comma hcomma, membersOf_eq_nil_of_blank hblank]
    simp [mismatch?]

/-- An empty value is accepted between two commas, but not behind the last one. -/
example : (parse "a,,b").mismatch? "" = none ∧ (parse "a,b, ,").mismatch? "" = some .incorrect := by
  decide +kernel

end Pattern

end FeedAudit

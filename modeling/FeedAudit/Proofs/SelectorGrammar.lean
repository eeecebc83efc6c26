import FeedAudit.Markup.Selection
import Mathlib.Data.List.Basic
import Mathlib.Tactic.Common

/-!
# The grammar of selectors

Reading a selector makes both delimiters one, cuts the name there and looks at the pieces. Here it
is said of the name itself which names are read (`Selector.WellFormed`), what a name that is not
read is objected to for (`Selector.Objected`), and how a name that is read consists of a prefix and
a local name (`Selector.ConsistsOf`).

Main statement: `Selector.parse_grammar`. The names that are read are the well-formed ones, any
other is faulted for the first objection to it, and of two delimiters it does not matter which one
is written.
-/

namespace FeedAudit

open Text

/-- The order in which a name is objected to. -/
def NameFault.rank : NameFault → Nat
  | .empty => 0
  | .unsupported _ => 1
  | .manyPrefixes => 2
  | .emptyPart => 3

namespace Selector

/-! ## Delimiters -/

/-- The characters that stand between a prefix and a local name. -/
def IsDelimiter (c : Char) : Prop := c = ':' ∨ c = '|'

/-- Characters none of which is a delimiter. -/
def Undelimited (cs : List Char) : Prop := ∀ c ∈ cs, ¬IsDelimiter c

/-- The number of delimiters among characters. -/
def delimiterCount (cs : List Char) : Nat := cs.count ':' + cs.count '|'

/-- There are no delimiters to count exactly in an undelimited text. -/
theorem delimiterCount_eq_zero_iff {cs : List Char} : delimiterCount cs = 0 ↔ Undelimited cs := by
  unfold delimiterCount Undelimited IsDelimiter
  rw [Nat.add_eq_zero_iff, List.count_eq_zero, List.count_eq_zero]
  constructor
  · rintro ⟨hcolon, hbar⟩ c hc (rfl | rfl)
    · exact hcolon hc
    · exact hbar hc
  · intro h
    exact ⟨fun hc => h _ hc (.inl rfl), fun hc => h _ hc (.inr rfl)⟩

/-- A delimiter adds one to those before and behind it. -/
theorem delimiterCount_append {d : Char} (hd : IsDelimiter d) (before after : List Char) :
    delimiterCount (before ++ d :: after) =
      delimiterCount before + 1 + delimiterCount after := by
  unfold delimiterCount
  rcases hd with rfl | rfl
  · rw [List.count_append, List.count_append, List.count_cons_self,
      List.count_cons_of_ne (by decide)]
    omega
  · rw [List.count_append, List.count_append, List.count_cons_self,
      List.count_cons_of_ne (by decide)]
    omega

/-- Characters with a delimiter are cut at the first one. -/
theorem exists_first_delimiter {cs : List Char} (h : ¬Undelimited cs) :
    ∃ before d after, cs = before ++ d :: after ∧ IsDelimiter d ∧ Undelimited before := by
  induction cs with
  | nil => exact absurd (fun c hc => absurd hc List.not_mem_nil) h
  | cons c rest ih =>
    by_cases hc : IsDelimiter c
    · exact ⟨[], c, rest, rfl, hc, fun b hb => absurd hb List.not_mem_nil⟩
    · have hrest : ¬Undelimited rest := fun hrest => h (List.forall_mem_cons.mpr ⟨hc, hrest⟩)
      obtain ⟨before, d, after, rfl, hd, hbefore⟩ := ih hrest
      exact ⟨c :: before, d, after, rfl, hd, List.forall_mem_cons.mpr ⟨hc, hbefore⟩⟩

/-- Characters have no delimiter, or one with none before or behind it, or more of them. -/
theorem undelimited_or_delimited (cs : List Char) :
    Undelimited cs ∨
      (∃ before d after, cs = before ++ d :: after ∧ IsDelimiter d ∧ Undelimited before ∧
        Undelimited after) ∨
      2 ≤ delimiterCount cs := by
  by_cases hcs : Undelimited cs
  · exact .inl hcs
  · obtain ⟨before, d, after, rfl, hd, hbefore⟩ := exists_first_delimiter hcs
    by_cases hafter : Undelimited after
    · exact .inr (.inl ⟨before, d, after, rfl, hd, hbefore, hafter⟩)
    · refine .inr (.inr ?_)
      have hpos : delimiterCount after ≠ 0 := fun hzero =>
        hafter (delimiterCount_eq_zero_iff.mp hzero)
      rw [delimiterCount_append hd]
      omega

/-- A single delimiter stands at an end exactly if one of the parts around it is empty. -/
theorem delimiter_at_end_iff {d : Char} {before after : List Char} (hd : IsDelimiter d)
    (hbefore : Undelimited before) (hafter : Undelimited after) :
    (∃ c, IsDelimiter c ∧ ((before ++ d :: after).head? = some c ∨
      (before ++ d :: after).getLast? = some c)) ↔ after = [] ∨ before = [] := by
  constructor
  · rintro ⟨c, hc, hfirst | hlast⟩
    · cases before with
      | nil => exact .inr rfl
      | cons b rest =>
        obtain rfl : b = c := Option.some.inj hfirst
        exact absurd hc (hbefore b List.mem_cons_self)
    · rcases List.eq_nil_or_concat after with hnil | ⟨rest, a, hconcat⟩
      · exact .inl hnil
      · have hlastChar : (before ++ d :: after).getLast? = some a := by
          rw [hconcat, List.concat_eq_append, ← List.cons_append, ← List.append_assoc,
            List.getLast?_concat]
        obtain rfl : a = c := Option.some.inj (hlastChar.symm.trans hlast)
        refine absurd hc (hafter a ?_)
        rw [hconcat]
        simp
  · rintro (rfl | rfl)
    · exact ⟨d, hd, .inr (by simp)⟩
    · exact ⟨d, hd, .inl rfl⟩

/-! ## Translating -/

/-- Both delimiters, and nothing else, are translated to the delimiter of the other form. -/
theorem translateChar_eq_delimiter_iff {c : Char} :
    translateChar c = delimiter ↔ IsDelimiter c := by
  unfold translateChar IsDelimiter delimiter
  by_cases hc : c = ':'
  · simp [hc]
  · simp [hc]

/-- A text without delimiters is translated to itself. -/
theorem map_translateChar {cs : List Char} (h : Undelimited cs) : cs.map translateChar = cs := by
  have hsame : ∀ c ∈ cs, translateChar c = id c := by
    intro c hc
    exact if_neg fun hcolon => h c hc (.inl hcolon)
  rw [List.map_congr_left hsame, List.map_id]

/-! ## Cutting a name -/

/-- A text without delimiters has a single part. -/
theorem parts_of_undelimited {cs : List Char} (h : Undelimited cs) : parts cs = [cs] := by
  have hmem : delimiter ∉ cs := fun hc => h _ hc (.inr rfl)
  rw [parts, map_translateChar h, pieceChars_of_not_mem hmem]

/-- The parts before and behind a delimiter are found apart from each other. -/
theorem parts_append {d : Char} (hd : IsDelimiter d) (before after : List Char) :
    parts (before ++ d :: after) = parts before ++ parts after := by
  rw [parts, List.map_append, List.map_cons, translateChar_eq_delimiter_iff.mpr hd,
    pieceChars_append, parts, parts]

/-- A text with a single delimiter has two parts. -/
theorem parts_of_delimited {d : Char} {before after : List Char} (hd : IsDelimiter d)
    (hbefore : Undelimited before) (hafter : Undelimited after) :
    parts (before ++ d :: after) = [before, after] := by
  rw [parts_append hd, parts_of_undelimited hbefore, parts_of_undelimited hafter]
  rfl

/-- A name with two delimiters or more has three parts or more. -/
theorem parts_of_many {cs : List Char} (h : 2 ≤ delimiterCount cs) :
    ∃ first second third others, parts cs = first :: second :: third :: others := by
  have hcs : ¬Undelimited cs := fun hcs => by
    rw [delimiterCount_eq_zero_iff.mpr hcs] at h
    omega
  obtain ⟨before, d, after, rfl, hd, hbefore⟩ := exists_first_delimiter hcs
  have hafter : ¬Undelimited after := fun hafter => by
    rw [delimiterCount_append hd, delimiterCount_eq_zero_iff.mpr hbefore,
      delimiterCount_eq_zero_iff.mpr hafter] at h
    omega
  obtain ⟨middle, d', last, rfl, hd', hmiddle⟩ := exists_first_delimiter hafter
  rw [parts_append hd, parts_append hd', parts_of_undelimited hbefore,
    parts_of_undelimited hmiddle]
  cases hlast : parts last with
  | nil => exact absurd hlast (pieceChars_ne_nil delimiter _)
  | cons third others => exact ⟨before, middle, third, others, rfl⟩

/-! ## Characters -/

/-- The characters of names: those that are alphanumeric, and five others. -/
def Allowed (c : Char) : Prop := isAlphanumeric c = true ∨ c ∈ ['_', '-', '.', ':', '|']

/-- A character passes the check exactly if it is allowed. -/
theorem allows_iff {c : Char} : allows c = true ↔ Allowed c := by
  unfold allows Allowed
  simp [or_assoc]

/-- Nothing is objected to exactly if all characters are allowed. -/
theorem find?_eq_none_iff {cs : List Char} :
    cs.find? (fun c => !allows c) = none ↔ ∀ c ∈ cs, Allowed c := by
  rw [List.find?_eq_none]
  simp only [Bool.not_eq_true, Bool.not_eq_false', allows_iff]

/-- The character that is objected to is the first one that is not allowed. -/
theorem find?_eq_some_iff {cs : List Char} {c : Char} :
    cs.find? (fun c => !allows c) = some c ↔
      ∃ before after, cs = before ++ c :: after ∧ ¬Allowed c ∧ ∀ b ∈ before, Allowed b := by
  rw [List.find?_eq_some_iff_append]
  simp only [Bool.not_not, Bool.not_eq_true', ← Bool.not_eq_true, allows_iff]
  constructor
  · rintro ⟨hc, before, after, hsplit, hbefore⟩
    exact ⟨before, after, hsplit, hc, hbefore⟩
  · rintro ⟨before, after, hsplit, hc, hbefore⟩
    exact ⟨hc, before, after, hsplit, hbefore⟩

/-! ## Names -/

/-- The names that a selector may have: not empty, of allowed characters only, with one delimiter
at most, and with none at either end. -/
structure WellFormed (name : String) : Prop where
  not_empty : name ≠ ""
  allowed : ∀ c ∈ name.toList, Allowed c
  one_delimiter : delimiterCount name.toList ≤ 1
  not_first : ∀ c, name.toList.head? = some c → ¬IsDelimiter c
  not_last : ∀ c, name.toList.getLast? = some c → ¬IsDelimiter c

/-- What can be objected to a name, each objection by itself: it is empty, a character is the first
one that no name may have, it has more than one delimiter, or a delimiter stands at one of its
ends. -/
def Objected (name : String) : NameFault → Prop
  | .empty => name = ""
  | .unsupported c => ∃ before after, name.toList = before ++ c :: after ∧
      ¬Allowed c ∧ ∀ b ∈ before, Allowed b
  | .manyPrefixes => 2 ≤ delimiterCount name.toList
  | .emptyPart => ∃ c, IsDelimiter c ∧
      (name.toList.head? = some c ∨ name.toList.getLast? = some c)

/-- A fault is the first objection to a name if none that comes earlier can be made. -/
def FirstObjection (name : String) (fault : NameFault) : Prop :=
  Objected name fault ∧ ∀ other, other.rank < fault.rank → ¬Objected name other

/-- A name consists of a local name alone, or of a prefix and a local name around a delimiter. No
part is empty or has a delimiter of its own. -/
inductive ConsistsOf (name : String) : Option String → String → Prop
  | localOnly (undelimited : Undelimited name.toList) (not_empty : name ≠ "") :
    ConsistsOf name none name
  | prefixed {before localPart : String} {d : Char}
      (name_eq : name = before ++ String.singleton d ++ localPart) (delimiter : IsDelimiter d)
      (before_undelimited : Undelimited before.toList)
      (local_undelimited : Undelimited localPart.toList)
      (before_not_empty : before ≠ "") (local_not_empty : localPart ≠ "") :
    ConsistsOf name (some before) localPart

/-! ## Reading a name -/

section Read

variable {name : String}

theorem parse_empty : parse "" = .error .empty := rfl

/-- A name is refused for the first character that is not allowed. -/
theorem parse_of_unsupported {c : Char} (h : Objected name (.unsupported c)) :
    parse name = .error (.unsupported c) := by
  have hne : name.toList ≠ [] := by
    obtain ⟨before, after, hsplit, -, -⟩ := h
    rw [hsplit]
    simp
  rw [parse, split, if_neg hne, find?_eq_some_iff.mpr h]

/-- What the parts of a name are read as. -/
def ofParts : List (List Char) → Except NameFault (Option (List Char) × List Char)
  | [localPart] => if localPart = [] then .error .emptyPart else .ok (none, localPart)
  | [before, localPart] =>
    if localPart = [] ∨ before = [] then .error .emptyPart else .ok (some before, localPart)
  | _ => .error .manyPrefixes

/-- Allowed characters are split at their delimiters alone. -/
theorem split_of_allowed {cs : List Char} (hne : cs ≠ []) (hallowed : ∀ c ∈ cs, Allowed c) :
    split cs = ofParts (parts cs) := by
  rw [split, if_neg hne, find?_eq_none_iff.mpr hallowed]
  rfl

/-- A name of allowed characters is refused if it has more than one delimiter. -/
theorem parse_of_many (hne : name ≠ "") (hallowed : ∀ c ∈ name.toList, Allowed c)
    (hmany : Objected name .manyPrefixes) : parse name = .error .manyPrefixes := by
  have hlist : name.toList ≠ [] := fun hnil => hne (String.toList_eq_nil_iff.mp hnil)
  obtain ⟨first, second, third, others, hparts⟩ := parts_of_many hmany
  rw [parse, split_of_allowed hlist hallowed, hparts]
  rfl

/-- A name with one delimiter is read if neither of its parts is empty. -/
theorem split_of_delimited {d : Char} {before after : List Char} (hd : IsDelimiter d)
    (hallowed : ∀ c ∈ before ++ d :: after, Allowed c) (hbefore : Undelimited before)
    (hafter : Undelimited after) :
    split (before ++ d :: after) =
      if after = [] ∨ before = [] then .error .emptyPart else .ok (some before, after) := by
  rw [split_of_allowed (by simp) hallowed, parts_of_delimited hd hbefore hafter, ofParts]

/-- A name of allowed characters that consists of two parts, or of one, is read as these. -/
theorem parse_of_consistsOf {nsPrefix : Option String} {localPart : String}
    (hallowed : ∀ c ∈ name.toList, Allowed c) (h : ConsistsOf name nsPrefix localPart) :
    parse name = .ok ⟨name, nsPrefix, localPart⟩ := by
  cases h with
  | localOnly hundelimited hne =>
    have hlist : name.toList ≠ [] := fun hnil => hne (String.toList_eq_nil_iff.mp hnil)
    rw [parse, split_of_allowed hlist hallowed, parts_of_undelimited hundelimited, ofParts,
      if_neg hlist]
    simp
  | @prefixed before localPart d hname hd hbefore hlocal hbeforeNe hlocalNe =>
    have hlist : name.toList = before.toList ++ d :: localPart.toList := by
      rw [hname]
      simp
    have hparts : ¬(localPart.toList = [] ∨ before.toList = []) := by
      rw [String.toList_eq_nil_iff, String.toList_eq_nil_iff]
      exact not_or.mpr ⟨hlocalNe, hbeforeNe⟩
    rw [hlist] at hallowed
    rw [parse, hlist, split_of_delimited hd hallowed hbefore hlocal, if_neg hparts]
    simp

/-- A name with at most one delimiter is refused if a part of it is empty. -/
theorem parse_of_emptyPart (hallowed : ∀ c ∈ name.toList, Allowed c)
    (hone : ¬Objected name .manyPrefixes) (hempty : Objected name .emptyPart) :
    parse name = .error .emptyPart := by
  obtain ⟨c, hc, hend⟩ := hempty
  rcases undelimited_or_delimited name.toList with hnone | ⟨before, d, after, hname, hd, hb, ha⟩ |
    hmany
  · have hmem : c ∈ name.toList := hend.elim List.mem_of_head? List.mem_of_getLast?
    exact absurd hc (hnone c hmem)
  · rw [hname] at hend hallowed
    have hparts := (delimiter_at_end_iff hd hb ha).mp ⟨c, hc, hend⟩
    rw [parse, hname, split_of_delimited hd hallowed hb ha, if_pos hparts]
  · exact absurd hmany hone

/-! ### Well-formed names -/

/-- A name to which no character is objected consists of allowed ones. -/
theorem allowed_of_not_objected (h : ∀ c, ¬Objected name (.unsupported c)) :
    ∀ c ∈ name.toList, Allowed c := by
  rw [← find?_eq_none_iff, Option.eq_none_iff_forall_ne_some]
  exact fun c hc => h c (find?_eq_some_iff.mp hc)

/-- A name is well-formed exactly if there is no objection to it. -/
theorem wellFormed_iff : WellFormed name ↔ ∀ fault, ¬Objected name fault := by
  constructor
  · rintro ⟨hne, hallowed, hone, hfirst, hlast⟩ fault hobjected
    cases fault with
    | empty => exact hne hobjected
    | unsupported c =>
      obtain ⟨before, after, hname, hc, -⟩ := hobjected
      refine hc (hallowed c ?_)
      rw [hname]
      simp
    | manyPrefixes => exact Nat.not_lt.mpr hone hobjected
    | emptyPart =>
      obtain ⟨c, hc, hend | hend⟩ := hobjected
      · exact hfirst c hend hc
      · exact hlast c hend hc
  · intro h
    exact ⟨h .empty, allowed_of_not_objected fun c => h (.unsupported c),
      Nat.not_lt.mp (h .manyPrefixes), fun c hc hd => h .emptyPart ⟨c, hd, .inl hc⟩,
      fun c hc hd => h .emptyPart ⟨c, hd, .inr hc⟩⟩

/-- If anything can be objected to a name, there is a first objection. -/
theorem exists_firstObjection {fault : NameFault} (h : Objected name fault) :
    ∃ first, FirstObjection name first := by
  induction hrank : fault.rank using Nat.strongRecOn generalizing fault with
  | ind rank ih =>
    by_cases hearlier : ∃ other : NameFault, other.rank < fault.rank ∧ Objected name other
    · obtain ⟨other, hless, hother⟩ := hearlier
      exact ih other.rank (hrank ▸ hless) hother rfl
    · exact ⟨fault, h, fun other hless hother => hearlier ⟨other, hless, hother⟩⟩

/-- A name is well-formed, or something is the first that is objected to. -/
theorem wellFormed_or_firstObjection (name : String) :
    WellFormed name ∨ ∃ fault, FirstObjection name fault := by
  by_cases hname : ∃ fault, Objected name fault
  · obtain ⟨fault, hfault⟩ := hname
    exact .inr (exists_firstObjection hfault)
  · exact .inl (wellFormed_iff.mpr (not_exists.mp hname))

/-- A well-formed name consists of one part or of two. -/
theorem WellFormed.exists_consistsOf (h : WellFormed name) :
    ∃ nsPrefix localPart, ConsistsOf name nsPrefix localPart := by
  rcases undelimited_or_delimited name.toList with hnone | ⟨before, d, after, hname, hd, hb, ha⟩ |
    hmany
  · exact ⟨none, name, .localOnly hnone h.not_empty⟩
  · have hends : ¬(after = [] ∨ before = []) := by
      rw [← delimiter_at_end_iff hd hb ha, ← hname]
      exact wellFormed_iff.mp h .emptyPart
    obtain ⟨hafter, hbefore⟩ := not_or.mp hends
    have hsplit : name = String.ofList before ++ String.singleton d ++ String.ofList after := by
      rw [← String.toList_inj, hname]
      simp
    refine ⟨some (String.ofList before), String.ofList after, .prefixed hsplit hd ?_ ?_ ?_ ?_⟩
    · rwa [String.toList_ofList]
    · rwa [String.toList_ofList]
    · rwa [Ne, ← String.toList_eq_nil_iff, String.toList_ofList]
    · rwa [Ne, ← String.toList_eq_nil_iff, String.toList_ofList]
  · exact absurd hmany (wellFormed_iff.mp h .manyPrefixes)

/-- A well-formed name is read as the prefix and the local name it consists of. -/
theorem parse_of_wellFormed (h : WellFormed name) :
    ∃ nsPrefix localPart, ConsistsOf name nsPrefix localPart ∧
      parse name = .ok ⟨name, nsPrefix, localPart⟩ := by
  obtain ⟨nsPrefix, localPart, hconsists⟩ := h.exists_consistsOf
  exact ⟨nsPrefix, localPart, hconsists, parse_of_consistsOf h.allowed hconsists⟩

/-- A name is faulted for the first objection to it. -/
theorem parse_of_firstObjection {fault : NameFault} (h : FirstObjection name fault) :
    parse name = .error fault := by
  obtain ⟨hobjected, hearlier⟩ := h
  have hallowed (hrank : 1 < fault.rank) : ∀ c ∈ name.toList, Allowed c :=
    allowed_of_not_objected fun c => hearlier (.unsupported c) hrank
  cases fault with
  | empty =>
    rw [show name = "" from hobjected]
    exact parse_empty
  | unsupported c => exact parse_of_unsupported hobjected
  | manyPrefixes =>
    exact parse_of_many (hearlier .empty (by decide)) (hallowed (by decide)) hobjected
  | emptyPart =>
    exact parse_of_emptyPart (hallowed (by decide)) (hearlier .manyPrefixes (by decide)) hobjected

/-- A name is refused exactly for what is first objected to. -/
theorem parse_eq_error_iff {fault : NameFault} :
    parse name = .error fault ↔ FirstObjection name fault := by
  constructor
  · intro h
    rcases wellFormed_or_firstObjection name with hwell | ⟨first, hfirst⟩
    · obtain ⟨nsPrefix, localPart, -, hok⟩ := parse_of_wellFormed hwell
      rw [hok] at h
      cases h
    · rw [parse_of_firstObjection hfirst] at h
      cases h
      exact hfirst
  · exact parse_of_firstObjection

/-- A name that is read is well-formed. -/
theorem wellFormed_of_parse {s : Selector} (h : parse name = .ok s) : WellFormed name := by
  rcases wellFormed_or_firstObjection name with hwell | ⟨fault, hfault⟩
  · exact hwell
  · rw [parse_of_firstObjection hfault] at h
    cases h

/-- A name that is read consists of the prefix and the local name it is read as. -/
theorem consistsOf_of_parse {s : Selector} (h : parse name = .ok s) :
    ConsistsOf name s.nsPrefix s.localName := by
  obtain ⟨nsPrefix, localPart, hconsists, hok⟩ := parse_of_wellFormed (wellFormed_of_parse h)
  rw [h] at hok
  cases hok
  exact hconsists

/-! ### Translated names -/

/-- A translated name is the name with both delimiters made one. -/
theorem ConsistsOf.translated_eq {nsPrefix : Option String} {localPart : String}
    (h : ConsistsOf name nsPrefix localPart) (written : String) :
    (⟨written, nsPrefix, localPart⟩ : Selector).translated =
      String.ofList (name.toList.map translateChar) := by
  cases h with
  | localOnly hundelimited hne =>
    rw [map_translateChar hundelimited, String.ofList_toList]
    rfl
  | @prefixed before localPart d hname hd hbefore hlocal hbeforeNe hlocalNe =>
    rw [← String.toList_inj, String.toList_ofList, hname]
    simp only [translated, String.toList_append, String.toList_singleton, List.map_append,
      List.map_cons, List.map_nil, map_translateChar hbefore, map_translateChar hlocal,
      translateChar_eq_delimiter_iff.mpr hd]
    rfl

/-- A translated name consists of the same parts. -/
theorem ConsistsOf.consistsOf_translated {nsPrefix : Option String} {localPart : String}
    (h : ConsistsOf name nsPrefix localPart) (written : String) :
    ConsistsOf (⟨written, nsPrefix, localPart⟩ : Selector).translated nsPrefix localPart := by
  cases h with
  | localOnly hundelimited hne => exact .localOnly hundelimited hne
  | prefixed hname hd hbefore hlocal hbeforeNe hlocalNe =>
    exact .prefixed rfl (.inr rfl) hbefore hlocal hbeforeNe hlocalNe

/-- The translated form is read as the same prefix and local name. -/
theorem parse_translated {s : Selector} (h : parse name = .ok s) :
    parse s.translated = .ok { s with written := s.translated } := by
  have hconsists := consistsOf_of_parse h
  refine parse_of_consistsOf ?_ (hconsists.consistsOf_translated s.written)
  have htranslated : s.translated = String.ofList (name.toList.map translateChar) :=
    hconsists.translated_eq s.written
  rw [htranslated, String.toList_ofList]
  intro c hc
  obtain ⟨c, hmem, rfl⟩ := List.mem_map.mp hc
  unfold translateChar
  by_cases hcolon : c = ':'
  · rw [if_pos hcolon]
    exact .inr (by decide)
  · rw [if_neg hcolon]
    exact (wellFormed_of_parse h).allowed c hmem

/-- Two names that are read and have one translation consist of the same parts. -/
theorem same_parts_of_translated_eq {other : String} {s t : Selector} (hs : parse name = .ok s)
    (ht : parse other = .ok t) (h : s.translated = t.translated) :
    s.nsPrefix = t.nsPrefix ∧ s.localName = t.localName := by
  have hsame := parse_translated hs
  rw [h, parse_translated ht] at hsame
  cases s
  cases t
  cases hsame
  exact ⟨rfl, rfl⟩

end Read

/-! ## Selectors with the same parts -/

section SameParts

variable {s t : Selector}

/-- Selectors of the same prefix mean the same namespace at a place, if any. -/
theorem toOption_spaceAt (hspace : s.nsPrefix = t.nsPrefix) (p : Place) :
    (s.spaceAt p).toOption = (t.spaceAt p).toOption := by
  unfold spaceAt
  rw [hspace]
  split
  · rfl
  · rfl
  · next nsPrefix _ _ =>
    cases p.scope.lookup (some nsPrefix) with
    | some space => rfl
    | none => rfl

/-- Selectors of the same local name accept the same places in a namespace. -/
theorem accepts_congr (hlocal : s.localName = t.localName) (space : Option String) (p : Place) :
    s.accepts space p = t.accepts space p := by
  unfold accepts
  rw [hlocal]

end SameParts

end Selector

namespace Selection

/-- Below one place the accepted elements are selected, if the prefix can be looked up there. -/
theorem toOption_selectBelow (name : Selector) (p : Place) :
    (selectBelow name p).toOption =
      (name.spaceAt p).toOption.map fun space => p.below.filter (name.accepts space) := by
  unfold selectBelow
  cases name.spaceAt p with
  | error fault => rfl
  | ok space => rfl

/-- What is selected below places is united place by place, if the prefix can be looked up at all
of them. -/
theorem toOption_selectPlaces_cons (name : Selector) (p : Place) (rest : List Place) :
    (selectPlaces name (p :: rest)).toOption =
      (selectBelow name p).toOption.bind fun found =>
        (selectPlaces name rest).toOption.map (union found) := by
  rw [selectPlaces]
  cases selectBelow name p with
  | error fault => rfl
  | ok found =>
    cases selectPlaces name rest with
    | error fault => rfl
    | ok others => rfl

/-- What a selection selects is what is selected below its places. -/
theorem toOption_select (s : Selection) (name : Selector) :
    (s.select name).toOption = (selectPlaces name s.places).toOption.map mk := by
  unfold select
  cases selectPlaces name s.places with
  | error fault => rfl
  | ok places => rfl

/-- The attribute of a selection is that of its first place, if the prefix can be looked up
there. -/
theorem toOption_attribute?_cons (name : Selector) (p : Place) (rest : List Place) :
    ((⟨p :: rest⟩ : Selection).attribute? name).toOption =
      (name.spaceAt p).toOption.map fun space => p.attribute? ⟨space, name.localName⟩ := by
  simp only [attribute?]
  cases name.spaceAt p with
  | error fault => rfl
  | ok space => rfl

variable {name other : Selector}

/-- Selectors with the same prefix and local name find the same, and nothing under the same
circumstances. -/
theorem toOption_select_congr (hspace : name.nsPrefix = other.nsPrefix)
    (hlocal : name.localName = other.localName) (s : Selection) :
    (s.select name).toOption = (s.select other).toOption := by
  rw [toOption_select, toOption_select]
  congr 1
  induction s.places with
  | nil => rfl
  | cons p rest ih =>
    have haccepts : name.accepts = other.accepts :=
      funext fun space => funext fun q => Selector.accepts_congr hlocal space q
    rw [toOption_selectPlaces_cons, toOption_selectPlaces_cons, toOption_selectBelow,
      toOption_selectBelow, Selector.toOption_spaceAt hspace, haccepts, ih]

/-- Selectors of the same prefix and local name have the same attribute. -/
theorem toOption_attribute?_congr (hspace : name.nsPrefix = other.nsPrefix)
    (hlocal : name.localName = other.localName) (s : Selection) :
    (s.attribute? name).toOption = (s.attribute? other).toOption := by
  obtain ⟨places⟩ := s
  cases places with
  | nil => rfl
  | cons p rest =>
    rw [toOption_attribute?_cons, toOption_attribute?_cons, Selector.toOption_spaceAt hspace,
      hlocal]

end Selection

namespace Selector

/-! ## The grammar -/

/-- A name is read exactly if it is well-formed. Then it consists of the prefix, if there is one,
and the local name; its translation is the name with a bar for a colon, which is read as the same
prefix and local name. Names with one translation find the same elements and the same attributes,
or both cannot be looked up. A name that is not read is faulted for the first of what can be
objected to it. -/
theorem parse_grammar (name : String) :
    ((∃ s, parse name = .ok s) ↔ WellFormed name) ∧
    (∀ s, parse name = .ok s →
      s.written = name ∧ ConsistsOf name s.nsPrefix s.localName ∧
        s.translated = String.ofList (name.toList.map fun c => if c = ':' then '|' else c) ∧
        ∃ t, parse s.translated = .ok t ∧ t.nsPrefix = s.nsPrefix ∧ t.localName = s.localName ∧
          t.translated = s.translated) ∧
    (∀ other s t, parse name = .ok s → parse other = .ok t → s.translated = t.translated →
      ∀ context : Selection, (context.select s).toOption = (context.select t).toOption ∧
        (context.attribute? s).toOption = (context.attribute? t).toOption) ∧
    (∀ fault, parse name = .error fault ↔ FirstObjection name fault) ∧
    (∀ fault, Selector.read name = .error fault ↔
      ∃ reason, FirstObjection name reason ∧ fault = .malformed name reason.message) := by
  refine ⟨⟨?_, ?_⟩, ?_, ?_, fun fault => parse_eq_error_iff, ?_⟩
  · rintro ⟨s, hs⟩
    exact wellFormed_of_parse hs
  · intro hwell
    obtain ⟨nsPrefix, localPart, -, hok⟩ := parse_of_wellFormed hwell
    exact ⟨_, hok⟩
  · intro s hs
    have hconsists := consistsOf_of_parse hs
    exact ⟨written_of_parse hs, hconsists, hconsists.translated_eq s.written,
      { s with written := s.translated }, parse_translated hs, rfl, rfl, rfl⟩
  · intro other s t hs ht htranslated context
    obtain ⟨hspace, hlocal⟩ := same_parts_of_translated_eq hs ht htranslated
    exact ⟨Selection.toOption_select_congr hspace hlocal context,
      Selection.toOption_attribute?_congr hspace hlocal context⟩
  · intro fault
    simp only [← parse_eq_error_iff]
    unfold Selector.read
    cases parse name with
    | ok s => simp [Except.mapError]
    | error reason => simp [Except.mapError, eq_comm]

/-- Each fault is told before those that come later. -/
example : parse "a b:" = .error (.unsupported ' ') ∧ parse "a:b:" = .error .manyPrefixes ∧
    parse "a:" = .error .emptyPart ∧ parse "a:b" = .ok ⟨"a:b", some "a", "b"⟩ := by
  decide +kernel

end Selector

end FeedAudit

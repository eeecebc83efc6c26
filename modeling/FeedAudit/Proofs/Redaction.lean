import FeedAudit.Proofs.Parameters
import Mathlib.Data.List.Forall2

/-!
# What is masked in an address

Behind its first question mark an address is cut at every ampersand, and a piece that gives a value
to the key is replaced as a whole. Which pieces these are is told from the piece alone: what stands
before its first equals sign is the name of the key.

Main statement: `redactUrl_masks`. All other pieces stay as they are and where they are, an address
that is masked already does not change, and two addresses are shown alike exactly if nothing but the
values of such pieces tells them apart.
-/

namespace FeedAudit

open Text

/-! ## Pieces -/

/-- A piece gives a value to the key: it has an equals sign, and what stands before the first one is
the name of the key. -/
def GivesKey (piece : String) : Prop :=
  '=' ∈ piece.toList ∧ Query.beforeFirst '=' piece = "api_key"

/-- What is shown of a piece: the mask if it gives a value to the key, and else the piece itself. -/
def ShownAs (piece shown : String) : Prop :=
  (GivesKey piece ∧ shown = "api_key=***") ∨ (¬GivesKey piece ∧ shown = piece)

/-- Two pieces are the same, or differ in the value that both of them give to the key. -/
def SamePieceButKey (piece other : String) : Prop :=
  piece = other ∨ ∃ value value', piece = "api_key=" ++ value ∧ other = "api_key=" ++ value'

/-- A piece gives the key exactly if it starts with the name of the key and an equals sign. -/
theorem givesKey_iff {piece : String} : GivesKey piece ↔ ∃ value, piece = "api_key=" ++ value := by
  have hequals : "api_key=" = "api_key" ++ String.singleton '=' := by decide
  have hfront : ∀ {name : String} (value : String), '=' ∉ name.toList →
      Query.beforeFirst '=' (name ++ String.singleton '=' ++ value) = name := by
    intro name value hname
    have hnone : Query.beforeFirst '=' (String.singleton '=' ++ value) = "" := by
      simp [Query.beforeFirst]
    rw [String.append_assoc, Query.beforeFirst_append hname, hnone, String.append_empty]
  constructor
  · rintro ⟨hmem, hname⟩
    cases hsplit : splitFirst '=' piece with
    | none => exact absurd hmem (splitFirst_eq_none_iff.mp hsplit)
    | some parts =>
      obtain ⟨rfl, hfree⟩ := splitFirst_eq_some_iff.mp hsplit
      rw [hfront parts.2 hfree] at hname
      exact ⟨parts.2, by rw [hequals, hname]⟩
  · rintro ⟨value, rfl⟩
    rw [hequals]
    exact ⟨by simp, hfront value (by decide)⟩

/-- The mask gives a key as well. -/
theorem givesKey_maskedKey : GivesKey maskedKey := givesKey_iff.mpr ⟨"***", by decide⟩

/-- A piece that gives the key is masked. -/
theorem redactPair_of_givesKey {piece : String} (hkey : GivesKey piece) :
    redactPair piece = maskedKey := by
  obtain ⟨value, rfl⟩ := givesKey_iff.mp hkey
  exact redactPair_key value

/-- A piece that does not give the key is kept. -/
theorem redactPair_of_not_givesKey {piece : String} (hkey : ¬GivesKey piece) :
    redactPair piece = piece := by
  unfold redactPair
  split
  · rename_i name value hsplit
    obtain ⟨rfl, -⟩ := splitFirst_eq_some_iff.mp hsplit
    have hname : name ≠ keyParameter := by
      rintro rfl
      exact hkey (givesKey_iff.mpr ⟨value, rfl⟩)
    rw [if_neg hname]
  · rfl

/-- Every piece is shown as it is or masked. -/
theorem shownAs_redactPair (piece : String) : ShownAs piece (redactPair piece) := by
  by_cases hkey : GivesKey piece
  · exact Or.inl ⟨hkey, redactPair_of_givesKey hkey⟩
  · exact Or.inr ⟨hkey, redactPair_of_not_givesKey hkey⟩

/-- A mask gives a value to the key, and so it is masked by itself. -/
theorem redactPair_redactPair (piece : String) :
    redactPair (redactPair piece) = redactPair piece := by
  by_cases hkey : GivesKey piece
  · rw [redactPair_of_givesKey hkey, redactPair_of_givesKey givesKey_maskedKey]
  · rw [redactPair_of_not_givesKey hkey, redactPair_of_not_givesKey hkey]

/-- Pieces are shown alike exactly if nothing but a value of the key tells them apart: what is no
mask before is none afterwards. -/
theorem redactPair_eq_iff {piece other : String} :
    redactPair piece = redactPair other ↔ SamePieceButKey piece other := by
  constructor
  · intro hshown
    by_cases hpiece : GivesKey piece <;> by_cases hother : GivesKey other
    · obtain ⟨value, hvalue⟩ := givesKey_iff.mp hpiece
      obtain ⟨value', hvalue'⟩ := givesKey_iff.mp hother
      exact Or.inr ⟨value, value', hvalue, hvalue'⟩
    · rw [redactPair_of_givesKey hpiece, redactPair_of_not_givesKey hother] at hshown
      exact absurd (hshown ▸ givesKey_maskedKey) hother
    · rw [redactPair_of_not_givesKey hpiece, redactPair_of_givesKey hother] at hshown
      exact absurd (hshown ▸ givesKey_maskedKey) hpiece
    · rw [redactPair_of_not_givesKey hpiece, redactPair_of_not_givesKey hother] at hshown
      exact Or.inl hshown
  · rintro (rfl | ⟨value, value', rfl, rfl⟩)
    · rfl
    · rw [redactPair_key, redactPair_key]

/-! ## Addresses -/

/-- Two addresses differ at most in the values that pieces of their queries give to the key: they
are the same, or they are the same up to the first question mark and have, one by one, the same
pieces behind it but for such values. -/
def SameButKeys (url other : String) : Prop :=
  url = other ∨ ∃ base query query', '?' ∉ base.toList ∧
    url = base ++ "?" ++ query ∧ other = base ++ "?" ++ query' ∧
    List.Forall₂ SamePieceButKey (pieces '&' query) (pieces '&' query')

/-- A query as it is shown. -/
def redactQuery (query : String) : String := joined "&" ((pieces '&' query).map redactPair)

/-- The pieces of a redacted query are the redacted pieces, one by one. -/
theorem pieces_redactQuery (query : String) :
    pieces '&' (redactQuery query) = (pieces '&' query).map redactPair :=
  pieces_joined_redactPair query

/-- Redacting a query once more changes nothing. -/
theorem redactQuery_redactQuery (query : String) :
    redactQuery (redactQuery query) = redactQuery query := by
  have htwice : redactPair ∘ redactPair = redactPair := funext redactPair_redactPair
  unfold redactQuery
  rw [pieces_joined_redactPair, List.map_map, htwice]

/-- Two queries look the same redacted exactly if their pieces are the same but for the keys. -/
theorem redactQuery_eq_iff {query query' : String} :
    redactQuery query = redactQuery query' ↔
      List.Forall₂ SamePieceButKey (pieces '&' query) (pieces '&' query') := by
  have hpieces : (pieces '&' query).map redactPair = (pieces '&' query').map redactPair ↔
      List.Forall₂ SamePieceButKey (pieces '&' query) (pieces '&' query') := by
    rw [← List.forall₂_eq_eq_eq, List.forall₂_map_left_iff, List.forall₂_map_right_iff]
    simp only [redactPair_eq_iff]
  rw [← hpieces, ← pieces_redactQuery, ← pieces_redactQuery]
  exact ⟨congrArg (pieces '&'), pieces_inj⟩

/-- An address without question marks is shown as it is. -/
theorem redactUrl_of_no_mark {url : String} (hurl : '?' ∉ url.toList) : redactUrl url = url := by
  unfold redactUrl
  rw [splitFirst_eq_none_iff.mpr hurl]

/-- Of an address with question marks the query behind the first one is masked. -/
theorem redactUrl_append {base : String} (hbase : '?' ∉ base.toList) (query : String) :
    redactUrl (base ++ "?" ++ query) = base ++ "?" ++ redactQuery query := by
  have hmark : "?" = String.singleton '?' := by decide
  unfold redactUrl redactQuery
  rw [hmark, splitFirst_append hbase]

/-- An address with a question mark has a query behind the first one. -/
theorem exists_query_of_mark {url : String} (hurl : '?' ∈ url.toList) :
    ∃ base query, '?' ∉ base.toList ∧ url = base ++ "?" ++ query := by
  cases hsplit : splitFirst '?' url with
  | none => exact absurd hurl (splitFirst_eq_none_iff.mp hsplit)
  | some parts =>
    obtain ⟨hparts, hbase⟩ := splitFirst_eq_some_iff.mp hsplit
    exact ⟨parts.1, parts.2, hbase, hparts⟩

/-- An address is cut at its first question mark in one way. -/
theorem append_mark_inj {base base' query query' : String} (hbase : '?' ∉ base.toList)
    (hbase' : '?' ∉ base'.toList) (heq : base ++ "?" ++ query = base' ++ "?" ++ query') :
    base = base' ∧ query = query' := by
  have hmark : "?" = String.singleton '?' := by decide
  have hsplit := congrArg (splitFirst '?') heq
  rw [hmark, splitFirst_append hbase, splitFirst_append hbase'] at hsplit
  exact Prod.mk.inj (Option.some.inj hsplit)

/-- Redacting an address once more changes nothing. -/
theorem redactUrl_redactUrl (url : String) : redactUrl (redactUrl url) = redactUrl url := by
  by_cases hurl : '?' ∈ url.toList
  · obtain ⟨base, query, hbase, rfl⟩ := exists_query_of_mark hurl
    rw [redactUrl_append hbase, redactUrl_append hbase, redactQuery_redactQuery]
  · rw [redactUrl_of_no_mark hurl, redactUrl_of_no_mark hurl]

/-- Masking neither takes away the first question mark nor brings one in. -/
theorem mark_mem_redactUrl_iff {url : String} :
    '?' ∈ (redactUrl url).toList ↔ '?' ∈ url.toList := by
  by_cases hurl : '?' ∈ url.toList
  · obtain ⟨base, query, hbase, rfl⟩ := exists_query_of_mark hurl
    rw [redactUrl_append hbase]
    simp
  · rw [redactUrl_of_no_mark hurl]

/-- Addresses are shown alike exactly if nothing but values of the key tells them apart. -/
theorem redactUrl_eq_iff {url other : String} :
    redactUrl url = redactUrl other ↔ SameButKeys url other := by
  constructor
  · intro hshown
    by_cases hurl : '?' ∈ url.toList
    · have hother : '?' ∈ other.toList := by
        rwa [← mark_mem_redactUrl_iff, ← hshown, mark_mem_redactUrl_iff]
      obtain ⟨base, query, hbase, rfl⟩ := exists_query_of_mark hurl
      obtain ⟨base', query', hbase', rfl⟩ := exists_query_of_mark hother
      rw [redactUrl_append hbase, redactUrl_append hbase'] at hshown
      obtain ⟨rfl, hquery⟩ := append_mark_inj hbase hbase' hshown
      exact Or.inr ⟨base, query, query', hbase, rfl, rfl, redactQuery_eq_iff.mp hquery⟩
    · have hother : '?' ∉ other.toList := by
        rwa [← mark_mem_redactUrl_iff, ← hshown, mark_mem_redactUrl_iff]
      rw [redactUrl_of_no_mark hurl, redactUrl_of_no_mark hother] at hshown
      exact Or.inl hshown
  · rintro (rfl | ⟨base, query, query', hbase, rfl, rfl, hpieces⟩)
    · rfl
    · rw [redactUrl_append hbase, redactUrl_append hbase, redactQuery_eq_iff.mpr hpieces]

/-- What is masked in an address. Without a question mark it is nothing; else what stands up to the
first one stays, and of the pieces behind it, which keep their number and order, those that give a
value to the key are replaced by the mask and no others. What is shown of an address is not masked
any further, and it is the same for two addresses exactly if nothing but values of the key tells
them apart. -/
theorem redactUrl_masks (url : String) :
    ('?' ∉ url.toList → redactUrl url = url) ∧
    ('?' ∈ url.toList → ∃ base query shown, '?' ∉ base.toList ∧ url = base ++ "?" ++ query ∧
      redactUrl url = base ++ "?" ++ shown ∧
      List.Forall₂ ShownAs (pieces '&' query) (pieces '&' shown)) ∧
    redactUrl (redactUrl url) = redactUrl url ∧
    ∀ other, redactUrl url = redactUrl other ↔ SameButKeys url other := by
  refine ⟨redactUrl_of_no_mark, fun hurl => ?_, redactUrl_redactUrl url, fun _ => redactUrl_eq_iff⟩
  obtain ⟨base, query, hbase, rfl⟩ := exists_query_of_mark hurl
  refine ⟨base, query, redactQuery query, hbase, rfl, redactUrl_append hbase query, ?_⟩
  rw [pieces_redactQuery, List.forall₂_map_right_iff, List.forall₂_same]
  exact fun piece _ => shownAs_redactPair piece

/-- A key is masked wherever it has a value, also an empty one, and nowhere else. -/
example : redactUrl "http://a/?x?&api_key=&api_key&my_api_key=1&api_key=b=c&&" =
    "http://a/?x?&api_key=***&api_key&my_api_key=1&api_key=***&&" := by decide +kernel

end FeedAudit

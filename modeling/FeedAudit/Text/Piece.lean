/-!
# Pieces of a text

A text is cut into *pieces* at every occurrence of a separating character: there is always one
more piece than there are separators, and joining the pieces with the separator gives the text
back. `splitFirst` cuts once, at the first separator.
-/

namespace FeedAudit.Text

/-! ## Cutting at every separator -/

/-- The pieces of a list of characters between the separators `sep`. -/
def pieceChars (sep : Char) : List Char → List (List Char)
  | [] => [[]]
  | c :: rest =>
    if c = sep then [] :: pieceChars sep rest
    else
      match pieceChars sep rest with
      | [] => [[c]]
      | piece :: others => (c :: piece) :: others

/-- The pieces of a text between the separators `sep`. -/
def pieces (sep : Char) (s : String) : List String :=
  (pieceChars sep s.toList).map String.ofList

@[simp] theorem pieceChars_nil (sep : Char) : pieceChars sep [] = [[]] := rfl

/-- Every text has a piece, be it empty. -/
theorem pieceChars_ne_nil (sep : Char) (cs : List Char) : pieceChars sep cs ≠ [] := by
  cases cs with
  | nil => simp
  | cons c rest =>
    simp only [pieceChars]
    split
    · simp
    · split <;> simp

/-- Joining the pieces with the separator gives the characters back. -/
theorem intercalate_pieceChars (sep : Char) (cs : List Char) :
    [sep].intercalate (pieceChars sep cs) = cs := by
  induction cs with
  | nil => rfl
  | cons c rest ih =>
    by_cases h : c = sep
    · cases hp : pieceChars sep rest with
      | nil => exact absurd hp (pieceChars_ne_nil sep rest)
      | cons p ps =>
        rw [hp] at ih
        simp only [pieceChars, h, if_true, hp]
        simp [List.intercalate, List.intersperse] at ih ⊢
        exact ih
    · cases hp : pieceChars sep rest with
      | nil => exact absurd hp (pieceChars_ne_nil sep rest)
      | cons p ps =>
        rw [hp] at ih
        simp only [pieceChars, h, if_false, hp]
        cases ps with
        | nil => simpa [List.intercalate] using ih
        | cons q qs => simpa [List.intercalate] using ih

/-- Nothing is cut where no separator stands. -/
theorem pieceChars_of_not_mem {sep : Char} {cs : List Char} (h : sep ∉ cs) :
    pieceChars sep cs = [cs] := by
  induction cs with
  | nil => rfl
  | cons c rest ih =>
    have hc : c ≠ sep := fun heq => h (List.mem_cons.mpr (Or.inl heq.symm))
    have hrest : sep ∉ rest := fun hmem => h (List.mem_cons_of_mem c hmem)
    rw [pieceChars, if_neg hc, ih hrest]

/-- The pieces before a separator are followed by those behind it. -/
theorem pieceChars_append (sep : Char) (before after : List Char) :
    pieceChars sep (before ++ sep :: after) = pieceChars sep before ++ pieceChars sep after := by
  induction before with
  | nil =>
    rw [List.nil_append, pieceChars_nil, pieceChars, if_pos rfl]
    rfl
  | cons c rest ih =>
    rw [List.cons_append, pieceChars, pieceChars, ih]
    by_cases h : c = sep
    · rw [if_pos h, if_pos h]
      rfl
    · rw [if_neg h, if_neg h]
      cases hp : pieceChars sep rest with
      | nil => exact absurd hp (pieceChars_ne_nil sep rest)
      | cons piece others => rfl

/-- Characters without separators belong to the first piece of what follows them. -/
theorem pieceChars_append_of_not_mem {sep : Char} {before after piece : List Char}
    {others : List (List Char)} (h : sep ∉ before)
    (hafter : pieceChars sep after = piece :: others) :
    pieceChars sep (before ++ after) = (before ++ piece) :: others := by
  induction before with
  | nil => exact hafter
  | cons c rest ih =>
    have hc : c ≠ sep := fun heq => h (List.mem_cons.mpr (Or.inl heq.symm))
    have hrest : sep ∉ rest := fun hmem => h (List.mem_cons_of_mem c hmem)
    rw [List.cons_append, pieceChars, if_neg hc, ih hrest]
    rfl

/-- No separator is left in a piece. -/
theorem not_mem_of_mem_pieceChars {sep : Char} {cs piece : List Char}
    (h : piece ∈ pieceChars sep cs) : sep ∉ piece := by
  induction cs generalizing piece with
  | nil =>
    rw [pieceChars_nil, List.mem_singleton] at h
    rw [h]
    exact List.not_mem_nil
  | cons c rest ih =>
    rw [pieceChars] at h
    split at h
    · rcases List.mem_cons.mp h with rfl | hrest
      · exact List.not_mem_nil
      · exact ih hrest
    · rename_i hc
      cases hp : pieceChars sep rest with
      | nil => exact absurd hp (pieceChars_ne_nil sep rest)
      | cons first others =>
        rw [hp] at h ih
        rcases List.mem_cons.mp h with rfl | hrest
        · intro hmem
          rcases List.mem_cons.mp hmem with heq | hfirst
          · exact hc heq.symm
          · exact ih List.mem_cons_self hfirst
        · exact ih (List.mem_cons_of_mem first hrest)

/-- A piece has no characters but those of the whole. -/
theorem subset_of_mem_pieceChars {sep : Char} {cs piece : List Char}
    (h : piece ∈ pieceChars sep cs) : piece ⊆ cs := by
  induction cs generalizing piece with
  | nil =>
    rw [pieceChars_nil, List.mem_singleton] at h
    rw [h]
    exact List.Subset.refl []
  | cons c rest ih =>
    rw [pieceChars] at h
    cases hp : pieceChars sep rest with
    | nil => exact absurd hp (pieceChars_ne_nil sep rest)
    | cons first others =>
      rw [hp] at h ih
      by_cases hc : c = sep
      · rw [if_pos hc] at h
        rcases List.mem_cons.mp h with rfl | hrest
        · exact List.nil_subset _
        · exact List.subset_cons_of_subset c (ih hrest)
      · rw [if_neg hc] at h
        rcases List.mem_cons.mp h with rfl | hrest
        · exact List.cons_subset_cons c (ih List.mem_cons_self)
        · exact List.subset_cons_of_subset c (ih (List.mem_cons_of_mem first hrest))

/-- Parts without the separator are the pieces of the text that joins them. -/
theorem pieceChars_intercalate {sep : Char} {parts : List (List Char)} (hne : parts ≠ [])
    (h : ∀ part ∈ parts, sep ∉ part) : pieceChars sep ([sep].intercalate parts) = parts := by
  induction parts with
  | nil => exact absurd rfl hne
  | cons part rest ih =>
    have hpart : pieceChars sep part = [part] := pieceChars_of_not_mem (h part List.mem_cons_self)
    cases rest with
    | nil => rw [List.intercalate_singleton, hpart]
    | cons next others =>
      have hrest := ih (List.cons_ne_nil next others) fun p hp => h p (List.mem_cons_of_mem part hp)
      rw [List.intercalate_cons_cons, List.append_assoc, List.singleton_append, pieceChars_append,
        hpart, hrest]
      rfl

/-- The pieces of a text before a separator are followed by those behind it. -/
theorem pieces_append (sep : Char) (before after : String) :
    pieces sep (before ++ String.singleton sep ++ after) =
      pieces sep before ++ pieces sep after := by
  unfold pieces
  rw [String.toList_append, String.toList_append, String.toList_singleton, List.append_assoc,
    List.singleton_append, pieceChars_append, List.map_append]

/-- Nothing is cut where no separator stands. -/
theorem pieces_of_not_mem {sep : Char} {s : String} (h : sep ∉ s.toList) : pieces sep s = [s] := by
  unfold pieces
  rw [pieceChars_of_not_mem h, List.map_singleton, String.ofList_toList]

/-- No separator is left in a piece. -/
theorem not_mem_of_mem_pieces {sep : Char} {s piece : String} (h : piece ∈ pieces sep s) :
    sep ∉ piece.toList := by
  obtain ⟨cs, hcs, rfl⟩ := List.mem_map.mp h
  rw [String.toList_ofList]
  exact not_mem_of_mem_pieceChars hcs

/-- A piece has no characters but those of the text. -/
theorem subset_of_mem_pieces {sep : Char} {s piece : String} (h : piece ∈ pieces sep s) :
    piece.toList ⊆ s.toList := by
  obtain ⟨cs, hcs, rfl⟩ := List.mem_map.mp h
  rw [String.toList_ofList]
  exact subset_of_mem_pieceChars hcs

/-! ## Cutting once -/

/-- The characters before and after the first separator, if there is one. -/
def splitFirstChars (sep : Char) : List Char → Option (List Char × List Char)
  | [] => none
  | c :: rest =>
    if c = sep then some ([], rest)
    else (splitFirstChars sep rest).map fun (before, after) => (c :: before, after)

/-- The texts before and after the first separator, if there is one. -/
def splitFirst (sep : Char) (s : String) : Option (String × String) :=
  (splitFirstChars sep s.toList).map fun (before, after) =>
    (String.ofList before, String.ofList after)

/-- What is cut once joins back, and the first part is free of the separator. -/
theorem splitFirstChars_eq_some {sep : Char} {cs before after : List Char}
    (h : splitFirstChars sep cs = some (before, after)) :
    cs = before ++ sep :: after ∧ sep ∉ before := by
  induction cs generalizing before with
  | nil => simp [splitFirstChars] at h
  | cons c rest ih =>
    by_cases hc : c = sep
    · simp [splitFirstChars, hc] at h
      obtain ⟨rfl, rfl⟩ := h
      simp [hc]
    · simp [splitFirstChars, hc] at h
      obtain ⟨p, hp, rfl⟩ := h
      obtain ⟨h1, h2⟩ := ih hp
      refine ⟨by simp [h1], ?_⟩
      simp only [List.mem_cons, not_or]
      exact ⟨fun e => hc e.symm, h2⟩

/-- Characters are cut at the separator behind a first part that has none. -/
theorem splitFirstChars_append {sep : Char} {before : List Char} (h : sep ∉ before)
    (after : List Char) : splitFirstChars sep (before ++ sep :: after) = some (before, after) := by
  induction before with
  | nil => rw [List.nil_append, splitFirstChars, if_pos rfl]
  | cons c rest ih =>
    have hc : c ≠ sep := fun heq => h (List.mem_cons.mpr (Or.inl heq.symm))
    have hrest : sep ∉ rest := fun hmem => h (List.mem_cons_of_mem c hmem)
    rw [List.cons_append, splitFirstChars, if_neg hc, ih hrest]
    rfl

/-- A text is cut at the separator behind a first part that has none. -/
theorem splitFirst_append {sep : Char} {before : String} (h : sep ∉ before.toList)
    (after : String) :
    splitFirst sep (before ++ String.singleton sep ++ after) = some (before, after) := by
  unfold splitFirst
  rw [String.toList_append, String.toList_append, String.toList_singleton, List.append_assoc,
    List.singleton_append, splitFirstChars_append h, Option.map_some]
  dsimp only
  rw [String.ofList_toList, String.ofList_toList]

/-- What a text is cut into joins back to it, and there is no earlier place to cut it. -/
theorem splitFirst_eq_some_iff {sep : Char} {s before after : String} :
    splitFirst sep s = some (before, after) ↔
      s = before ++ String.singleton sep ++ after ∧ sep ∉ before.toList := by
  constructor
  · intro hsplit
    obtain ⟨⟨front, back⟩, hchars, hparts⟩ := Option.map_eq_some_iff.mp hsplit
    obtain ⟨rfl, rfl⟩ := Prod.mk.inj hparts
    obtain ⟨hjoined, hfront⟩ := splitFirstChars_eq_some hchars
    refine ⟨?_, by rwa [String.toList_ofList]⟩
    rw [← String.toList_inj, hjoined, String.toList_append, String.toList_append,
      String.toList_singleton, String.toList_ofList, String.toList_ofList, List.append_assoc,
      List.singleton_append]
  · rintro ⟨rfl, hbefore⟩
    exact splitFirst_append hbefore after

/-- A text cannot be cut exactly if it has no separator. -/
theorem splitFirst_eq_none_iff {sep : Char} {s : String} :
    splitFirst sep s = none ↔ sep ∉ s.toList := by
  constructor
  · intro hnone hmem
    obtain ⟨front, back, hsplit, hfront⟩ := List.eq_append_cons_of_mem hmem
    rw [splitFirst, hsplit, splitFirstChars_append hfront] at hnone
    cases hnone
  · intro hsep
    cases hsplit : splitFirst sep s with
    | none => rfl
    | some parts =>
      obtain ⟨rfl, -⟩ := splitFirst_eq_some_iff.mp hsplit
      exact absurd (by simp) hsep

/-! ## Searching -/

/-- Whether `part` stands somewhere in a list of characters. -/
def occursInChars (part : List Char) : List Char → Bool
  | [] => part.isEmpty
  | c :: rest => part.isPrefixOf (c :: rest) || occursInChars part rest

/-- Whether `part` stands somewhere in a text. -/
def occursIn (part s : String) : Bool := occursInChars part.toList s.toList

/-! ## Joining -/

/-- The texts one after the other with `sep` between neighbours. -/
def joined (sep : String) (parts : List String) : String := sep.intercalate parts

/-- Texts without separators are the pieces of what they are joined to. -/
theorem pieces_joined {sep : Char} {parts : List String} (hne : parts ≠ [])
    (h : ∀ part ∈ parts, sep ∉ part.toList) :
    pieces sep (joined (String.singleton sep) parts) = parts := by
  have hchars : ∀ cs ∈ parts.map String.toList, sep ∉ cs := by
    intro cs hcs
    obtain ⟨part, hpart, rfl⟩ := List.mem_map.mp hcs
    exact h part hpart
  have hnil : parts.map String.toList ≠ [] := fun heq => hne (List.map_eq_nil_iff.mp heq)
  unfold pieces joined
  rw [String.toList_intercalate, String.toList_singleton, pieceChars_intercalate hnil hchars,
    List.map_map]
  have hid : String.ofList ∘ String.toList = id := funext fun _ => String.ofList_toList
  rw [hid, List.map_id]

/-- Joining the pieces with the separator gives the text back. -/
theorem joined_pieces (sep : Char) (s : String) :
    joined (String.singleton sep) (pieces sep s) = s := by
  have hid : String.toList ∘ String.ofList = id := funext fun _ => String.toList_ofList
  unfold pieces joined
  rw [← String.toList_inj, String.toList_intercalate, String.toList_singleton, List.map_map, hid,
    List.map_id, intercalate_pieceChars]

/-- Texts are told apart by their pieces. -/
theorem pieces_inj {sep : Char} {s t : String} (h : pieces sep s = pieces sep t) : s = t := by
  rw [← joined_pieces sep s, h, joined_pieces]

/-- A text repeated `n` times. -/
def repeated (n : Nat) (s : String) : String := String.join (List.replicate n s)

end FeedAudit.Text

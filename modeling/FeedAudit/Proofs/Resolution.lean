import FeedAudit.Check.Element
import FeedAudit.Proofs.Descent
import Mathlib.Data.List.Sort

/-!
# What names are resolved to

A name means something at a place: the elements of its local name and, if it has a prefix, of the
namespace to which the prefix is bound there (`Selector.Names`). Looking it up below a selection
finds the elements of the name that stand below one of the places, in document order and no rank
twice; where a rank is found from several places, the first of them decides (`Selector.Finds`).

`Resolves` and `Unresolvable` say this without the way in which it is computed. Main statements:
`selectNamed_eq_ok_iff` and `selectNamed_eq_error_iff`, by which looking up a name is just that.
-/

namespace FeedAudit

open Markup

/-! ## Names at places -/

namespace Selector

/-- A selector without a prefix is bound everywhere, one with the prefix `xml` too, and any other
where a declaration of its prefix is in force. -/
def BoundAt (s : Selector) (p : Place) : Prop :=
  ∀ nsPrefix, s.nsPrefix = some nsPrefix →
    nsPrefix = "xml" ∨ ∃ space, p.scope.lookup (some nsPrefix) = some space

/-- The namespace that a selector means at a place where it is bound. -/
def meaning (s : Selector) (p : Place) : Option String :=
  s.nsPrefix.bind fun nsPrefix =>
    if nsPrefix = "xml" then some Markup.reservedSpace else p.scope.lookup (some nsPrefix)

/-- `s.Names p q` says that the element `q` has the name that the selector `s` means at the place
`p`: its local name and, if it has a prefix, the namespace to which the prefix is bound there. -/
def Names (s : Selector) (p q : Place) : Prop :=
  ∃ name, q.name = some name ∧ name.localName = s.localName ∧
    (s.nsPrefix = none ∨ ∃ space, s.meaning p = some space ∧ name.space = some space)

variable {s : Selector} {p q : Place}

/-- Where a selector is bound, its namespace is the one that is meant. -/
theorem spaceAt_of_boundAt (h : s.BoundAt p) : s.spaceAt p = .ok (s.meaning p) := by
  unfold spaceAt meaning
  split
  · next hs => rw [hs]; rfl
  · next hs => rw [hs]; rfl
  · next nsPrefix hxml hs =>
    have hne : nsPrefix ≠ "xml" := fun heq => hxml heq
    rcases h nsPrefix hs with heq | ⟨space, hspace⟩
    · exact absurd heq hne
    · simp [hs, hne, hspace]

/-- A place at which a selector is not bound faults it, always in the same way. -/
theorem spaceAt_eq_error_iff {fault : Fault} : s.spaceAt p = .error fault ↔
    ∃ nsPrefix, s.nsPrefix = some nsPrefix ∧ nsPrefix ≠ "xml" ∧
      p.scope.lookup (some nsPrefix) = none ∧ fault = .unbound nsPrefix s.written := by
  unfold spaceAt
  split
  · next hs => simp [hs]
  · next hs => simp [hs]
  · next nsPrefix hxml hs =>
    have hne : nsPrefix ≠ "xml" := fun heq => hxml heq
    cases hspace : p.scope.lookup (some nsPrefix) with
    | some space => simp [hs, hspace]
    | none => simp [hs, hne, hspace, eq_comm]

/-- A selector is faulted at the places where it is not bound. -/
theorem spaceAt_of_not_boundAt (h : ¬s.BoundAt p) : ∃ fault, s.spaceAt p = .error fault := by
  simp only [BoundAt, not_forall, not_or, not_exists] at h
  obtain ⟨nsPrefix, hs, hne, hspace⟩ := h
  have hnone : p.scope.lookup (some nsPrefix) = none := Option.eq_none_iff_forall_ne_some.mpr hspace
  exact ⟨_, spaceAt_eq_error_iff.mpr ⟨nsPrefix, hs, hne, hnone, rfl⟩⟩

/-- Where a selector is bound, it accepts the elements of its name. -/
theorem accepts_iff (hbound : s.BoundAt p) : s.accepts (s.meaning p) q = true ↔ s.Names p q := by
  unfold accepts Names
  cases hname : q.name with
  | none => simp
  | some name =>
    cases hs : s.nsPrefix with
    | none => simp [meaning, hs]
    | some nsPrefix =>
      have hmeaning : ∃ space, s.meaning p = some space := by
        unfold meaning
        rw [hs, Option.bind_some]
        by_cases hxml : nsPrefix = "xml"
        · exact ⟨reservedSpace, if_pos hxml⟩
        · rcases hbound nsPrefix hs with heq | ⟨space, hspace⟩
          · exact absurd heq hxml
          · exact ⟨space, by rw [if_neg hxml, hspace]⟩
      obtain ⟨space, hspace⟩ := hmeaning
      simp [hspace]

/-! ## Elements found from places -/

/-- `s.Finds places q` says that the element `q` is found by the selector `s` from one of the
places: it stands below the place and has the name that is meant there, and nothing of its rank is
found from a place before. -/
def Finds (s : Selector) (places : List Place) (q : Place) : Prop :=
  ∃ before p after, places = before ++ p :: after ∧ q.StandsBelow p ∧ s.Names p q ∧
    ∀ p' ∈ before, ∀ q' : Place, q'.StandsBelow p' → s.Names p' q' → q'.rank ≠ q.rank

/-- Without a place nothing is found. -/
theorem not_finds_nil : ¬s.Finds [] q := by
  rintro ⟨before, p, after, hplaces, -⟩
  exact List.append_ne_nil_of_right_ne_nil before (List.cons_ne_nil p after) hplaces.symm

/-- An element is found from the first place, or from the others if the first one does not find
anything of its rank. -/
theorem finds_cons_iff {rest : List Place} : s.Finds (p :: rest) q ↔
    (q.StandsBelow p ∧ s.Names p q) ∨
      s.Finds rest q ∧
        ∀ q' : Place, q'.StandsBelow p → s.Names p q' → q'.rank ≠ q.rank := by
  constructor
  · rintro ⟨before, p', after, hplaces, hbelow, hnames, hfirst⟩
    cases before with
    | nil =>
      obtain ⟨rfl, rfl⟩ := List.cons.inj hplaces
      exact .inl ⟨hbelow, hnames⟩
    | cons first before =>
      obtain ⟨rfl, rfl⟩ := List.cons.inj hplaces
      exact .inr ⟨⟨before, p', after, rfl, hbelow, hnames,
        fun p'' hp'' => hfirst p'' (List.mem_cons_of_mem _ hp'')⟩, hfirst p List.mem_cons_self⟩
  · rintro (⟨hbelow, hnames⟩ | ⟨⟨before, p', after, rfl, hbelow, hnames, hfirst⟩, hp⟩)
    · exact ⟨[], p, rest, rfl, hbelow, hnames, nofun⟩
    · refine ⟨p :: before, p', after, rfl, hbelow, hnames, fun p'' hp'' => ?_⟩
      rcases List.mem_cons.mp hp'' with rfl | hmem
      · exact hp
      · exact hfirst p'' hmem

/-- From one place the elements of a name below it are found. -/
theorem finds_singleton_iff : s.Finds [p] q ↔ q.StandsBelow p ∧ s.Names p q := by
  simp [finds_cons_iff, not_finds_nil]

/-- An element that is found stands below one of the places and has the name that is meant there. -/
theorem Finds.exists_mem {places : List Place} (h : s.Finds places q) :
    ∃ p ∈ places, q.StandsBelow p ∧ s.Names p q := by
  obtain ⟨before, p, after, rfl, hbelow, hnames, -⟩ := h
  exact ⟨p, List.mem_append_right before List.mem_cons_self, hbelow, hnames⟩

/-- Where elements are told apart by their ranks, it does not matter from which of the places an
element is found. -/
theorem finds_iff {root : Place} {places : List Place}
    (hroot : ∀ p ∈ places, ∀ q : Place, q.StandsBelow p → q.StandsBelow root) :
    s.Finds places q ↔ ∃ p ∈ places, q.StandsBelow p ∧ s.Names p q := by
  refine ⟨Finds.exists_mem, ?_⟩
  induction places with
  | nil => simp
  | cons p rest ih =>
    obtain ⟨hp, hrest⟩ := List.forall_mem_cons.mp hroot
    rw [finds_cons_iff, List.exists_mem_cons_iff]
    rintro (hfirst | hothers)
    · exact .inl hfirst
    · by_cases hfirst : q.StandsBelow p ∧ s.Names p q
      · exact .inl hfirst
      · refine .inr ⟨ih hrest hothers, fun q' hbelow hnames hrank => hfirst ?_⟩
        obtain ⟨p', hp', hq, -⟩ := hothers
        have hroot' := Place.mem_below_iff.mpr (hp q' hbelow)
        have hroot'' := Place.mem_below_iff.mpr (hrest p' hp' q hq)
        rw [← Place.eq_of_rank_eq hroot' hroot'' hrank]
        exact ⟨hbelow, hnames⟩

end Selector

namespace Selection

variable {p q : Place} {name : Selector} {found : Selection}

/-! ## Lists of places put together -/

@[simp] theorem union_nil (xs : List Place) : union xs [] = xs := by
  cases xs with
  | nil => rw [union]
  | cons x xs =>
    rw [union]
    exact List.cons_ne_nil x xs

/-- Nothing is put together but what was there. -/
theorem mem_of_mem_union {xs ys : List Place} (hq : q ∈ union xs ys) : q ∈ xs ∨ q ∈ ys := by
  fun_induction union xs ys with
  | case1 ys => exact .inr hq
  | case2 xs hxs => exact .inl hq
  | case3 x xs y ys hxy ih =>
    rcases List.mem_cons.mp hq with rfl | hrest
    · exact .inl List.mem_cons_self
    · exact (ih hrest).imp_left (List.mem_cons_of_mem x)
  | case4 x xs y ys hxy hyx ih =>
    rcases List.mem_cons.mp hq with rfl | hrest
    · exact .inr List.mem_cons_self
    · exact (ih hrest).imp_right (List.mem_cons_of_mem y)
  | case5 x xs y ys hxy hyx ih =>
    rcases List.mem_cons.mp hq with rfl | hrest
    · exact .inl List.mem_cons_self
    · exact (ih hrest).imp (List.mem_cons_of_mem x) (List.mem_cons_of_mem y)

/-- Lists in document order are put together in document order. -/
theorem pairwise_union {xs ys : List Place} (hxs : xs.Pairwise (·.rank < ·.rank))
    (hys : ys.Pairwise (·.rank < ·.rank)) : (union xs ys).Pairwise (·.rank < ·.rank) := by
  fun_induction union xs ys with
  | case1 ys => exact hys
  | case2 xs hxs => assumption
  | case3 x xs y ys hxy ih =>
    obtain ⟨hx, hxs'⟩ := List.pairwise_cons.mp hxs
    have hy := (List.pairwise_cons.mp hys).1
    apply List.pairwise_cons.mpr
    refine ⟨fun a ha => ?_, ih hxs' hys⟩
    rcases mem_of_mem_union ha with ha | ha
    · exact hx a ha
    · rcases List.mem_cons.mp ha with rfl | ha
      · exact hxy
      · exact Nat.lt_trans hxy (hy a ha)
  | case4 x xs y ys hxy hyx ih =>
    obtain ⟨hy, hys'⟩ := List.pairwise_cons.mp hys
    have hx := (List.pairwise_cons.mp hxs).1
    apply List.pairwise_cons.mpr
    refine ⟨fun a ha => ?_, ih hxs hys'⟩
    rcases mem_of_mem_union ha with ha | ha
    · rcases List.mem_cons.mp ha with rfl | ha
      · exact hyx
      · exact Nat.lt_trans hyx (hx a ha)
    · exact hy a ha
  | case5 x xs y ys hxy hyx ih =>
    obtain ⟨hx, hxs'⟩ := List.pairwise_cons.mp hxs
    obtain ⟨hy, hys'⟩ := List.pairwise_cons.mp hys
    have hrank : x.rank = y.rank := by omega
    apply List.pairwise_cons.mpr
    refine ⟨fun a ha => ?_, ih hxs' hys'⟩
    rcases mem_of_mem_union ha with ha | ha
    · exact hx a ha
    · rw [hrank]
      exact hy a ha

/-- Of lists in document order, the first one is put in whole, and of the second one all that has a
rank of its own. -/
theorem mem_union_iff {xs ys : List Place} (hxs : xs.Pairwise (·.rank < ·.rank))
    (hys : ys.Pairwise (·.rank < ·.rank)) :
    q ∈ union xs ys ↔ q ∈ xs ∨ q ∈ ys ∧ ∀ x ∈ xs, x.rank ≠ q.rank := by
  fun_induction union xs ys with
  | case1 ys => simp
  | case2 xs hxs => simp
  | case3 x xs y ys hxy ih =>
    have hy := (List.pairwise_cons.mp hys).1
    have hlater : q ∈ y :: ys → x.rank ≠ q.rank := by
      intro hq
      rcases List.mem_cons.mp hq with rfl | hq
      · exact Nat.ne_of_lt hxy
      · exact Nat.ne_of_lt (Nat.lt_trans hxy (hy q hq))
    rw [List.mem_cons, ih (List.pairwise_cons.mp hxs).2 hys, List.mem_cons (b := x),
      List.forall_mem_cons]
    grind
  | case4 x xs y ys hxy hyx ih =>
    have hx := (List.pairwise_cons.mp hxs).1
    have hearlier : q = y → ∀ a ∈ x :: xs, a.rank ≠ q.rank := by
      rintro rfl a ha
      rcases List.mem_cons.mp ha with rfl | ha
      · exact (Nat.ne_of_lt hyx).symm
      · exact (Nat.ne_of_lt (Nat.lt_trans hyx (hx a ha))).symm
    rw [List.mem_cons, ih hxs (List.pairwise_cons.mp hys).2, List.mem_cons (b := y)]
    grind
  | case5 x xs y ys hxy hyx ih =>
    have hy := (List.pairwise_cons.mp hys).1
    have hrank : x.rank = y.rank := by omega
    have hhead : q = y → x.rank = q.rank := by
      rintro rfl
      exact hrank
    have hlater : q ∈ ys → x.rank ≠ q.rank := by
      intro hq
      rw [hrank]
      exact Nat.ne_of_lt (hy q hq)
    rw [List.mem_cons, ih (List.pairwise_cons.mp hxs).2 (List.pairwise_cons.mp hys).2,
      List.mem_cons (b := x), List.mem_cons (b := y), List.forall_mem_cons]
    grind

/-- Places in document order are known from which they are. -/
theorem eq_of_increasing {s t : Selection} (hs : s.places.Pairwise (·.rank < ·.rank))
    (ht : t.places.Pairwise (·.rank < ·.rank)) (hmem : ∀ q, q ∈ s.places ↔ q ∈ t.places) :
    s = t := by
  have hirrefl : Std.Irrefl fun a b : Place => a.rank < b.rank := ⟨fun a => Nat.lt_irrefl a.rank⟩
  have hantisymm : Std.Antisymm fun a b : Place => a.rank < b.rank :=
    ⟨fun a b hab hba => absurd hab (Nat.lt_asymm hba)⟩
  have hplaces : s.places = t.places := hs.eq_of_mem_iff ht hmem
  cases s
  cases t
  exact congrArg mk hplaces

/-! ## Selecting from one place -/

/-- From one place at which a name is bound, the elements below it that it accepts are found. -/
theorem select_ofPlace_eq_ok_iff : (ofPlace p).select name = .ok found ↔
    name.BoundAt p ∧ found = ⟨p.below.filter (name.accepts (name.meaning p))⟩ := by
  simp only [select, ofPlace, selectPlaces, selectBelow]
  by_cases hbound : name.BoundAt p
  · rw [Selector.spaceAt_of_boundAt hbound]
    simp [hbound, Except.map, eq_comm]
  · obtain ⟨fault, hfault⟩ := Selector.spaceAt_of_not_boundAt hbound
    rw [hfault]
    simp [hbound, Except.map]

/-- What is found from one place stands below it and has the name that is meant there. -/
theorem mem_select_ofPlace (h : (ofPlace p).select name = .ok found) :
    q ∈ found.places ↔ q.StandsBelow p ∧ name.Names p q := by
  obtain ⟨hbound, rfl⟩ := select_ofPlace_eq_ok_iff.mp h
  rw [List.mem_filter, Place.mem_below_iff, Selector.accepts_iff hbound]

/-- What is found from one place is in document order. -/
theorem increasing_select_ofPlace (h : (ofPlace p).select name = .ok found) :
    found.places.Pairwise (·.rank < ·.rank) := by
  obtain ⟨-, rfl⟩ := select_ofPlace_eq_ok_iff.mp h
  exact p.pairwise_below.filter _

/-! ## Selecting from several places -/

/-- Without a place nothing is found and nothing is faulted. -/
theorem select_nil (name : Selector) : (⟨[]⟩ : Selection).select name = .ok ⟨[]⟩ := rfl

/-- What is found from several places is put together from what is found from each. -/
theorem select_cons_eq_ok_iff {rest : List Place} :
    (⟨p :: rest⟩ : Selection).select name = .ok found ↔
      ∃ first others, (ofPlace p).select name = .ok first ∧
        (⟨rest⟩ : Selection).select name = .ok others ∧
        found = ⟨union first.places others.places⟩ := by
  simp only [select, ofPlace, selectPlaces]
  cases selectBelow name p with
  | error fault => simp [Except.map]
  | ok first =>
    cases selectPlaces name rest with
    | error fault => simp [Except.map]
    | ok others => simp [Except.map, eq_comm]

/-- Several places fault a name if the first one does, or else the others do. -/
theorem select_cons_eq_error_iff {rest : List Place} {fault : Fault} :
    (⟨p :: rest⟩ : Selection).select name = .error fault ↔
      name.spaceAt p = .error fault ∨
        name.BoundAt p ∧ (⟨rest⟩ : Selection).select name = .error fault := by
  simp only [select, selectPlaces, selectBelow]
  by_cases hbound : name.BoundAt p
  · rw [Selector.spaceAt_of_boundAt hbound]
    cases selectPlaces name rest with
    | error other => simp [Except.map, hbound]
    | ok others => simp [Except.map]
  · obtain ⟨other, hother⟩ := Selector.spaceAt_of_not_boundAt hbound
    rw [hother]
    simp [Except.map, hbound]

/-- A selection is faulted exactly if the name is not bound at one of its places, and always with
the same fault. -/
theorem select_eq_error_iff {s : Selection} {fault : Fault} : s.select name = .error fault ↔
    ∃ p ∈ s.places, name.spaceAt p = .error fault := by
  obtain ⟨places⟩ := s
  induction places with
  | nil => simp [select_nil]
  | cons p rest ih =>
    rw [select_cons_eq_error_iff, ih]
    simp only [List.exists_mem_cons_iff]
    constructor
    · rintro (hfirst | ⟨-, hrest⟩)
      · exact .inl hfirst
      · exact .inr hrest
    · rintro (hfirst | ⟨q, hq, hfault⟩)
      · exact .inl hfirst
      · by_cases hbound : name.BoundAt p
        · exact .inr ⟨hbound, q, hq, hfault⟩
        · obtain ⟨other, hother⟩ := Selector.spaceAt_of_not_boundAt hbound
          obtain ⟨nsPrefix, hpre, -, -, rfl⟩ := Selector.spaceAt_eq_error_iff.mp hfault
          obtain ⟨nsPrefix', hpre', -, -, rfl⟩ := Selector.spaceAt_eq_error_iff.mp hother
          obtain rfl : nsPrefix = nsPrefix' := Option.some.inj (hpre.symm.trans hpre')
          exact .inl hother

/-- A selection faults a name exactly if it is not bound at one of the places. -/
theorem exists_select_error_iff {s : Selection} :
    (∃ fault, s.select name = .error fault) ↔ ∃ p ∈ s.places, ¬name.BoundAt p := by
  simp only [select_eq_error_iff]
  constructor
  · rintro ⟨fault, p, hp, hfault⟩
    refine ⟨p, hp, fun hbound => ?_⟩
    rw [Selector.spaceAt_of_boundAt hbound] at hfault
    cases hfault
  · rintro ⟨p, hp, hunbound⟩
    obtain ⟨fault, hfault⟩ := Selector.spaceAt_of_not_boundAt hunbound
    exact ⟨fault, p, hp, hfault⟩

/-- What a selection finds is in document order. -/
theorem increasing_select {s : Selection} (h : s.select name = .ok found) :
    found.places.Pairwise (·.rank < ·.rank) := by
  obtain ⟨places⟩ := s
  induction places generalizing found with
  | nil =>
    cases h
    exact .nil
  | cons p rest ih =>
    obtain ⟨first, others, hfirst, hothers, rfl⟩ := select_cons_eq_ok_iff.mp h
    exact pairwise_union (increasing_select_ofPlace hfirst) (ih hothers)

/-- What a selection finds is what a name finds from its places. -/
theorem mem_select_iff {s : Selection} (h : s.select name = .ok found) :
    q ∈ found.places ↔ name.Finds s.places q := by
  obtain ⟨places⟩ := s
  induction places generalizing found q with
  | nil =>
    cases h
    simp [Selector.not_finds_nil]
  | cons p rest ih =>
    obtain ⟨first, others, hfirst, hothers, rfl⟩ := select_cons_eq_ok_iff.mp h
    have hranks : (∀ x ∈ first.places, x.rank ≠ q.rank) ↔
        ∀ x : Place, x.StandsBelow p → name.Names p x → x.rank ≠ q.rank := by
      simp only [mem_select_ofPlace hfirst, and_imp]
    rw [mem_union_iff (increasing_select_ofPlace hfirst) (increasing_select hothers),
      mem_select_ofPlace hfirst, ih hothers, hranks, Selector.finds_cons_iff]

/-- A selection finds, in document order, just what a name finds from its places, if the name is
bound at all of them. -/
theorem select_eq_ok_iff_finds {s : Selection} : s.select name = .ok found ↔
    (∀ p ∈ s.places, name.BoundAt p) ∧ found.places.Pairwise (·.rank < ·.rank) ∧
      ∀ q, q ∈ found.places ↔ name.Finds s.places q := by
  constructor
  · intro h
    refine ⟨fun p hp => ?_, increasing_select h, fun q => mem_select_iff h⟩
    by_contra hunbound
    obtain ⟨fault, hfault⟩ := exists_select_error_iff.mpr ⟨p, hp, hunbound⟩
    cases h.symm.trans hfault
  · rintro ⟨hbound, hincreasing, hmem⟩
    cases hselect : s.select name with
    | error fault =>
      obtain ⟨p, hp, hunbound⟩ := exists_select_error_iff.mp ⟨fault, hselect⟩
      exact absurd (hbound p hp) hunbound
    | ok other =>
      have hsame : other = found :=
        eq_of_increasing (increasing_select hselect) hincreasing fun q => by
          rw [mem_select_iff hselect, hmem]
      rw [hsame]

end Selection

/-! ## Resolving names -/

/-- A name is resolved to a selection below a context: it is well-formed and bound at all places of
the context, and the selection has, in document order, the elements that it finds from them. -/
def Resolves (context : Selection) (name : String) (found : Selection) : Prop :=
  ∃ s, Selector.parse name = .ok s ∧ (∀ p ∈ context.places, s.BoundAt p) ∧
    found.places.Pairwise (·.rank < ·.rank) ∧ ∀ q, q ∈ found.places ↔ s.Finds context.places q

/-- A name cannot be looked up below a context: it is malformed, or its prefix is not bound at one
of the places below which it would be searched. -/
def Unresolvable (context : Selection) (name : String) : Prop :=
  (∃ fault, Selector.parse name = .error fault) ∨
    ∃ s, Selector.parse name = .ok s ∧ ∃ p ∈ context.places, ¬s.BoundAt p

/-- Looking up a name gives what the name is resolved to. -/
theorem selectNamed_eq_ok_iff {context found : Selection} {name : String} :
    selectNamed context name = .ok found ↔ Resolves context name found := by
  unfold selectNamed Selector.read Resolves
  simp only [← Selection.select_eq_ok_iff_finds]
  cases Selector.parse name with
  | error fault => simp [Except.mapError]
  | ok s => simp [Except.mapError]

/-- Looking up a name is faulted exactly if the name cannot be resolved. -/
theorem selectNamed_eq_error_iff {context : Selection} {name : String} :
    (∃ fault, selectNamed context name = .error fault) ↔ Unresolvable context name := by
  unfold selectNamed Selector.read Unresolvable
  cases Selector.parse name with
  | error fault => simp [Except.mapError]
  | ok s => simp [Except.mapError, Selection.exists_select_error_iff]

/-- A name can be resolved or not, and no name does both. -/
theorem Resolves.not_unresolvable {context found : Selection} {name : String}
    (h : Resolves context name found) : ¬Unresolvable context name := by
  rw [← selectNamed_eq_ok_iff] at h
  rw [← selectNamed_eq_error_iff]
  rintro ⟨fault, hfault⟩
  cases h.symm.trans hfault

/-- A name is resolved to one selection only. -/
theorem Resolves.unique {context found other : Selection} {name : String}
    (h : Resolves context name found) (h' : Resolves context name other) : found = other := by
  rw [← selectNamed_eq_ok_iff] at h h'
  exact Except.ok.inj (h.symm.trans h')

end FeedAudit

import FeedAudit.Proofs.FlatVerdict
import Mathlib.Data.List.Forall2

/-!
# Selections as ordered unions

A name is looked up below every place of a selection, and each of these places may mean another
namespace by the same prefix. What is found is put together in document order, with an element that
is found from several places taken once (`Selection.IsOrderedUnion`).

Main statement: `Selection.select_isOrderedUnion`. In a document a name that is bound at all places
of a selection finds, in document order, just the elements of that name below one of them, which is
the ordered union of what is found from each place alone; a prefix that is not bound at one of them
faults the whole selection.
-/

namespace FeedAudit

open Markup

namespace Selection

variable {p q : Place} {name : Selector} {found : Selection}

/-! ## Ordered unions -/

/-- A selection is the ordered union of others: it has the places that one of them has, in document
order and none of them twice. -/
structure IsOrderedUnion (found : Selection) (parts : List Selection) : Prop where
  increasing : found.places.Pairwise (·.rank < ·.rank)
  mem_iff (q : Place) : q ∈ found.places ↔ ∃ part ∈ parts, q ∈ part.places

/-! ## Selecting from several places -/

/-- What the places of a selection find one by one is known from the places. -/
theorem mem_parts_iff {places : List Place} {parts : List Selection}
    (hparts : List.Forall₂ (fun part f => part.select name = .ok f) (split ⟨places⟩) parts) :
    (∃ part ∈ parts, q ∈ part.places) ↔ ∃ p ∈ places, q.StandsBelow p ∧ name.Names p q := by
  induction places generalizing parts with
  | nil =>
    cases hparts
    simp
  | cons p rest ih =>
    rw [split, List.map_cons] at hparts
    cases hparts with
    | cons hfirst hothers =>
      have hrest := ih hothers
      have hp := mem_select_ofPlace (q := q) hfirst
      simp only [List.exists_mem_cons_iff, hrest, hp]

/-- From places at which a name is bound, something is found from each. -/
theorem exists_parts_of_boundAt {places : List Place} (hbound : ∀ p ∈ places, name.BoundAt p) :
    ∃ parts, List.Forall₂ (fun part f => part.select name = .ok f) (split ⟨places⟩) parts := by
  induction places with
  | nil => exact ⟨[], .nil⟩
  | cons p rest ih =>
    obtain ⟨hp, hrest⟩ := List.forall_mem_cons.mp hbound
    obtain ⟨parts, hparts⟩ := ih hrest
    exact ⟨_, .cons (select_ofPlace_eq_ok_iff.mpr ⟨hp, rfl⟩) hparts⟩

/-- From places that all find something a name is bound at all of them. -/
theorem boundAt_of_parts {places : List Place} {parts : List Selection}
    (hparts : List.Forall₂ (fun part f => part.select name = .ok f) (split ⟨places⟩) parts) :
    ∀ p ∈ places, name.BoundAt p := by
  induction places generalizing parts with
  | nil => exact nofun
  | cons p rest ih =>
    rw [split, List.map_cons] at hparts
    cases hparts with
    | cons hfirst hothers =>
      exact List.forall_mem_cons.mpr ⟨(select_ofPlace_eq_ok_iff.mp hfirst).1, ih hothers⟩

end Selection

/-! ## The places of a document -/

/-- A text, a comment or an instruction as a place: it has no name, and declares nothing. -/
def Place.ofLeaf (rank : Nat) (n : Node) : Place := ⟨rank, none, [], [], [n]⟩

/-- The places of a document: itself, its elements, and what is no element. -/
inductive Markup.Document.Has (d : Document) : Place → Prop
  | document : d.Has (.ofDocument d)
  | element {p : Place} (below : p.StandsBelow (.ofDocument d)) : d.Has p
  | leaf {n : Node} (rank : Nat) (no_element : n.elementCount = 0) : d.Has (.ofLeaf rank n)

/-- Nothing stands below a node without elements. -/
theorem Place.not_standsBelow_ofLeaf {n : Node} (no_element : n.elementCount = 0) (rank : Nat)
    (q : Place) : ¬q.StandsBelow (.ofLeaf rank n) := by
  intro hq
  have hranks := Place.map_rank_below (.ofLeaf rank n)
  rw [ofLeaf, Node.elementCountOfList, no_element] at hranks
  rw [← Place.mem_below_iff] at hq
  have hrank : q.rank ∈ (Place.ofLeaf rank n).below.map Place.rank := List.mem_map_of_mem hq
  rw [ofLeaf, hranks] at hrank
  simp [Node.elementCountOfList] at hrank

/-- What stands below a place of a document stands below the document. -/
theorem Markup.Document.Has.standsBelow {d : Document} {p q : Place} (hp : d.Has p)
    (hq : q.StandsBelow p) : q.StandsBelow (.ofDocument d) := by
  cases hp with
  | document => exact hq
  | element below => exact hq.trans below
  | leaf rank no_element => exact absurd hq (Place.not_standsBelow_ofLeaf no_element rank q)

namespace Selection

/-- In a document, what is found from several places is the ordered union of what is found from
each. -/
theorem select_eq_ok_iff {root : Place} {s found : Selection} {name : Selector}
    (hroot : ∀ p ∈ s.places, ∀ q : Place, q.StandsBelow p → q.StandsBelow root) :
    s.select name = .ok found ↔
      ∃ parts, List.Forall₂ (fun part f => part.select name = .ok f) s.split parts ∧
        found.IsOrderedUnion parts := by
  rw [select_eq_ok_iff_finds]
  simp only [Selector.finds_iff hroot]
  constructor
  · rintro ⟨hbound, hincreasing, hmem⟩
    obtain ⟨parts, hparts⟩ := exists_parts_of_boundAt hbound
    refine ⟨parts, hparts, hincreasing, fun q => ?_⟩
    rw [hmem, mem_parts_iff hparts]
  · rintro ⟨parts, hparts, hincreasing, hmem⟩
    refine ⟨boundAt_of_parts hparts, hincreasing, fun q => ?_⟩
    rw [hmem, mem_parts_iff hparts]

/-- From places of a document, the document itself and repetitions among them, a name is faulted
exactly if it has a prefix, other than the reserved one, that is not bound at one of the places, and
otherwise it finds the elements of its name below one of the places, in document order and each
once. What is found is the ordered union of what is found from the places one by one. Without a
place there is no fault, and the text of places is that of each, one after the other. -/
theorem select_isOrderedUnion (d : Document) (s : Selection) (hs : ∀ p ∈ s.places, d.Has p)
    (name : Selector) :
    (∀ fault, s.select name = .error fault ↔
      ∃ nsPrefix, name.nsPrefix = some nsPrefix ∧ nsPrefix ≠ "xml" ∧
        (∃ p ∈ s.places, p.scope.lookup (some nsPrefix) = none) ∧
        fault = .unbound nsPrefix name.written) ∧
    (∀ found, s.select name = .ok found ↔
      (∀ p ∈ s.places, name.BoundAt p) ∧ found.places.Pairwise (·.rank < ·.rank) ∧
        ∀ q, q ∈ found.places ↔ ∃ p ∈ s.places, q.StandsBelow p ∧ name.Names p q) ∧
    (∀ found, s.select name = .ok found ↔
      ∃ parts, List.Forall₂ (fun part f => part.select name = .ok f) s.split parts ∧
        found.IsOrderedUnion parts) ∧
    (⟨[]⟩ : Selection).select name = .ok ⟨[]⟩ ∧
    s.text = String.join (s.split.map Selection.text) := by
  have hfault (fault : Fault) : s.select name = .error fault ↔
      ∃ nsPrefix, name.nsPrefix = some nsPrefix ∧ nsPrefix ≠ "xml" ∧
        (∃ p ∈ s.places, p.scope.lookup (some nsPrefix) = none) ∧
        fault = .unbound nsPrefix name.written := by
    simp only [select_eq_error_iff, Selector.spaceAt_eq_error_iff]
    constructor
    · rintro ⟨p, hp, nsPrefix, hpre, hxml, hunbound, rfl⟩
      exact ⟨nsPrefix, hpre, hxml, ⟨p, hp, hunbound⟩, rfl⟩
    · rintro ⟨nsPrefix, hpre, hxml, ⟨p, hp, hunbound⟩, rfl⟩
      exact ⟨p, hp, nsPrefix, hpre, hxml, hunbound, rfl⟩
  -- In one document a place is known by its rank, so that nothing is left out of the union.
  have hroot : ∀ p ∈ s.places, ∀ q : Place, q.StandsBelow p → q.StandsBelow (.ofDocument d) :=
    fun p hp q hq => (hs p hp).standsBelow hq
  refine ⟨hfault, fun found => ?_, fun found => select_eq_ok_iff hroot, select_nil name, ?_⟩
  · rw [select_eq_ok_iff_finds]
    simp only [Selector.finds_iff hroot]
  · have htexts : s.split.map text = s.places.map Place.text := by
      rw [split, List.map_map]
      apply List.map_congr_left
      intro p _
      simp [text, ofPlace]
    rw [text, htexts]

/-! ## A prefix with two meanings -/

/-- A feed in which an inner element declares the prefix of the outer one anew, and a name has
either meaning. -/
def redeclared : Document where
  before := []
  rootName := ⟨none, "feed"⟩
  rootBindings := [⟨some "m", "urn:outer"⟩]
  rootAttributes := []
  rootChildren := [.element ⟨none, "list"⟩ [⟨some "m", "urn:inner"⟩] []
    [.element ⟨some "urn:inner", "item"⟩ [] [] [.text "1"],
      .element ⟨some "urn:outer", "item"⟩ [] [] [.text "2"]]]
  after := []

/-- The inner element as a place. -/
def redeclaredList : Place :=
  ⟨2, some ⟨none, "list"⟩,
    [⟨some "m", "urn:inner"⟩, ⟨some "m", "urn:outer"⟩, ⟨some "m", "urn:outer"⟩], [],
    [.element ⟨some "urn:inner", "item"⟩ [] [] [.text "1"],
      .element ⟨some "urn:outer", "item"⟩ [] [] [.text "2"]]⟩

/-- From the inner element, the feed around it and the inner element again, each item is found with
the meaning that its name has there, and once. -/
theorem select_isOrderedUnion_redeclared :
    let s : Selection := ⟨[redeclaredList, .ofDocument redeclared, redeclaredList]⟩
    let item : Selector := ⟨"m:item", some "m", "item"⟩
    (∀ p ∈ s.places, redeclared.Has p) ∧
    ∃ found, s.select item = .ok found ∧ found.places.map Place.text = ["1", "2"] ∧
      found.places.Pairwise (·.rank < ·.rank) ∧
      ∀ q, q ∈ found.places ↔ ∃ p ∈ s.places, q.StandsBelow p ∧ item.Names p q := by
  intro s item
  have hlist : redeclared.Has redeclaredList :=
    .element (Place.mem_below_iff.mp (List.mem_of_getElem? (i := 1) rfl))
  have hs : ∀ p ∈ s.places, redeclared.Has p := by
    intro p hp
    simp only [s, List.mem_cons, List.not_mem_nil, or_false] at hp
    rcases hp with rfl | rfl | rfl
    · exact hlist
    · exact .document
    · exact hlist
  have hselect : ∃ found, s.select item = .ok found ∧
      found.places.map Place.text = ["1", "2"] := by
    have h : (s.select item).toOption.map (fun found => found.places.map Place.text) =
        some ["1", "2"] := by decide +kernel
    cases hfound : s.select item with
    | error fault =>
      rw [hfound] at h
      cases h
    | ok found =>
      rw [hfound] at h
      exact ⟨found, rfl, Option.some.inj h⟩
  obtain ⟨found, hfound, htexts⟩ := hselect
  obtain ⟨-, hexact, -⟩ := select_isOrderedUnion redeclared s hs item
  exact ⟨hs, found, hfound, htexts, ((hexact found).mp hfound).2⟩

end Selection

end FeedAudit

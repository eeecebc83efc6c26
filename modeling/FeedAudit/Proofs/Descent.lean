import FeedAudit.Markup.Selection
import Mathlib.Data.List.Nodup
import Mathlib.Logic.Relation
import Mathlib.Tactic.Common

/-!
# What stands below a place

`Place.below` walks through the nodes of a place and lists the elements it meets. Here the same is
said step by step: an element is a child of a place if it is among its nodes (`Place.ChildOf`), and
it stands below a place if children lead from there to it (`Place.StandsBelow`).

Main statements: the elements in the list are just those that stand below the place
(`Place.mem_below_iff`), they are numbered one after the other in the order of the list
(`Place.map_rank_below`), and below one document a rank belongs to one element only
(`Place.eq_of_rank_eq`).
-/

namespace FeedAudit

open Markup

/-! ## Elements among nodes -/

namespace Markup.Node

/-- The elements among the nodes of two lists are counted one list after the other. -/
theorem elementCountOfList_append (ns others : List Node) :
    elementCountOfList (ns ++ others) = elementCountOfList ns + elementCountOfList others := by
  induction ns with
  | nil => simp [elementCountOfList]
  | cons n rest ih =>
    rw [List.cons_append, elementCountOfList, elementCountOfList, ih]
    omega

/-- The elements in nodes are numbered one after the other. -/
theorem map_rank_placesOfList (scope : Scope) (rank : Nat) (ns : List Node) :
    (placesOfList scope rank ns).map Place.rank = List.range' rank (elementCountOfList ns) := by
  match ns with
  | [] => rfl
  | .element name bindings attributes children :: rest =>
    have hchildren := map_rank_placesOfList (bindings ++ scope) (rank + 1) children
    have hrest := map_rank_placesOfList scope (rank + (1 + elementCountOfList children)) rest
    have hfirst : rank :: List.range' (rank + 1) (elementCountOfList children) =
        List.range' rank (1 + elementCountOfList children) := by
      rw [Nat.add_comm 1, List.range'_succ]
    rw [placesOfList, places, elementCountOfList, elementCount, List.map_append, List.map_cons,
      hchildren, hrest, hfirst, List.range'_append_1]
  | .text content :: rest =>
    have hrest := map_rank_placesOfList scope rank rest
    simpa [placesOfList, places, elementCountOfList, elementCount] using hrest
  | .comment content :: rest =>
    have hrest := map_rank_placesOfList scope rank rest
    simpa [placesOfList, places, elementCountOfList, elementCount] using hrest
  | .instruction target content :: rest =>
    have hrest := map_rank_placesOfList scope rank rest
    simpa [placesOfList, places, elementCountOfList, elementCount] using hrest

/-- A place in nodes is that of one of them, or it is below that. -/
theorem mem_placesOfList_iff {scope : Scope} {rank : Nat} {ns : List Node} {q : Place} :
    q ∈ placesOfList scope rank ns ↔
      ∃ before n after, ns = before ++ n :: after ∧
        q ∈ n.places scope (rank + elementCountOfList before) := by
  induction ns generalizing rank with
  | nil =>
    constructor
    · intro hq
      simp [placesOfList] at hq
    · rintro ⟨before, n, after, hsplit, -⟩
      simp at hsplit
  | cons first rest ih =>
    rw [placesOfList, List.mem_append, ih]
    constructor
    · rintro (hfirst | ⟨before, n, after, rfl, hq⟩)
      · exact ⟨[], first, rest, rfl, by simpa [elementCountOfList] using hfirst⟩
      · refine ⟨first :: before, n, after, rfl, ?_⟩
        rw [elementCountOfList, ← Nat.add_assoc]
        exact hq
    · rintro ⟨before, n, after, hsplit, hq⟩
      cases before with
      | nil =>
        obtain ⟨rfl, rfl⟩ := List.cons.inj hsplit
        exact .inl (by simpa [elementCountOfList] using hq)
      | cons other before =>
        obtain ⟨rfl, rfl⟩ := List.cons.inj hsplit
        rw [elementCountOfList, ← Nat.add_assoc] at hq
        exact .inr ⟨before, n, after, rfl, hq⟩

end Markup.Node

namespace Place

/-! ## Children -/

/-- `c.ChildOf p` says that `c` is an element among the nodes of `p`. Its rank counts the elements
that start before it, and its declarations are in force in front of those around it. -/
inductive ChildOf : Place → Place → Prop
  | intro {p : Place} {before after : List Node} {name : ExpandedName} {bindings : List Binding}
      {attributes : List Attribute} {children : List Node}
      (children_eq : p.children = before ++ .element name bindings attributes children :: after) :
      ChildOf ⟨p.rank + 1 + Node.elementCountOfList before, some name, bindings ++ p.scope,
        attributes, children⟩ p

/-- `q.StandsBelow p` says that children lead from `p` to `q`. -/
def StandsBelow (q p : Place) : Prop := Relation.TransGen ChildOf q p

variable {p q r : Place}

/-- A child has fewer elements below it than its parent. -/
theorem ChildOf.elementCount_lt (h : q.ChildOf p) :
    Node.elementCountOfList q.children < Node.elementCountOfList p.children := by
  obtain ⟨hchildren⟩ := h
  rw [hchildren, Node.elementCountOfList_append, Node.elementCountOfList, Node.elementCount]
  dsimp only
  omega

/-- What is below a place is a child of it or below a child. -/
theorem mem_below_iff_child : q ∈ p.below ↔ ∃ c, c.ChildOf p ∧ (q = c ∨ q ∈ c.below) := by
  unfold below
  rw [Node.mem_placesOfList_iff]
  constructor
  · rintro ⟨before, n, after, hchildren, hq⟩
    cases n with
    | element name bindings attributes children =>
      rw [Node.places, List.mem_cons] at hq
      exact ⟨_, .intro hchildren, hq⟩
    | _ => simp [Node.places] at hq
  · rintro ⟨c, hc, hq⟩
    obtain @⟨p, before, after, name, bindings, attributes, children, hchildren⟩ := hc
    refine ⟨before, _, after, hchildren, ?_⟩
    rw [Node.places, List.mem_cons]
    exact hq

/-! ## Descendants -/

/-- A child stands below its parent. -/
theorem ChildOf.standsBelow (h : q.ChildOf p) : q.StandsBelow p := .single h

/-- What stands below a place below another one stands below that one too. -/
theorem StandsBelow.trans (hr : r.StandsBelow q) (hq : q.StandsBelow p) : r.StandsBelow p :=
  Relation.TransGen.trans hr hq

/-- The elements listed below a place are those to which children lead from it. -/
theorem mem_below_iff : q ∈ p.below ↔ q.StandsBelow p := by
  constructor
  · -- A child has fewer elements below it than the place where the walk starts.
    induction hcount : Node.elementCountOfList p.children using Nat.strongRecOn
      generalizing p with
    | ind count ih =>
      intro hq
      obtain ⟨c, hc, rfl | hbelow⟩ := mem_below_iff_child.mp hq
      · exact hc.standsBelow
      · have hless := hc.elementCount_lt
        rw [hcount] at hless
        have hstands := ih _ hless rfl hbelow
        exact hstands.trans hc.standsBelow
  · intro h
    induction h with
    | single hc => exact mem_below_iff_child.mpr ⟨q, hc, .inl rfl⟩
    | tail _ hc ih => exact mem_below_iff_child.mpr ⟨_, hc, .inr ih⟩

/-! ## Ranks -/

/-- The elements below a place are numbered one after the other, from behind the place. -/
theorem map_rank_below (p : Place) :
    p.below.map rank = List.range' (p.rank + 1) (Node.elementCountOfList p.children) :=
  Node.map_rank_placesOfList p.scope (p.rank + 1) p.children

/-- The elements below a place are listed in document order, and none of them twice. -/
theorem pairwise_below (p : Place) : p.below.Pairwise (·.rank < ·.rank) := by
  have hranks : (p.below.map rank).Pairwise (· < ·) := by
    rw [map_rank_below]
    exact List.pairwise_lt_range' 1
  exact List.pairwise_map.mp hranks

/-- Below one place a rank belongs to one element only. -/
theorem eq_of_rank_eq (hq : q ∈ p.below) (hr : r ∈ p.below) (hrank : q.rank = r.rank) :
    q = r := by
  have hnodup : (p.below.map rank).Nodup := by
    rw [map_rank_below]
    exact List.nodup_range'
  exact List.inj_on_of_nodup_map hnodup hq hr hrank

end Place

end FeedAudit

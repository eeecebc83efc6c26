import FeedAudit.Check.Result
import FeedAudit.Expectation.Spec

/-!
# Induction over expectations and results

Expectations and the results of checking them are trees whose nodes hold an optional list of
subtrees. Both have an induction in which the hypothesis covers every member of that list, so that
proofs follow the nodes and not the lists and options in between.
-/

namespace FeedAudit

/-! ## Expectations -/

/-- A property of expectations holds of all of them if it passes from the children of an element to
the element. -/
theorem ElementSpec.tree_induction {P : ElementSpec → Prop}
    (step : ∀ spec, (∀ specs, spec.children = some specs → ∀ child ∈ specs, P child) → P spec)
    (spec : ElementSpec) : P spec := by
  refine @ElementSpec.rec P (fun children => ∀ specs, children = some specs → ∀ c ∈ specs, P c)
    (fun specs => ∀ c ∈ specs, P c) ?_ ?_ ?_ ?_ ?_ spec
  · intro id name value attributes children hchildren
    exact step _ hchildren
  · intro specs h
    cases h
  · intro specs hspecs others h
    cases h
    exact hspecs
  · intro c hc
    cases hc
  · intro first rest hfirst hrest c hc
    rcases List.mem_cons.mp hc with rfl | hc
    · exact hfirst
    · exact hrest c hc

/-! ## Results -/

namespace ElementResult

/-- The results of the attributes of an element, none if they were not checked. -/
def attributeResults (r : ElementResult) : List AttributeResult :=
  match r.attributes with
  | none => []
  | some a => a.each

/-- The results of the children of an element, none if they were not checked. -/
def childResults (r : ElementResult) : List ElementResult :=
  match r.children with
  | none => []
  | some c => c.each

/-- A property of results holds of all of them if it passes from the children of a result to the
result. -/
theorem tree_induction {P : ElementResult → Prop}
    (step : ∀ r, (∀ child ∈ r.childResults, P child) → P r) (r : ElementResult) : P r := by
  refine @ElementResult.rec P (fun children => ∀ c, children = some c → ∀ child ∈ c.each, P child)
    (fun c => ∀ child ∈ c.each, P child) (fun each => ∀ child ∈ each, P child)
    ?_ ?_ ?_ ?_ ?_ ?_ r
  · intro id name verdict message value attributes children hchildren
    refine step _ fun child hchild => ?_
    cases children with
    | none => cases hchild
    | some c => exact hchildren c rfl child hchild
  · intro c h
    cases h
  · intro c hc other h
    cases h
    exact hc
  · intro verdict each heach
    exact heach
  · intro child h
    cases h
  · intro first rest hfirst hrest child h
    rcases List.mem_cons.mp h with rfl | h
    · exact hfirst
    · exact hrest child h

/-! ## The nodes of a tree of results -/

mutual

/-- The nodes of a tree of results with their depths, every node before those below it. -/
def nodes (depth : Nat) : ElementResult → List (Nat × ElementResult)
  | ⟨id, name, verdict, message, value, attributes, children⟩ =>
    (depth, ⟨id, name, verdict, message, value, attributes, children⟩) ::
      nodesOfOption (depth + 1) children

/-- The nodes of children, if any were checked. -/
def nodesOfOption (depth : Nat) : Option (ChildrenResult ElementResult) → List (Nat × ElementResult)
  | none => []
  | some c => nodesOfChildren depth c

/-- The nodes of children. -/
def nodesOfChildren (depth : Nat) : ChildrenResult ElementResult → List (Nat × ElementResult)
  | ⟨_, each⟩ => nodesOfList depth each

/-- The nodes of trees, one tree after the other. -/
def nodesOfList (depth : Nat) : List ElementResult → List (Nat × ElementResult)
  | [] => []
  | r :: rest => nodes depth r ++ nodesOfList depth rest

end

/-- The nodes of several results are listed one result after the other. -/
theorem nodesOfList_eq (depth : Nat) (each : List ElementResult) :
    nodesOfList depth each = each.flatMap (nodes depth) := by
  induction each with
  | nil => rfl
  | cons r rest ih => rw [nodesOfList, ih, List.flatMap_cons]

/-- A tree consists of its root and of the trees below it. -/
theorem nodes_eq (depth : Nat) (r : ElementResult) :
    r.nodes depth = (depth, r) :: r.childResults.flatMap (nodes (depth + 1)) := by
  obtain ⟨id, name, verdict, message, value, attributes, children⟩ := r
  rw [nodes]
  cases children with
  | none => rfl
  | some c =>
    obtain ⟨verdict, each⟩ := c
    rw [nodesOfOption, nodesOfChildren, nodesOfList_eq]
    rfl

/-- A result is among its own nodes. -/
theorem root_mem_nodes (depth : Nat) (r : ElementResult) : (depth, r) ∈ r.nodes depth := by
  rw [nodes_eq]
  exact List.mem_cons_self

/-- The nodes of a child are among those of the result. -/
theorem nodes_subset_of_child {r child : ElementResult} (h : child ∈ r.childResults) (depth : Nat) :
    child.nodes (depth + 1) ⊆ r.nodes depth := by
  intro n hn
  rw [nodes_eq]
  exact List.mem_cons_of_mem _ (List.mem_flatMap.mpr ⟨child, h, hn⟩)

end ElementResult

end FeedAudit

import FeedAudit.Proofs.OrderedUnion
import Mathlib.Data.List.MinMax
import Mathlib.Order.Bounds.Defs

/-!
# A pass is witnessed by nested elements

The children of an expectation are looked up below all elements that were found for it, not below
one of them. What passes is nevertheless witnessed by single elements: along every path from the
expectation down through its children (`ElementSpec.Path`) there are elements that stand each below
the one before and have the names that are expected there (`Nested`).

Main statement: `exists_nested_of_pass`. An expectation that passes has such elements along every
path, the first of them below a place of the context; hence no expectation passes that is nested
deeper than the elements below its context.
-/

namespace FeedAudit

open Markup Narrated

/-! ## How deep elements are nested -/

namespace Markup.Node

mutual

/-- The number of elements one in the other in a node. -/
def nesting : Node → Nat
  | .element _ _ _ children => 1 + nestingOfList children
  | _ => 0

/-- The number of elements one in the other in nodes. -/
def nestingOfList : List Node → Nat
  | [] => 0
  | n :: rest => max n.nesting (nestingOfList rest)

end

/-- Nodes of two lists are nested as deep as those of the deeper list. -/
theorem nestingOfList_append (ns others : List Node) :
    nestingOfList (ns ++ others) = max (nestingOfList ns) (nestingOfList others) := by
  induction ns with
  | nil => simp [nestingOfList]
  | cons n rest ih => rw [List.cons_append, nestingOfList, nestingOfList, ih, Nat.max_assoc]

/-- Where elements are nested, one of the outer ones has all but one of them in it. -/
theorem exists_element_of_nestingOfList {ns : List Node} (h : nestingOfList ns ≠ 0) :
    ∃ before name bindings attributes children after,
      ns = before ++ .element name bindings attributes children :: after ∧
        nestingOfList ns = 1 + nestingOfList children := by
  induction ns with
  | nil => exact absurd rfl h
  | cons n rest ih =>
    rw [nestingOfList] at h ⊢
    by_cases hrest : n.nesting < nestingOfList rest
    · have hpos : nestingOfList rest ≠ 0 := by omega
      obtain ⟨before, name, bindings, attributes, children, after, rfl, hnesting⟩ := ih hpos
      refine ⟨n :: before, name, bindings, attributes, children, after, rfl, ?_⟩
      omega
    · cases n with
      | element name bindings attributes children =>
        refine ⟨[], name, bindings, attributes, children, rest, rfl, ?_⟩
        rw [nesting] at hrest ⊢
        omega
      | _ =>
        simp only [nesting] at h hrest
        omega

end Markup.Node

namespace Place

/-- The number of elements one in the other below a place. -/
def nesting (p : Place) : Nat := Node.nestingOfList p.children

variable {p q : Place} {elements : List Place}

/-- Less is nested below a child than below its parent. -/
theorem ChildOf.nesting_lt (h : q.ChildOf p) : q.nesting < p.nesting := by
  obtain ⟨hchildren⟩ := h
  rw [nesting, nesting, hchildren, Node.nestingOfList_append, Node.nestingOfList, Node.nesting]
  dsimp only
  omega

/-- Less is nested below a place than below those it stands below. -/
theorem StandsBelow.nesting_lt (h : q.StandsBelow p) : q.nesting < p.nesting := by
  induction h with
  | single hc => exact hc.nesting_lt
  | tail _ hc ih => exact Nat.lt_trans ih hc.nesting_lt

/-- `p.LeadsDown elements` says that the first of the elements stands below `p`, and each of the
others below the one before. -/
def LeadsDown (p : Place) (elements : List Place) : Prop :=
  (p :: elements).IsChain fun outer inner => inner.StandsBelow outer

/-- No descent is longer than the nesting of the place where it starts. -/
theorem LeadsDown.length_le (h : p.LeadsDown elements) : elements.length ≤ p.nesting := by
  induction elements generalizing p with
  | nil => exact Nat.zero_le _
  | cons q rest ih =>
    obtain ⟨hq, hrest⟩ := List.isChain_cons_cons.mp h
    have hlength := ih hrest
    have hless := hq.nesting_lt
    rw [List.length_cons]
    omega

/-- A place below which something is nested has a child below which one less is. -/
theorem exists_child_of_nesting (h : p.nesting ≠ 0) :
    ∃ c : Place, c.ChildOf p ∧ p.nesting = 1 + c.nesting := by
  obtain ⟨_, _, _, _, _, _, hchildren, hnesting⟩ := Node.exists_element_of_nestingOfList h
  exact ⟨_, .intro hchildren, hnesting⟩

/-- The nesting below a place is that of the elements that are most often one in the other. -/
theorem isGreatest_nesting (p : Place) :
    IsGreatest {k | ∃ elements, p.LeadsDown elements ∧ elements.length = k} p.nesting := by
  constructor
  · induction hnesting : p.nesting generalizing p with
    | zero => exact ⟨[], .singleton p, rfl⟩
    | succ k ih =>
      have hpos : p.nesting ≠ 0 := by omega
      obtain ⟨c, hc, hless⟩ := exists_child_of_nesting hpos
      obtain ⟨elements, hdown, hlength⟩ := ih c (by omega)
      exact ⟨c :: elements, .cons_cons hc.standsBelow hdown, by simp [hlength]⟩
  · rintro k ⟨elements, hdown, rfl⟩
    exact hdown.length_le

end Place

/-- The number of elements one in the other below one of the places of a selection. -/
def Selection.nesting (s : Selection) : Nat := (s.places.map Place.nesting).foldr max 0

/-- No place of a selection has more nested below it than the selection. -/
theorem Selection.nesting_le {s : Selection} {p : Place} (hp : p ∈ s.places) :
    p.nesting ≤ s.nesting :=
  List.le_max_of_le' 0 (List.mem_map_of_mem hp) (Nat.le_refl _)

/-! ## Paths through an expectation -/

namespace ElementSpec

/-- `spec.Path path` says that `path` starts with `spec` and goes on with a child of the one before
each. -/
inductive Path : ElementSpec → List ElementSpec → Prop
  | root {spec : ElementSpec} : Path spec [spec]
  | child {spec child : ElementSpec} {specs path : List ElementSpec}
      (children : spec.children = some specs) (mem : child ∈ specs) (rest : Path child path) :
      Path spec (spec :: path)

mutual

/-- The number of expectations one in the other, the outermost included. -/
def nesting : ElementSpec → Nat
  | ⟨_, _, _, _, children⟩ => 1 + nestingOfOption children

/-- The number of expectations one in the other in a list that may be absent. -/
def nestingOfOption : Option (List ElementSpec) → Nat
  | none => 0
  | some es => nestingOfList es

/-- The number of expectations one in the other in a list. -/
def nestingOfList : List ElementSpec → Nat
  | [] => 0
  | e :: rest => max e.nesting (nestingOfList rest)

end

variable {spec : ElementSpec} {specs path : List ElementSpec}

/-- Expectations are nested as deep as the deepest one. -/
theorem nestingOfList_eq (specs : List ElementSpec) :
    nestingOfList specs = (specs.map nesting).foldr max 0 := by
  induction specs with
  | nil => rfl
  | cons e rest ih => rw [nestingOfList, ih, List.map_cons, List.foldr_cons]

/-- An expectation with children is nested one deeper than they are. -/
theorem nesting_of_children (h : spec.children = some specs) :
    spec.nesting = 1 + nestingOfList specs := by
  obtain ⟨id, name, value, attributes, children⟩ := spec
  obtain rfl : children = some specs := h
  rw [nesting, nestingOfOption]

/-- An expectation without children is nested in itself alone. -/
theorem nesting_of_no_children (h : spec.children = none) : spec.nesting = 1 := by
  obtain ⟨id, name, value, attributes, children⟩ := spec
  obtain rfl : children = none := h
  rw [nesting, nestingOfOption]

/-- No path of expectations is longer than their nesting. -/
theorem Path.length_le (h : spec.Path path) : path.length ≤ spec.nesting := by
  induction h with
  | @root spec =>
    cases hchildren : spec.children with
    | none => simp [nesting_of_no_children hchildren]
    | some specs => simp [nesting_of_children hchildren]
  | @child spec child specs path children mem _ ih =>
    have hle : child.nesting ≤ nestingOfList specs := by
      rw [nestingOfList_eq]
      exact List.le_max_of_le' 0 (List.mem_map_of_mem mem) (Nat.le_refl _)
    rw [nesting_of_children children, List.length_cons]
    omega

/-- Expectations that are nested have one that is nested as deep as all of them. -/
theorem exists_nesting_eq (h : specs ≠ []) : ∃ e ∈ specs, e.nesting = nestingOfList specs := by
  induction specs with
  | nil => exact absurd rfl h
  | cons e rest ih =>
    rw [nestingOfList]
    by_cases hrest : nestingOfList rest ≤ e.nesting
    · exact ⟨e, List.mem_cons_self, (Nat.max_eq_left hrest).symm⟩
    · have hne : rest ≠ [] := by
        rintro rfl
        exact hrest (Nat.zero_le _)
      obtain ⟨other, hother, heq⟩ := ih hne
      refine ⟨other, List.mem_cons_of_mem e hother, ?_⟩
      omega

/-- The nesting of an expectation is the length of the longest path down from it. -/
theorem isGreatest_nesting (spec : ElementSpec) :
    IsGreatest {k | ∃ path, spec.Path path ∧ path.length = k} spec.nesting := by
  constructor
  · induction spec using tree_induction with
    | step spec ih =>
      cases hchildren : spec.children with
      | none => exact ⟨[spec], .root, (nesting_of_no_children hchildren).symm⟩
      | some specs =>
        rw [nesting_of_children hchildren]
        by_cases hnone : specs = []
        · subst hnone
          exact ⟨[spec], .root, rfl⟩
        · obtain ⟨child, hchild, heq⟩ := exists_nesting_eq hnone
          obtain ⟨path, hpath, hlength⟩ := ih specs hchildren child hchild
          refine ⟨spec :: path, .child hchildren hchild hpath, ?_⟩
          rw [List.length_cons, hlength, heq, Nat.add_comm]
  · rintro k ⟨path, hpath, rfl⟩
    exact hpath.length_le

end ElementSpec

/-! ## Elements along a path -/

/-- `Nested n path elements` says that there is one element for each expectation of a path: the
first stands below `n`, each of the others below the one before, and each has the name of its
expectation, with the meaning that the name has at the place below which it stands. -/
inductive Nested : Place → List ElementSpec → List Place → Prop
  | nil {n : Place} : Nested n [] []
  | cons {n m : Place} {spec : ElementSpec} {path : List ElementSpec} {elements : List Place}
      {name : Selector} (below : m.StandsBelow n) (parsed : Selector.parse spec.name = .ok name)
      (names : name.Names n m) (rest : Nested m path elements) :
      Nested n (spec :: path) (m :: elements)

section

variable {context found : Selection} {spec : ElementSpec} {path : List ElementSpec} {n : Place}
  {elements : List Place}

/-- There is one element for each expectation of a path. -/
theorem Nested.length_eq (h : Nested n path elements) : elements.length = path.length := by
  induction h with
  | nil => rfl
  | cons _ _ _ _ ih => rw [List.length_cons, List.length_cons, ih]

/-- The elements for a path lead down from one to the next. -/
theorem Nested.leadsDown (h : Nested n path elements) : n.LeadsDown elements := by
  induction h with
  | nil => exact .singleton _
  | cons below _ _ _ ih => exact .cons_cons below ih

/-- What was found for a name is below a place of the context, where the name has its meaning. -/
theorem Resolves.exists_below (h : Resolves context spec.name found) {m : Place}
    (hm : m ∈ found.places) (hrest : Nested m path elements) :
    ∃ n ∈ context.places, Nested n (spec :: path) (m :: elements) := by
  obtain ⟨name, hparsed, -, -, hmem⟩ := h
  obtain ⟨n, hn, hbelow, hnames⟩ := ((hmem m).mp hm).exists_mem
  exact ⟨n, hn, .cons hbelow hparsed hnames hrest⟩

/-- An expectation that passes was resolved to elements, and its children pass below these. -/
theorem exists_found_of_pass (h : (checkElement context spec).result.verdict = .pass) :
    ∃ found, Resolves context spec.name found ∧ found.places ≠ [] ∧
      ∀ specs, spec.children = some specs → ∀ child ∈ specs,
        (checkElement found child).result.verdict = .pass := by
  obtain ⟨hmet, hmade⟩ := (sumsUp_checkElement context spec).pass_iff.mp h
  cases hselect : selectNamed context spec.name with
  | error fault =>
    have hfaulted : Faulted context spec := .inl (selectNamed_eq_error_iff.mp ⟨fault, hselect⟩)
    exact absurd ⟨context, spec, .root, hfaulted⟩ hmade
  | ok found =>
    have hresolves := selectNamed_eq_ok_iff.mp hselect
    have hsome : found.places ≠ [] := by
      intro hnone
      exact hmet ⟨context, spec, .root, found, hresolves, .inl hnone⟩
    refine ⟨found, hresolves, hsome, fun specs hchildren child hchild => ?_⟩
    apply (sumsUp_checkElement found child).pass_iff.mpr
    constructor
    · rintro ⟨c, s, hreached, hdiffers⟩
      exact hmet ⟨c, s, .of_child hresolves hsome hchildren hchild hreached, hdiffers⟩
    · rintro ⟨c, s, hreached, hfaulted⟩
      exact hmade ⟨c, s, .of_child hresolves hsome hchildren hchild hreached, hfaulted⟩

/-- Where an expectation passes, there are elements one in the other for every path of it. -/
theorem exists_nested_of_path (hpath : spec.Path path)
    (h : (checkElement context spec).result.verdict = .pass) :
    ∃ n ∈ context.places, ∃ elements, Nested n path elements := by
  -- The last element is chosen first: what was found for a child leads back to its parent.
  induction hpath generalizing context with
  | root =>
    obtain ⟨found, hresolves, hsome, -⟩ := exists_found_of_pass h
    obtain ⟨m, hm⟩ := List.exists_mem_of_ne_nil _ hsome
    obtain ⟨n, hn, hnested⟩ := hresolves.exists_below hm .nil
    exact ⟨n, hn, [m], hnested⟩
  | child children mem _ ih =>
    obtain ⟨found, hresolves, -, hchildren⟩ := exists_found_of_pass h
    obtain ⟨m, hm, elements, hrest⟩ := ih (hchildren _ children _ mem)
    obtain ⟨n, hn, hnested⟩ := hresolves.exists_below hm hrest
    exact ⟨n, hn, m :: elements, hnested⟩

end

/-- If an expectation passes below a context, then along every path down from it there are elements
that stand one below the other, the first of them below a place of the context, and have the names
of the expectations, a prefix with the meaning that it has at the element before. An expectation
that is nested deeper than the elements below the context does not pass. -/
theorem exists_nested_of_pass (context : Selection) (spec : ElementSpec) (log : RunLog) :
    let verdict := ((checkElement context spec).run log).1.verdict
    (verdict = .pass → ∀ path, spec.Path path →
      ∃ n ∈ context.places, ∃ elements, Nested n path elements) ∧
    (context.nesting < spec.nesting → verdict ≠ .pass) := by
  rw [(steady_checkElement context spec).fst_run]
  dsimp only
  refine ⟨fun hpass path hpath => exists_nested_of_path hpath hpass, fun hdeeper hpass => ?_⟩
  obtain ⟨path, hpath, hlength⟩ := (ElementSpec.isGreatest_nesting spec).1
  obtain ⟨n, hn, elements, hnested⟩ := exists_nested_of_path hpath hpass
  have hpath_le : elements.length ≤ n.nesting := hnested.leadsDown.length_le
  have hcontext := Selection.nesting_le hn
  rw [hnested.length_eq, hlength] at hpath_le
  omega

/-- An item in the inner element of `Selection.redeclared`, by the prefix that is declared twice. -/
def innerItem : ElementSpec := .existing "3" "m:item"

/-- The inner element with such an item. -/
def innerList : ElementSpec := (ElementSpec.existing "2" "list").withChildren [innerItem]

/-- Along the path to the item there are elements; the item below an item is one too many. -/
theorem exists_nested_of_pass_redeclared :
    let context := Selection.ofDocument Selection.redeclared
    let feed := (ElementSpec.existing "1" "feed").withChildren [innerList]
    let deeper := (ElementSpec.existing "0" "feed").withChildren
      [innerList.withChildren [innerItem.withChildren [innerItem]]]
    ((checkElement context feed).run .empty).1.verdict = .pass ∧
    feed.Path [feed, innerList, innerItem] ∧
    (∃ n ∈ context.places, ∃ elements, Nested n [feed, innerList, innerItem] elements) ∧
    context.nesting < deeper.nesting ∧
    ((checkElement context deeper).run .empty).1.verdict ≠ .pass := by
  intro context feed deeper
  have hpass : ((checkElement context feed).run .empty).1.verdict = .pass := by decide +kernel
  have hpath : feed.Path [feed, innerList, innerItem] :=
    .child rfl List.mem_cons_self (.child rfl List.mem_cons_self .root)
  have hdeeper : context.nesting < deeper.nesting := by decide +kernel
  obtain ⟨hnested, -⟩ := exists_nested_of_pass context feed .empty
  obtain ⟨-, hfails⟩ := exists_nested_of_pass context deeper .empty
  exact ⟨hpass, hpath, hnested hpass _ hpath, hdeeper, hfails hdeeper⟩

end FeedAudit

import FeedAudit.Proofs.FlatVerdict
import FeedAudit.Proofs.ReportBlock
import Mathlib.Data.List.Forall2
import Mathlib.Data.List.Zip

/-!
# Results mirror expectations

A check leaves a tree of results that has the shape of the tree of expectations, cut off where the
document has nothing to go on with: below an expectation that was resolved to at least one element
stands one part for every part that the expectation has, an empty list included, and below one that
was not stands nothing. `Mirrors` is this relation between an expectation and a result, for the
context in which the expectation is looked up.

Main statement: `mirrors_checkElements`. Results mirror their expectations one by one and in order;
hence a container has no more results than its expectation has elements, and as many only if
nothing was cut off.
-/

namespace FeedAudit

open Narrated

/-! ## Mirrored expectations -/

/-- What the result of an attribute repeats of its expectation: the id, the name, and the expected
text as it is written. -/
def AttributeSpec.written (s : AttributeSpec) : String × String × String :=
  (s.id, s.name, s.expected.text)

/-- What the result of an attribute says about its expectation. -/
def AttributeResult.recorded (a : AttributeResult) : String × String × String :=
  (a.id, a.name, a.expected)

/-- The children that an element must have. -/
def ElementSpec.childSpecs (s : ElementSpec) : List ElementSpec := s.children.getD []

/-- The expected children are as many as are listed. -/
theorem ElementSpec.length_childSpecs (s : ElementSpec) :
    s.childSpecs.length = (s.children.map (·.length)).getD 0 := by
  unfold childSpecs
  cases s.children <;> rfl

/-- The results of children are as many as are listed. -/
theorem ElementResult.length_childResults (r : ElementResult) :
    r.childResults.length = (r.children.map (·.each.length)).getD 0 := by
  unfold childResults
  cases r.children <;> rfl

/-- A name cannot be looked up below a context, or nothing has it there. -/
def NothingFound (context : Selection) (name : String) : Prop :=
  ∀ found, Resolves context name found → found.places = []

/-- `Mirrors context spec r` says that `r` is a result for `spec` below `context` which leaves
nothing out, has nothing twice and keeps the order. -/
inductive Mirrors : Selection → ElementSpec → ElementResult → Prop
  /-- Below an expectation for which nothing was found there are no parts. -/
  | missing {context : Selection} {spec : ElementSpec} {r : ElementResult}
      (id_eq : r.id = spec.id) (name_eq : r.name = spec.name)
      (nothing : NothingFound context spec.name)
      (value : r.value = none) (attributes : r.attributes = none) (children : r.children = none) :
      Mirrors context spec r
  /-- Below an expectation that was resolved to an element are just the parts that it asks for. -/
  | present {context found : Selection} {spec : ElementSpec} {r : ElementResult}
      (id_eq : r.id = spec.id) (name_eq : r.name = spec.name)
      (resolved : Resolves context spec.name found) (some_found : found.places ≠ [])
      (value : r.value.map (·.expected) = spec.value.map (·.text))
      (attributes : r.attributes.map (·.each.map AttributeResult.recorded) =
        spec.attributes.map (·.map AttributeSpec.written))
      (children : r.children.map (·.each.length) = spec.children.map (·.length))
      (mirrored : ∀ p ∈ spec.childSpecs.zip r.childResults, Mirrors found p.1 p.2) :
      Mirrors context spec r

/-! ## The results of checks -/

/-- A name that cannot be looked up finds nothing. -/
theorem nothingFound_of_error {context : Selection} {name : String} {fault : Fault}
    (h : selectNamed context name = .error fault) : NothingFound context name := by
  intro found hfound
  exact absurd (selectNamed_eq_error_iff.mp ⟨fault, h⟩) hfound.not_unresolvable

/-- A name that selects no element finds nothing. -/
theorem nothingFound_of_missing {context found : Selection} {name : String}
    (h : selectNamed context name = .ok found) (hempty : found.isEmpty = true) :
    NothingFound context name := by
  intro found' hfound'
  rw [← (selectNamed_eq_ok_iff.mp h).unique hfound']
  exact List.isEmpty_iff.mp hempty

/-- The results of attributes record what was expected of each, in order. -/
theorem recorded_checkAttributes (found : Selection) (specs : List AttributeSpec) :
    (checkAttributes found specs).result.each.map AttributeResult.recorded =
      specs.map AttributeSpec.written := by
  rw [result_checkAttributes]
  dsimp only
  rw [List.map_map]
  exact List.map_congr_left fun spec _ => rfl

/-- The result of a text records what was expected. -/
theorem expected_checkValue (found : Selection) (expected : Pattern) :
    (checkValue found expected).result.expected = expected.text := by
  rw [result_checkValue]
  split <;> rfl

/-- The result of an element mirrors the expectation, down to where nothing is found. -/
theorem mirrors_checkElement (context : Selection) (spec : ElementSpec) :
    Mirrors context spec (checkElement context spec).result := by
  induction spec using ElementSpec.tree_induction generalizing context with
  | step spec ih =>
    -- The result has no parts where nothing is found, and otherwise those that are expected.
    cases hselect : selectNamed context spec.name with
    | error fault =>
      rw [result_checkElement_of_error hselect]
      exact .missing rfl rfl (nothingFound_of_error hselect) rfl rfl rfl
    | ok found =>
      cases hempty : found.isEmpty with
      | true =>
        rw [result_checkElement_of_missing hselect hempty]
        exact .missing rfl rfl (nothingFound_of_missing hselect hempty) rfl rfl rfl
      | false =>
        have hne : found.places ≠ [] := by
          intro hnil
          rw [Selection.isEmpty, hnil] at hempty
          cases hempty
        rw [result_checkElement_of_found hselect hempty]
        refine .present rfl rfl (selectNamed_eq_ok_iff.mp hselect) hne ?_ ?_ ?_ ?_
        · rw [summedUp, Option.map_map]
          exact Option.map_congr fun expected _ => expected_checkValue found expected
        · rw [summedUp, Option.map_map]
          exact Option.map_congr fun specs _ => recorded_checkAttributes found specs
        · rw [summedUp, Option.map_map]
          exact Option.map_congr fun specs _ => by simp [childrenResult]
        · intro p hp
          cases hspecs : spec.children with
          | none =>
            rw [ElementSpec.childSpecs, hspecs] at hp
            cases hp
          | some specs =>
            have hzip : p ∈ specs.zip (specs.map fun s => (checkElement found s).result) := by
              rw [ElementSpec.childSpecs, hspecs] at hp
              exact hp
            rw [← List.map_prod_left_eq_zip] at hzip
            obtain ⟨s, hs, rfl⟩ := List.mem_map.mp hzip
            exact ih specs hspecs s hs found

/-! ## Counting -/

/-- An expectation is counted, and so are those below it. -/
theorem ElementSpec.nodeCount_eq (spec : ElementSpec) :
    spec.nodeCount = 1 + ElementSpec.nodeCountList spec.childSpecs := by
  obtain ⟨id, name, value, attributes, children⟩ := spec
  rw [ElementSpec.nodeCount]
  cases children with
  | none => rfl
  | some specs => rfl

/-- There is nothing to count exactly where nothing is expected. -/
theorem ElementSpec.nodeCountList_eq_zero_iff (specs : List ElementSpec) :
    ElementSpec.nodeCountList specs = 0 ↔ specs = [] := by
  cases specs with
  | nil => simp [ElementSpec.nodeCountList]
  | cons spec rest =>
    rw [ElementSpec.nodeCountList, ElementSpec.nodeCount_eq]
    simp

/-- An expectation has children, but there is nothing below which they could be looked up. -/
def CutOff (c : Selection) (s : ElementSpec) : Prop :=
  s.childSpecs ≠ [] ∧ NothingFound c s.name

/-- Results that stand for expectations one by one are no more than these ask for, and as many only
if each of them is complete. -/
theorem length_flatMap_nodes {specs : List ElementSpec} {each : List ElementResult} {depth : Nat}
    {complete : ElementSpec → Prop}
    (h : List.Forall₂ (fun s r => (r.nodes depth).length ≤ s.nodeCount ∧
      ((r.nodes depth).length = s.nodeCount ↔ complete s)) specs each) :
    (each.flatMap (ElementResult.nodes depth)).length ≤ ElementSpec.nodeCountList specs ∧
      ((each.flatMap (ElementResult.nodes depth)).length = ElementSpec.nodeCountList specs ↔
        ∀ s ∈ specs, complete s) := by
  induction h with
  | nil => simp [ElementSpec.nodeCountList]
  | @cons s r specs each hfirst _ ih =>
    obtain ⟨hle, hiff⟩ := hfirst
    obtain ⟨hrestLe, hrestIff⟩ := ih
    rw [List.flatMap_cons, List.length_append, ElementSpec.nodeCountList, List.forall_mem_cons,
      ← hiff, ← hrestIff]
    -- A sum meets the sum of two bounds only where both of them are met.
    constructor <;> omega

/-- A result that mirrors an expectation has no more nodes than it, and as many only if no reached
expectation is cut off. -/
theorem Mirrors.length_nodes {context : Selection} {spec : ElementSpec} {r : ElementResult}
    (h : Mirrors context spec r) (depth : Nat) :
    (r.nodes depth).length ≤ spec.nodeCount ∧
      ((r.nodes depth).length = spec.nodeCount ↔
        ¬∃ c s, Reached context spec c s ∧ CutOff c s) := by
  -- The relation is built along both trees at once, and so is the bound.
  induction h generalizing depth with
  | @missing context spec r _ _ nothing _ _ children =>
    have hnone : r.childResults = [] := by rw [ElementResult.childResults, children]
    have hcount : 1 = 1 + ElementSpec.nodeCountList spec.childSpecs ↔ ¬CutOff context spec := by
      rw [CutOff, Nat.left_eq_add, ElementSpec.nodeCountList_eq_zero_iff]
      tauto
    rw [ElementResult.nodes_eq, hnone, ElementSpec.nodeCount_eq,
      exists_reached_iff_of_missing nothing]
    exact ⟨Nat.le_add_right _ _, hcount⟩
  | @present context found spec r _ _ resolved some_found _ _ children _ ih =>
    have hlength : spec.childSpecs.length = r.childResults.length := by
      rw [ElementSpec.length_childSpecs, ElementResult.length_childResults, children]
    have hchildren : List.Forall₂ (fun child c =>
        (c.nodes (depth + 1)).length ≤ child.nodeCount ∧
          ((c.nodes (depth + 1)).length = child.nodeCount ↔
            ¬∃ c s, Reached found child c s ∧ CutOff c s)) spec.childSpecs r.childResults :=
      List.forall₂_iff_zip.mpr ⟨hlength, fun {child c} hp => ih (child, c) hp (depth + 1)⟩
    obtain ⟨hle, hiff⟩ := length_flatMap_nodes hchildren
    have hmet : ¬CutOff context spec := fun hcut => some_found (hcut.2 found resolved)
    have hcut : (¬∃ c s, Reached context spec c s ∧ CutOff c s) ↔
        ∀ child ∈ spec.childSpecs, ¬∃ c s, Reached found child c s ∧ CutOff c s := by
      rw [exists_reached_iff_of_resolves resolved some_found, ElementSpec.childSpecs]
      cases spec.children with
      | none => simp [hmet]
      | some specs => simp [hmet]
    rw [ElementResult.nodes_eq, ElementSpec.nodeCount_eq, List.length_cons, hcut, ← hiff]
    constructor <;> omega

/-! ## Containers -/

/-- Elements that are checked leave one result each, in order, which mirrors the expectation. For a
container there are no more results than its expectation has elements, and as many exactly if every
expectation that has children, and all of whose ancestors were resolved to an element, was resolved
to an element itself. -/
theorem mirrors_checkElements :
    (∀ (context : Selection) (specs : List ElementSpec) (log : RunLog),
      List.Forall₂ (Mirrors context) specs ((checkElements context specs).run log).1) ∧
    ∀ (container : Selection) (spec : ContainerSpec),
      let results := (checkContainer container spec).summary.nodes
      results.length ≤ spec.nodeCount ∧
        (results.length = spec.nodeCount ↔
          ∀ root ∈ spec.elements, ∀ c s, Reached container root c s → s.childSpecs ≠ [] →
            ∃ found, Resolves c s.name found ∧ found.places ≠ []) := by
  have hmirrors (context : Selection) (specs : List ElementSpec) :
      List.Forall₂ (Mirrors context) specs (specs.map fun s => (checkElement context s).result) :=
    List.forall₂_map_right_iff.mpr
      (List.forall₂_same.mpr fun spec _ => mirrors_checkElement context spec)
  refine ⟨fun context specs log => ?_, fun container spec => ?_⟩
  · have hsteady := steady_checkElements fun spec (_ : spec ∈ specs) =>
      steady_checkElement context spec
    rw [hsteady.fst_run, result_checkElements]
    exact hmirrors context specs
  · have hcount := length_flatMap_nodes ((hmirrors container spec.elements).imp
      fun _ _ hmirror => hmirror.length_nodes 0)
    have hcut (c : Selection) (s : ElementSpec) : ¬CutOff c s ↔ (s.childSpecs ≠ [] →
        ∃ found, Resolves c s.name found ∧ found.places ≠ []) := by
      rw [CutOff, not_and, NothingFound]
      push Not
      rfl
    have hcomplete : (∀ root ∈ spec.elements,
        ¬∃ c s, Reached container root c s ∧ CutOff c s) ↔
          ∀ root ∈ spec.elements, ∀ c s, Reached container root c s → s.childSpecs ≠ [] →
            ∃ found, Resolves c s.name found ∧ found.places ≠ [] := by
      simp only [not_exists, not_and, hcut]
    rw [← hcomplete, Summary.nodes, summary_checkContainer, ContainerSpec.nodeCount]
    exact hcount

end FeedAudit

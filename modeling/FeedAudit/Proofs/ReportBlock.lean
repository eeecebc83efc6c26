import FeedAudit.Proofs.Consistency
import FeedAudit.Report
import Mathlib.Data.List.Basic

/-!
# What the report says about a container

The report prunes: it writes nothing about a result that passed, and nothing about parts that were
summed up to `pass`. Whether something is lost in this way depends on the verdicts inside the
result. Here the block of a container is described by its single results. Every result of the tree
that did not pass has *own lines* (`ElementResult.ownLines`), which are written from its own
verdict and the verdicts of its text, its attributes and its children, each taken by itself.

Main statement: `lines_checkContainer`. Between its head and its end, the block of a container that
was checked is made of the own lines of all results that did not pass, in the order of the tree.
-/

namespace FeedAudit

open Narrated

/-! ## The lines of one result -/

/-- Two blanks for every level of depth. -/
def blanks (depth : Nat) : String := String.ofList (List.replicate (2 * depth) ' ')

/-- The lines about a text that did not pass. -/
def ValueResult.ownLines (depth : Nat) (v : ValueResult) : List String :=
  ["", s!"{blanks depth}Element value validation",
    s!"{blanks depth}{v.verdict.word} - " ++ v.message.getD "",
    s!"{blanks depth}Expected value: {v.expected}",
    s!"{blanks depth}Actual value: {v.actual}", ruleLine '-']

/-- The lines about an attribute that did not pass. -/
def AttributeResult.ownLines (depth : Nat) (a : AttributeResult) : List String :=
  [s!"{blanks depth}{a.verdict.word} - Attribute #{a.id}: {a.name}",
    s!"{blanks depth}Expected value: {a.expected}",
    s!"{blanks depth}Actual value: {a.actual}",
    s!"{blanks depth}Test message: " ++ a.message.getD "", ruleLine '-']

namespace ElementResult

/-- The attributes of a result that did not pass. -/
def failingAttributes (r : ElementResult) : List AttributeResult :=
  r.attributeResults.filter fun a => !a.verdict.isPass

/-- The lines about the attributes of a result, under a heading if there are any. -/
def attributeOwnLines (depth : Nat) (r : ElementResult) : List String :=
  if r.failingAttributes = [] then []
  else
    ["", s!"{blanks depth}Attribute validation:"] ++
      r.failingAttributes.flatMap (AttributeResult.ownLines depth)

/-- The heading over the children of a result if some of them did not pass. -/
def childHeading (depth : Nat) (r : ElementResult) : List String :=
  if r.childResults.any fun c => !c.verdict.isPass then
    ["", s!"{blanks depth}Child elements validation:"]
  else []

/-- The lines of a result that did not pass: its name, and then what it says itself if it has no
parts, or else what there is to say about its parts. -/
def ownLines (depth : Nat) (r : ElementResult) : List String :=
  let label := if depth = 0 then "Element" else "Child element"
  s!"{blanks depth}{label} #{r.id}: <{r.name}> {r.verdict.word}" ::
    if r.partVerdicts = [] then
      [s!"{blanks depth}{r.verdict.word} - " ++ r.message.getD "", ruleLine '-']
    else
      (r.value.toList.filter fun v => !v.verdict.isPass).flatMap (ValueResult.ownLines depth) ++
        r.attributeOwnLines depth ++ r.childHeading depth

end ElementResult

/-! ## Pruned lines -/

/-- The indentation of a level is all blanks. -/
theorem indent_eq_blanks (depth : Nat) : indent depth = blanks depth := by
  have hlist (n : Nat) : (indent n).toList = List.replicate (2 * n) ' ' := by
    induction n with
    | zero => rfl
    | succ n ih =>
      have hjoin : indent (n + 1) = "  " ++ indent n := by
        rw [indent, Text.repeated, List.replicate_succ, String.join_cons]
        rfl
      rw [hjoin, String.toList_append, ih, Nat.mul_succ, Nat.add_comm,
        ← List.replicate_append_replicate]
      rfl
  rw [blanks, ← hlist, String.ofList_toList]

/-- The lines on a text are its own, if it did not pass. -/
theorem valueLines_eq (depth : Nat) (value : Option ValueResult) :
    valueLines depth value =
      (value.toList.filter fun v => !v.verdict.isPass).flatMap (ValueResult.ownLines depth) := by
  cases value with
  | none => rfl
  | some v =>
    cases hv : v.verdict.isPass with
    | true => simp [valueLines, hv]
    | false =>
      simp only [valueLines, hv, Bool.false_eq_true, if_false, indent_eq_blanks, Option.toList_some,
        Bool.not_false, List.filter_cons_of_pos, List.filter_nil, List.flatMap_cons,
        List.flatMap_nil, List.append_nil]
      rfl

/-- The lines on an attribute are its own, if it did not pass. -/
theorem attributeLines_eq (depth : Nat) (a : AttributeResult) :
    attributeLines depth a = if a.verdict.isPass then [] else a.ownLines depth := by
  rw [attributeLines, indent_eq_blanks]
  rfl

/-- The lines on attributes are those of each that did not pass. -/
theorem flatMap_attributeLines (depth : Nat) (each : List AttributeResult) :
    each.flatMap (attributeLines depth) =
      (each.filter fun a => !a.verdict.isPass).flatMap (AttributeResult.ownLines depth) := by
  induction each with
  | nil => rfl
  | cons a rest ih =>
    rw [List.flatMap_cons, ih, attributeLines_eq]
    cases ha : a.verdict.isPass <;> simp [ha]

/-- Nothing about the attributes of a consistent result is pruned. -/
theorem attributesLines_eq {r : ElementResult} (h : r.Consistent) (depth : Nat) :
    attributesLines depth r.attributes = r.attributeOwnLines depth := by
  cases ha : r.attributes with
  | none => simp [attributesLines, ElementResult.attributeOwnLines,
      ElementResult.failingAttributes, ElementResult.attributeResults, ha]
  | some attributes =>
    have heach : r.attributeResults = attributes.each := by
      rw [ElementResult.attributeResults, ha]
    rw [attributesLines, ElementResult.attributeOwnLines, flatMap_attributeLines,
      indent_eq_blanks, ElementResult.failingAttributes, heach]
    have hiff : attributes.verdict.isPass = true ↔
        (attributes.each.filter fun a => !a.verdict.isPass) = [] := by
      rw [List.filter_eq_nil_iff, h.attributes_eq attributes ha, Verdict.isPass_worst_map]
      simp [Verdict.isPass_iff]
    simp only [hiff]

/-- The lines on elements are those of each, one after the other. -/
theorem elementListLines_eq (depth : Nat) (each : List ElementResult) :
    elementListLines depth each = each.flatMap (elementLines depth) := by
  induction each with
  | nil => rfl
  | cons r rest ih => rw [elementListLines, ih, List.flatMap_cons]

/-- There are no lines on an element that passed. -/
theorem elementLines_of_pass {r : ElementResult} (h : r.verdict = .pass) (depth : Nat) :
    elementLines depth r = [] := by
  obtain ⟨id, name, verdict, message, value, attributes, children⟩ := r
  rw [elementLines, if_pos (Verdict.isPass_iff.mpr h)]

/-- Nothing about the children of a consistent result is pruned. -/
theorem optionalChildrenLines_eq {r : ElementResult} (h : r.Consistent) (depth : Nat) :
    optionalChildrenLines depth r.children =
      r.childHeading depth ++ r.childResults.flatMap (elementLines (depth + 1)) := by
  cases hc : r.children with
  | none =>
    rw [optionalChildrenLines, ElementResult.childHeading, ElementResult.childResults, hc]
    rfl
  | some children =>
    obtain ⟨verdict, each⟩ := children
    have heach : r.childResults = each := by rw [ElementResult.childResults, hc]
    have hverdict : verdict = .worst (each.map (·.verdict)) := h.children_eq _ hc
    rw [optionalChildrenLines, childrenLines, elementListLines_eq, ElementResult.childHeading,
      heach, indent_eq_blanks]
    by_cases hpass : ∀ c ∈ each, c.verdict = .pass
    · have hv : verdict.isPass = true := by
        rw [hverdict, Verdict.isPass_worst_map]
        exact hpass
      have hlines : each.flatMap (elementLines (depth + 1)) = [] :=
        List.flatMap_eq_nil_iff.mpr fun c hmem => elementLines_of_pass (hpass c hmem) (depth + 1)
      have hnone : ¬(each.any fun c => !c.verdict.isPass) = true := by
        rw [Verdict.any_not_isPass]
        exact fun hsome => hsome hpass
      rw [if_pos hv, hlines, if_neg hnone]
      rfl
    · have hv : ¬verdict.isPass = true := by
        rw [hverdict, Verdict.isPass_worst_map]
        exact hpass
      rw [if_neg hv, if_pos ((Verdict.any_not_isPass _ each).mpr hpass)]

/-- A result has no parts exactly if it has no text, no attributes and no children. -/
theorem partVerdicts_eq_nil_iff (r : ElementResult) :
    r.partVerdicts = [] ↔ (r.value.isNone && r.attributes.isNone && r.children.isNone) = true := by
  cases hv : r.value <;> cases ha : r.attributes <;> cases hc : r.children <;>
    simp [ElementResult.partVerdicts, hv, ha, hc]

/-- A consistent result that did not pass leaves its own lines, followed by those of its
children. -/
theorem elementLines_of_not_pass {r : ElementResult} (h : r.Consistent)
    (hr : r.verdict.isPass = false) (depth : Nat) :
    elementLines depth r =
      r.ownLines depth ++ r.childResults.flatMap (elementLines (depth + 1)) := by
  have hlines : elementLines depth r =
      headline depth r.id r.name r.verdict ::
        if r.value.isNone && r.attributes.isNone && r.children.isNone then
          [s!"{indent depth}{r.verdict.word} - " ++ r.message.getD "", ruleLine '-']
        else
          valueLines depth r.value ++ attributesLines depth r.attributes ++
            optionalChildrenLines depth r.children := by
    obtain ⟨id, name, verdict, message, value, attributes, children⟩ := r
    rw [elementLines, hr]
    simp only [Bool.false_eq_true, if_false]
    split <;> rfl
  rw [hlines, ElementResult.ownLines, valueLines_eq, attributesLines_eq h,
    optionalChildrenLines_eq h, indent_eq_blanks, headline, indent_eq_blanks]
  by_cases hparts : r.partVerdicts = []
  · have hnone : r.childResults = [] := by
      rw [partVerdicts_eq_nil_iff, Bool.and_eq_true, Option.isNone_iff_eq_none] at hparts
      rw [ElementResult.childResults, hparts.2]
    rw [if_pos ((partVerdicts_eq_nil_iff r).mp hparts), if_pos hparts, hnone]
    rfl
  · rw [if_neg (mt (partVerdicts_eq_nil_iff r).mpr hparts), if_neg hparts]
    simp only [List.append_assoc, List.cons_append]

/-- The lines of a tree of consistent results are the own lines of all its nodes that did not
pass. -/
theorem elementLines_eq {r : ElementResult} {depth : Nat}
    (h : ∀ n ∈ r.nodes depth, n.2.Consistent) :
    elementLines depth r =
      ((r.nodes depth).filter fun n => !n.2.verdict.isPass).flatMap fun n => n.2.ownLines n.1 := by
  induction r using ElementResult.tree_induction generalizing depth with
  | step r ih =>
    cases hr : r.verdict.isPass with
    | true =>
      have hpass := Verdict.isPass_iff.mp hr
      have hnone : ((r.nodes depth).filter fun n => !n.2.verdict.isPass) = [] := by
        rw [List.filter_eq_nil_iff]
        intro n hn
        simp [Verdict.isPass_iff.mpr (ElementResult.pass_of_mem_nodes h hpass n hn)]
      rw [elementLines_of_pass hpass, hnone, List.flatMap_nil]
    | false =>
      have hroot := h _ (ElementResult.root_mem_nodes depth r)
      have hbelow : r.childResults.flatMap (elementLines (depth + 1)) =
          ((r.childResults.flatMap (ElementResult.nodes (depth + 1))).filter
            fun n => !n.2.verdict.isPass).flatMap fun n => n.2.ownLines n.1 := by
        rw [List.filter_flatMap, List.flatMap_assoc]
        refine List.flatMap_congr fun child hchild => ih child hchild fun n hn => ?_
        exact h n (ElementResult.nodes_subset_of_child hchild depth hn)
      rw [elementLines_of_not_pass hroot hr, hbelow, ElementResult.nodes_eq,
        List.filter_cons_of_pos (by simp [hr]), List.flatMap_cons]

/-! ## The block of a container -/

/-- The nodes of all results of a container with their depths, in the order of the trees. -/
def Summary.nodes (s : Summary) : List (Nat × ElementResult) :=
  s.results.flatMap (ElementResult.nodes 0)

/-- The nodes that did not pass. -/
def Summary.failing (s : Summary) : List (Nat × ElementResult) :=
  s.nodes.filter fun n => !n.2.verdict.isPass

/-- All results of a container are consistent. -/
theorem consistent_of_mem_nodes (container : Selection) (spec : ContainerSpec) :
    ∀ n ∈ (checkContainer container spec).summary.nodes, n.2.Consistent := by
  intro n hn
  rw [Summary.nodes, summary_checkContainer, List.mem_flatMap] at hn
  obtain ⟨r, hr, hbelow⟩ := hn
  obtain ⟨s, _, rfl⟩ := List.mem_map.mp hr
  exact consistent_checkElement container s 0 n hbelow

/-- The block of a container that was checked names it and its verdict, and then writes the own
lines of all results that did not pass, and nothing else. No text and no attribute that did not
pass belongs to a result that did, so that none of them is left out; and what did not pass without
having parts, and every attribute that did not pass, comes with a message. -/
theorem lines_checkContainer (container : Selection) (spec : ContainerSpec) :
    let s := (checkContainer container spec).summary
    s.lines =
        [ruleLine '=', s!"Tested element ID: {s.containerId}", s!"Test result: {s.verdict.word}",
            ruleLine '='] ++
          s.failing.flatMap (fun n => n.2.ownLines n.1) ++ ["", "", ""] ∧
      (∀ n ∈ s.nodes, n.2.verdict = .pass →
        (∀ v, n.2.value = some v → v.verdict = .pass) ∧
          (∀ a ∈ n.2.attributeResults, a.verdict = .pass) ∧
            ∀ c ∈ n.2.childResults, c.verdict = .pass) ∧
      (∀ n ∈ s.failing, n.2.partVerdicts = [] → ∃ text, n.2.message = some text ∧ text ≠ "") ∧
      ∀ n ∈ s.failing, ∀ a ∈ n.2.failingAttributes, ∃ text, a.message = some text ∧ text ≠ "" := by
  intro s
  have hconsistent := consistent_of_mem_nodes container spec
  refine ⟨?_, ?_, ?_, ?_⟩
  · have hbody : elementListLines 0 s.results = s.failing.flatMap fun n => n.2.ownLines n.1 := by
      rw [elementListLines_eq, Summary.failing, Summary.nodes, List.filter_flatMap,
        List.flatMap_assoc]
      refine List.flatMap_congr fun r hr => elementLines_eq fun n hn => ?_
      exact hconsistent n (List.mem_flatMap.mpr ⟨r, hr, hn⟩)
    rw [Summary.lines, hbody]
  · intro n hn hpass
    have h := hconsistent n hn
    exact ⟨fun v hv => h.partVerdict_pass hpass (ElementResult.value_mem_partVerdicts hv),
      fun a ha => h.attributeResult_pass hpass ha, fun c hc => h.childResult_pass hpass hc⟩
  · intro n hn hparts
    obtain ⟨hmem, hfail⟩ := List.mem_filter.mp hn
    refine (hconsistent n hmem).explained hparts fun hpass => ?_
    simp [hpass, Verdict.isPass] at hfail
  · intro n hn a ha
    obtain ⟨hmem, hfail⟩ := List.mem_filter.mp ha
    refine (hconsistent n (List.mem_filter.mp hn).1).attribute_explained a hmem fun hpass => ?_
    simp [hpass, Verdict.isPass] at hfail

end FeedAudit

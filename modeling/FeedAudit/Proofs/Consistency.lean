import FeedAudit.Proofs.Narration
import Mathlib.Tactic.Common

/-!
# Consistent results

A result of checking an element is *consistent* if it tells no other verdict than its parts do: the
verdict on the element is the most severe one of its parts, the verdict on its attributes the most
severe one of theirs, the verdict on its children likewise, and whatever did not pass without
having parts says why. All nodes of the results that checks leave are consistent
(`consistent_checkElement`); in particular nothing below a result that passed did not pass
(`Consistent.parts_pass`).
-/

namespace FeedAudit

open Narrated

namespace Verdict

/-- A verdict passes exactly if it is `pass`. -/
theorem isPass_iff {v : Verdict} : v.isPass = true ↔ v = .pass := by
  cases v <;> decide

/-- A verdict does not pass exactly if it is not `pass`. -/
theorem not_isPass (v : Verdict) : (!v.isPass) = decide (v ≠ .pass) := by
  cases v <;> decide

/-- Nothing but `pass` is as little severe as `pass`. -/
theorem eq_pass_of_severity_le {v w : Verdict} (h : v.severity ≤ w.severity) (hw : w = .pass) :
    v = .pass := by
  rw [hw] at h
  cases v with
  | pass => rfl
  | _ => cases h

/-- The worst of several verdicts passes exactly if each of them does. -/
theorem isPass_worst_map {α : Type} (f : α → Verdict) (xs : List α) :
    (worst (xs.map f)).isPass = true ↔ ∀ x ∈ xs, f x = .pass := by
  rw [isPass_iff, worst_eq_pass_iff]
  simp

/-- Something does not pass exactly if not everything passes. -/
theorem any_not_isPass {α : Type} (f : α → Verdict) (xs : List α) :
    (xs.any fun x => !(f x).isPass) = true ↔ ¬∀ x ∈ xs, f x = .pass := by
  constructor
  · intro hsome hall
    obtain ⟨x, hx, hfail⟩ := List.any_eq_true.mp hsome
    simp [isPass_iff.mpr (hall x hx)] at hfail
  · intro hsome
    by_contra hnone
    refine hsome fun x hx => ?_
    by_contra hfail
    refine hnone (List.any_eq_true.mpr ⟨x, hx, ?_⟩)
    simpa [← isPass_iff] using hfail

end Verdict

namespace ElementResult

/-- The verdict of a result agrees with those of its parts, and what has no parts says why it did
not pass. -/
structure Consistent (r : ElementResult) : Prop where
  verdict_eq : r.partVerdicts ≠ [] → r.verdict = .worst r.partVerdicts
  explained : r.partVerdicts = [] → r.verdict ≠ .pass → ∃ text, r.message = some text ∧ text ≠ ""
  attributes_eq : ∀ a, r.attributes = some a → a.verdict = .worst (a.each.map (·.verdict))
  attribute_explained : ∀ a ∈ r.attributeResults, a.verdict ≠ .pass →
    ∃ text, a.message = some text ∧ text ≠ ""
  children_eq : ∀ c, r.children = some c → c.verdict = .worst (c.each.map (·.verdict))

/-- The verdict on the text is among those on the parts. -/
theorem value_mem_partVerdicts {r : ElementResult} {v : ValueResult} (h : r.value = some v) :
    v.verdict ∈ r.partVerdicts := by
  simp [partVerdicts, h]

/-- The verdict on the attributes is among those on the parts. -/
theorem attributes_mem_partVerdicts {r : ElementResult} {a : AttributesResult}
    (h : r.attributes = some a) : a.verdict ∈ r.partVerdicts := by
  simp [partVerdicts, h]

/-- The verdict on the children is among those on the parts. -/
theorem children_mem_partVerdicts {r : ElementResult} {c : ChildrenResult ElementResult}
    (h : r.children = some c) : c.verdict ∈ r.partVerdicts := by
  simp [partVerdicts, h]

namespace Consistent

variable {r : ElementResult}

/-- No part of a result is more severe than the result. -/
theorem severity_part_le (h : r.Consistent) {v : Verdict} (hv : v ∈ r.partVerdicts) :
    v.severity ≤ r.verdict.severity := by
  rw [h.verdict_eq (List.ne_nil_of_mem hv)]
  exact Verdict.severity_le_worst hv

/-- No attribute of a result is more severe than the result. -/
theorem severity_attribute_le (h : r.Consistent) {a : AttributeResult}
    (hmem : a ∈ r.attributeResults) : a.verdict.severity ≤ r.verdict.severity := by
  cases ha : r.attributes with
  | none =>
    rw [attributeResults, ha] at hmem
    cases hmem
  | some attributes =>
    rw [attributeResults, ha] at hmem
    have hlist : a.verdict.severity ≤ attributes.verdict.severity := by
      rw [h.attributes_eq attributes ha]
      exact Verdict.severity_le_worst (List.mem_map_of_mem hmem)
    exact Nat.le_trans hlist (h.severity_part_le (attributes_mem_partVerdicts ha))

/-- No child of a result is more severe than the result. -/
theorem severity_child_le (h : r.Consistent) {child : ElementResult}
    (hmem : child ∈ r.childResults) : child.verdict.severity ≤ r.verdict.severity := by
  cases hc : r.children with
  | none =>
    rw [childResults, hc] at hmem
    cases hmem
  | some children =>
    rw [childResults, hc] at hmem
    have hlist : child.verdict.severity ≤ children.verdict.severity := by
      rw [h.children_eq children hc]
      exact Verdict.severity_le_worst (List.mem_map_of_mem hmem)
    exact Nat.le_trans hlist (h.severity_part_le (children_mem_partVerdicts hc))

/-- Every part of a result that passed has passed. -/
theorem partVerdict_pass (h : r.Consistent) (hr : r.verdict = .pass) {v : Verdict}
    (hv : v ∈ r.partVerdicts) : v = .pass :=
  Verdict.eq_pass_of_severity_le (h.severity_part_le hv) hr

/-- All children of a result that passed have passed. -/
theorem childResult_pass (h : r.Consistent) (hr : r.verdict = .pass) {child : ElementResult}
    (hmem : child ∈ r.childResults) : child.verdict = .pass :=
  Verdict.eq_pass_of_severity_le (h.severity_child_le hmem) hr

/-- All attributes of a result that passed have passed. -/
theorem attributeResult_pass (h : r.Consistent) (hr : r.verdict = .pass) {a : AttributeResult}
    (hmem : a ∈ r.attributeResults) : a.verdict = .pass :=
  Verdict.eq_pass_of_severity_le (h.severity_attribute_le hmem) hr

end Consistent

/-- Nothing in a tree of consistent results did not pass if its root has passed. -/
theorem pass_of_mem_nodes {r : ElementResult} {depth : Nat}
    (h : ∀ n ∈ r.nodes depth, n.2.Consistent) (hr : r.verdict = .pass) :
    ∀ n ∈ r.nodes depth, n.2.verdict = .pass := by
  induction r using tree_induction generalizing depth with
  | step r ih =>
    intro n hn
    rw [nodes_eq, List.mem_cons, List.mem_flatMap] at hn
    rcases hn with rfl | ⟨child, hchild, hbelow⟩
    · exact hr
    · have hroot := h _ (root_mem_nodes depth r)
      have hconsistent := fun m hm => h m (nodes_subset_of_child hchild depth hm)
      exact ih child hchild hconsistent (hroot.childResult_pass hr hchild) n hbelow

end ElementResult

/-! ## The results of checks -/

/-- A text with something in front of it is not empty. -/
theorem append_ne_empty {s : String} (h : s ≠ "") (t : String) : s ++ t ≠ "" := by
  rw [Ne, String.append_eq_empty_iff]
  exact fun hboth => h hboth.1

/-- Texts that do not start with the same characters are different. -/
theorem ne_of_take_ne {s t : String} (n : Nat) (h : s.toList.take n ≠ t.toList.take n) : s ≠ t := by
  rintro rfl
  exact h rfl

/-- Every fault of a selector is told in words. -/
theorem Fault.message_ne_empty (fault : Fault) : fault.message ≠ "" := by
  cases fault with
  | malformed name reason =>
    exact append_ne_empty (append_ne_empty (append_ne_empty (by decide) _) _) _
  | unbound nsPrefix name =>
    exact append_ne_empty (append_ne_empty (append_ne_empty (append_ne_empty (by decide) _) _) _) _

/-- A message goes with a verdict: there is one exactly if the verdict is not `pass`, and it is
not empty. -/
structure Explains (message : Option String) (verdict : Verdict) : Prop where
  isSome_iff : message.isSome = true ↔ verdict ≠ .pass
  ne_empty : ∀ text, message = some text → text ≠ ""

/-- A verdict other than `pass` is explained by some words. -/
theorem Explains.exists_text {message : Option String} {verdict : Verdict}
    (h : Explains message verdict) (hv : verdict ≠ .pass) :
    ∃ text, message = some text ∧ text ≠ "" := by
  obtain ⟨text, htext⟩ := Option.isSome_iff_exists.mp (h.isSome_iff.mpr hv)
  exact ⟨text, htext, h.ne_empty text htext⟩

/-- Nothing has to be said of what passed. -/
theorem explains_pass : Explains none .pass where
  isSome_iff := by simp
  ne_empty text h := by cases h

/-- Any words explain a verdict other than `pass`. -/
theorem explains_some {text : String} {verdict : Verdict} (hv : verdict ≠ .pass)
    (htext : text ≠ "") : Explains (some text) verdict where
  isSome_iff := by simp [hv]
  ne_empty other h := by
    cases h
    exact htext

/-- An attribute that did not pass says why. -/
theorem explains_judgeAttribute (found : Selection) (spec : AttributeSpec) :
    Explains (judgeAttribute found spec).2.1 (judgeAttribute found spec).1 := by
  unfold judgeAttribute
  split
  · exact explains_some (by simp)
      (append_ne_empty (append_ne_empty (append_ne_empty (by decide) _) _) _)
  · split
    · exact explains_pass
    · exact explains_some (by simp)
        (append_ne_empty (append_ne_empty (append_ne_empty (append_ne_empty (by decide) _) _) _) _)

/-- A result without parts is consistent if it comes with a message. -/
theorem consistent_bare (id name : String) {verdict : Verdict} {message : String}
    (h : message ≠ "") : (ElementResult.bare id name verdict message).Consistent where
  verdict_eq hne := absurd rfl hne
  explained _ _ := ⟨message, rfl, h⟩
  attributes_eq a ha := by cases ha
  attribute_explained a ha := by cases ha
  children_eq c hc := by cases hc

/-- A result that is summed up has the worst verdict of its parts. -/
theorem verdict_summedUp_eq (id name : String) (value : Option ValueResult)
    (attributes : Option AttributesResult) (children : Option (ChildrenResult ElementResult)) :
    (summedUp id name value attributes children).verdict =
      .worst (summedUp id name value attributes children).partVerdicts := rfl

/-- The result that is summed up from the parts that were checked is consistent. -/
theorem consistent_summedUp (found : Selection) (spec : ElementSpec) :
    (summedUp spec.id spec.name
      (spec.value.map fun expected => (checkValue found expected).result)
      (spec.attributes.map fun specs => (checkAttributes found specs).result)
      (spec.children.map (childrenResult found))).Consistent where
  verdict_eq _ := verdict_summedUp_eq ..
  explained hparts hpass := by
    rw [verdict_summedUp_eq, hparts] at hpass
    exact absurd Verdict.worst_nil hpass
  attributes_eq a ha := by
    obtain ⟨specs, _, rfl⟩ := Option.map_eq_some_iff.mp ha
    rw [result_checkAttributes]
  attribute_explained a ha := by
    cases hspecs : spec.attributes with
    | none =>
      rw [hspecs] at ha
      cases ha
    | some specs =>
      have hmem : a ∈ (checkAttributes found specs).result.each := by
        rw [hspecs] at ha
        exact ha
      rw [result_checkAttributes] at hmem
      obtain ⟨s, _, rfl⟩ := List.mem_map.mp hmem
      exact (explains_judgeAttribute found s).exists_text
  children_eq c hc := by
    obtain ⟨specs, _, rfl⟩ := Option.map_eq_some_iff.mp hc
    rfl

/-- A property of results holds of all nodes that a check leaves if it holds of every element that
is blocked, of every one that is missing, and of every one that is summed up from its parts. -/
theorem forall_nodes_checkElement {P : ElementResult → Prop}
    (blocked : ∀ (context : Selection) (spec : ElementSpec) (fault : Fault),
      selectNamed context spec.name = .error fault →
        P (.bare spec.id spec.name .block fault.message))
    (missing : ∀ spec : ElementSpec, P (.bare spec.id spec.name .fail missingElement))
    (summed : ∀ (found : Selection) (spec : ElementSpec),
      P (summedUp spec.id spec.name
        (spec.value.map fun expected => (checkValue found expected).result)
        (spec.attributes.map fun specs => (checkAttributes found specs).result)
        (spec.children.map (childrenResult found))))
    (context : Selection) (spec : ElementSpec) (depth : Nat) :
    ∀ n ∈ (checkElement context spec).result.nodes depth, P n.2 := by
  induction spec using ElementSpec.tree_induction generalizing context depth with
  | step spec ih =>
    intro n hn
    -- A node is the root or a node of a child; children there are only where the element was found.
    rw [ElementResult.nodes_eq, List.mem_cons, List.mem_flatMap] at hn
    cases hselect : selectNamed context spec.name with
    | error fault =>
      rw [result_checkElement_of_error hselect] at hn
      rcases hn with rfl | ⟨child, hchild, _⟩
      · exact blocked context spec fault hselect
      · cases hchild
    | ok found =>
      cases hempty : found.isEmpty with
      | true =>
        rw [result_checkElement_of_missing hselect hempty] at hn
        rcases hn with rfl | ⟨child, hchild, _⟩
        · exact missing spec
        · cases hchild
      | false =>
        rw [result_checkElement_of_found hselect hempty] at hn
        rcases hn with rfl | ⟨child, hchild, hbelow⟩
        · exact summed found spec
        · cases hspecs : spec.children with
          | none =>
            rw [hspecs] at hchild
            cases hchild
          | some specs =>
            have hmem : child ∈ specs.map fun s => (checkElement found s).result := by
              rw [hspecs] at hchild
              exact hchild
            obtain ⟨s, hs, rfl⟩ := List.mem_map.mp hmem
            exact ih specs hspecs s hs found (depth + 1) n hbelow

/-- All nodes of the result of a check are consistent. -/
theorem consistent_checkElement (context : Selection) (spec : ElementSpec) (depth : Nat) :
    ∀ n ∈ (checkElement context spec).result.nodes depth, n.2.Consistent :=
  forall_nodes_checkElement (fun _ _ fault _ => consistent_bare _ _ fault.message_ne_empty)
    (fun _ => consistent_bare _ _ (by decide)) consistent_summedUp context spec depth

end FeedAudit

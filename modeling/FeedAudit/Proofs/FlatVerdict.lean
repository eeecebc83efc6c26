import FeedAudit.Proofs.Narration
import FeedAudit.Proofs.Resolution

/-!
# The flat verdict on an element

`checkElement` sums up verdicts level by level: an element by its parts, its children by their own
results. Here the same verdict is described without any result in between. An expectation is
*reached* (`Reached`) if it is the root, or a child of a reached expectation that was resolved to at
least one element; at each of them the document may differ from what is expected (`Differs`), or a
fault may keep a check from being made (`Faulted`).

Main statement: `verdict_checkElement`. The verdict is `fail` exactly when the document differs at
some reached expectation, and otherwise `block` exactly when there is a fault at one of them.
-/

namespace FeedAudit

open Narrated

/-! ## Summing up differences and faults -/

/-- A verdict sums up whether there is a difference and whether there is a fault; a difference
prevails. -/
structure Verdict.SumsUp (v : Verdict) (differs faulted : Prop) : Prop where
  fail_iff : v = .fail ↔ differs
  pass_iff : v = .pass ↔ ¬differs ∧ ¬faulted

namespace Verdict.SumsUp

variable {v w : Verdict} {differs differs' faulted faulted' : Prop}

/-- What a verdict sums up may be said in other words. -/
theorem congr (h : v.SumsUp differs faulted) (hd : differs ↔ differs') (hf : faulted ↔ faulted') :
    v.SumsUp differs' faulted' := by
  rw [← hd, ← hf]
  exact h

/-- A verdict blocks exactly if nothing differs and something could not be looked up. -/
theorem block_iff (h : v.SumsUp differs faulted) : v = .block ↔ ¬differs ∧ faulted := by
  have hfail := h.fail_iff
  have hpass := h.pass_iff
  cases v with
  | pass =>
    have hnone := hpass.mp rfl
    constructor
    · intro hblock
      cases hblock
    · intro hboth
      exact absurd hboth.2 hnone.2
  | block =>
    have hd : ¬differs := fun hd => by cases hfail.mpr hd
    have hf : faulted := by
      by_contra hf
      cases hpass.mpr ⟨hd, hf⟩
    exact ⟨fun _ => ⟨hd, hf⟩, fun _ => rfl⟩
  | fail =>
    constructor
    · intro hblock
      cases hblock
    · intro hboth
      exact absurd (hfail.mp rfl) hboth.1

/-- The more severe of two verdicts sums up what both of them do. -/
theorem worse (h : v.SumsUp differs faulted) (h' : w.SumsUp differs' faulted') :
    (Verdict.worse v w).SumsUp (differs ∨ differs') (faulted ∨ faulted') := by
  have hpass : Verdict.worse v w = .pass ↔ v = .pass ∧ w = .pass := by
    cases v <;> cases w <;> decide
  have hfail : Verdict.worse v w = .fail ↔ v = .fail ∨ w = .fail := by
    cases v <;> cases w <;> decide
  constructor
  · rw [hfail, h.fail_iff, h'.fail_iff]
  · rw [hpass, h.pass_iff, h'.pass_iff]
    tauto

/-- The most severe verdict of a list sums up what all of them do. -/
theorem worst_map {α : Type} {f : α → Verdict} {differs faulted : α → Prop} {xs : List α}
    (h : ∀ x ∈ xs, (f x).SumsUp (differs x) (faulted x)) :
    (worst (xs.map f)).SumsUp (∃ x ∈ xs, differs x) (∃ x ∈ xs, faulted x) := by
  induction xs with
  | nil => constructor <;> simp
  | cons x rest ih =>
    have hrest := ih fun y hy => h y (List.mem_cons_of_mem _ hy)
    have hboth := (h x List.mem_cons_self).worse hrest
    rw [List.map_cons, worst_cons]
    exact hboth.congr (by simp) (by simp)

/-- A verdict sums up itself. -/
theorem self (v : Verdict) : v.SumsUp (v = .fail) (v = .block) := by
  cases v <;> constructor <;> simp

/-- The verdict is found by asking first for differences and then for faults. -/
theorem eq_ite [Decidable differs] [Decidable faulted] (h : v.SumsUp differs faulted) :
    v = if differs then .fail else if faulted then .block else .pass := by
  split_ifs with hdiffers hfaulted
  · exact h.fail_iff.mpr hdiffers
  · exact h.block_iff.mpr ⟨hdiffers, hfaulted⟩
  · exact h.pass_iff.mpr ⟨hdiffers, hfaulted⟩

end Verdict.SumsUp

/-- The worst verdict of two lists is the worse of the worst verdicts of each. -/
theorem Verdict.worst_append (vs ws : List Verdict) :
    worst (vs ++ ws) = worse (worst vs) (worst ws) := by
  have hassoc (a b c : Verdict) : worse a (worse b c) = worse (worse a b) c := by
    cases a <;> cases b <;> cases c <;> rfl
  induction vs with
  | nil => simp
  | cons v rest ih => rw [List.cons_append, worst_cons, worst_cons, ih, hassoc]

/-! ## Patterns -/

/-- The values that a pattern accepts. -/
def Pattern.Accepts : Pattern → String → Prop
  | .wildcard, actual => actual ≠ ""
  | .enumeration _ members, actual => actual ∈ members
  | .literal value, actual => actual = value

/-- A pattern finds nothing wrong with exactly the texts that it accepts. -/
theorem Pattern.mismatch?_eq_none_iff (p : Pattern) (actual : String) :
    p.mismatch? actual = none ↔ p.Accepts actual := by
  cases p <;> simp [mismatch?, Accepts]

/-! ## Attributes -/

/-- The name of an expected attribute is well-formed and bound at an element, but the value there,
empty when the attribute is absent, is not accepted. -/
def AttributeSpec.DiffersAt (spec : AttributeSpec) (p : Place) : Prop :=
  ∃ s, Selector.parse spec.name = .ok s ∧ s.BoundAt p ∧
    ¬spec.expected.Accepts ((p.attribute? ⟨s.meaning p, s.localName⟩).getD "")

/-- The name of an expected attribute is malformed, or its prefix is not bound at an element. -/
def AttributeSpec.FaultedAt (spec : AttributeSpec) (p : Place) : Prop :=
  (∃ fault, Selector.parse spec.name = .error fault) ∨
    ∃ s, Selector.parse spec.name = .ok s ∧ ¬s.BoundAt p

/-- The verdict on an attribute sums up whether it differs and whether it cannot be looked up. -/
theorem sumsUp_judgeAttribute {found : Selection} {first : Place} {others : List Place}
    (hfound : found.places = first :: others) (spec : AttributeSpec) :
    (judgeAttribute found spec).1.SumsUp (spec.DiffersAt first) (spec.FaultedAt first) := by
  unfold judgeAttribute attributeValue Selector.read AttributeSpec.DiffersAt
    AttributeSpec.FaultedAt
  cases Selector.parse spec.name with
  | error fault => constructor <;> simp [Except.mapError]
  | ok s =>
    simp only [Except.mapError, Selection.attribute?, hfound]
    by_cases hbound : s.BoundAt first
    · rw [Selector.spaceAt_of_boundAt hbound]
      have haccepts := spec.expected.mismatch?_eq_none_iff
        ((first.attribute? ⟨s.meaning first, s.localName⟩).getD "")
      cases hm : spec.expected.mismatch?
          ((first.attribute? ⟨s.meaning first, s.localName⟩).getD "") with
      | none =>
        have hyes := haccepts.mp hm
        constructor <;> simp [Except.map, hm, hbound, hyes]
      | some mismatch =>
        have hno : ¬spec.expected.Accepts
            ((first.attribute? ⟨s.meaning first, s.localName⟩).getD "") := by
          rw [← haccepts, hm]
          simp
        constructor <;> simp [Except.map, hm, hbound, hno]
    · obtain ⟨fault, hfault⟩ := Selector.spaceAt_of_not_boundAt hbound
      rw [hfault]
      constructor <;> simp [Except.map, hbound]

/-! ## Reached expectations -/

/-- `Reached context spec c s` says that checking `spec` below `context` comes to the expectation
`s`, which is looked up below `c`: `s` is the root, or its parent was reached and resolved to at
least one element, and these elements are `c`. -/
inductive Reached (context : Selection) (spec : ElementSpec) : Selection → ElementSpec → Prop
  | root : Reached context spec context spec
  | child {c found : Selection} {parent s : ElementSpec} {specs : List ElementSpec}
      (parentReached : Reached context spec c parent) (resolved : Resolves c parent.name found)
      (some_found : found.places ≠ []) (children : parent.children = some specs)
      (mem : s ∈ specs) : Reached context spec found s

/-- The document differs from an expectation: there is no such element, or the text of the elements
is not accepted, or an attribute of the first of them differs. -/
def Differs (c : Selection) (s : ElementSpec) : Prop :=
  ∃ found, Resolves c s.name found ∧
    (found.places = [] ∨
      ∃ first others, found.places = first :: others ∧
        ((∃ expected, s.value = some expected ∧ ¬expected.Accepts found.text) ∨
          ∃ specs, s.attributes = some specs ∧ ∃ a ∈ specs, a.DiffersAt first))

/-- A check of an expectation cannot be made: its name cannot be looked up, or that of one of its
attributes cannot at the first element. -/
def Faulted (c : Selection) (s : ElementSpec) : Prop :=
  Unresolvable c s.name ∨
    ∃ found first others, Resolves c s.name found ∧ found.places = first :: others ∧
      ∃ specs, s.attributes = some specs ∧ ∃ a ∈ specs, a.FaultedAt first

/-- What is reached from a child of an expectation is reached from the expectation, if its name
resolves to something. -/
theorem Reached.of_child {context found c : Selection} {spec child s : ElementSpec}
    {specs : List ElementSpec} (resolved : Resolves context spec.name found)
    (some_found : found.places ≠ []) (children : spec.children = some specs)
    (mem : child ∈ specs) (h : Reached found child c s) : Reached context spec c s := by
  induction h with
  | root => exact .child .root resolved some_found children mem
  | child _ resolved' some_found' children' mem' ih =>
    exact .child ih resolved' some_found' children' mem'

/-- What is reached is the root or is reached from one of its children. -/
theorem exists_reached_iff {context : Selection} {spec : ElementSpec}
    {P : Selection → ElementSpec → Prop} :
    (∃ c s, Reached context spec c s ∧ P c s) ↔
      P context spec ∨
        ∃ found, Resolves context spec.name found ∧ found.places ≠ [] ∧
          ∃ specs, spec.children = some specs ∧
            ∃ child ∈ specs, ∃ c s, Reached found child c s ∧ P c s := by
  constructor
  · rintro ⟨c, s, hreached, hP⟩
    induction hreached generalizing P with
    | root => exact .inl hP
    | @child c found parent s specs _ resolved some_found children mem ih =>
      -- The step below `parent` is made part of the property that `parent` has to have.
      have hparent := ih (P := fun c parent => ∃ found specs s, Resolves c parent.name found ∧
        found.places ≠ [] ∧ parent.children = some specs ∧ s ∈ specs ∧ P found s)
        ⟨found, specs, s, resolved, some_found, children, mem, hP⟩
      rcases hparent with ⟨found, specs, s, h, hne, hs, hmem, hP⟩ |
        ⟨found, h, hne, specs, hs, child, hmem, c, parent, hr, found', specs', s, h', hne', hs',
          hmem', hP⟩
      · exact .inr ⟨found, h, hne, specs, hs, s, hmem, found, s, .root, hP⟩
      · exact .inr ⟨found, h, hne, specs, hs, child, hmem, found', s,
          .child hr h' hne' hs' hmem', hP⟩
  · rintro (hP | ⟨found, h, hne, specs, hs, child, hmem, c, s, hr, hP⟩)
    · exact ⟨context, spec, .root, hP⟩
    · exact ⟨c, s, .of_child h hne hs hmem hr, hP⟩

/-! ## The parts of an element -/

/-- The verdict on a text sums up whether the text is accepted; there is nothing to be looked up. -/
theorem sumsUp_checkValue (found : Selection) (expected : Pattern) :
    (checkValue found expected).result.verdict.SumsUp (¬expected.Accepts found.text) False := by
  have haccepts := expected.mismatch?_eq_none_iff found.text
  rw [result_checkValue]
  cases hm : expected.mismatch? found.text with
  | none => constructor <;> simp [haccepts.mp hm]
  | some mismatch =>
    have hno : ¬expected.Accepts found.text := by
      rw [← haccepts, hm]
      simp
    constructor <;> simp [hno]

/-- The verdict on attributes sums up which of them differ and which cannot be looked up. -/
theorem sumsUp_checkAttributes {found : Selection} {first : Place} {others : List Place}
    (hfound : found.places = first :: others) (specs : List AttributeSpec) :
    (checkAttributes found specs).result.verdict.SumsUp
      (∃ a ∈ specs, a.DiffersAt first) (∃ a ∈ specs, a.FaultedAt first) := by
  rw [result_checkAttributes]
  dsimp only
  rw [List.map_map]
  exact Verdict.SumsUp.worst_map fun a _ => sumsUp_judgeAttribute hfound a

/-- The verdict on an element that was found is the worst of those on its text, its attributes and
its children. -/
theorem verdict_summedUp (id name : String) (value : Option ValueResult)
    (attributes : Option AttributesResult) (children : Option (ChildrenResult ElementResult)) :
    (summedUp id name value attributes children).verdict =
      .worse (.worse (.worst (value.toList.map (·.verdict)))
        (.worst (attributes.toList.map (·.verdict))))
        (.worst (children.toList.map (·.verdict))) := by
  simp only [summedUp, ElementResult.partVerdicts, ← Option.toList_map]
  rw [Verdict.worst_append, Verdict.worst_append]

/-- The verdict on children sums up what the verdict on each sums up. -/
theorem sumsUp_childrenResult {found : Selection} {specs : List ElementSpec}
    {differs faulted : ElementSpec → Prop}
    (h : ∀ child ∈ specs,
      (checkElement found child).result.verdict.SumsUp (differs child) (faulted child)) :
    (childrenResult found specs).verdict.SumsUp
      (∃ child ∈ specs, differs child) (∃ child ∈ specs, faulted child) := by
  rw [childrenResult, List.map_map]
  exact Verdict.SumsUp.worst_map h

/-- Below an element that was resolved, what is reached is the element or is reached from one of
its children, which are looked up below what was found. -/
theorem exists_reached_iff_of_resolves {context found : Selection} {spec : ElementSpec}
    {P : Selection → ElementSpec → Prop} (h : Resolves context spec.name found)
    (hne : found.places ≠ []) :
    (∃ c s, Reached context spec c s ∧ P c s) ↔
      P context spec ∨ ∃ specs ∈ spec.children.toList, ∃ child ∈ specs,
        ∃ c s, Reached found child c s ∧ P c s := by
  rw [exists_reached_iff]
  simp only [Option.mem_toList]
  constructor
  · rintro (hP | ⟨found', h', _, hchildren⟩)
    · exact .inl hP
    · obtain rfl := h.unique h'
      exact .inr hchildren
  · rintro (hP | hchildren)
    · exact .inl hP
    · exact .inr ⟨found, h, hne, hchildren⟩

/-- Where nothing is resolved to an element, only the root is reached. -/
theorem exists_reached_iff_of_missing {context : Selection} {spec : ElementSpec}
    {P : Selection → ElementSpec → Prop}
    (h : ∀ found, Resolves context spec.name found → found.places = []) :
    (∃ c s, Reached context spec c s ∧ P c s) ↔ P context spec := by
  rw [exists_reached_iff]
  constructor
  · rintro (hP | ⟨found, hfound, hne, _⟩)
    · exact hP
    · exact absurd (h found hfound) hne
  · exact .inl

/-- An element that was found differs exactly in its text or in one of its attributes. -/
theorem differs_iff_of_resolves {context found : Selection} {spec : ElementSpec} {first : Place}
    {others : List Place} (h : Resolves context spec.name found)
    (hfound : found.places = first :: others) :
    Differs context spec ↔
      (∃ expected ∈ spec.value.toList, ¬expected.Accepts found.text) ∨
        ∃ specs ∈ spec.attributes.toList, ∃ a ∈ specs, a.DiffersAt first := by
  simp only [Option.mem_toList]
  constructor
  · rintro ⟨found', h', hempty | ⟨first', others', hfound', hparts⟩⟩
    · obtain rfl := h.unique h'
      cases hfound.symm.trans hempty
    · obtain rfl := h.unique h'
      obtain rfl := (List.cons.inj (hfound.symm.trans hfound')).1
      exact hparts
  · intro hparts
    exact ⟨found, h, .inr ⟨first, others, hfound, hparts⟩⟩

/-- An element that was found has no other faults than those of its attributes. -/
theorem faulted_iff_of_resolves {context found : Selection} {spec : ElementSpec} {first : Place}
    {others : List Place} (h : Resolves context spec.name found)
    (hfound : found.places = first :: others) :
    Faulted context spec ↔
      ∃ specs ∈ spec.attributes.toList, ∃ a ∈ specs, a.FaultedAt first := by
  simp only [Option.mem_toList]
  constructor
  · rintro (hunresolvable | ⟨found', first', others', h', hfound', hparts⟩)
    · exact absurd hunresolvable h.not_unresolvable
    · obtain rfl := h.unique h'
      obtain rfl := (List.cons.inj (hfound.symm.trans hfound')).1
      exact hparts
  · intro hparts
    exact .inr ⟨found, first, others, h, hfound, hparts⟩

/-! ## The verdict on an element -/

/-- The verdict on an element sums up what differs and what is faulted anywhere below it, wherever
it is reached. -/
theorem sumsUp_checkElement (context : Selection) (spec : ElementSpec) :
    (checkElement context spec).result.verdict.SumsUp
      (∃ c s, Reached context spec c s ∧ Differs c s)
      (∃ c s, Reached context spec c s ∧ Faulted c s) := by
  -- Children are looked up below what was found, so the induction is for all contexts.
  induction spec using ElementSpec.tree_induction generalizing context with
  | step spec ih =>
    cases hselect : selectNamed context spec.name with
    | error fault =>
      have hnot := selectNamed_eq_error_iff.mp ⟨fault, hselect⟩
      have hnone : ∀ found, ¬Resolves context spec.name found :=
        fun found h => h.not_unresolvable hnot
      have hdiffers : ¬Differs context spec := fun ⟨found, h, _⟩ => hnone found h
      have hfaulted : Faulted context spec := .inl hnot
      rw [result_checkElement_of_error hselect,
        exists_reached_iff_of_missing fun found h => absurd h (hnone found),
        exists_reached_iff_of_missing fun found h => absurd h (hnone found)]
      constructor <;> simp [ElementResult.bare, hdiffers, hfaulted]
    | ok found =>
      have hresolves := selectNamed_eq_ok_iff.mp hselect
      cases hplaces : found.places with
      | nil =>
        have hempty : found.isEmpty = true := by simp [Selection.isEmpty, hplaces]
        have hmissing : ∀ found', Resolves context spec.name found' → found'.places = [] :=
          fun found' h => by rw [← hresolves.unique h, hplaces]
        have hdiffers : Differs context spec := ⟨found, hresolves, .inl hplaces⟩
        rw [result_checkElement_of_missing hselect hempty,
          exists_reached_iff_of_missing hmissing, exists_reached_iff_of_missing hmissing]
        constructor <;> simp [ElementResult.bare, hdiffers]
      | cons first others =>
        have hfound : found.isEmpty = false := by simp [Selection.isEmpty, hplaces]
        have hne : found.places ≠ [] := by simp [hplaces]
        rw [result_checkElement_of_found hselect hfound, verdict_summedUp,
          exists_reached_iff_of_resolves hresolves hne,
          exists_reached_iff_of_resolves hresolves hne,
          differs_iff_of_resolves hresolves hplaces, faulted_iff_of_resolves hresolves hplaces,
          Option.toList_map, Option.toList_map, Option.toList_map, List.map_map, List.map_map,
          List.map_map]
        have hvalue := Verdict.SumsUp.worst_map fun expected (_ : expected ∈ spec.value.toList) =>
          sumsUp_checkValue found expected
        have hattributes := Verdict.SumsUp.worst_map
          fun specs (_ : specs ∈ spec.attributes.toList) => sumsUp_checkAttributes hplaces specs
        have hchildren := Verdict.SumsUp.worst_map
          fun specs (hspecs : specs ∈ spec.children.toList) =>
            sumsUp_childrenResult fun child hchild => ih specs
              (Option.mem_toList.mp hspecs) child hchild found
        exact ((hvalue.worse hattributes).worse hchildren).congr Iff.rfl (by simp)

/-- The verdict on an element is `fail` exactly when the document differs from some reached
expectation, `block` exactly when it differs from none and a fault occurs at one of them, and `pass`
otherwise. -/
theorem verdict_checkElement (context : Selection) (spec : ElementSpec) (log : RunLog) :
    let verdict := ((checkElement context spec).run log).1.verdict
    (verdict = .fail ↔ ∃ c s, Reached context spec c s ∧ Differs c s) ∧
      (verdict = .block ↔
        (¬∃ c s, Reached context spec c s ∧ Differs c s) ∧
          ∃ c s, Reached context spec c s ∧ Faulted c s) ∧
      (verdict = .pass ↔
        (¬∃ c s, Reached context spec c s ∧ Differs c s) ∧
          ¬∃ c s, Reached context spec c s ∧ Faulted c s) := by
  have h := sumsUp_checkElement context spec
  rw [(steady_checkElement context spec).fst_run]
  exact ⟨h.fail_iff, h.block_iff, h.pass_iff⟩

end FeedAudit

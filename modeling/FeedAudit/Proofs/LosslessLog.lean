import FeedAudit.Proofs.Consistency

/-!
# The log loses nothing

The log of a check is a list of texts that come from the expectation and from the document, with no
marks that could not stand in a document as well. It can be read back all the same. As the
expectation is known, every line is known up to what the document puts into it, and that stands
between texts which are the same in both logs; where a log may go on in several ways, the next line
tells which of them it is.

`Narrated.ToldApart x y` says this of two computations: whatever is told behind them, the same
lines come from the same results only, and neither of them tells more than the other. It passes
from the parts of a check to the check. Main statement: `log_checkElements_lossless`.
-/

namespace FeedAudit

namespace Narrated

variable {α β : Type}

/-- Whatever lines follow, `x` and `y` tell the same only if they return the same, and then neither
of them has told more than the other. -/
structure ToldApart (x y : Narrated α) : Prop where
  steady_left : Steady x
  steady_right : Steady y
  cancel : ∀ rest rest', x.told ++ rest = y.told ++ rest' → x.result = y.result ∧ rest = rest'

namespace ToldApart

variable {x y : Narrated α}

/-- A steady computation is told apart from itself: the lines behind its own are told alone. -/
theorem refl (h : Steady x) : ToldApart x x where
  steady_left := h
  steady_right := h
  cancel _ _ hlines := ⟨rfl, List.append_cancel_left hlines⟩

/-- It does not matter which of two computations is told apart from the other. -/
theorem symm (h : ToldApart x y) : ToldApart y x where
  steady_left := h.steady_right
  steady_right := h.steady_left
  cancel rest rest' hlines := by
    obtain ⟨hresult, hrest⟩ := h.cancel rest' rest hlines.symm
    exact ⟨hresult.symm, hrest.symm⟩

/-- The lines of the first parts are told apart before those of the second parts. -/
theorem bind {f g : α → Narrated β} (h : ToldApart x y) (hfg : ∀ a, ToldApart (f a) (g a)) :
    ToldApart (x >>= f) (y >>= g) where
  steady_left := h.steady_left.bind fun a => (hfg a).steady_left
  steady_right := h.steady_right.bind fun a => (hfg a).steady_right
  cancel rest rest' hlines := by
    have hf := fun a => (hfg a).steady_left
    have hg := fun a => (hfg a).steady_right
    rw [h.steady_left.told_bind hf, h.steady_right.told_bind hg, List.append_assoc,
      List.append_assoc] at hlines
    obtain ⟨hresult, hbehind⟩ := h.cancel _ _ hlines
    rw [h.steady_left.result_bind hf, h.steady_right.result_bind hg, ← hresult]
    rw [← hresult] at hbehind
    exact (hfg x.result).cancel rest rest' hbehind

/-- What is returned may be computed further. -/
theorem bind_pure (h : ToldApart x y) (f : α → β) :
    ToldApart (x >>= fun a => pure (f a)) (y >>= fun a => pure (f a)) :=
  h.bind fun a => refl (steady_pure (f a))

/-- Behind the same lines, two computations may go on in different ways if the next line tells
which of them it is. -/
theorem of_tells {a b : α} (head : List String) {lines lines' : List String}
    {line line' : String} (hx : Tells x a (head ++ line :: lines))
    (hy : Tells y b (head ++ line' :: lines'))
    (h : line = line' → ∀ rest rest', lines ++ rest = lines' ++ rest' → a = b ∧ rest = rest') :
    ToldApart x y where
  steady_left := hx.steady
  steady_right := hy.steady
  cancel rest rest' hlines := by
    rw [hx.told_eq, hy.told_eq, List.append_assoc, List.append_assoc] at hlines
    obtain ⟨hline, hbehind⟩ := List.cons.inj (List.append_cancel_left hlines)
    rw [hx.result_eq, hy.result_eq]
    exact h hline rest rest' hbehind

end ToldApart

end Narrated

open Narrated

/-- What stands between the same texts is the same. -/
theorem eq_of_between {before text text' between after : String}
    (h : before ++ text ++ between ++ after = before ++ text' ++ between ++ after) : text = text' :=
  (String.append_right_inj _).mp ((String.append_left_inj _).mp ((String.append_left_inj _).mp h))

/-! ## Values -/

/-- The text that is compared stands in the second line about it. -/
theorem told_checkValue (found : Selection) (expected : Pattern) :
    ∃ lines, (checkValue found expected).told =
      "" :: s!"Value validation, Actual value: {found.text}, Expected value: {expected.text}" ::
        lines := by
  simp only [checkValue]
  cases expected.mismatch? found.text with
  | none => exact ⟨_, rfl⟩
  | some mismatch => exact ⟨_, rfl⟩

/-- The lines on a text tell what it was and what came of it. -/
theorem toldApart_checkValue (found other : Selection) (expected : Pattern) :
    ToldApart (checkValue found expected) (checkValue other expected) where
  steady_left := steady_checkValue found expected
  steady_right := steady_checkValue other expected
  cancel rest rest' hlines := by
    have htext : found.text = other.text := by
      obtain ⟨lines, htold⟩ := told_checkValue found expected
      obtain ⟨lines', htold'⟩ := told_checkValue other expected
      rw [htold, htold'] at hlines
      exact eq_of_between (List.cons.inj (List.cons.inj hlines).2).1
    have hsame : checkValue found expected = checkValue other expected := by
      rw [checkValue, checkValue, htext]
    rw [hsame] at hlines ⊢
    exact ⟨rfl, List.append_cancel_left hlines⟩

/-! ## Attributes -/

/-- The line about a message, if there is one. -/
def messageLines (message : Option String) : List String :=
  message.toList.map fun text => s!"Test of attribute, Test message: {text}"

/-- An attribute is told in three lines behind a blank one, and one more if there is a message. -/
theorem told_checkAttribute (found : Selection) (spec : AttributeSpec) :
    (checkAttribute found spec).told =
      "" :: s!"Test of attribute, Attribute id: {spec.id}, Attribute name: {spec.name}" ::
        s!"Test of attribute, Actual result: {(judgeAttribute found spec).2.2}, Expected result: {
          spec.expected.text}" ::
        s!"Test of attribute, Test result: {(judgeAttribute found spec).1.word}" ::
        messageLines (judgeAttribute found spec).2.1 := by
  unfold checkAttribute
  generalize judgeAttribute found spec = judged
  obtain ⟨verdict, message, actual⟩ := judged
  cases message with
  | none => rfl
  | some text => rfl

/-- A line about a message tells which it is, and no line that there is none. -/
theorem messageLines_cancel {message message' : Option String} {rest rest' : List String}
    (hsome : message.isSome = message'.isSome)
    (h : messageLines message ++ rest = messageLines message' ++ rest') : message = message' := by
  cases message with
  | none =>
    cases message' with
    | none => rfl
    | some text' => cases hsome
  | some text =>
    cases message' with
    | none => cases hsome
    | some text' =>
      exact congrArg some ((String.append_right_inj _).mp (List.cons.inj h).1)

/-- The lines on an attribute tell what it was and what came of it. -/
theorem toldApart_checkAttribute (found other : Selection) (spec : AttributeSpec) :
    ToldApart (checkAttribute found spec) (checkAttribute other spec) where
  steady_left := steady_checkAttribute found spec
  steady_right := steady_checkAttribute other spec
  cancel rest rest' hlines := by
    have hjudged : judgeAttribute found spec = judgeAttribute other spec := by
      -- The verdict is told before the message and tells whether there is one.
      have hsome := (explains_judgeAttribute found spec).isSome_iff
      have hsome' := (explains_judgeAttribute other spec).isSome_iff
      rw [told_checkAttribute, told_checkAttribute] at hlines
      obtain ⟨hactualLine, hlines⟩ := List.cons.inj (List.cons.inj (List.cons.inj hlines).2).2
      obtain ⟨hverdictLine, hlines⟩ := List.cons.inj hlines
      have hactual := eq_of_between hactualLine
      have hverdict := Verdict.word_inj.mp ((String.append_right_inj _).mp hverdictLine)
      have hmessage := messageLines_cancel
        (Bool.eq_iff_iff.mpr (by rw [hsome, hsome', hverdict])) hlines
      exact Prod.ext hverdict (Prod.ext hmessage hactual)
    have hsame : checkAttribute found spec = checkAttribute other spec := by
      rw [checkAttribute, checkAttribute, hjudged]
    rw [hsame] at hlines ⊢
    exact ⟨rfl, List.append_cancel_left hlines⟩

/-- The lines on listed attributes tell what came of each. -/
theorem toldApart_checkAttributeList (found other : Selection) (specs : List AttributeSpec) :
    ToldApart (checkAttributeList found specs) (checkAttributeList other specs) := by
  induction specs with
  | nil => exact .refl (steady_pure _)
  | cons spec rest ih =>
    rw [checkAttributeList, checkAttributeList]
    exact (toldApart_checkAttribute found other spec).bind fun first => ih.bind_pure (first :: ·)

/-! ## The parts of an element -/

/-- The lines on a text that may not be checked tell what came of it. -/
theorem toldApart_checkOptionalValue (found other : Selection) (expected : Option Pattern) :
    ToldApart (checkOptionalValue found expected) (checkOptionalValue other expected) := by
  cases expected with
  | none => exact .refl (steady_pure _)
  | some expected => exact (toldApart_checkValue found other expected).bind_pure some

/-- The lines on attributes that may not be checked tell what came of them. -/
theorem toldApart_checkOptionalAttributes (found other : Selection)
    (specs : Option (List AttributeSpec)) :
    ToldApart (checkOptionalAttributes found specs) (checkOptionalAttributes other specs) := by
  cases specs with
  | none => exact .refl (steady_pure _)
  | some specs =>
    have hattributes : ToldApart (checkAttributes found specs) (checkAttributes other specs) :=
      (toldApart_checkAttributeList found other specs).bind_pure _
    exact hattributes.bind_pure some

/-- The lines on elements tell what came of each, if the lines on each do. -/
theorem toldApart_checkElements {context other : Selection} {specs : List ElementSpec}
    (h : ∀ spec ∈ specs, ToldApart (checkElement context spec) (checkElement other spec)) :
    ToldApart (checkElements context specs) (checkElements other specs) := by
  induction specs with
  | nil =>
    rw [checkElements, checkElements]
    exact .refl (steady_pure _)
  | cons spec rest ih =>
    have hrest := ih fun s hs => h s (List.mem_cons_of_mem _ hs)
    rw [checkElements, checkElements]
    exact (h spec List.mem_cons_self).bind fun first => hrest.bind_pure (first :: ·)

/-- The lines on children tell what came of each, if the lines on each do. -/
theorem toldApart_checkChildren {found other : Selection} {children : Option (List ElementSpec)}
    (h : ∀ specs, children = some specs → ∀ spec ∈ specs,
      ToldApart (checkElement found spec) (checkElement other spec)) :
    ToldApart (checkChildren found children) (checkChildren other children) := by
  cases children with
  | none =>
    rw [checkChildren, checkChildren]
    exact .refl (steady_pure _)
  | some specs =>
    rw [checkChildren, checkChildren]
    refine (ToldApart.refl steady_tellBlank).bind fun _ => ?_
    refine (ToldApart.refl (steady_tellRule '-')).bind fun _ => ?_
    refine (ToldApart.refl (steady_tell _)).bind fun _ => ?_
    refine (toldApart_checkElements (h specs rfl)).bind fun results => .refl ?_
    exact steady_tellBlank.bind fun _ => (steady_tell _).bind fun _ =>
      (steady_tellRule '-').bind fun _ => steady_pure _

/-! ## Elements -/

/-- An element that could not be looked up is not told like one that is missing. -/
theorem blocked_ne_missing (fault : Fault) :
    s!"Element blocked: {fault.message}" ≠ "Element not exist" :=
  ne_of_take_ne 9 (by simp [toString])

/-- An element that could not be looked up is not told like one that was found. -/
theorem blocked_ne_resolved (fault : Fault) (name : String) (found : Selection) :
    s!"Element blocked: {fault.message}" ≠
      s!"Selector '{name}' resolved to {found.size} node(s)" :=
  ne_of_take_ne 1 (by simp [toString])

/-- An element that is missing is not told like one that was found. -/
theorem missing_ne_resolved (name : String) (found : Selection) :
    "Element not exist" ≠ s!"Selector '{name}' resolved to {found.size} node(s)" :=
  ne_of_take_ne 1 (by simp [toString])

section Endings

variable {context other found found' : Selection} {spec : ElementSpec}

/-- The log of an element that is blocked tells by what. -/
theorem toldApart_of_error {fault : Fault} (h : selectNamed context spec.name = .error fault) :
    ToldApart (checkElement context spec) (checkElement other spec) := by
  let head := ["", elementLine spec]
  have hx := tells_checkElement_of_error h
  cases h' : selectNamed other spec.name with
  | error fault' =>
    have hy := tells_checkElement_of_error h'
    refine .of_tells head hx hy fun hline rest rest' hlines => ?_
    have hmessage : fault.message = fault'.message := (String.append_right_inj _).mp hline
    rw [hmessage]
    exact ⟨rfl, hlines⟩
  | ok found' =>
    cases hempty' : found'.isEmpty with
    | true =>
      have hy := tells_checkElement_of_missing h' hempty'
      exact .of_tells head hx hy fun hline => absurd hline (blocked_ne_missing fault)
    | false =>
      have hy := tells_checkElement_of_found h' hempty'
      exact .of_tells head hx hy fun hline =>
        absurd hline (blocked_ne_resolved fault spec.name found')

/-- The log of an element that is missing is not that of one that is there. -/
theorem toldApart_of_missing (h : selectNamed context spec.name = .ok found)
    (h' : selectNamed other spec.name = .ok found') (hempty : found.isEmpty = true) :
    ToldApart (checkElement context spec) (checkElement other spec) := by
  let head := ["", elementLine spec]
  have hx := tells_checkElement_of_missing h hempty
  cases hempty' : found'.isEmpty with
  | true =>
    have hy := tells_checkElement_of_missing h' hempty'
    exact .of_tells head hx hy fun _ rest rest' hlines => ⟨rfl, hlines⟩
  | false =>
    have hy := tells_checkElement_of_found h' hempty'
    exact .of_tells head hx hy fun hline =>
      absurd hline (missing_ne_resolved spec.name found')

/-- The logs of two elements that were found are told apart part by part. -/
theorem toldApart_of_found (h : selectNamed context spec.name = .ok found)
    (h' : selectNamed other spec.name = .ok found') (hfound : found.isEmpty = false)
    (hfound' : found'.isEmpty = false)
    (hchildren : ToldApart (checkChildren found spec.children)
      (checkChildren found' spec.children)) :
    ToldApart (checkElement context spec) (checkElement other spec) := by
  have hx := tells_checkElement_of_found h hfound
  have hy := tells_checkElement_of_found h' hfound'
  have hvalue := toldApart_checkOptionalValue found found' spec.value
  have hattributes := toldApart_checkOptionalAttributes found found' spec.attributes
  refine .of_tells ["", elementLine spec] hx hy fun _ rest rest' hlines => ?_
  simp only [List.append_assoc] at hlines
  obtain ⟨hvalue, hlines⟩ := hvalue.cancel _ _ hlines
  obtain ⟨hattributes, hlines⟩ := hattributes.cancel _ _ hlines
  obtain ⟨hchildren, hlines⟩ := hchildren.cancel _ _ hlines
  rw [hvalue, hattributes, hchildren]
  exact ⟨rfl, (List.cons.inj (List.cons.inj hlines).2).2⟩

end Endings

/-- The lines on an element tell its result, with the results of all that is checked below it. -/
theorem toldApart_checkElement (context other : Selection) (spec : ElementSpec) :
    ToldApart (checkElement context spec) (checkElement other spec) := by
  -- The children are looked up below what was found, which differs: the contexts have to vary.
  induction spec using ElementSpec.tree_induction generalizing context other with
  | step spec ih =>
    cases h : selectNamed context spec.name with
    | error fault => exact toldApart_of_error h
    | ok found =>
      cases h' : selectNamed other spec.name with
      | error fault' => exact (toldApart_of_error h').symm
      | ok found' =>
        cases hempty : found.isEmpty with
        | true => exact toldApart_of_missing h h' hempty
        | false =>
          cases hempty' : found'.isEmpty with
          | true => exact (toldApart_of_missing h' h hempty').symm
          | false =>
            refine toldApart_of_found h h' hempty hempty' (toldApart_checkChildren ?_)
            exact fun specs hspecs child hchild => ih specs hspecs child hchild found found'

/-- Two contexts in which the same elements are checked leave the same log only if all results are
the same, and the log of one of them is never the beginning of a longer log of the other. -/
theorem log_checkElements_lossless (specs : List ElementSpec) (context other : Selection) :
    let checked := (checkElements context specs).run .empty
    let checked' := (checkElements other specs).run .empty
    (checked.2.toList = checked'.2.toList → checked.1 = checked'.1) ∧
      ¬(checked.2.toList <+: checked'.2.toList ∧ checked.2.toList ≠ checked'.2.toList) := by
  intro checked checked'
  have h := toldApart_checkElements fun spec (_ : spec ∈ specs) =>
    toldApart_checkElement context other spec
  refine ⟨fun hlog => ?_, ?_⟩
  · exact (h.cancel [] [] (congrArg (· ++ []) hlog)).1
  · rintro ⟨⟨rest, hrest⟩, hne⟩
    have hnone : rest = [] := (h.cancel rest [] (by rw [List.append_nil]; exact hrest)).2
    rw [hnone, List.append_nil] at hrest
    exact hne hrest

end FeedAudit

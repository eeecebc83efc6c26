import FeedAudit.Check.Container
import FeedAudit.Proofs.Trees

/-!
# What checks return and what they tell

A check returns a result and tells about it in the log of its caller. `Narrated.Tells` says both at
once: whatever stands in the log already, the computation returns the same value and adds the same
lines behind what is there. `Narrated.result` and `Narrated.told` are the value and the lines, and
a computation is *steady* if it tells just these.

All checks are steady. Hence their results obey equations in which no log occurs, the last of them
`result_checkElement`, and arguments about results never have to run a narrated computation.
-/

namespace FeedAudit

/-! ## Logs with further lines -/

/-- A log with further lines behind those it has. -/
def RunLog.extend (log : RunLog) (lines : List String) : RunLog :=
  ⟨log.lines ++ lines.toArray⟩

/-- Lines are added behind the others. -/
@[simp] theorem RunLog.toList_extend (log : RunLog) (lines : List String) :
    (log.extend lines).toList = log.toList ++ lines := by
  simp [RunLog.extend, RunLog.toList]

/-- Adding no lines leaves a log as it is. -/
@[simp] theorem RunLog.extend_nil (log : RunLog) : log.extend [] = log := by
  simp [RunLog.extend]

/-- Lines added after others are all added at once. -/
theorem RunLog.extend_extend (log : RunLog) (first second : List String) :
    (log.extend first).extend second = log.extend (first ++ second) := by
  simp [RunLog.extend]

/-- One line is added as a list of one. -/
theorem RunLog.line_eq_extend (log : RunLog) (text : String) :
    log.line text = log.extend [text] := by
  simp [RunLog.line, RunLog.extend]

/-! ## Narrated computations -/

namespace Narrated

variable {α β : Type}

/-- From every log, `x` returns `a` and adds `lines`. -/
def Tells (x : Narrated α) (a : α) (lines : List String) : Prop :=
  ∀ log, x.run log = (a, log.extend lines)

/-- What a computation returns when nothing was told before. -/
def result (x : Narrated α) : α := (x.run .empty).1

/-- The lines that a computation tells when nothing was told before. -/
def told (x : Narrated α) : List String := (x.run .empty).2.toList

/-- A computation is steady if earlier lines of the log change neither its result nor the lines it
adds. -/
def Steady (x : Narrated α) : Prop := Tells x x.result x.told

variable {x : Narrated α} {a : α} {lines : List String}

/-- What a computation returns from every log is its result. -/
theorem Tells.result_eq (h : Tells x a lines) : x.result = a := by
  rw [result, h]

/-- The lines that a computation adds to every log are those it tells. -/
theorem Tells.told_eq (h : Tells x a lines) : x.told = lines := by
  rw [told, h]
  simp

/-- A steady computation tells its own lines and returns its own result. -/
theorem Steady.tells (h : Steady x) : Tells x x.result x.told := h

/-- A computation that tells the same from every log is steady. -/
theorem Tells.steady (h : Tells x a lines) : Steady x := by
  rw [Steady, h.result_eq, h.told_eq]
  exact h

/-- The result of a steady computation does not depend on the log it is run from. -/
theorem Steady.fst_run (h : Steady x) (log : RunLog) : (x.run log).1 = x.result := by
  rw [h log]

/-- A value that is returned at once tells nothing. -/
theorem tells_pure (a : α) : Tells (pure a) a [] := by
  intro log
  rw [RunLog.extend_nil]
  rfl

/-- Telling a line adds this line. -/
theorem tells_tell (text : String) : Tells (tell text) () [text] := by
  intro log
  rw [← RunLog.line_eq_extend]
  rfl

/-- Telling a blank line adds an empty one. -/
theorem tells_tellBlank : Tells tellBlank () [""] := tells_tell ""

/-- Telling a rule adds the line of its character. -/
theorem tells_tellRule (c : Char) : Tells (tellRule c) () [ruleLine c] := tells_tell (ruleLine c)

/-- One computation after the other adds its lines behind those of the first. -/
theorem Tells.bind {f : α → Narrated β} {b : β} {others : List String} (hx : Tells x a lines)
    (hf : Tells (f a) b others) : Tells (x >>= f) b (lines ++ others) := by
  intro log
  rw [StateT.run_bind, hx log, ← RunLog.extend_extend]
  exact hf (log.extend lines)

/-- A steady computation that goes on steadily is steady. -/
theorem Steady.bind {f : α → Narrated β} (hx : Steady x) (hf : ∀ a, Steady (f a)) :
    Steady (x >>= f) :=
  (Tells.bind hx (hf x.result)).steady

/-- What follows a steady computation is about its result. -/
theorem Steady.result_bind {f : α → Narrated β} (hx : Steady x) (hf : ∀ a, Steady (f a)) :
    (x >>= f).result = (f x.result).result :=
  (Tells.bind hx (hf x.result)).result_eq

/-- The lines of a steady computation stand before those of what follows it. -/
theorem Steady.told_bind {f : α → Narrated β} (hx : Steady x) (hf : ∀ a, Steady (f a)) :
    (x >>= f).told = x.told ++ (f x.result).told :=
  (Tells.bind hx (hf x.result)).told_eq

/-- Returning a value is steady. -/
theorem steady_pure (a : α) : Steady (pure a) := (tells_pure a).steady

/-- Telling a line is steady. -/
theorem steady_tell (text : String) : Steady (tell text) := (tells_tell text).steady

/-- Telling a blank line is steady. -/
theorem steady_tellBlank : Steady tellBlank := tells_tellBlank.steady

/-- Telling a rule is steady. -/
theorem steady_tellRule (c : Char) : Steady (tellRule c) := (tells_tellRule c).steady

end Narrated

open Narrated

/-! ## Values and attributes -/

/-- The check of a text does not look at the log. -/
theorem steady_checkValue (found : Selection) (expected : Pattern) :
    Steady (checkValue found expected) := by
  unfold checkValue
  refine steady_tellBlank.bind fun _ => (steady_tell _).bind fun _ => ?_
  split
  · exact (steady_tell _).bind fun _ => steady_pure _
  · exact (steady_tell _).bind fun _ => (steady_tell _).bind fun _ => steady_pure _

/-- A text passes if its pattern finds nothing wrong, and fails with what is wrong otherwise. -/
theorem result_checkValue (found : Selection) (expected : Pattern) :
    (checkValue found expected).result =
      match expected.mismatch? found.text with
      | none => ⟨.pass, none, expected.text, found.text⟩
      | some mismatch =>
        ⟨.fail, some s!"Element {mismatch.describe}!", expected.text, found.text⟩ := by
  simp only [checkValue]
  cases expected.mismatch? found.text with
  | none => rfl
  | some mismatch => rfl

/-- Telling a message, if there is one, is steady. -/
theorem steady_tellMessage (message : Option String) : Steady (tellMessage message) := by
  cases message with
  | none => exact steady_pure ()
  | some text => exact steady_tell _

/-- The check of an attribute does not look at the log. -/
theorem steady_checkAttribute (found : Selection) (spec : AttributeSpec) :
    Steady (checkAttribute found spec) :=
  steady_tellBlank.bind fun _ => (steady_tell _).bind fun _ => (steady_tell _).bind fun _ =>
    (steady_tell _).bind fun _ => (steady_tellMessage _).bind fun _ => steady_pure _

/-- The check of listed attributes does not look at the log. -/
theorem steady_checkAttributeList (found : Selection) (specs : List AttributeSpec) :
    Steady (checkAttributeList found specs) := by
  induction specs with
  | nil => exact steady_pure _
  | cons spec rest ih =>
    exact (steady_checkAttribute found spec).bind fun _ => ih.bind fun _ => steady_pure _

/-- Each of the listed attributes has the result of its own check. -/
theorem result_checkAttributeList (found : Selection) (specs : List AttributeSpec) :
    (checkAttributeList found specs).result =
      specs.map fun spec => (checkAttribute found spec).result := by
  induction specs with
  | nil => rfl
  | cons spec rest ih =>
    rw [checkAttributeList, (steady_checkAttribute found spec).result_bind,
      (steady_checkAttributeList found rest).result_bind, ih]
    · rfl
    · exact fun _ => steady_pure _
    · exact fun _ => (steady_checkAttributeList found rest).bind fun _ => steady_pure _

/-- The check of attributes does not look at the log. -/
theorem steady_checkAttributes (found : Selection) (specs : List AttributeSpec) :
    Steady (checkAttributes found specs) :=
  (steady_checkAttributeList found specs).bind fun _ => steady_pure _

/-- Attributes are summed up of the results of their own checks. -/
theorem result_checkAttributes (found : Selection) (specs : List AttributeSpec) :
    (checkAttributes found specs).result =
      let each := specs.map fun spec => (checkAttribute found spec).result
      ⟨.worst (each.map (·.verdict)), joinedMessage ", " (attributeMessages each), each⟩ := by
  rw [checkAttributes, (steady_checkAttributeList found specs).result_bind fun _ => steady_pure _,
    result_checkAttributeList]
  rfl

/-- The check of a text that may be absent does not look at the log. -/
theorem steady_checkOptionalValue (found : Selection) (expected : Option Pattern) :
    Steady (checkOptionalValue found expected) := by
  cases expected with
  | none => exact steady_pure _
  | some expected => exact (steady_checkValue found expected).bind fun _ => steady_pure _

/-- A text is checked exactly if something is expected of it. -/
theorem result_checkOptionalValue (found : Selection) (expected : Option Pattern) :
    (checkOptionalValue found expected).result =
      expected.map fun expected => (checkValue found expected).result := by
  cases expected with
  | none => rfl
  | some expected => exact (steady_checkValue found expected).result_bind fun _ => steady_pure _

/-- The check of attributes that may be absent does not look at the log. -/
theorem steady_checkOptionalAttributes (found : Selection) (specs : Option (List AttributeSpec)) :
    Steady (checkOptionalAttributes found specs) := by
  cases specs with
  | none => exact steady_pure _
  | some specs => exact (steady_checkAttributes found specs).bind fun _ => steady_pure _

/-- Attributes are checked exactly if something is expected of them. -/
theorem result_checkOptionalAttributes (found : Selection) (specs : Option (List AttributeSpec)) :
    (checkOptionalAttributes found specs).result =
      specs.map fun specs => (checkAttributes found specs).result := by
  cases specs with
  | none => rfl
  | some specs => exact (steady_checkAttributes found specs).result_bind fun _ => steady_pure _

/-! ## Elements -/

/-- The check of elements does not look at the log, if the check of each does not. -/
theorem steady_checkElements {context : Selection} {specs : List ElementSpec}
    (h : ∀ spec ∈ specs, Steady (checkElement context spec)) :
    Steady (checkElements context specs) := by
  induction specs with
  | nil =>
    rw [checkElements]
    exact steady_pure _
  | cons spec rest ih =>
    rw [checkElements]
    have hrest := ih fun s hs => h s (List.mem_cons_of_mem _ hs)
    exact (h spec List.mem_cons_self).bind fun _ => hrest.bind fun _ => steady_pure _

/-- The check of children does not look at the log, if the check of each does not. -/
theorem steady_checkChildren {found : Selection} {children : Option (List ElementSpec)}
    (h : ∀ specs, children = some specs → ∀ spec ∈ specs, Steady (checkElement found spec)) :
    Steady (checkChildren found children) := by
  cases children with
  | none =>
    rw [checkChildren]
    exact steady_pure _
  | some specs =>
    rw [checkChildren]
    exact steady_tellBlank.bind fun _ => (steady_tellRule _).bind fun _ =>
      (steady_tell _).bind fun _ => (steady_checkElements (h specs rfl)).bind fun _ =>
        steady_tellBlank.bind fun _ => (steady_tell _).bind fun _ =>
          (steady_tellRule _).bind fun _ => steady_pure _

/-- The check of an element does not look at the log, however deep it goes. -/
theorem steady_checkElement (context : Selection) (spec : ElementSpec) :
    Steady (checkElement context spec) := by
  induction spec using ElementSpec.tree_induction generalizing context with
  | step spec ih =>
    obtain ⟨id, name, value, attributes, children⟩ := spec
    rw [checkElement]
    refine steady_tellBlank.bind fun _ => (steady_tell _).bind fun _ => ?_
    cases selectNamed context name with
    | error fault => exact (steady_tell _).bind fun _ => steady_pure _
    | ok found =>
      dsimp only
      split
      · exact (steady_tell _).bind fun _ => steady_pure _
      · have hchildren := steady_checkChildren fun specs h spec hs => ih specs h spec hs found
        exact (steady_tell _).bind fun _ => (steady_checkOptionalValue found value).bind fun _ =>
          (steady_checkOptionalAttributes found attributes).bind fun _ =>
            hchildren.bind fun _ => steady_tellBlank.bind fun _ =>
              (steady_tell _).bind fun _ => steady_pure _

/-- Each of several elements has the result of its own check. -/
theorem result_checkElements (context : Selection) (specs : List ElementSpec) :
    (checkElements context specs).result =
      specs.map fun spec => (checkElement context spec).result := by
  induction specs with
  | nil =>
    rw [checkElements]
    rfl
  | cons spec rest ih =>
    have hrest := steady_checkElements fun s (_ : s ∈ rest) => steady_checkElement context s
    rw [checkElements, (steady_checkElement context spec).result_bind,
      hrest.result_bind fun _ => steady_pure _, ih]
    · rfl
    · exact fun _ => hrest.bind fun _ => steady_pure _

/-- The results of children that are looked up below a selection. -/
def childrenResult (found : Selection) (specs : List ElementSpec) :
    ChildrenResult ElementResult :=
  let each := specs.map fun spec => (checkElement found spec).result
  ⟨.worst (each.map (·.verdict)), each⟩

/-- Children are checked exactly if some are expected, and summed up of their own results. -/
theorem result_checkChildren (found : Selection) (children : Option (List ElementSpec)) :
    (checkChildren found children).result = children.map (childrenResult found) := by
  cases children with
  | none =>
    rw [checkChildren]
    rfl
  | some specs =>
    have hspecs := steady_checkElements fun s (_ : s ∈ specs) => steady_checkElement found s
    have hresult : (checkChildren found (some specs)).result =
        some ⟨.worst ((checkElements found specs).result.map (·.verdict)),
          (checkElements found specs).result⟩ := by
      rw [checkChildren]
      exact Tells.result_eq (tells_tellBlank.bind ((tells_tellRule _).bind ((tells_tell _).bind
        (hspecs.tells.bind (tells_tellBlank.bind ((tells_tell _).bind
          ((tells_tellRule _).bind (tells_pure _))))))))
    rw [hresult, result_checkElements]
    rfl

/-! ### The three endings of an element -/

/-- The line with which the log of an element starts. -/
def elementLine (spec : ElementSpec) : String :=
  s!"******** Test element id: {spec.id}, Test element name: {spec.name} ********"

section Endings

variable {context found : Selection} {spec : ElementSpec}

/-- An element that cannot be looked up is blocked by the fault, which is told. -/
theorem tells_checkElement_of_error {fault : Fault}
    (h : selectNamed context spec.name = .error fault) :
    Tells (checkElement context spec) (.bare spec.id spec.name .block fault.message)
      ["", elementLine spec, s!"Element blocked: {fault.message}"] := by
  obtain ⟨id, name, value, attributes, children⟩ := spec
  rw [checkElement, h]
  exact tells_tellBlank.bind ((tells_tell _).bind ((tells_tell _).bind (tells_pure _)))

/-- An element that is missing fails, which is told. -/
theorem tells_checkElement_of_missing (h : selectNamed context spec.name = .ok found)
    (hempty : found.isEmpty = true) :
    Tells (checkElement context spec) (.bare spec.id spec.name .fail missingElement)
      ["", elementLine spec, "Element not exist"] := by
  obtain ⟨id, name, value, attributes, children⟩ := spec
  rw [checkElement, h]
  simp only [hempty, if_true]
  exact tells_tellBlank.bind ((tells_tell _).bind ((tells_tell _).bind (tells_pure _)))

/-- An element that was found is summed up from the results of the parts it has, and what is told
about these parts stands one after the other in its log. -/
theorem tells_checkElement_of_found (h : selectNamed context spec.name = .ok found)
    (hfound : found.isEmpty = false) :
    let result := summedUp spec.id spec.name (checkOptionalValue found spec.value).result
      (checkOptionalAttributes found spec.attributes).result
      (checkChildren found spec.children).result
    Tells (checkElement context spec) result
      ("" :: elementLine spec :: s!"Selector '{spec.name}' resolved to {found.size} node(s)" ::
        ((checkOptionalValue found spec.value).told ++
          ((checkOptionalAttributes found spec.attributes).told ++
            ((checkChildren found spec.children).told ++
              ["", s!"Test summary result: {result.verdict.word}"])))) := by
  obtain ⟨id, name, value, attributes, children⟩ := spec
  have hchildren : Steady (checkChildren found children) :=
    steady_checkChildren fun _ _ s _ => steady_checkElement found s
  rw [checkElement, h]
  simp only [hfound, Bool.false_eq_true, if_false]
  exact tells_tellBlank.bind ((tells_tell _).bind ((tells_tell _).bind
    ((steady_checkOptionalValue found value).tells.bind
      ((steady_checkOptionalAttributes found attributes).tells.bind
        (hchildren.tells.bind (tells_tellBlank.bind ((tells_tell _).bind (tells_pure _))))))))

end Endings

/-- An element whose name cannot be resolved is blocked. -/
theorem result_checkElement_of_error {context : Selection} {spec : ElementSpec} {fault : Fault}
    (h : selectNamed context spec.name = .error fault) :
    (checkElement context spec).result = .bare spec.id spec.name .block fault.message :=
  (tells_checkElement_of_error h).result_eq

/-- An element that is missing fails. -/
theorem result_checkElement_of_missing {context found : Selection} {spec : ElementSpec}
    (h : selectNamed context spec.name = .ok found) (hempty : found.isEmpty = true) :
    (checkElement context spec).result = .bare spec.id spec.name .fail missingElement :=
  (tells_checkElement_of_missing h hempty).result_eq

/-- The result of an element that was found is summed up from those of the parts it has. -/
theorem result_checkElement_of_found {context found : Selection} {spec : ElementSpec}
    (h : selectNamed context spec.name = .ok found) (hfound : found.isEmpty = false) :
    (checkElement context spec).result =
      summedUp spec.id spec.name
        (spec.value.map fun expected => (checkValue found expected).result)
        (spec.attributes.map fun specs => (checkAttributes found specs).result)
        (spec.children.map (childrenResult found)) := by
  rw [← result_checkChildren, ← result_checkOptionalValue, ← result_checkOptionalAttributes]
  exact (tells_checkElement_of_found h hfound).result_eq

/-! ## Containers -/

/-- A container that was checked has one result for each expected element. -/
theorem summary_checkContainer (container : Selection) (spec : ContainerSpec) :
    (checkContainer container spec).summary =
      ⟨containerId container,
        spec.elements.map fun s => (checkElement container s).result⟩ := by
  have hresults := steady_checkElements fun s (_ : s ∈ spec.elements) =>
    steady_checkElement container s
  have hresult : (narrateContainer container spec).result =
      ⟨containerId container, (checkElements container spec.elements).result⟩ :=
    Tells.result_eq (tells_tellBlank.bind ((tells_tellRule _).bind ((tells_tell _).bind
      ((tells_tellRule _).bind (hresults.tells.bind (tells_pure _))))))
  rw [result_checkElements] at hresult
  exact hresult

end FeedAudit

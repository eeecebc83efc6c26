import FeedAudit.Check.Result
import FeedAudit.Expectation.Spec
import FeedAudit.Markup.Selection
import FeedAudit.RunLog

/-!
# Checking elements

A tree of expectations is walked together with the document: an element is looked up below its
context, its text and its attributes are compared, and its children are checked below what was
found. A difference fails the check where it is found and a fault blocks it; either way the other
checks are still made. All of it is told in the run log.
-/

namespace FeedAudit

/-- The message of an element that is missing. -/
def missingElement : String := "Element not exist!"

/-! ## Values -/

/-- Compares the text of a selection with a pattern. -/
def checkValue (found : Selection) (expected : Pattern) : Narrated ValueResult := do
  let actual := found.text
  tellBlank
  tell s!"Value validation, Actual value: {actual}, Expected value: {expected.text}"
  match expected.mismatch? actual with
  | none =>
    tell s!"Value validation, Test result: {Verdict.pass.word}"
    return ⟨.pass, none, expected.text, actual⟩
  | some mismatch =>
    let message := s!"Element {mismatch.describe}!"
    tell s!"Value validation, Test result: {Verdict.fail.word}"
    tell s!"Value validation, Test message: {message}"
    return ⟨.fail, some message, expected.text, actual⟩

/-! ## Attributes -/

/-- The value of an attribute of a selection, empty when it is absent. -/
def attributeValue (found : Selection) (name : String) : Except Fault String :=
  match Selector.read name with
  | .error fault => .error fault
  | .ok selector => (found.attribute? selector).map (·.getD "")

/-- The verdict on an attribute, with its message if there is one and the value it has. -/
def judgeAttribute (found : Selection) (spec : AttributeSpec) :
    Verdict × Option String × String :=
  match attributeValue found spec.name with
  | .error fault => (.block, some s!"For attribute '{spec.name}': {fault.message}", "")
  | .ok actual =>
    match spec.expected.mismatch? actual with
    | none => (.pass, none, actual)
    | some mismatch => (.fail, some s!"For attribute '{spec.name}' {mismatch.describe}!", actual)

/-- Tells a message if there is one. -/
def tellMessage (message : Option String) : Narrated Unit :=
  match message with
  | some text => tell s!"Test of attribute, Test message: {text}"
  | none => pure ()

/-- Compares an attribute of the first place of a selection. -/
def checkAttribute (found : Selection) (spec : AttributeSpec) : Narrated AttributeResult := do
  let (verdict, message, actual) := judgeAttribute found spec
  tellBlank
  tell s!"Test of attribute, Attribute id: {spec.id}, Attribute name: {spec.name}"
  tell s!"Test of attribute, Actual result: {actual}, Expected result: {spec.expected.text}"
  tell s!"Test of attribute, Test result: {verdict.word}"
  tellMessage message
  return ⟨spec.id, spec.name, verdict, message, spec.expected.text, actual⟩

/-- Texts joined with a separator, nothing when there are none. -/
def joinedMessage (sep : String) (messages : List String) : Option String :=
  if messages.isEmpty then none else some (Text.joined sep messages)

/-- The messages of attributes that did not pass. -/
def attributeMessages (results : List AttributeResult) : List String :=
  ((results.filter fun a => !a.verdict.isPass).filterMap (·.message)).filter (· != "")

/-- Compares attributes one after the other; a fault blocks only its own attribute. -/
def checkAttributeList (found : Selection) : List AttributeSpec → Narrated (List AttributeResult)
  | [] => return []
  | spec :: rest => do
    let first ← checkAttribute found spec
    let others ← checkAttributeList found rest
    return first :: others

/-- Compares the attributes that an element must have. -/
def checkAttributes (found : Selection) (specs : List AttributeSpec) :
    Narrated AttributesResult := do
  let results ← checkAttributeList found specs
  return ⟨.worst (results.map (·.verdict)), joinedMessage ", " (attributeMessages results), results⟩

/-! ## Elements -/

/-- The elements below a context that have a name. -/
def selectNamed (context : Selection) (name : String) : Except Fault Selection :=
  match Selector.read name with
  | .error fault => .error fault
  | .ok selector => context.select selector

/-- The messages of the parts of a result that did not pass. -/
def partMessages (value : Option ValueResult) (attributes : Option AttributesResult)
    (children : Option (ChildrenResult ElementResult)) : List String :=
  (match value with
    | some v => if v.verdict.isPass then [] else v.message.toList
    | none => []) ++
  (match attributes with
    | some a => if a.verdict.isPass then [] else a.message.toList
    | none => []) ++
  (match children with
    | some c =>
      if c.verdict.isPass then [] else [s!"Child elements validation is {c.verdict.word}"]
    | none => [])

/-- The result of an element that was found, summed up from its parts. -/
def summedUp (id name : String) (value : Option ValueResult)
    (attributes : Option AttributesResult) (children : Option (ChildrenResult ElementResult)) :
    ElementResult :=
  let r : ElementResult := ⟨id, name, .pass, none, value, attributes, children⟩
  { r with
    verdict := .worst r.partVerdicts
    message := joinedMessage " " (partMessages value attributes children) }

/-- Compares the text if a pattern is given. -/
def checkOptionalValue (found : Selection) : Option Pattern → Narrated (Option ValueResult)
  | none => return none
  | some expected => return some (← checkValue found expected)

/-- Compares the attributes if a list of them is given. -/
def checkOptionalAttributes (found : Selection) :
    Option (List AttributeSpec) → Narrated (Option AttributesResult)
  | none => return none
  | some specs => return some (← checkAttributes found specs)

mutual

/-- Checks an element below a context. -/
def checkElement (context : Selection) : ElementSpec → Narrated ElementResult
  | ⟨id, name, value, attributes, children⟩ => do
    tellBlank
    tell s!"******** Test element id: {id}, Test element name: {name} ********"
    match selectNamed context name with
    | .error fault =>
      tell s!"Element blocked: {fault.message}"
      return .bare id name .block fault.message
    | .ok found =>
      if found.isEmpty then
        tell "Element not exist"
        return .bare id name .fail missingElement
      else
        tell s!"Selector '{name}' resolved to {found.size} node(s)"
        let valueResult ← checkOptionalValue found value
        let attributesResult ← checkOptionalAttributes found attributes
        let childrenResult ← checkChildren found children
        let result := summedUp id name valueResult attributesResult childrenResult
        tellBlank
        tell s!"Test summary result: {result.verdict.word}"
        return result

/-- Checks the children of an element if a list of them is given. -/
def checkChildren (found : Selection) :
    Option (List ElementSpec) → Narrated (Option (ChildrenResult ElementResult))
  | none => return none
  | some specs => do
    tellBlank
    tellRule '-'
    tell "Child element validation:"
    let results ← checkElements found specs
    let verdict := Verdict.worst (results.map (·.verdict))
    tellBlank
    tell s!"Child element validation, Test result: {verdict.word}"
    tellRule '-'
    return some ⟨verdict, results⟩

/-- Checks elements one after the other below the same context. -/
def checkElements (context : Selection) : List ElementSpec → Narrated (List ElementResult)
  | [] => return []
  | spec :: rest => do
    let first ← checkElement context spec
    let others ← checkElements context rest
    return first :: others

end

end FeedAudit

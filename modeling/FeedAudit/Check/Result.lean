import FeedAudit.Check.Verdict

/-!
# Results of checks

Every expectation that is checked leaves a result. The result of an element holds one part for each
kind of check that the expectation asked for and that could be made: none when the element does not
exist or its name cannot be resolved.
-/

namespace FeedAudit

/-- The result of comparing the text of an element. -/
structure ValueResult where
  verdict : Verdict
  message : Option String
  expected : String
  actual : String
  deriving DecidableEq, Repr, Inhabited

/-- The result of comparing an attribute. -/
structure AttributeResult where
  id : String
  name : String
  verdict : Verdict
  message : Option String
  expected : String
  actual : String
  deriving DecidableEq, Repr, Inhabited

/-- The result of comparing the attributes of an element. -/
structure AttributesResult where
  verdict : Verdict
  message : Option String
  each : List AttributeResult
  deriving DecidableEq, Repr, Inhabited

/-- The results of the children of an element, whatever those are. -/
structure ChildrenResult (α : Type) where
  verdict : Verdict
  each : List α
  deriving Repr, Inhabited

/-- The result of checking an element. -/
structure ElementResult where
  id : String
  name : String
  verdict : Verdict
  message : Option String
  value : Option ValueResult
  attributes : Option AttributesResult
  children : Option (ChildrenResult ElementResult)
  deriving Repr, Inhabited

namespace ElementResult

/-- A result without parts. -/
def bare (id name : String) (verdict : Verdict) (message : String) : ElementResult :=
  ⟨id, name, verdict, some message, none, none, none⟩

/-- The verdicts of the parts that are present. -/
def partVerdicts (r : ElementResult) : List Verdict :=
  (r.value.map (·.verdict)).toList ++ (r.attributes.map (·.verdict)).toList ++
    (r.children.map (·.verdict)).toList

end ElementResult

end FeedAudit

import FeedAudit.Check.Element
import FeedAudit.Markup.Reader

/-!
# Checking containers

The repeating records of a feed are its *containers*. Each of them is checked by itself against the
whole expectation and keeps a log of its own, so containers may be checked in any order; their
results are handed on in document order. A container is known by the first number that stands in
the text of its `id` elements.
-/

namespace FeedAudit

open Markup

/-- Why the containers of a document cannot be found. -/
inductive ContainerFault where
  | selector (fault : Fault)
  | notFound (selector : String)
  deriving DecidableEq, Repr

/-- The results of one container. -/
structure Summary where
  containerId : String
  results : List ElementResult
  deriving Repr, Inhabited

/-- The verdict on a container. -/
def Summary.verdict (s : Summary) : Verdict := .worst (s.results.map (·.verdict))

/-- The results of one container with the log of how they came about. -/
structure ContainerRun where
  summary : Summary
  log : RunLog
  deriving Inhabited

/-! ## The id of a container -/

/-- The first run of decimal digits among characters, as long as possible. -/
def firstNumber (cs : List Char) : List Char :=
  (cs.dropWhile fun c => !c.isDigit).takeWhile Char.isDigit

/-- The elements that hold the id of a container. -/
def idSelector : Selector := ⟨"id", none, "id"⟩

/-- The number by which a container is known, empty when there is none. -/
def containerId (container : Selection) : String :=
  match container.select idSelector with
  | .ok ids => String.ofList (firstNumber ids.text.toList)
  | .error _ => ""

/-! ## Checking -/

/-- The containers of a document, each as a selection of its own; there is at least one. -/
def findContainers (d : Document) (spec : ContainerSpec) :
    Except ContainerFault (List Selection) :=
  match selectNamed (.ofDocument d) spec.container with
  | .error fault => .error (.selector fault)
  | .ok found => if found.isEmpty then .error (.notFound spec.container) else .ok found.split

/-- Checks a container and tells about it, starting with its id between rules. -/
def narrateContainer (container : Selection) (spec : ContainerSpec) : Narrated Summary := do
  let id := containerId container
  tellBlank
  tellRule '='
  tell s!"Test element id is {id}"
  tellRule '='
  let results ← checkElements container spec.elements
  return ⟨id, results⟩

/-- Checks a container with a log of its own. -/
def checkContainer (container : Selection) (spec : ContainerSpec) : ContainerRun :=
  let (summary, log) := (narrateContainer container spec).run .empty
  ⟨summary, log⟩

/-- Checks containers side by side; the results are in the order of the containers, whichever is
finished first. -/
def checkSideBySide (spec : ContainerSpec) (containers : List Selection) : List ContainerRun :=
  (containers.map fun c => Task.spawn fun _ => checkContainer c spec).map Task.get

/-- Checks all containers of a document, one after the other or side by side. The results are in
document order. -/
def checkContainers (d : Document) (spec : ContainerSpec) (parallel : Bool := false) :
    Except ContainerFault (List ContainerRun) :=
  (findContainers d spec).map fun containers =>
    if parallel then checkSideBySide spec containers
    else containers.map fun c => checkContainer c spec

/-- Containers that are checked side by side come to the same, in the same order, as in turn. -/
theorem checkSideBySide_eq (spec : ContainerSpec) (containers : List Selection) :
    checkSideBySide spec containers = containers.map (checkContainer · spec) := by
  rw [checkSideBySide, List.map_map]
  rfl

/-- In whatever way containers are checked, each of those that are found is checked by itself. -/
theorem checkContainers_eq (d : Document) (spec : ContainerSpec) (parallel : Bool) :
    checkContainers d spec parallel =
      (findContainers d spec).map fun found => found.map (checkContainer · spec) := by
  unfold checkContainers
  simp only [checkSideBySide_eq, ite_self]

end FeedAudit

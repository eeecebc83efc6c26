import FeedAudit.Proofs.Mirroring
import FeedAudit.Proofs.OrderedUnion
import Mathlib.Data.List.TakeWhile

/-!
# The containers of a document

A container is found by its name alone. The root element may be one, and so may an element inside
another container, which is then checked a second time as a part of that. The id of a container is
read off the text of all its `id` elements put together (`IsFirstNumber`), so that digits of
different elements may join into one number, and the text of an `id` inside another one is there
twice.

Main statement: `checkContainers_exact`. It says when a document cannot be checked and why, and
otherwise which containers are checked and what is known about each of them.
-/

namespace FeedAudit

open Markup

/-! ## The first number -/

/-- Some characters are the first number of a text: nothing but digits, none before them and none
right behind them. Where they are none at all, the text has no digit. -/
def IsFirstNumber (text number : List Char) : Prop :=
  ∃ before after, text = before ++ (number ++ after) ∧ (∀ c ∈ before, ¬c.isDigit) ∧
    (∀ c ∈ number, c.isDigit) ∧ (∀ c, after.head? = some c → ¬c.isDigit) ∧
    (number = [] → after = [])

section FirstNumber

variable {text number : List Char}

/-- What is taken for the first number of a text is the first number in it. -/
theorem isFirstNumber_firstNumber (text : List Char) : IsFirstNumber text (firstNumber text) := by
  have hrest : ∀ c, (text.dropWhile fun c => !c.isDigit).head? = some c → c.isDigit := by
    intro c hc
    simpa [hc] using List.head?_dropWhile_not (fun c => !c.isDigit) text
  refine ⟨text.takeWhile fun c => !c.isDigit,
    (text.dropWhile fun c => !c.isDigit).dropWhile Char.isDigit, ?_, ?_, ?_, ?_, ?_⟩
  · rw [firstNumber, List.takeWhile_append_dropWhile, List.takeWhile_append_dropWhile]
  · intro c hc
    simpa using List.mem_takeWhile_imp hc
  · intro c hc
    exact List.mem_takeWhile_imp hc
  · intro c hc
    simpa [hc] using List.head?_dropWhile_not Char.isDigit (text.dropWhile fun c => !c.isDigit)
  · -- What is left in front of the first digit starts with it, unless nothing is left.
    unfold firstNumber
    cases hleft : text.dropWhile fun c => !c.isDigit with
    | nil => exact fun _ => rfl
    | cons c cs =>
      have hdigit : c.isDigit := hrest c (by rw [hleft]; rfl)
      rw [List.takeWhile_cons_of_pos hdigit]
      intro hnone
      exact absurd hnone (List.cons_ne_nil c _)

/-- A text has one first number, and it is the one that is read. -/
theorem isFirstNumber_iff : IsFirstNumber text number ↔ number = firstNumber text := by
  constructor
  · rintro ⟨before, after, rfl, hbefore, hnumber, hafter, hnone⟩
    have hskip : ∀ c ∈ before, (!c.isDigit) = true := fun c hc => by simpa using hbefore c hc
    have hstop : after.takeWhile Char.isDigit = [] := by
      cases after with
      | nil => rfl
      | cons c cs => exact List.takeWhile_cons_of_neg (hafter c rfl)
    unfold firstNumber
    rw [List.dropWhile_append_of_pos hskip]
    cases number with
    | nil => rw [hnone rfl, List.append_nil, List.dropWhile_nil, List.takeWhile_nil]
    | cons d ds =>
      have hkeep : (d :: ds ++ after).dropWhile (fun c => !c.isDigit) = d :: ds ++ after :=
        List.dropWhile_cons_of_neg (by simp [hnumber d List.mem_cons_self])
      rw [hkeep, List.takeWhile_append_of_pos hnumber, hstop, List.append_nil]
  · rintro rfl
    exact isFirstNumber_firstNumber text

/-- The first number is missing only where there is no digit. -/
theorem firstNumber_eq_nil_iff : firstNumber text = [] ↔ ∀ c ∈ text, ¬c.isDigit := by
  obtain ⟨before, after, htext, hbefore, hnumber, -, hnone⟩ := isFirstNumber_firstNumber text
  constructor
  · intro hnil
    rw [hnil, hnone hnil, List.append_nil, List.append_nil] at htext
    rw [htext]
    exact hbefore
  · intro hdigits
    apply List.eq_nil_iff_forall_not_mem.mpr
    intro c hc
    have hmem : c ∈ text := by
      rw [htext]
      exact List.mem_append_right _ (List.mem_append_left _ hc)
    exact hdigits c hmem (hnumber c hc)

end FirstNumber

/-! ## Texts inside texts -/

/-- The texts of nodes stand one behind the other. -/
theorem Markup.Node.textOfList_append (ns others : List Node) :
    textOfList (ns ++ others) = textOfList ns ++ textOfList others := by
  induction ns with
  | nil => rw [List.nil_append, textOfList, String.empty_append]
  | cons n rest ih => rw [List.cons_append, textOfList, textOfList, ih, String.append_assoc]

namespace Place

variable {p q c : Place}

/-- The text of a child is a part of the text of its parent. -/
theorem ChildOf.exists_text_eq (h : c.ChildOf p) :
    ∃ before after, p.text = before ++ c.text ++ after := by
  obtain @⟨p, before, after, name, bindings, attributes, children, hchildren⟩ := h
  refine ⟨Node.textOfList before, Node.textOfList after, ?_⟩
  rw [text, hchildren, Node.textOfList_append, Node.textOfList, Node.allText, String.append_assoc]
  rfl

/-- The text of an element is a part of the text of everything around it. -/
theorem StandsBelow.exists_text_eq (h : q.StandsBelow p) :
    ∃ before after, p.text = before ++ q.text ++ after := by
  induction h with
  | single hc => exact hc.exists_text_eq
  | tail _ hc ih =>
    obtain ⟨before, after, hinner⟩ := ih
    obtain ⟨before', after', houter⟩ := hc.exists_text_eq
    refine ⟨before' ++ before, after ++ after', ?_⟩
    rw [houter, hinner]
    simp only [String.append_assoc]

/-! ## The root element below its document -/

/-- The root element as it is found below the document. Its declarations are in force twice, by
itself and because the document has them already. -/
def rootBelow (d : Document) : Place :=
  ⟨1, some d.rootName, d.rootBindings ++ d.rootBindings, d.rootAttributes, d.rootChildren⟩

/-- Below the document itself there is the root element and nothing else. -/
theorem childOf_ofDocument_iff {d : Document} : c.ChildOf (.ofDocument d) ↔ c = rootBelow d := by
  constructor
  · intro h
    generalize hdoc : Place.ofDocument d = top at h
    obtain @⟨top, before, after, name, bindings, attributes, children, hchildren⟩ := h
    subst hdoc
    obtain ⟨rfl, hroot⟩ | ⟨-, hnone⟩ := List.singleton_eq_append_iff.mp hchildren
    · cases hroot
      rfl
    · cases hnone
  · rintro rfl
    have hchildren : (ofDocument d).children = [] ++ d.root :: [] := rfl
    exact .intro hchildren

/-- The elements of a document are its root element and those below that. -/
theorem standsBelow_ofDocument_iff {d : Document} :
    q.StandsBelow (.ofDocument d) ↔ q = rootBelow d ∨ q.StandsBelow (rootBelow d) := by
  rw [← mem_below_iff, mem_below_iff_child]
  simp only [childOf_ofDocument_iff, exists_eq_left, mem_below_iff]

end Place

/-! ## What is found from one place -/

namespace Selection

/-- From one place a name finds the elements of its name, which are known from the place. -/
theorem select_ofPlace_eq_ok_iff_mem {p : Place} {s : Selector} {found : Selection} :
    (ofPlace p).select s = .ok found ↔
      s.BoundAt p ∧ found.places.Pairwise (·.rank < ·.rank) ∧
        ∀ q, q ∈ found.places ↔ q.StandsBelow p ∧ s.Names p q := by
  rw [select_eq_ok_iff_finds]
  simp [ofPlace, Selector.finds_singleton_iff]

end Selection

/-! ## The ids of a container -/

/-- Every element with the local name of ids may hold the id, whatever its namespace. -/
theorem names_idSelector_iff {p q : Place} :
    idSelector.Names p q ↔ ∃ name, q.name = some name ∧ name.localName = "id" := by
  simp [Selector.Names, idSelector]

/-- The local name of ids can be looked up everywhere, as it has no prefix. -/
theorem boundAt_idSelector (p : Place) : idSelector.BoundAt p := by
  intro nsPrefix hnone
  cases hnone

/-- A container is known by the first number in the text of its ids. -/
theorem exists_ids_containerId (p : Place) :
    ∃ ids : List Place, ids.Pairwise (·.rank < ·.rank) ∧
      (∀ q, q ∈ ids ↔ q.StandsBelow p ∧ ∃ name, q.name = some name ∧ name.localName = "id") ∧
      containerId (.ofPlace p) =
        String.ofList (firstNumber (String.join (ids.map Place.text)).toList) := by
  have hselect := Selection.select_ofPlace_eq_ok_iff.mpr ⟨boundAt_idSelector p, rfl⟩
  obtain ⟨-, hincreasing, hmem⟩ := Selection.select_ofPlace_eq_ok_iff_mem.mp hselect
  refine ⟨_, hincreasing, fun q => ?_, ?_⟩
  · rw [hmem, names_idSelector_iff]
  · rw [containerId, hselect]
    rfl

/-! ## Finding the containers -/

section Finding

variable {d : Document} {spec : ContainerSpec} {parallel : Bool}

/-- A name is faulted in a document if it is malformed, or if its prefix is not bound at the root
element. -/
theorem selectNamed_ofDocument_eq_error_iff {name : String} {fault : Fault} :
    selectNamed (.ofDocument d) name = .error fault ↔
      (∃ reason, Selector.parse name = .error reason ∧ fault = .malformed name reason.message) ∨
        ∃ s nsPrefix, Selector.parse name = .ok s ∧ s.nsPrefix = some nsPrefix ∧
          nsPrefix ≠ "xml" ∧ (Place.ofRoot d).scope.lookup (some nsPrefix) = none ∧
          fault = .unbound nsPrefix name := by
  unfold selectNamed Selector.read
  cases hparse : Selector.parse name with
  | error reason => simp [Except.mapError, eq_comm]
  | ok s =>
    have hwritten : s.written = name := Selector.written_of_parse hparse
    simp [Except.mapError, Selection.select_eq_error_iff, Selection.ofDocument,
      Selector.spaceAt_eq_error_iff, Place.ofDocument, Place.ofRoot, hwritten]

/-- Otherwise it finds the elements with the name that is meant at the root element. -/
theorem selectNamed_ofDocument_eq_ok_iff {name : String} {found : Selection} :
    selectNamed (.ofDocument d) name = .ok found ↔
      ∃ s, Selector.parse name = .ok s ∧ s.BoundAt (.ofRoot d) ∧
        found.places.Pairwise (·.rank < ·.rank) ∧
        ∀ q, q ∈ found.places ↔ q.StandsBelow (.ofDocument d) ∧ s.Names (.ofRoot d) q := by
  rw [selectNamed_eq_ok_iff, Resolves]
  refine exists_congr fun s => and_congr_right fun _ => ?_
  rw [← Selection.select_eq_ok_iff_finds]
  exact Selection.select_ofPlace_eq_ok_iff_mem

/-- The check of a document ends with a fault of the selector exactly if looking up the containers
does. -/
theorem checkContainers_eq_selector_iff {fault : Fault} :
    checkContainers d spec parallel = .error (.selector fault) ↔
      selectNamed (.ofDocument d) spec.container = .error fault := by
  rw [checkContainers_eq, findContainers]
  cases selectNamed (.ofDocument d) spec.container with
  | error other => simp [Except.map]
  | ok found => by_cases hempty : found.isEmpty <;> simp [Except.map, hempty]

/-- The check of a document finds no container exactly if the selection of containers is empty. -/
theorem checkContainers_eq_notFound_iff {written : String} :
    checkContainers d spec parallel = .error (.notFound written) ↔
      written = spec.container ∧ selectNamed (.ofDocument d) spec.container = .ok ⟨[]⟩ := by
  rw [checkContainers_eq, findContainers]
  cases selectNamed (.ofDocument d) spec.container with
  | error other => simp [Except.map]
  | ok found =>
    obtain ⟨_ | ⟨p, rest⟩⟩ := found
    · simp [Except.map, Selection.isEmpty, eq_comm]
    · simp [Except.map, Selection.isEmpty]

/-- The check of a document comes to an end exactly if there are containers, of which each is then
checked. -/
theorem checkContainers_eq_ok_iff {runs : List ContainerRun} :
    checkContainers d spec parallel = .ok runs ↔
      ∃ containers, containers ≠ [] ∧
        selectNamed (.ofDocument d) spec.container = .ok ⟨containers⟩ ∧
        runs = containers.map fun p => checkContainer (.ofPlace p) spec := by
  rw [checkContainers_eq, findContainers]
  cases selectNamed (.ofDocument d) spec.container with
  | error other => simp [Except.map]
  | ok found =>
    obtain ⟨_ | ⟨p, rest⟩⟩ := found
    · simp [Except.map, Selection.isEmpty]
    · simp [Except.map, Selection.isEmpty, Selection.split, Function.comp_def, eq_comm]

end Finding

/-! ## Results -/

/-- A result is for the expectation that was checked. -/
theorem id_name_checkElement (context : Selection) (spec : ElementSpec) :
    (checkElement context spec).result.id = spec.id ∧
      (checkElement context spec).result.name = spec.name := by
  cases mirrors_checkElement context spec with
  | missing id_eq name_eq _ _ _ _ => exact ⟨id_eq, name_eq⟩
  | present id_eq name_eq _ _ _ _ _ _ => exact ⟨id_eq, name_eq⟩

/-- A document cannot be checked if the name of its containers is malformed or has a prefix, other
than the reserved one, that is not bound at the root element, and neither if the name can be looked
up but no element has it. Otherwise every element of that name is checked once, in document order,
whether it is the root element, stands inside another container or neither. For each there is one
result for each expected element, in order, and its id is the first number in the text of all
elements below it with the local name of ids, one after the other, which is empty only if there is
no digit in it; of an id inside an id the text is there again. -/
theorem checkContainers_exact (d : Document) (spec : ContainerSpec) (parallel : Bool) :
    (∀ fault, checkContainers d spec parallel = .error (.selector fault) ↔
      (∃ reason, Selector.parse spec.container = .error reason ∧
        fault = .malformed spec.container reason.message) ∨
      ∃ name nsPrefix, Selector.parse spec.container = .ok name ∧
        name.nsPrefix = some nsPrefix ∧ nsPrefix ≠ "xml" ∧
        (Place.ofRoot d).scope.lookup (some nsPrefix) = none ∧
        fault = .unbound nsPrefix spec.container) ∧
    (∀ written, checkContainers d spec parallel = .error (.notFound written) ↔
      written = spec.container ∧
      ∃ name, Selector.parse spec.container = .ok name ∧ name.BoundAt (.ofRoot d) ∧
        ∀ q : Place, q.StandsBelow (.ofDocument d) → ¬name.Names (.ofRoot d) q) ∧
    (∀ runs, checkContainers d spec parallel = .ok runs ↔
      ∃ name containers, Selector.parse spec.container = .ok name ∧ name.BoundAt (.ofRoot d) ∧
        containers ≠ [] ∧ containers.Pairwise (·.rank < ·.rank) ∧
        (∀ q : Place, q ∈ containers ↔
          q.StandsBelow (.ofDocument d) ∧ name.Names (.ofRoot d) q) ∧
        runs = containers.map fun p => checkContainer (.ofPlace p) spec) ∧
    (∃ root : Place, root.name = some d.rootName ∧ root.attributes = d.rootAttributes ∧
      root.children = d.rootChildren ∧
      ∀ q : Place, q.StandsBelow (.ofDocument d) ↔ q = root ∨ q.StandsBelow root) ∧
    ∀ p : Place,
      let summary := (checkContainer (.ofPlace p) spec).summary
      summary.results = spec.elements.map (fun e => (checkElement (.ofPlace p) e).result) ∧
      summary.results.map (fun r => (r.id, r.name)) =
        spec.elements.map (fun e => (e.id, e.name)) ∧
      ∃ ids : List Place, ids.Pairwise (·.rank < ·.rank) ∧
        (∀ q, q ∈ ids ↔ q.StandsBelow p ∧ ∃ name, q.name = some name ∧ name.localName = "id") ∧
        (∀ q ∈ ids, ∀ r ∈ ids, r.StandsBelow q →
          ∃ before after, q.text = before ++ r.text ++ after) ∧
        (∀ number, IsFirstNumber (String.join (ids.map Place.text)).toList number ↔
          number = summary.containerId.toList) ∧
        (summary.containerId = "" ↔
          ∀ c ∈ (String.join (ids.map Place.text)).toList, ¬c.isDigit) := by
  refine ⟨fun fault => ?_, fun written => ?_, fun runs => ?_, ?_, fun p => ?_⟩
  · rw [checkContainers_eq_selector_iff, selectNamed_ofDocument_eq_error_iff]
  · rw [checkContainers_eq_notFound_iff, selectNamed_ofDocument_eq_ok_iff]
    simp
  · simp only [checkContainers_eq_ok_iff, selectNamed_ofDocument_eq_ok_iff]
    constructor
    · rintro ⟨containers, hne, ⟨name, hparse, hbound, hincreasing, hmem⟩, hruns⟩
      exact ⟨name, containers, hparse, hbound, hne, hincreasing, hmem, hruns⟩
    · rintro ⟨name, containers, hparse, hbound, hne, hincreasing, hmem, hruns⟩
      exact ⟨containers, hne, ⟨name, hparse, hbound, hincreasing, hmem⟩, hruns⟩
  · exact ⟨.rootBelow d, rfl, rfl, rfl, fun q => Place.standsBelow_ofDocument_iff⟩
  -- What is left is about one container, whose results and id do not depend on the others.
  · obtain ⟨ids, hincreasing, hmem, hid⟩ := exists_ids_containerId p
    intro summary
    have hsummary : summary = _ := summary_checkContainer (.ofPlace p) spec
    have hnumber : summary.containerId.toList =
        firstNumber (String.join (ids.map Place.text)).toList := by
      rw [hsummary, hid, String.toList_ofList]
    rw [← String.toList_eq_nil_iff, hnumber]
    refine ⟨by rw [hsummary], ?_, ids, hincreasing, hmem, ?_,
      fun number => isFirstNumber_iff, firstNumber_eq_nil_iff⟩
    · rw [hsummary, List.map_map]
      exact List.map_congr_left fun e _ => Prod.ext_iff.mpr (id_name_checkElement (.ofPlace p) e)
    · exact fun q _ r _ hbelow => hbelow.exists_text_eq

/-- The film around another one has the digits of both ids, which are joined. -/
example : (checkContainers
    { before := [], rootName := ⟨none, "film"⟩, rootBindings := [], rootAttributes := [],
      rootChildren := [.element ⟨none, "id"⟩ [] [] [.text "no. 1"],
        .element ⟨none, "film"⟩ [] [] [.element ⟨some "urn:x", "id"⟩ [] [] [.text "2/7"]]],
      after := [] }
    ⟨"film", []⟩).toOption.map (·.map (·.summary.containerId)) = some ["12", "2"] := by
  decide +kernel

end FeedAudit

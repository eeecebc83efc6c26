import FeedAudit.Proofs.DistinctNames
import FeedAudit.Proofs.Locality
import Mathlib.Data.List.Find
import Mathlib.Data.List.Pairwise

/-!
# What matters in a document

Comments and processing instructions do not matter for a check, even where they cut a text in two,
and neither does the order in which an element lists its attributes and declarations. The *essence*
of a document is what remains without comments and instructions when the texts that then touch are
joined (`Document.essence`); documents whose essences are equal up to the order of attributes and
declarations have the same containers, with the same results and logs, or the same error.

A document is compared with its essence first, and then the two essences with each other. Either
time the places of the two documents correspond.

Main statement: `checkContainers_of_sameEssence`.
-/

namespace FeedAudit

namespace Markup

/-! ## The essence of nodes -/

/-- Nodes with one put before them: a comment or an instruction is left out, and a text is joined
with the text that it comes to touch. -/
def putBefore : Node → List Node → List Node
  | .comment _, rest => rest
  | .instruction _ _, rest => rest
  | .text a, .text b :: rest => .text (a ++ b) :: rest
  | n, rest => n :: rest

mutual

/-- A node with only what matters below it. -/
def Node.essence : Node → Node
  | .element name bindings attributes children =>
    .element name bindings attributes (essenceOfList children)
  | n => n

/-- What matters of nodes. -/
def essenceOfList : List Node → List Node
  | [] => []
  | n :: rest => putBefore n.essence (essenceOfList rest)

end

/-- Elements and texts that are equal up to the order of attributes and declarations. -/
inductive SameUpToOrder : List Node → List Node → Prop
  | nil : SameUpToOrder [] []
  | element {name : ExpandedName} {bindings bindings' : List Binding}
      {attributes attributes' : List Attribute} {children children' rest rest' : List Node}
      (hbindings : bindings.Perm bindings') (hattributes : attributes.Perm attributes')
      (hchildren : SameUpToOrder children children') (hrest : SameUpToOrder rest rest') :
      SameUpToOrder (.element name bindings attributes children :: rest)
        (.element name bindings' attributes' children' :: rest')
  | text {content : String} {rest rest' : List Node} (hrest : SameUpToOrder rest rest') :
      SameUpToOrder (.text content :: rest) (.text content :: rest')

/-- What matters of a document. Around the root element there are comments and instructions only,
of which nothing remains. -/
def Document.essence (d : Document) : Document where
  before := []
  rootName := d.rootName
  rootBindings := d.rootBindings
  rootAttributes := d.rootAttributes
  rootChildren := essenceOfList d.rootChildren
  after := []

/-- Two documents have the same essence up to the order of attributes and declarations. -/
def Document.SameEssence (d d' : Document) : Prop :=
  SameUpToOrder [d.essence.root] [d'.essence.root]

/-! ## Nodes and their essence -/

variable {scope other : Scope}

/-- A text that is joined with the one behind it keeps the content. -/
theorem SameContent.text_putBefore {ns ns' : List Node} (h : SameContent scope other ns ns')
    (content : String) :
    SameContent scope other (.text content :: ns) (putBefore (.text content) ns') := by
  unfold putBefore
  split
  · rename_i heq
    cases heq
  · rename_i heq
    cases heq
  · rename_i a b rest heq
    cases heq
    exact .joinedRight (.text h)
  · exact .text h

/-- The essence of nodes says what the nodes say. -/
theorem sameContent_essenceOfList (scope : Scope) (ns : List Node) :
    SameContent scope scope ns (essenceOfList ns) := by
  match ns with
  | [] => exact .nil
  | .element name bindings attributes children :: rest =>
    exact .element (fun _ => rfl) (fun _ => rfl) (sameContent_essenceOfList _ children)
      (sameContent_essenceOfList scope rest)
  | .text content :: rest => exact (sameContent_essenceOfList scope rest).text_putBefore content
  | .comment content :: rest => exact .silentLeft rfl (sameContent_essenceOfList scope rest)
  | .instruction target content :: rest =>
    exact .silentLeft rfl (sameContent_essenceOfList scope rest)

/-- Names stay distinct when a node is put before others. -/
theorem distinct_putBefore {n : Node} {rest : List Node} (hn : n.Distinct)
    (hrest : ∀ m ∈ rest, m.Distinct) : ∀ m ∈ putBefore n rest, m.Distinct := by
  unfold putBefore
  split
  · exact hrest
  · exact hrest
  · rw [List.forall_mem_cons] at hrest ⊢
    exact ⟨.text _, hrest.2⟩
  · rw [List.forall_mem_cons]
    exact ⟨hn, hrest⟩

/-- The essence of nodes with distinct names has distinct names. -/
theorem distinct_essenceOfList {ns : List Node} (hns : ∀ n ∈ ns, n.essence.Distinct) :
    ∀ n ∈ essenceOfList ns, n.Distinct := by
  induction ns with
  | nil => exact nofun
  | cons n rest ih =>
    rw [List.forall_mem_cons] at hns
    rw [essenceOfList]
    exact distinct_putBefore hns.1 (ih hns.2)

/-- What matters keeps the names distinct. -/
theorem Node.Distinct.essence {n : Node} (hn : n.Distinct) : n.essence.Distinct := by
  induction hn with
  | element hbindings hattributes hchildren ih =>
    exact .element hbindings hattributes (distinct_essenceOfList ih)
  | text content => exact .text content
  | comment content => exact .comment content
  | instruction target content => exact .instruction target content

/-! ## The order of attributes and declarations -/

/-- In another order, distinct declarations bind the same prefixes. -/
theorem Scope.Agrees.of_perm {bindings bindings' : List Binding} (h : bindings.Perm bindings')
    (hdistinct : (bindings.filterMap (·.nsPrefix)).Nodup) (hscope : Scope.Agrees scope other) :
    Scope.Agrees (bindings ++ scope) (bindings' ++ other) := by
  intro nsPrefix
  have hfind : (bindings.find? fun b => b.nsPrefix == some nsPrefix) =
      bindings'.find? fun b => b.nsPrefix == some nsPrefix := by
    refine List.find?_eq_find?_of_perm h ?_
    rintro b ⟨hb, hbprefix⟩ c ⟨hc, hcprefix⟩
    rw [List.Nodup, List.pairwise_filterMap] at hdistinct
    by_contra hne
    have hsymm : Std.Symm fun b c : Binding =>
        ∀ p, b.nsPrefix = some p → ∀ q, c.nsPrefix = some q → p ≠ q :=
      ⟨fun _ _ hdiffer p hp q hq => (hdiffer q hq p hp).symm⟩
    exact hdistinct.forall hb hc hne nsPrefix (eq_of_beq hbprefix) nsPrefix (eq_of_beq hcprefix) rfl
  have houter := hscope nsPrefix
  rw [Scope.lookup, Scope.lookup] at houter ⊢
  rw [List.find?_append, List.find?_append, hfind]
  cases bindings'.find? fun b => b.nsPrefix == some nsPrefix with
  | none => exact houter
  | some binding => rfl

/-- In another order, attributes with distinct names have the same values. -/
theorem SameAttributes.of_perm {attributes attributes' : List Attribute}
    (h : attributes.Perm attributes') (hdistinct : (attributes.map (·.name)).Nodup) :
    SameAttributes attributes attributes' := by
  intro name
  rw [List.find?_eq_find?_of_perm h]
  rintro a ⟨ha, haname⟩ b ⟨hb, hbname⟩
  refine List.inj_on_of_nodup_map hdistinct ha hb ?_
  rw [eq_of_beq haname, eq_of_beq hbname]

/-- Nodes with distinct names say the same in another order of attributes and declarations. -/
theorem sameContent_of_sameUpToOrder {ns ns' : List Node} (h : SameUpToOrder ns ns')
    (hdistinct : ∀ n ∈ ns, n.Distinct) (hscope : Scope.Agrees scope other) :
    SameContent scope other ns ns' := by
  induction h generalizing scope other with
  | nil => exact .nil
  | element hbindings hattributes _ _ ihchildren ihrest =>
    rw [List.forall_mem_cons] at hdistinct
    cases hdistinct.1 with
    | element hbound hnamed hbelow =>
      have hinner := hscope.of_perm hbindings hbound
      exact .element hinner (.of_perm hattributes hnamed) (ihchildren hbelow hinner)
        (ihrest hdistinct.2 hscope)
  | text _ ihrest =>
    rw [List.forall_mem_cons] at hdistinct
    exact .text (ihrest hdistinct.2 hscope)

end Markup

open Markup

/-! ## Containers of corresponding documents -/

section Containers

variable {a b : Nat}

/-- Containers that correspond come to the same results and the same log. -/
theorem checkContainer_of_corresponds {s t : Selection} (h : s.Corresponds a b t)
    (spec : ContainerSpec) : checkContainer s spec = checkContainer t spec := by
  have helements := checkElements_of_forall fun child (_ : child ∈ spec.elements) =>
    checkElement_of_correspond h child
  rw [checkContainer, checkContainer, narrateContainer, narrateContainer,
    containerId_of_correspond h, helements]

/-- The single places of corresponding selections are checked alike, one by one. -/
theorem map_checkContainer_split {s t : Selection} (h : s.Corresponds a b t)
    (spec : ContainerSpec) :
    s.split.map (checkContainer · spec) = t.split.map (checkContainer · spec) := by
  unfold Selection.Corresponds at h
  unfold Selection.split
  generalize s.places = ps at h ⊢
  generalize t.places = qs at h ⊢
  induction h with
  | nil => rfl
  | @cons p q ps qs hpq _ ih =>
    have hone : (Selection.ofPlace p).Corresponds a b (.ofPlace q) := .cons hpq .nil
    simp only [List.map_cons] at ih ⊢
    rw [ih, checkContainer_of_corresponds hone]

/-- Documents that correspond have the same containers, or none for the same reason. -/
theorem checkContainers_of_corresponds {d d' : Document}
    (h : (Selection.ofDocument d).Corresponds a b (.ofDocument d')) (spec : ContainerSpec)
    (parallel : Bool) : checkContainers d spec parallel = checkContainers d' spec parallel := by
  have hnamed := selectNamed_of_correspond h spec.container
  rw [checkContainers_eq, checkContainers_eq, findContainers, findContainers]
  generalize selectNamed (.ofDocument d) spec.container = found at hnamed ⊢
  generalize selectNamed (.ofDocument d') spec.container = found' at hnamed ⊢
  cases hnamed with
  | error fault => rfl
  | ok hfound =>
    dsimp only
    rw [hfound.isEmpty_eq]
    split
    · rfl
    · simp only [Except.map]
      rw [map_checkContainer_split hfound]

end Containers

/-- Documents correspond if their root elements have the same content where the same prefixes are
bound. -/
theorem corresponds_ofDocument {d d' : Document}
    (hscope : Scope.Agrees d.rootBindings d'.rootBindings)
    (hroot : SameContent d.rootBindings d'.rootBindings [d.root] [d'.root]) :
    (Selection.ofDocument d).Corresponds 0 0 (.ofDocument d') :=
  .cons ⟨⟨rfl, hscope, fun _ => rfl, hroot⟩, rfl⟩ .nil

/-- Nothing but its essence matters of a document. -/
theorem checkContainers_essence (d : Document) (spec : ContainerSpec) (parallel : Bool) :
    checkContainers d spec parallel = checkContainers d.essence spec parallel := by
  have hroot : SameContent d.rootBindings d.rootBindings [d.root] [d.essence.root] :=
    .element (fun _ => rfl) (fun _ => rfl) (sameContent_essenceOfList _ d.rootChildren) .nil
  have hplaces : (Selection.ofDocument d).Corresponds 0 0 (.ofDocument d.essence) :=
    corresponds_ofDocument (fun _ => rfl) hroot
  exact checkContainers_of_corresponds hplaces spec parallel

/-- The order of attributes and declarations does not matter in a document with distinct names. -/
theorem checkContainers_of_sameUpToOrder {d d' : Document} (hdistinct : d.root.Distinct)
    (h : SameUpToOrder [d.root] [d'.root]) (spec : ContainerSpec) (parallel : Bool) :
    checkContainers d spec parallel = checkContainers d' spec parallel := by
  obtain ⟨hbindings, hbound⟩ : d.rootBindings.Perm d'.rootBindings ∧
      (d.rootBindings.filterMap (·.nsPrefix)).Nodup := by
    obtain ⟨before, name, bindings, attributes, children, after⟩ := d
    obtain ⟨before', name', bindings', attributes', children', after'⟩ := d'
    unfold Document.root at h hdistinct
    cases h with
    | element hbindings _ _ _ =>
      cases hdistinct with
      | element hbound _ _ => exact ⟨hbindings, hbound⟩
  have hscope : Scope.Agrees d.rootBindings d'.rootBindings := by
    have hclosed : Scope.Agrees ([] : Scope) [] := fun _ => rfl
    have hroot := hclosed.of_perm hbindings hbound
    rw [List.append_nil, List.append_nil] at hroot
    exact hroot
  have hroot := sameContent_of_sameUpToOrder h (List.forall_mem_singleton.mpr hdistinct) hscope
  exact checkContainers_of_corresponds (corresponds_ofDocument hscope hroot) spec parallel

/-- Two documents of which one was read, and which have the same essence up to the order of
attributes and declarations, come to the same: their containers have the same ids, results and
logs, or there are none for the same reason. -/
theorem checkContainers_of_sameEssence {text : String} {d d' : Document}
    (hread : Document.read text = .ok d) (hsame : d.SameEssence d') (spec : ContainerSpec)
    (parallel : Bool) : checkContainers d spec parallel = checkContainers d' spec parallel := by
  have hdistinct : d.essence.root.Distinct := (Document.distinct_of_read hread).essence
  calc checkContainers d spec parallel
      = checkContainers d.essence spec parallel := checkContainers_essence d spec parallel
    _ = checkContainers d'.essence spec parallel :=
      checkContainers_of_sameUpToOrder hdistinct hsame spec parallel
    _ = checkContainers d' spec parallel := (checkContainers_essence d' spec parallel).symm

/-! ## A feed with remarks -/

/-- A feed with a comment within a text and an instruction between two elements. -/
def remarkedFeed : String :=
  "<r xmlns:m='u' xmlns:n='v'><film m:age='8' n='2'><id>4<!--?-->2</id><?p?></film></r>"

/-- The same feed without the remarks, in which attributes and declarations are listed the other
way round. -/
def plainFeed : String :=
  "<r xmlns:n='v' xmlns:m='u'><film n='2' m:age='8'><id>42</id></film></r>"

/-- The expectation of a film with an id and an age. -/
def filmSpec : ContainerSpec :=
  ⟨"film", [.withValue (.existing "1" "id") "41,42", .existing "2" "m:age"]⟩

/-- The remarks and the other order make no difference to the container of the feed. -/
theorem checkContainers_of_remarkedFeed :
    ∃ d d', Document.read remarkedFeed = .ok d ∧ Document.read plainFeed = .ok d' ∧
      d.SameEssence d' ∧ checkContainers d filmSpec true = checkContainers d' filmSpec true := by
  have hread : Document.read remarkedFeed = .ok ⟨[], ⟨none, "r"⟩,
      [⟨some "m", "u"⟩, ⟨some "n", "v"⟩], [],
      [.element ⟨none, "film"⟩ [] [⟨⟨some "u", "age"⟩, "8"⟩, ⟨⟨none, "n"⟩, "2"⟩]
        [.element ⟨none, "id"⟩ [] [] [.text "4", .comment "?", .text "2"],
          .instruction "p" ""]], []⟩ := rfl
  have hread' : Document.read plainFeed = .ok ⟨[], ⟨none, "r"⟩,
      [⟨some "n", "v"⟩, ⟨some "m", "u"⟩], [],
      [.element ⟨none, "film"⟩ [] [⟨⟨none, "n"⟩, "2"⟩, ⟨⟨some "u", "age"⟩, "8"⟩]
        [.element ⟨none, "id"⟩ [] [] [.text "42"]]], []⟩ := rfl
  refine ⟨_, _, hread, hread', ?hsame, checkContainers_of_sameEssence hread ?hsame filmSpec true⟩
  exact .element (.swap _ _ _) .nil (.element .nil (.swap _ _ _)
    (.element .nil .nil (.text .nil) .nil) .nil) .nil

end FeedAudit

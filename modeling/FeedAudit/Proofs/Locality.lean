import FeedAudit.Check.Container
import FeedAudit.Proofs.Trees
import Mathlib.Data.List.Forall2

/-!
# Checks are local

What comes of a check is known from the subtree below its context alone. Two nodes, in documents
that may be quite different around them, have the *same subtree* (`Place.SameSubtree`) when the
elements below them correspond in order, with the same names, attributes, texts and prefixes in
scope. Corresponding places keep a fixed distance in document order, so whatever is selected below
them corresponds again (`Selection.select_of_correspond`), and no check can tell them apart.

Main statement: `checkContainer_of_sameSubtree`.
-/

namespace FeedAudit

open Markup

/-! ## Subtrees that say the same -/

namespace Markup

/-- Two scopes bind the same prefixes, each to the same namespace. -/
def Scope.Agrees (scope other : Scope) : Prop :=
  ∀ nsPrefix : String, scope.lookup (some nsPrefix) = other.lookup (some nsPrefix)

/-- Further declarations inside change two scopes alike. -/
theorem Scope.Agrees.append {scope other : Scope} (h : Scope.Agrees scope other)
    (bindings : List Binding) : Scope.Agrees (bindings ++ scope) (bindings ++ other) := by
  intro nsPrefix
  have houter := h nsPrefix
  rw [Scope.lookup, Scope.lookup] at houter ⊢
  rw [List.find?_append, List.find?_append]
  cases bindings.find? fun b => b.nsPrefix == some nsPrefix with
  | none => exact houter
  | some binding => rfl

/-- Two lists give each name of an attribute the same value, or both none. The order in which an
element lists its attributes does not matter. -/
def SameAttributes (attributes others : List Attribute) : Prop :=
  ∀ name, (attributes.find? fun a => a.name == name).map (·.value) =
    (others.find? fun a => a.name == name).map (·.value)

/-- Whether a node adds neither text nor elements to what it stands in. -/
def Node.isSilent : Node → Bool
  | .element _ _ _ _ => false
  | .text content => content == ""
  | .comment _ => true
  | .instruction _ _ => true

/-- Nodes in two scopes say the same when their elements correspond in order, with the same texts
around them. Comments and instructions do not count, even where they cut a text in two. -/
inductive SameContent : Scope → Scope → List Node → List Node → Prop
  | nil {scope other : Scope} : SameContent scope other [] []
  | element {scope other : Scope} {name : ExpandedName} {bindings bindings' : List Binding}
      {attributes attributes' : List Attribute} {children children' rest rest' : List Node}
      (hscope : Scope.Agrees (bindings ++ scope) (bindings' ++ other))
      (hattributes : SameAttributes attributes attributes')
      (hchildren : SameContent (bindings ++ scope) (bindings' ++ other) children children')
      (hrest : SameContent scope other rest rest') :
      SameContent scope other (.element name bindings attributes children :: rest)
        (.element name bindings' attributes' children' :: rest')
  | text {scope other : Scope} {content : String} {rest rest' : List Node}
      (hrest : SameContent scope other rest rest') :
      SameContent scope other (.text content :: rest) (.text content :: rest')
  | silentLeft {scope other : Scope} {n : Node} {rest rest' : List Node}
      (hsilent : n.isSilent) (hrest : SameContent scope other rest rest') :
      SameContent scope other (n :: rest) rest'
  | silentRight {scope other : Scope} {n : Node} {rest rest' : List Node}
      (hsilent : n.isSilent) (hrest : SameContent scope other rest rest') :
      SameContent scope other rest (n :: rest')
  | joinedLeft {scope other : Scope} {a b : String} {rest rest' : List Node}
      (happart : SameContent scope other (.text a :: .text b :: rest) rest') :
      SameContent scope other (.text (a ++ b) :: rest) rest'
  | joinedRight {scope other : Scope} {a b : String} {rest rest' : List Node}
      (happart : SameContent scope other rest (.text a :: .text b :: rest')) :
      SameContent scope other rest (.text (a ++ b) :: rest')

end Markup

/-- Two places have the same subtree: they agree in what they are themselves, and what stands below
them says the same. -/
structure Place.SameSubtree (p q : Place) : Prop where
  name : p.name = q.name
  scope : Scope.Agrees p.scope q.scope
  attributes : SameAttributes p.attributes q.attributes
  children : SameContent p.scope q.scope p.children q.children

namespace Markup

/-! ## What the same content has in common -/

/-- A silent node has no text. -/
theorem allText_of_isSilent {n : Node} (hsilent : n.isSilent) : n.allText = "" := by
  cases n with
  | element => cases hsilent
  | text content => exact eq_of_beq hsilent
  | comment => rfl
  | instruction => rfl

/-- There are no elements in a silent node. -/
theorem elementCount_of_isSilent {n : Node} (hsilent : n.isSilent) : n.elementCount = 0 := by
  cases n with
  | element => cases hsilent
  | _ => rfl

/-- There are no places in a silent node. -/
theorem places_of_isSilent {n : Node} (hsilent : n.isSilent) (scope : Scope) (rank : Nat) :
    n.places scope rank = [] := by
  cases n with
  | element => cases hsilent
  | _ => rfl

namespace SameContent

variable {scope other : Scope} {ns ns' : List Node}

/-- The same content has the same text. -/
theorem textOfList_eq (hsame : SameContent scope other ns ns') :
    Node.textOfList ns = Node.textOfList ns' := by
  induction hsame with
  | nil => rfl
  | element _ _ _ _ hchildren hrest =>
    rw [Node.textOfList, Node.textOfList, Node.allText, Node.allText, hchildren, hrest]
  | text _ hrest => rw [Node.textOfList, Node.textOfList, hrest]
  | silentLeft hsilent _ hrest =>
    rw [Node.textOfList, allText_of_isSilent hsilent, String.empty_append, hrest]
  | silentRight hsilent _ hrest =>
    rw [Node.textOfList, allText_of_isSilent hsilent, String.empty_append, hrest]
  | joinedLeft _ happart =>
    simp only [Node.textOfList, Node.allText] at happart ⊢
    rw [String.append_assoc, happart]
  | joinedRight _ happart =>
    simp only [Node.textOfList, Node.allText] at happart ⊢
    rw [String.append_assoc, happart]

/-- The same content has as many elements. -/
theorem elementCountOfList_eq (hsame : SameContent scope other ns ns') :
    Node.elementCountOfList ns = Node.elementCountOfList ns' := by
  induction hsame with
  | nil => rfl
  | element _ _ _ _ hchildren hrest =>
    rw [Node.elementCountOfList, Node.elementCountOfList, Node.elementCount, Node.elementCount,
      hchildren, hrest]
  | text _ hrest => rw [Node.elementCountOfList, Node.elementCountOfList, hrest]
  | silentLeft hsilent _ hrest =>
    rw [Node.elementCountOfList, elementCount_of_isSilent hsilent, Nat.zero_add, hrest]
  | silentRight hsilent _ hrest =>
    rw [Node.elementCountOfList, elementCount_of_isSilent hsilent, Nat.zero_add, hrest]
  | joinedLeft _ happart =>
    simp only [Node.elementCountOfList, Node.elementCount] at happart ⊢
    omega
  | joinedRight _ happart =>
    simp only [Node.elementCountOfList, Node.elementCount] at happart ⊢
    omega

/-- Nodes say the same wherever the same prefixes are bound. -/
theorem of_agrees {scope other : Scope} (hscope : Scope.Agrees scope other) (ns : List Node) :
    SameContent scope other ns ns := by
  match ns with
  | [] => exact .nil
  | .element name bindings attributes children :: rest =>
    have hinner := hscope.append bindings
    exact .element hinner (fun _ => rfl) (of_agrees hinner children) (of_agrees hscope rest)
  | .text content :: rest => exact .text (of_agrees hscope rest)
  | .comment content :: rest => exact .silentLeft rfl (.silentRight rfl (of_agrees hscope rest))
  | .instruction target content :: rest =>
    exact .silentLeft rfl (.silentRight rfl (of_agrees hscope rest))

end SameContent

end Markup

namespace Place

/-! ## Corresponding places -/

/-- Places with the same subtree that keep a distance in document order, given by the ranks `a` and
`b` of two other places. -/
structure Corresponds (a b : Nat) (p q : Place) : Prop extends p.SameSubtree q where
  rank : p.rank + b = q.rank + a

variable {a b : Nat} {p q p' q' : Place}

/-- The places of the same content correspond one by one. -/
theorem corresponds_of_sameContent {scope other : Scope} {ns ns' : List Node}
    (hsame : SameContent scope other ns ns') {rank rank' : Nat} (hrank : rank + b = rank' + a) :
    List.Forall₂ (Corresponds a b) (Node.placesOfList scope rank ns)
      (Node.placesOfList other rank' ns') := by
  induction hsame generalizing rank rank' with
  | nil => exact .nil
  | @element scope other name bindings bindings' attributes attributes' children children' rest
      rest' hscope hattributes hchildren hrest ihchildren ihrest =>
    have hcount := hchildren.elementCountOfList_eq
    rw [Node.placesOfList, Node.placesOfList, Node.places, Node.places, Node.elementCount,
      Node.elementCount]
    refine List.rel_append (.cons ⟨⟨rfl, hscope, hattributes, hchildren⟩, hrank⟩ ?_) ?_
    · exact ihchildren (by omega)
    · exact ihrest (by omega)
  | text hrest ih =>
    rw [Node.placesOfList, Node.placesOfList]
    exact ih hrank
  | silentLeft hsilent hrest ih =>
    rw [Node.placesOfList, places_of_isSilent hsilent, elementCount_of_isSilent hsilent]
    exact ih hrank
  | silentRight hsilent hrest ih =>
    rw [Node.placesOfList, places_of_isSilent hsilent, elementCount_of_isSilent hsilent]
    exact ih hrank
  | joinedLeft happart ih =>
    have hapart := ih hrank
    simp only [Node.placesOfList, Node.places, List.nil_append] at hapart ⊢
    exact hapart
  | joinedRight happart ih =>
    have hapart := ih hrank
    simp only [Node.placesOfList, Node.places, List.nil_append] at hapart ⊢
    exact hapart

/-- What stands below places that correspond corresponds, one by one. -/
theorem Corresponds.below (h : Corresponds a b p q) :
    List.Forall₂ (Corresponds a b) p.below q.below :=
  corresponds_of_sameContent h.children (by have := h.rank; omega)

/-- Corresponding places stand in the same order. -/
theorem Corresponds.rank_lt_iff (h : Corresponds a b p q) (h' : Corresponds a b p' q') :
    p.rank < p'.rank ↔ q.rank < q'.rank := by
  have hfirst := h.rank
  have hsecond := h'.rank
  constructor <;> intro hlt <;> omega

namespace SameSubtree

variable (h : p.SameSubtree q)

include h

/-- Places that correspond have the same text. -/
theorem text_eq : p.text = q.text := h.children.textOfList_eq

/-- Places that correspond have the same attributes. -/
theorem attribute?_eq (name : ExpandedName) : p.attribute? name = q.attribute? name :=
  h.attributes name

/-- A prefix means the same at both places, or nothing at both. -/
theorem spaceAt_eq (name : Selector) : name.spaceAt p = name.spaceAt q := by
  unfold Selector.spaceAt
  split
  · rfl
  · rfl
  · rw [h.scope]

/-- A name accepts both or none of two places that correspond. -/
theorem accepts_eq (name : Selector) (space : Option String) :
    name.accepts space p = name.accepts space q := by
  unfold Selector.accepts
  rw [h.name]

end SameSubtree

end Place

/-! ## Corresponding selections -/

/-- Two computations come to related results, or to the same fault. -/
inductive ComeAlike {α β : Type} (R : α → β → Prop) : Except Fault α → Except Fault β → Prop
  | ok {x : α} {y : β} (h : R x y) : ComeAlike R (.ok x) (.ok y)
  | error (fault : Fault) : ComeAlike R (.error fault) (.error fault)

namespace Selection

/-- Lists of places that correspond one by one. -/
abbrev PlacesCorrespond (a b : Nat) : List Place → List Place → Prop :=
  List.Forall₂ (Place.Corresponds a b)

/-- Selections that correspond place by place. -/
def Corresponds (a b : Nat) (s t : Selection) : Prop := PlacesCorrespond a b s.places t.places

variable {a b : Nat} {s t : Selection}

/-- Places that correspond are united to places that correspond. -/
theorem union_of_correspond {xs ys xs' ys' : List Place} (hx : PlacesCorrespond a b xs xs')
    (hy : PlacesCorrespond a b ys ys') :
    PlacesCorrespond a b (union xs ys) (union xs' ys') := by
  induction hx generalizing ys ys' with
  | nil =>
    rw [union, union]
    exact hy
  | @cons x x' xs xs' hxx' hxs ihx =>
    induction hy with
    | nil =>
      rw [union, union]
      · exact .cons hxx' hxs
      · exact List.cons_ne_nil _ _
      · exact List.cons_ne_nil _ _
    | @cons y y' ys ys' hyy' hys ihy =>
      have hfirst := hxx'.rank_lt_iff hyy'
      have hsecond := hyy'.rank_lt_iff hxx'
      rw [union, union]
      by_cases hxy : x.rank < y.rank
      · rw [if_pos hxy, if_pos (hfirst.mp hxy)]
        exact .cons hxx' (ihx (.cons hyy' hys))
      · rw [if_neg hxy, if_neg (mt hfirst.mpr hxy)]
        by_cases hyx : y.rank < x.rank
        · rw [if_pos hyx, if_pos (hsecond.mp hyx)]
          exact .cons hyy' ihy
        · rw [if_neg hyx, if_neg (mt hsecond.mpr hyx)]
          exact .cons hxx' (ihx hys)

/-- Below corresponding places, a name finds corresponding elements. -/
theorem selectBelow_of_corresponds {p q : Place} (h : Place.Corresponds a b p q)
    (name : Selector) :
    ComeAlike (PlacesCorrespond a b) (selectBelow name p) (selectBelow name q) := by
  rw [selectBelow, selectBelow, ← h.spaceAt_eq]
  cases name.spaceAt p with
  | error fault => exact .error fault
  | ok space =>
    refine .ok ?_
    have hbelow := h.below
    generalize p.below = xs at hbelow ⊢
    generalize q.below = ys at hbelow ⊢
    induction hbelow with
    | nil => exact .nil
    | @cons x y xs ys hxy hrest ih =>
      rw [List.filter_cons, List.filter_cons, ← hxy.accepts_eq]
      by_cases haccepts : name.accepts space x
      · rw [if_pos haccepts, if_pos haccepts]
        exact .cons hxy ih
      · rw [if_neg haccepts, if_neg haccepts]
        exact ih

/-- Below places that correspond, the same elements are selected, or the same fault is met. -/
theorem selectPlaces_of_correspond {ps qs : List Place} (h : PlacesCorrespond a b ps qs)
    (name : Selector) :
    ComeAlike (PlacesCorrespond a b) (selectPlaces name ps) (selectPlaces name qs) := by
  induction h with
  | nil => exact .ok .nil
  | @cons p q ps qs hpq hrest ih =>
    have hbelow := selectBelow_of_corresponds hpq name
    rw [selectPlaces, selectPlaces]
    generalize selectBelow name p = found at hbelow ⊢
    generalize selectBelow name q = found' at hbelow ⊢
    cases hbelow with
    | error fault => exact .error fault
    | ok hfound =>
      dsimp only
      generalize selectPlaces name ps = others at ih ⊢
      generalize selectPlaces name qs = others' at ih ⊢
      cases ih with
      | error fault => exact .error fault
      | ok hothers => exact .ok (union_of_correspond hfound hothers)

/-- Below corresponding selections, a name finds corresponding selections. -/
theorem select_of_correspond (h : s.Corresponds a b t) (name : Selector) :
    ComeAlike (Selection.Corresponds a b) (s.select name) (t.select name) := by
  have hplaces := selectPlaces_of_correspond h name
  rw [select, select]
  generalize selectPlaces name s.places = found at hplaces ⊢
  generalize selectPlaces name t.places = found' at hplaces ⊢
  cases hplaces with
  | error fault => exact .error fault
  | ok hfound => exact .ok hfound

namespace Corresponds

variable (h : s.Corresponds a b t)

include h

/-- Selections that correspond have the same number of places. -/
theorem size_eq : s.size = t.size := List.Forall₂.length_eq h

/-- Selections that correspond are both empty or both not. -/
theorem isEmpty_eq : s.isEmpty = t.isEmpty := by
  rw [Corresponds] at h
  rw [isEmpty, isEmpty]
  generalize s.places = ps at h ⊢
  generalize t.places = qs at h ⊢
  cases h <;> rfl

/-- Selections that correspond have the same text. -/
theorem text_eq : s.text = t.text := by
  have htexts : s.places.map Place.text = t.places.map Place.text := by
    rw [Corresponds] at h
    generalize s.places = ps at h ⊢
    generalize t.places = qs at h ⊢
    induction h with
    | nil => rfl
    | cons hpq hrest ih => rw [List.map_cons, List.map_cons, hpq.text_eq, ih]
  rw [text, text, htexts]

/-- Selections that correspond have the same attribute of a name. -/
theorem attribute?_eq (name : Selector) : s.attribute? name = t.attribute? name := by
  rw [Corresponds] at h
  rw [attribute?, attribute?]
  generalize s.places = ps at h ⊢
  generalize t.places = qs at h ⊢
  cases h with
  | nil => rfl
  | @cons p q ps qs hpq hrest =>
    dsimp only
    rw [hpq.spaceAt_eq]
    cases name.spaceAt q with
    | error fault => rfl
    | ok space =>
      dsimp only
      rw [hpq.attribute?_eq]

end Corresponds

end Selection

/-! ## Checks of corresponding selections -/

section Checks

variable {a b : Nat} {s t : Selection} (h : s.Corresponds a b t)

include h

/-- A name selects the same below selections that correspond, or has the same fault. -/
theorem selectNamed_of_correspond (name : String) :
    ComeAlike (Selection.Corresponds a b) (selectNamed s name) (selectNamed t name) := by
  rw [selectNamed, selectNamed]
  cases Selector.read name with
  | error fault => exact .error fault
  | ok selector => exact Selection.select_of_correspond h selector

/-- The text of selections that correspond is checked alike. -/
theorem checkValue_of_correspond (expected : Pattern) :
    checkValue s expected = checkValue t expected := by
  rw [checkValue, checkValue, h.text_eq]

/-- An attribute of selections that correspond is checked alike. -/
theorem checkAttribute_of_correspond (spec : AttributeSpec) :
    checkAttribute s spec = checkAttribute t spec := by
  have hvalue : attributeValue s spec.name = attributeValue t spec.name := by
    rw [attributeValue, attributeValue]
    cases Selector.read spec.name with
    | error fault => rfl
    | ok selector =>
      dsimp only
      rw [h.attribute?_eq]
  rw [checkAttribute, checkAttribute, judgeAttribute, judgeAttribute, hvalue]

/-- All listed attributes of selections that correspond are checked alike. -/
theorem checkAttributeList_of_correspond (specs : List AttributeSpec) :
    checkAttributeList s specs = checkAttributeList t specs := by
  induction specs with
  | nil => rfl
  | cons spec rest ih =>
    rw [checkAttributeList, checkAttributeList, checkAttribute_of_correspond h, ih]

/-- The text of selections that correspond is checked alike, if it is checked. -/
theorem checkOptionalValue_of_correspond (expected : Option Pattern) :
    checkOptionalValue s expected = checkOptionalValue t expected := by
  cases expected with
  | none => rfl
  | some expected =>
    rw [checkOptionalValue, checkOptionalValue, checkValue_of_correspond h]

/-- The attributes of selections that correspond are checked alike, if they are checked. -/
theorem checkOptionalAttributes_of_correspond (specs : Option (List AttributeSpec)) :
    checkOptionalAttributes s specs = checkOptionalAttributes t specs := by
  cases specs with
  | none => rfl
  | some specs =>
    rw [checkOptionalAttributes, checkOptionalAttributes, checkAttributes, checkAttributes,
      checkAttributeList_of_correspond h]

omit h in
/-- Elements that are each checked alike are checked alike one after the other. -/
theorem checkElements_of_forall {specs : List ElementSpec}
    (heach : ∀ spec ∈ specs, checkElement s spec = checkElement t spec) :
    checkElements s specs = checkElements t specs := by
  induction specs with
  | nil => rw [checkElements, checkElements]
  | cons spec rest ih =>
    rw [checkElements, checkElements, heach spec List.mem_cons_self,
      ih fun other hother => heach other (List.mem_cons_of_mem _ hother)]

end Checks

/-- Below corresponding selections an element is checked alike, at whatever depth its children
stand: with the same results, and the same told about them. -/
theorem checkElement_of_correspond {a b : Nat} {s t : Selection} (h : s.Corresponds a b t)
    (spec : ElementSpec) : checkElement s spec = checkElement t spec := by
  induction spec using ElementSpec.tree_induction generalizing s t with
  | step spec ih =>
    obtain ⟨id, name, value, attributes, children⟩ := spec
    have hnamed := selectNamed_of_correspond h name
    rw [checkElement, checkElement]
    generalize selectNamed s name = found at hnamed ⊢
    generalize selectNamed t name = found' at hnamed ⊢
    cases hnamed with
    | error fault => rfl
    | @ok found found' hfound =>
      have hchildren : checkChildren found children = checkChildren found' children := by
        cases children with
        | none => rw [checkChildren, checkChildren]
        | some specs =>
          have hspecs :=
            checkElements_of_forall fun child hchild => ih specs rfl child hchild hfound
          rw [checkChildren, checkChildren, hspecs]
      dsimp only
      rw [hfound.isEmpty_eq, hfound.size_eq, checkOptionalValue_of_correspond hfound,
        checkOptionalAttributes_of_correspond hfound, hchildren]

/-- Containers that correspond have the same id. -/
theorem containerId_of_correspond {a b : Nat} {s t : Selection} (h : s.Corresponds a b t) :
    containerId s = containerId t := by
  have hids := Selection.select_of_correspond h idSelector
  rw [containerId, containerId]
  generalize s.select idSelector = found at hids ⊢
  generalize t.select idSelector = found' at hids ⊢
  cases hids with
  | error fault => rfl
  | ok hfound =>
    dsimp only
    rw [hfound.text_eq]

/-- Two elements with the same subtree are checked alike, whatever else stands in the documents that
they belong to: the id, the results and the log of the container are the same. -/
theorem checkContainer_of_sameSubtree {p q : Place} (h : p.SameSubtree q) (spec : ContainerSpec) :
    checkContainer (.ofPlace p) spec = checkContainer (.ofPlace q) spec := by
  have hselections : (Selection.ofPlace p).Corresponds p.rank q.rank (.ofPlace q) :=
    .cons ⟨h, Nat.add_comm _ _⟩ .nil
  have helements := checkElements_of_forall fun child (_ : child ∈ spec.elements) =>
    checkElement_of_correspond hselections child
  rw [checkContainer, checkContainer, narrateContainer, narrateContainer,
    containerId_of_correspond hselections, helements]

/-! ## A record that moves -/

/-- A feed with one record in which all prefixes are declared at the root. -/
def declaredAtRoot : Document where
  before := []
  rootName := ⟨none, "reviews"⟩
  rootBindings := [⟨some "media", "urn:media"⟩]
  rootAttributes := []
  rootChildren := [.text "\n",
    .element ⟨none, "review"⟩ [] [⟨⟨none, "lang"⟩, "en"⟩]
      [.element ⟨none, "id"⟩ [] [] [.text "r7"],
        .element ⟨some "urn:media", "rating"⟩ [] [] [.text "PG", .comment "13?"]]]
  after := []

/-- Another feed with the same record behind a different one. -/
def declaredInside : Document where
  before := [.comment "all reviews"]
  rootName := ⟨none, "feed"⟩
  rootBindings := [⟨some "media", "urn:other"⟩]
  rootAttributes := []
  rootChildren := [.element ⟨none, "review"⟩ [] [] [.element ⟨none, "id"⟩ [] [] [.text "8"]],
    .element ⟨none, "review"⟩ [⟨some "media", "urn:media"⟩] [⟨⟨none, "lang"⟩, "en"⟩]
      [.element ⟨none, "id"⟩ [] [] [.text "r", .text "7"],
        .element ⟨some "urn:media", "rating"⟩ [] [] [.text "PG"]], .text "end"]
  after := []

/-- The record has the same subtree in both feeds, although one declares its prefix further outside,
and is checked alike. -/
theorem checkContainer_of_moved_record :
    let spec : ContainerSpec :=
      ⟨"review", [.withAttributes (.withValue (.existing "1" "media:rating") "G,PG")
        [.ofText "1.1" "media:scheme" "*"]]⟩
    ∃ p ∈ (Place.ofDocument declaredAtRoot).below, ∃ q ∈ (Place.ofDocument declaredInside).below,
      p.rank = 2 ∧ q.rank = 4 ∧ p.SameSubtree q ∧
      checkContainer (.ofPlace p) spec = checkContainer (.ofPlace q) spec := by
  intro spec
  -- The same prefixes are bound, though by other declarations.
  have hscope : Scope.Agrees [⟨some "media", "urn:media"⟩, ⟨some "media", "urn:media"⟩]
      [⟨some "media", "urn:media"⟩, ⟨some "media", "urn:other"⟩,
        ⟨some "media", "urn:other"⟩] := by
    intro nsPrefix
    by_cases hmedia : "media" = nsPrefix
    · subst hmedia
      rfl
    · simp [Scope.lookup, hmedia]
  have hid : SameContent [⟨some "media", "urn:media"⟩, ⟨some "media", "urn:media"⟩]
      [⟨some "media", "urn:media"⟩, ⟨some "media", "urn:other"⟩, ⟨some "media", "urn:other"⟩]
      [.text ("r" ++ "7")] [.text "r", .text "7"] :=
    .joinedLeft (.of_agrees hscope _)
  have hsame : Place.SameSubtree
      ⟨2, some ⟨none, "review"⟩, [⟨some "media", "urn:media"⟩, ⟨some "media", "urn:media"⟩],
        [⟨⟨none, "lang"⟩, "en"⟩],
        [.element ⟨none, "id"⟩ [] [] [.text "r7"],
          .element ⟨some "urn:media", "rating"⟩ [] [] [.text "PG", .comment "13?"]]⟩
      ⟨4, some ⟨none, "review"⟩,
        [⟨some "media", "urn:media"⟩, ⟨some "media", "urn:other"⟩, ⟨some "media", "urn:other"⟩],
        [⟨⟨none, "lang"⟩, "en"⟩],
        [.element ⟨none, "id"⟩ [] [] [.text "r", .text "7"],
          .element ⟨some "urn:media", "rating"⟩ [] [] [.text "PG"]]⟩ :=
    ⟨rfl, hscope, fun _ => rfl, .element hscope (fun _ => rfl) hid
      (.element hscope (fun _ => rfl) (.text (.silentLeft rfl .nil)) .nil)⟩
  refine ⟨_, ?_, _, ?_, rfl, rfl, hsame, checkContainer_of_sameSubtree hsame spec⟩
  · exact List.mem_of_getElem? (i := 1) rfl
  · exact List.mem_of_getElem? (i := 3) rfl

end FeedAudit

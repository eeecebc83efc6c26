import FeedAudit.Markup.Reader
import Mathlib.Data.List.Nodup

/-!
# Names in a document that was read

Within one element of a document that was read, no two attributes have the same name and no two
declarations bind the same prefix: the reader refuses them, whatever is read around the element.
Main statement: `Document.distinct_of_read`.
-/

namespace FeedAudit.Markup

/-- No element in a node has two attributes of one name, or two declarations of one prefix. -/
inductive Node.Distinct : Node → Prop
  | element {name : ExpandedName} {bindings : List Binding} {attributes : List Attribute}
      {children : List Node} (hbindings : (bindings.filterMap (·.nsPrefix)).Nodup)
      (hattributes : (attributes.map (·.name)).Nodup)
      (hchildren : ∀ n ∈ children, n.Distinct) :
      (Node.element name bindings attributes children).Distinct
  | text (content : String) : (Node.text content).Distinct
  | comment (content : String) : (Node.comment content).Distinct
  | instruction (target content : String) : (Node.instruction target content).Distinct

/-! ## One element -/

/-- The declarations of an element bind each prefix once. -/
theorem nodup_of_bindingsOf {seen : List Binding} {given : List Given} {bindings : List Binding}
    (hseen : (seen.filterMap (·.nsPrefix)).Nodup) (h : bindingsOf seen given = .ok bindings) :
    (bindings.filterMap (·.nsPrefix)).Nodup := by
  induction given generalizing seen with
  | nil =>
    cases h
    rw [List.filterMap_reverse, List.nodup_reverse]
    exact hseen
  | cons g rest ih =>
    cases g with
    | binding b =>
      simp only [bindingsOf] at h
      cases hbinding : b.nsPrefix with
      | none =>
        rw [hbinding] at h
        exact ih (by rw [List.filterMap_cons_none hbinding]; exact hseen) h
      | some p =>
        rw [hbinding] at h
        dsimp only at h
        split at h
        · cases h
        · rename_i hnew
          refine ih ?_ h
          rw [List.filterMap_cons_some hbinding, List.nodup_cons]
          refine ⟨fun hmem => hnew ?_, hseen⟩
          obtain ⟨s, hs, hsame⟩ := List.mem_filterMap.mp hmem
          exact List.any_eq_true.mpr ⟨s, hs, by rw [hsame, beq_self_eq_true]⟩
    | nothing => exact ih hseen h
    | «attribute» n value => exact ih hseen h

/-- The attributes of an element have different names. -/
theorem nodup_of_attributesOf {scope : Scope} {seen : List Attribute} {given : List Given}
    {attributes : List Attribute} (hseen : (seen.map (·.name)).Nodup)
    (h : attributesOf scope seen given = .ok attributes) : (attributes.map (·.name)).Nodup := by
  induction given generalizing seen with
  | nil =>
    cases h
    rw [List.map_reverse, List.nodup_reverse]
    exact hseen
  | cons g rest ih =>
    cases g with
    | binding b => exact ih hseen h
    | nothing => exact ih hseen h
    | «attribute» n value =>
      simp only [attributesOf] at h
      split at h
      · cases h
      · rename_i name hname
        split at h
        · cases h
        · rename_i hnew
          refine ih ?_ h
          rw [List.map_cons, List.nodup_cons]
          refine ⟨fun hmem => hnew ?_, hseen⟩
          obtain ⟨s, hs, hsame⟩ := List.mem_map.mp hmem
          exact List.any_eq_true.mpr ⟨s, hs, by rw [hsame, beq_self_eq_true]⟩

/-- What is added to an element that is open stands in it when it is closed. -/
theorem OpenElement.distinct_add {e : OpenElement} {n : Node} (he : e.close.Distinct)
    (hn : n.Distinct) : (OpenElement.close { e with children := n :: e.children }).Distinct := by
  unfold OpenElement.close at he ⊢
  cases he with
  | element hbindings hattributes hchildren =>
    refine .element hbindings hattributes fun m hm => ?_
    rw [List.mem_reverse, List.mem_cons] at hm
    rcases hm with rfl | hm
    · exact hn
    · exact hchildren m (List.mem_reverse.mpr hm)

/-! ## Building the tree -/

namespace Builder

/-- All that has been read of the elements so far has distinct names. -/
structure Distinct (b : Builder) : Prop where
  stack : ∀ e ∈ b.stack, e.close.Distinct
  root : ∀ e, b.root = some e → e.close.Distinct

variable {b b' : Builder}

/-- Names stay distinct when a node with distinct names is added. -/
theorem Distinct.add (hb : b.Distinct) {n : Node} (hn : n.Distinct) : (b.add n).Distinct := by
  unfold Builder.add
  split
  · rename_i e rest hstack
    have he : ∀ e' ∈ e :: rest, e'.close.Distinct := hstack ▸ hb.stack
    refine ⟨?_, hb.root⟩
    rw [List.forall_mem_cons] at he ⊢
    exact ⟨OpenElement.distinct_add he.1 hn, he.2⟩
  · split
    · exact ⟨hb.stack, hb.root⟩
    · exact ⟨hb.stack, hb.root⟩

/-- Names stay distinct when the innermost element is closed. -/
theorem Distinct.closeElement (hb : b.Distinct) : b.closeElement.Distinct := by
  unfold Builder.closeElement
  split
  · exact hb
  · rename_i e hstack
    refine ⟨nofun, fun root hroot => ?_⟩
    cases hroot
    exact hb.stack e (by rw [hstack]; exact List.mem_singleton_self e)
  · rename_i e parent rest hstack
    have hall : ∀ e' ∈ e :: parent :: rest, e'.close.Distinct := hstack ▸ hb.stack
    rw [List.forall_mem_cons, List.forall_mem_cons] at hall
    refine ⟨?_, hb.root⟩
    rw [List.forall_mem_cons]
    exact ⟨OpenElement.distinct_add hall.2.1 hall.1, hall.2.2⟩

/-- An element is opened only with distinct names. -/
theorem Distinct.openElement (hb : b.Distinct) {tag : TagName} {attributes : List TagAttribute}
    (h : b.openElement tag attributes = .ok b') : b'.Distinct := by
  unfold Builder.openElement at h
  simp only [bind, Except.bind] at h
  split at h
  · cases h
  · split at h
    · cases h
    · rename_i given hgiven
      split at h
      · cases h
      · rename_i bindings hbindings
        split at h
        · cases h
        · split at h
          · cases h
          · rename_i attributes hattributes
            cases h
            refine ⟨?_, hb.root⟩
            rw [List.forall_mem_cons]
            have hbound : (([] : List Binding).filterMap (·.nsPrefix)).Nodup := List.nodup_nil
            have hnamed : (([] : List Attribute).map (·.name)).Nodup := List.nodup_nil
            exact ⟨.element (nodup_of_bindingsOf hbound hbindings)
              (nodup_of_attributesOf hnamed hattributes) nofun, hb.stack⟩

/-- Names stay distinct when a token is read. -/
theorem Distinct.step (hb : b.Distinct) {token : Token} (h : b.step token = .ok b') :
    b'.Distinct := by
  -- Attributes come in with an opening tag only, and there they are compared with each other.
  cases token with
  | openTag tag attributes isEmpty =>
    simp only [Builder.step, bind, Except.bind] at h
    split at h
    · cases h
    · rename_i opened hopened
      have hdistinct := hb.openElement hopened
      cases h
      split
      · exact hdistinct.closeElement
      · exact hdistinct
  | closeTag tag =>
    simp only [Builder.step] at h
    split at h
    · split at h
      · cases h
        exact hb.closeElement
      · cases h
    · cases h
  | text raw =>
    simp only [Builder.step] at h
    split at h
    · split at h
      · cases h
        exact hb
      · cases h
    · cases htext : textOf raw with
      | error fault =>
        rw [htext] at h
        cases h
      | ok s =>
        rw [htext] at h
        cases h
        exact hb.add (.text s)
  | characterData raw =>
    simp only [Builder.step] at h
    split at h
    · cases h
    · cases h
      exact hb.add (.text _)
  | comment content =>
    cases h
    exact hb.add (.comment _)
  | instruction target content =>
    cases h
    exact hb.add (.instruction _ _)

/-- However many tokens are added, the names stay distinct. -/
theorem Distinct.run (hb : b.Distinct) {tokens : List Token} (h : b.run tokens = .ok b') :
    b'.Distinct := by
  induction tokens generalizing b with
  | nil =>
    cases h
    exact hb
  | cons token rest ih =>
    simp only [Builder.run] at h
    split at h
    · rename_i next hnext
      exact ih (hb.step hnext) h
    · cases h

/-- A document that was read has distinct names. -/
theorem Distinct.finish (hb : b.Distinct) {d : Document} (h : b.finish = .ok d) :
    d.root.Distinct := by
  unfold Builder.finish at h
  split at h
  · cases h
  · split at h
    · cases h
    · rename_i e hroot
      cases h
      exact hb.root e hroot

end Builder

/-- A document that was read has distinct names at each of its elements. -/
theorem Document.distinct_of_read {text : String} {d : Document} (h : Document.read text = .ok d) :
    d.root.Distinct := by
  simp only [Document.read, bind, Except.bind] at h
  split at h
  · cases h
  · split at h
    · cases h
    · rename_i built hbuilt
      have hstart : ({} : Builder).Distinct := ⟨nofun, nofun⟩
      exact (hstart.run hbuilt).finish h

end FeedAudit.Markup

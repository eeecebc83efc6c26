import FeedAudit.Proofs.Consistency

/-!
# Results explain themselves

Whatever did not pass comes with a message, and whatever passed comes with none. A message is made
where a check is made and passed on upwards: the message of an attribute list joins those of its
attributes, and the message of an element joins those of its parts, in each case exactly of those
that did not pass. As each level is made from optional messages of the level below it, one part
without a message would silence everything above it.

`ElementResult.Coherent` says of one result where its verdict and its message come from. Main
statement: `coherent_checkElement`. All nodes of the results that checks leave are coherent.
-/

namespace FeedAudit

open Narrated

/-! ## Verdicts and messages of several parts -/

/-- A verdict is the most severe one of some verdicts, and of none it is `pass`. -/
structure Verdict.HighestOf (v : Verdict) (vs : List Verdict) : Prop where
  mem : vs ≠ [] → v ∈ vs
  severity_le : ∀ w ∈ vs, w.severity ≤ v.severity
  of_nil : vs = [] → v = .pass

/-- The worst of several verdicts is the highest of them. -/
theorem Verdict.highestOf_worst (vs : List Verdict) : (worst vs).HighestOf vs where
  mem := worst_mem
  severity_le _ hw := severity_le_worst hw
  of_nil h := by rw [h, worst_nil]

/-- The highest of several verdicts passes exactly if all of them do. -/
theorem Verdict.HighestOf.eq_pass_iff {v : Verdict} {vs : List Verdict} (h : v.HighestOf vs) :
    v = .pass ↔ ∀ w ∈ vs, w = .pass := by
  constructor
  · intro hv w hw
    exact eq_pass_of_severity_le (h.severity_le w hw) hv
  · intro hall
    by_cases hnil : vs = []
    · exact h.of_nil hnil
    · exact hall v (h.mem hnil)

/-- The parts that did not pass, of parts that are given by their verdicts and messages. -/
def failingParts (parts : List (Verdict × Option String)) : List (Verdict × Option String) :=
  parts.filter fun p => p.1 ≠ .pass

/-- Every part that did not pass has a message, and a message joins just these in order; there is
none if all parts passed. -/
def JoinsFailing (sep : String) (parts : List (Verdict × Option String))
    (message : Option String) : Prop :=
  ∃ texts, (failingParts parts).map (·.2) = texts.map some ∧
    message = if texts = [] then none else some (Text.joined sep texts)

/-- Texts that start with one that is not empty are not empty when joined. -/
theorem joined_ne_empty {sep text : String} {texts : List String} (h : text ≠ "") :
    Text.joined sep (text :: texts) ≠ "" := by
  rw [Text.joined]
  cases texts with
  | nil =>
    rw [String.intercalate_singleton]
    exact h
  | cons next rest =>
    rw [String.intercalate_cons_cons]
    exact append_ne_empty (append_ne_empty h _) _

/-- Where everything has an image, the images are all that is mapped to. -/
theorem map_some_filterMap {α β : Type} {f : α → Option β} {xs : List α}
    (h : ∀ x ∈ xs, (f x).isSome = true) : (xs.filterMap f).map some = xs.map f := by
  induction xs with
  | nil => rfl
  | cons x rest ih =>
    obtain ⟨y, hy⟩ := Option.isSome_iff_exists.mp (h x List.mem_cons_self)
    rw [List.filterMap_cons_some hy, List.map_cons, List.map_cons, hy,
      ih fun z hz => h z (List.mem_cons_of_mem x hz)]

section Parts

variable {sep : String} {parts : List (Verdict × Option String)} {verdict : Verdict}
  {message : Option String}

/-- The failing parts are those that did not pass. -/
theorem mem_failingParts {p : Verdict × Option String} :
    p ∈ failingParts parts ↔ p ∈ parts ∧ p.1 ≠ .pass := by
  simp [failingParts]

/-- The failing parts of two lists are found one list after the other. -/
theorem failingParts_append (others : List (Verdict × Option String)) :
    failingParts (parts ++ others) = failingParts parts ++ failingParts others :=
  List.filter_append ..

/-- The messages of parts that explain themselves can be joined. -/
theorem joinsFailing_of_explains (h : ∀ p ∈ parts, Explains p.2 p.1) :
    JoinsFailing sep parts (joinedMessage sep ((failingParts parts).filterMap (·.2))) := by
  refine ⟨(failingParts parts).filterMap (·.2), ?_, ?_⟩
  · refine (map_some_filterMap fun p hp => ?_).symm
    obtain ⟨hmem, hfail⟩ := mem_failingParts.mp hp
    exact (h p hmem).isSome_iff.mpr hfail
  · rw [joinedMessage]
    simp only [List.isEmpty_iff]

/-- What is joined from parts that explain themselves goes with the highest of their verdicts. -/
theorem JoinsFailing.explains (h : JoinsFailing sep parts message)
    (hparts : ∀ p ∈ parts, Explains p.2 p.1) (hverdict : verdict.HighestOf (parts.map (·.1))) :
    Explains message verdict := by
  obtain ⟨texts, htexts, rfl⟩ := h
  cases texts with
  | nil =>
    have hpass : verdict = .pass := by
      rw [hverdict.eq_pass_iff, List.forall_mem_map]
      intro p hp
      by_contra hfail
      have hmem := mem_failingParts.mpr ⟨hp, hfail⟩
      rw [List.map_eq_nil_iff.mp htexts] at hmem
      cases hmem
    rw [hpass]
    exact explains_pass
  | cons text rest =>
    -- The first text comes from a part that did not pass, so the highest verdict is no pass either.
    obtain ⟨p, hp, htext⟩ : ∃ p ∈ failingParts parts, p.2 = some text := by
      have hmem : some text ∈ (failingParts parts).map (·.2) := by
        rw [htexts]
        exact List.mem_cons_self
      exact List.mem_map.mp hmem
    obtain ⟨hmem, hfail⟩ := mem_failingParts.mp hp
    have hne : verdict ≠ .pass := fun hpass =>
      hfail (hverdict.eq_pass_iff.mp hpass p.1 (List.mem_map_of_mem hmem))
    exact explains_some hne (joined_ne_empty ((hparts p hmem).ne_empty text htext))

end Parts

/-! ## Coherent results -/

/-- The attributes of a list with their verdicts and messages. -/
def AttributesResult.parts (a : AttributesResult) : List (Verdict × Option String) :=
  a.each.map fun x => (x.verdict, x.message)

/-- What an element says about its children: nothing if they passed, and otherwise the verdict on
them, whichever of them did not pass. -/
def ChildrenResult.message {α : Type} (c : ChildrenResult α) : Option String :=
  if c.verdict = .pass then none else some s!"Child elements validation is {c.verdict.word}"

/-- The message on children goes with the verdict on them. -/
theorem ChildrenResult.explains_message {α : Type} (c : ChildrenResult α) :
    Explains c.message c.verdict := by
  unfold message
  split
  · next hpass =>
    rw [hpass]
    exact explains_pass
  · next hfail => exact explains_some hfail (append_ne_empty (by decide) _)

namespace ElementResult

/-- The parts of a result that are present, with their verdicts and messages. -/
def parts (r : ElementResult) : List (Verdict × Option String) :=
  (r.value.toList.map fun v => (v.verdict, v.message)) ++
    (r.attributes.toList.map fun a => (a.verdict, a.message)) ++
    r.children.toList.map fun c => (c.verdict, c.message)

/-- A result has no parts. -/
def Bare (r : ElementResult) : Prop := r.value = none ∧ r.attributes = none ∧ r.children = none

/-- The verdict and the message of a result, and those of its parts, come from where they should:
the element is missing, or it is blocked by a fault of its name, or both are summed up from the
parts that are present. -/
structure Coherent (r : ElementResult) : Prop where
  origin : (r.Bare ∧ r.verdict = .fail ∧ r.message = some "Element not exist!") ∨
    (r.Bare ∧ r.verdict = .block ∧ ∃ context fault,
      selectNamed context r.name = .error fault ∧ r.message = some fault.message) ∨
    (r.verdict.HighestOf (r.parts.map (·.1)) ∧ JoinsFailing " " r.parts r.message)
  explained : Explains r.message r.verdict
  value : ∀ v, r.value = some v → v.verdict ≠ .block ∧ Explains v.message v.verdict
  each_attribute : ∀ a, r.attributes = some a → ∀ x ∈ a.each, Explains x.message x.verdict
  attributes : ∀ a, r.attributes = some a →
    a.verdict.HighestOf (a.each.map (·.verdict)) ∧ JoinsFailing ", " a.parts a.message ∧
      Explains a.message a.verdict
  children : ∀ c, r.children = some c → c.verdict.HighestOf (c.each.map (·.verdict))

end ElementResult

/-! ## The results of checks -/

/-- A text passes or fails, and the message on it says which. -/
theorem explains_checkValue (found : Selection) (expected : Pattern) :
    (checkValue found expected).result.verdict ≠ .block ∧
      Explains (checkValue found expected).result.message
        (checkValue found expected).result.verdict := by
  rw [result_checkValue]
  split
  · exact ⟨by simp, explains_pass⟩
  · exact ⟨by simp, explains_some (by simp) (append_ne_empty (append_ne_empty (by decide) _) _)⟩

/-- No message of attributes that explain themselves is left out for being empty. -/
theorem attributeMessages_eq {results : List AttributeResult}
    (h : ∀ a ∈ results, Explains a.message a.verdict) :
    attributeMessages results =
      (failingParts (results.map fun a => (a.verdict, a.message))).filterMap (·.2) := by
  have hfilter : results.filter (fun a => !a.verdict.isPass) =
      results.filter fun a => decide (a.verdict ≠ .pass) :=
    List.filter_congr fun a _ => a.verdict.not_isPass
  rw [attributeMessages, failingParts, List.filter_map, List.filterMap_map, hfilter]
  -- Empty messages are dropped as well, but what explains itself has none.
  refine List.filter_eq_self.mpr fun text htext => ?_
  obtain ⟨a, ha, hmessage⟩ := List.mem_filterMap.mp htext
  have hne := (h a (List.mem_filter.mp ha).1).ne_empty text hmessage
  simpa using hne

/-- The message on attributes goes with the verdict on them, and so does that on each. -/
theorem explains_checkAttributes (found : Selection) (specs : List AttributeSpec) :
    let a := (checkAttributes found specs).result
    (∀ x ∈ a.each, Explains x.message x.verdict) ∧
      a.verdict.HighestOf (a.each.map (·.verdict)) ∧ JoinsFailing ", " a.parts a.message ∧
        Explains a.message a.verdict := by
  intro a
  have ha : a = _ := result_checkAttributes found specs
  have heach : ∀ x ∈ a.each, Explains x.message x.verdict := by
    intro x hx
    rw [ha] at hx
    obtain ⟨spec, _, rfl⟩ := List.mem_map.mp hx
    exact explains_judgeAttribute found spec
  have hparts : ∀ p ∈ a.parts, Explains p.2 p.1 := List.forall_mem_map.mpr heach
  have hverdict : a.verdict.HighestOf (a.each.map (·.verdict)) := by
    have hworst : a.verdict = .worst (a.each.map (·.verdict)) := by rw [ha]
    rw [hworst]
    exact Verdict.highestOf_worst _
  have hjoins : JoinsFailing ", " a.parts a.message := by
    have hmessage : a.message = joinedMessage ", " (attributeMessages a.each) := by rw [ha]
    rw [hmessage, attributeMessages_eq heach]
    exact joinsFailing_of_explains hparts
  refine ⟨heach, hverdict, hjoins, hjoins.explains hparts ?_⟩
  rw [AttributesResult.parts, List.map_map]
  exact hverdict

/-! ## Elements -/

/-- The result of an element that is missing or cannot be looked up is coherent. -/
theorem coherent_bare {id name : String} {verdict : Verdict} {message : String}
    (hverdict : verdict ≠ .pass) (hmessage : message ≠ "")
    (h : (verdict = .fail ∧ message = "Element not exist!") ∨
      (verdict = .block ∧ ∃ context fault,
        selectNamed context name = .error fault ∧ message = fault.message)) :
    (ElementResult.bare id name verdict message).Coherent where
  origin := by
    rcases h with ⟨rfl, rfl⟩ | ⟨rfl, context, fault, hfault, rfl⟩
    · exact .inl ⟨⟨rfl, rfl, rfl⟩, rfl, rfl⟩
    · exact .inr (.inl ⟨⟨rfl, rfl, rfl⟩, rfl, context, fault, hfault, rfl⟩)
  explained := explains_some hverdict hmessage
  value v hv := by cases hv
  each_attribute a ha := by cases ha
  attributes a ha := by cases ha
  children c hc := by cases hc

/-- The messages of the parts that did not pass are just those that are joined. -/
theorem partMessages_eq (r : ElementResult) :
    partMessages r.value r.attributes r.children = (failingParts r.parts).filterMap (·.2) := by
  have hpart (v : Verdict) (message : Option String) :
      (failingParts [(v, message)]).filterMap (·.2) = if v.isPass then [] else message.toList := by
    cases v <;> cases message <;> rfl
  unfold partMessages ElementResult.parts
  rw [failingParts_append, failingParts_append, List.filterMap_append, List.filterMap_append]
  congr 1
  · congr 1
    · cases r.value with
      | none => rfl
      | some v => exact (hpart v.verdict v.message).symm
    · cases r.attributes with
      | none => rfl
      | some a => exact (hpart a.verdict a.message).symm
  · cases r.children with
    | none => rfl
    | some c =>
      obtain ⟨verdict, each⟩ := c
      cases verdict <;> rfl

/-- The verdicts of the parts are those that a result is summed up of. -/
theorem partVerdicts_eq (r : ElementResult) : r.partVerdicts = r.parts.map (·.1) := by
  cases hv : r.value <;> cases ha : r.attributes <;> cases hc : r.children <;>
    simp [ElementResult.partVerdicts, ElementResult.parts, hv, ha, hc]

/-- A result has only parts that explain themselves if its text and its attributes do. -/
theorem explains_parts {r : ElementResult}
    (hvalue : ∀ v, r.value = some v → Explains v.message v.verdict)
    (hattributes : ∀ a, r.attributes = some a → Explains a.message a.verdict) :
    ∀ p ∈ r.parts, Explains p.2 p.1 := by
  intro p hp
  rw [ElementResult.parts, List.mem_append, List.mem_append] at hp
  rcases hp with (hp | hp) | hp
  · obtain ⟨v, hv, rfl⟩ := List.mem_map.mp hp
    exact hvalue v (Option.mem_toList.mp hv)
  · obtain ⟨a, ha, rfl⟩ := List.mem_map.mp hp
    exact hattributes a (Option.mem_toList.mp ha)
  · obtain ⟨c, hc, rfl⟩ := List.mem_map.mp hp
    exact c.explains_message

/-- Parts that explain themselves are summed up to the highest of their verdicts and to their
messages. -/
theorem summedUp_of_explains (id name : String) (value : Option ValueResult)
    (attributes : Option AttributesResult) (children : Option (ChildrenResult ElementResult)) :
    let r := summedUp id name value attributes children
    (∀ p ∈ r.parts, Explains p.2 p.1) →
      r.verdict.HighestOf (r.parts.map (·.1)) ∧ JoinsFailing " " r.parts r.message := by
  intro r hparts
  have hverdict : r.verdict = .worst r.partVerdicts := verdict_summedUp_eq ..
  have hmessage : r.message =
      joinedMessage " " (partMessages r.value r.attributes r.children) := rfl
  constructor
  · rw [hverdict, partVerdicts_eq]
    exact Verdict.highestOf_worst _
  · rw [hmessage, partMessages_eq]
    exact joinsFailing_of_explains hparts

/-- The result of an element that was found is coherent. -/
theorem coherent_summedUp (found : Selection) (spec : ElementSpec) :
    (summedUp spec.id spec.name
      (spec.value.map fun expected => (checkValue found expected).result)
      (spec.attributes.map fun specs => (checkAttributes found specs).result)
      (spec.children.map (childrenResult found))).Coherent := by
  have hsummed := summedUp_of_explains spec.id spec.name
    (spec.value.map fun expected => (checkValue found expected).result)
    (spec.attributes.map fun specs => (checkAttributes found specs).result)
    (spec.children.map (childrenResult found))
  -- From here on only the parts of the result matter, not how they were found.
  generalize hr : summedUp _ _ _ _ _ = r at hsummed ⊢
  have hvalue : ∀ v, r.value = some v → v.verdict ≠ .block ∧ Explains v.message v.verdict := by
    intro v hv
    rw [← hr] at hv
    obtain ⟨expected, _, rfl⟩ := Option.map_eq_some_iff.mp hv
    exact explains_checkValue found expected
  have hattributes : ∀ a, r.attributes = some a → (∀ x ∈ a.each, Explains x.message x.verdict) ∧
      a.verdict.HighestOf (a.each.map (·.verdict)) ∧ JoinsFailing ", " a.parts a.message ∧
        Explains a.message a.verdict := by
    intro a ha
    rw [← hr] at ha
    obtain ⟨specs, _, rfl⟩ := Option.map_eq_some_iff.mp ha
    exact explains_checkAttributes found specs
  have hchildren : ∀ c, r.children = some c → c.verdict.HighestOf (c.each.map (·.verdict)) := by
    intro c hc
    rw [← hr] at hc
    obtain ⟨specs, _, rfl⟩ := Option.map_eq_some_iff.mp hc
    exact Verdict.highestOf_worst _
  have hparts : ∀ p ∈ r.parts, Explains p.2 p.1 :=
    explains_parts (fun v hv => (hvalue v hv).2) fun a ha => (hattributes a ha).2.2.2
  obtain ⟨hverdict, hjoins⟩ := hsummed hparts
  exact
    { origin := .inr (.inr ⟨hverdict, hjoins⟩)
      explained := hjoins.explains hparts hverdict
      value := hvalue
      each_attribute := fun a ha => (hattributes a ha).1
      attributes := fun a ha => (hattributes a ha).2
      children := hchildren }

/-- All nodes of the results that a check leaves are coherent: each of them is missing, or blocked
by a fault of its name, or has the most severe verdict of the parts that are present, and a message
comes exactly with what did not pass, made of the messages of exactly the parts that did not. -/
theorem coherent_checkElement (context : Selection) (spec : ElementSpec) (log : RunLog) :
    ∀ n ∈ ((checkElement context spec).run log).1.nodes 0, n.2.Coherent := by
  rw [(steady_checkElement context spec).fst_run]
  refine forall_nodes_checkElement ?_ ?_ coherent_summedUp context spec 0
  · intro context spec fault hfault
    exact coherent_bare (by simp) fault.message_ne_empty
      (.inr ⟨rfl, context, fault, hfault, rfl⟩)
  · intro spec
    exact coherent_bare (by simp) (by decide) (.inl ⟨rfl, rfl⟩)

/-- A film with a French title. -/
def frenchFilm : Selection :=
  .ofPlace ⟨1, some ⟨none, "film"⟩, [], [],
    [.element ⟨none, "title"⟩ [] [⟨⟨none, "lang"⟩, "fr"⟩] [.text "Là-haut"]]⟩

/-- The expectation of an English title, with an attribute in a namespace and with a note. -/
def englishTitle : ElementSpec :=
  (((ElementSpec.existing "1" "title").withValue "Up").withAttributes
    [.ofText "1" "lang" "en", .ofText "2" "m:age" "8"]).withChildren [.existing "2" "note"]

/-- All parts of the French title speak in its message. -/
theorem coherent_checkElement_englishTitle :
    let r := ((checkElement frenchFilm englishTitle).run .empty).1
    (0, r) ∈ r.nodes 0 ∧ r.verdict = .fail ∧
      r.message = some ("Element value is incorrect! " ++
        "For attribute 'lang' value is incorrect!, " ++
        "For attribute 'm:age': Unbound namespace prefix 'm' in selector 'm:age' " ++
        "Child elements validation is FAIL") ∧
      r.Coherent := by
  intro r
  have hmem : (0, r) ∈ r.nodes 0 := ElementResult.root_mem_nodes 0 r
  exact ⟨hmem, by decide +kernel, by decide +kernel,
    coherent_checkElement frenchFilm englishTitle .empty (0, r) hmem⟩

end FeedAudit

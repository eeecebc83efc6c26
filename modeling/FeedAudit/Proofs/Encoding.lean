import FeedAudit.Expectation.File
import FeedAudit.Proofs.Printing
import FeedAudit.Proofs.Schema
import FeedAudit.Proofs.Trees

/-!
# Expectations survive encoding

An expectation is written as a tree and the tree as a text; reading the text gives the expectation
back, as long as lists and objects are not nested more deeply than a reader allows. What is written
of a pattern is its text alone, so this needs that every pattern is what its text reads as. All
expectations that can be built or decoded have only such patterns (`ContainerSpec.Obtained.sound`).

Main statement: `ContainerSpec.ofText_of_tokens_encode`.
-/

namespace FeedAudit

open Json

/-! ## Depth -/

namespace Json.Tree

mutual

/-- The number of lists and objects that are nested in a tree. -/
def depth : Tree → Nat
  | .array items _ => depthOfItems items + 1
  | .object members _ => depthOfMembers members + 1
  | _ => 0

/-- The greatest depth of items. -/
def depthOfItems : List Tree → Nat
  | [] => 0
  | t :: rest => max t.depth (depthOfItems rest)

/-- The greatest depth of the values of members. -/
def depthOfMembers : List (Option String × Tree) → Nat
  | [] => 0
  | (_, t) :: rest => max t.depth (depthOfMembers rest)

end

/-- No item of a list is deeper than the list. -/
theorem depth_le_depthOfItems {items : List Tree} {t : Tree} (ht : t ∈ items) :
    t.depth ≤ depthOfItems items := by
  induction items with
  | nil => cases ht
  | cons first rest ih =>
    rw [depthOfItems]
    rcases List.mem_cons.mp ht with rfl | hin
    · exact Nat.le_max_left _ _
    · exact Nat.le_trans (ih hin) (Nat.le_max_right _ _)

/-- No value of a record is deeper than its members. -/
theorem depth_le_depthOfMembers {members : List (Option String × Tree)}
    {m : Option String × Tree} (hm : m ∈ members) : m.2.depth ≤ depthOfMembers members := by
  induction members with
  | nil => cases hm
  | cons first rest ih =>
    obtain ⟨key, t⟩ := first
    rw [depthOfMembers]
    rcases List.mem_cons.mp hm with rfl | hin
    · exact Nat.le_max_left _ _
    · exact Nat.le_trans (ih hin) (Nat.le_max_right _ _)

/-- What is nested in a tree is less deep than the tree. -/
theorem depth_lt_of_mem_parts {t part : Tree} (hpart : part ∈ t.parts) : part.depth < t.depth := by
  cases t with
  | array items closed =>
    rw [depth]
    exact Nat.lt_succ_of_le (depth_le_depthOfItems hpart)
  | object members closed =>
    obtain ⟨m, hm, rfl⟩ := List.mem_map.mp hpart
    rw [depth]
    exact Nat.lt_succ_of_le (depth_le_depthOfMembers hm)
  | _ => cases hpart

end Json.Tree

/-! ## Sound expectations -/

/-- An element is *sound* when all patterns in it and below it are. -/
inductive ElementSpec.Sound : ElementSpec → Prop
  | intro {spec : ElementSpec} (hvalue : ∀ p, spec.value = some p → p.Sound)
      (hattributes : ∀ as, spec.attributes = some as → ∀ a ∈ as, a.expected.Sound)
      (hchildren : ∀ specs, spec.children = some specs → ∀ child ∈ specs, child.Sound) :
      spec.Sound

/-- An element is sound exactly if its pattern, its attributes and its children are. -/
theorem ElementSpec.sound_iff {spec : ElementSpec} :
    spec.Sound ↔ (∀ p, spec.value = some p → p.Sound) ∧
      (∀ as, spec.attributes = some as → ∀ a ∈ as, a.expected.Sound) ∧
      (∀ specs, spec.children = some specs → ∀ child ∈ specs, child.Sound) := by
  constructor
  · rintro ⟨hvalue, hattributes, hchildren⟩
    exact ⟨hvalue, hattributes, hchildren⟩
  · rintro ⟨hvalue, hattributes, hchildren⟩
    exact ⟨hvalue, hattributes, hchildren⟩

/-- An expectation is *sound* when all its elements are. -/
def ContainerSpec.Sound (s : ContainerSpec) : Prop := ∀ e ∈ s.elements, e.Sound

/-- A pattern that was read from a file is sound. -/
theorem Pattern.sound_of_decode {t : Tree} {p : Pattern} (hok : Pattern.decode t = .ok p) :
    p.Sound := by
  rw [Pattern.decode] at hok
  cases htext : decodeText "a string" t with
  | error fault =>
    rw [htext] at hok
    cases hok
  | ok s =>
    rw [htext] at hok
    cases hok
    exact Pattern.sound_parse s

/-- The pattern of an attribute that was read from a file is sound. -/
theorem AttributeSpec.sound_of_decode {room : Nat} {t : Tree} {a : AttributeSpec}
    (hok : AttributeSpec.decode room t = .ok a) : a.expected.Sound := by
  refine Layout.decode_induction (P := fun a : AttributeSpec => a.expected.Sound) ?_ ?_ hok
  · exact Pattern.sound_parse ""
  · intro f u before after hbefore htake
    cases f with
    | id =>
      obtain ⟨id, -, rfl⟩ := exists_of_map_eq_ok htake
      exact hbefore
    | name =>
      obtain ⟨name, -, rfl⟩ := exists_of_map_eq_ok htake
      exact hbefore
    | expected =>
      obtain ⟨p, hp, rfl⟩ := exists_of_map_eq_ok htake
      exact Pattern.sound_of_decode hp

/-- An element that was read from a file is sound, if its children are. -/
theorem elementLayout_sound {room : Nat}
    {readChildren : Tree → Except DecodeFault (List ElementSpec)}
    (hread : ∀ u specs, readChildren u = .ok specs → ∀ child ∈ specs, child.Sound) {mayOpen : Bool}
    {t : Tree} {e : ElementSpec}
    (hok : (elementLayout room readChildren).decode mayOpen t = .ok e) : e.Sound := by
  refine Layout.decode_induction (P := ElementSpec.Sound) ?_ ?_ hok
  · exact ⟨nofun, nofun, nofun⟩
  · rintro f u before after ⟨hvalue, hattributes, hchildren⟩ htake
    cases f with
    | id =>
      obtain ⟨id, -, rfl⟩ := exists_of_map_eq_ok htake
      exact ⟨hvalue, hattributes, hchildren⟩
    | name =>
      obtain ⟨name, -, rfl⟩ := exists_of_map_eq_ok htake
      exact ⟨hvalue, hattributes, hchildren⟩
    | value =>
      obtain ⟨value, hdecode, rfl⟩ := exists_of_map_eq_ok htake
      exact ⟨decodeOptional_forall (fun _ _ => Pattern.sound_of_decode) hdecode, hattributes,
        hchildren⟩
    | attributes =>
      obtain ⟨attributes, hdecode, rfl⟩ := exists_of_map_eq_ok htake
      have hlist := fun u as
          (hlist : decodeList room (AttributeSpec.decode (room - 1)) u = .ok as) =>
        decodeList_forall (fun _ _ => AttributeSpec.sound_of_decode) hlist
      exact ⟨hvalue, decodeOptional_forall hlist hdecode, hchildren⟩
    | children =>
      obtain ⟨children, hdecode, rfl⟩ := exists_of_map_eq_ok htake
      exact ⟨hvalue, hattributes, decodeOptional_forall hread hdecode⟩

/-- An element that was read from a file is sound, at any depth. -/
theorem ElementSpec.sound_of_decode {room : Nat} {t : Tree} {e : ElementSpec}
    (hok : ElementSpec.decode room t = .ok e) : e.Sound := by
  induction room using Nat.strongRecOn generalizing t e with
  | ind room ih =>
    cases room with
    | zero =>
      refine elementLayout_sound ?_ hok
      intro u specs hspecs
      exact decodeList_forall (fun _ _ h => by cases h) hspecs
    | succ room =>
      rw [ElementSpec.decode_eq] at hok
      refine elementLayout_sound ?_ hok
      intro u specs hspecs
      exact decodeList_forall (fun _ _ => ih (room - 1) (by omega)) hspecs

/-- An expectation that was read from a file is sound. -/
theorem ContainerSpec.sound_of_decode {room : Nat} {t : Tree} {s : ContainerSpec}
    (hok : ContainerSpec.decode room t = .ok s) : s.Sound := by
  refine Layout.decode_induction (P := ContainerSpec.Sound) ?_ ?_ hok
  · exact nofun
  · intro f u before after hbefore htake
    cases f with
    | container =>
      obtain ⟨container, -, rfl⟩ := exists_of_map_eq_ok htake
      exact hbefore
    | elements =>
      obtain ⟨elements, hdecode, rfl⟩ := exists_of_map_eq_ok htake
      exact decodeList_forall (fun _ _ => ElementSpec.sound_of_decode) hdecode

/-! ## Expectations that can be had -/

mutual

/-- An attribute that was built, was decoded or belongs to an element that can be had. -/
inductive AttributeSpec.Obtained : AttributeSpec → Prop
  | ofText (id name expected : String) : (AttributeSpec.ofText id name expected).Obtained
  | decoded {room : Nat} {t : Tree} {a : AttributeSpec}
      (hok : AttributeSpec.decode room t = .ok a) : a.Obtained
  | ofElement {e : ElementSpec} (he : e.Obtained) {attributes : List AttributeSpec}
      (hattributes : e.attributes = some attributes) {a : AttributeSpec} (ha : a ∈ attributes) :
      a.Obtained

/-- An element that was built or decoded, or belongs to a specification that can be had. -/
inductive ElementSpec.Obtained : ElementSpec → Prop
  | existing (id name : String) : (ElementSpec.existing id name).Obtained
  | withValue {e : ElementSpec} (he : e.Obtained) (expected : String) :
      (e.withValue expected).Obtained
  | withAttributes {e : ElementSpec} (he : e.Obtained) {attributes : List AttributeSpec}
      (hattributes : ∀ a ∈ attributes, a.Obtained) : (e.withAttributes attributes).Obtained
  | withChildren {e : ElementSpec} (he : e.Obtained) {children : List ElementSpec}
      (hchildren : ∀ child ∈ children, child.Obtained) : (e.withChildren children).Obtained
  | decoded {room : Nat} {t : Tree} {e : ElementSpec} (hok : ElementSpec.decode room t = .ok e) :
      e.Obtained
  | child {e : ElementSpec} (he : e.Obtained) {children : List ElementSpec}
      (hchildren : e.children = some children) {c : ElementSpec} (hc : c ∈ children) : c.Obtained
  | ofContainer {s : ContainerSpec} (hs : s.Obtained) {e : ElementSpec} (he : e ∈ s.elements) :
      e.Obtained

/-- An expectation that was built of elements or read from the text of a file. -/
inductive ContainerSpec.Obtained : ContainerSpec → Prop
  | new (container : String) {elements : List ElementSpec}
      (helements : ∀ e ∈ elements, e.Obtained) : ContainerSpec.Obtained ⟨container, elements⟩
  | ofText {text : String} {s : ContainerSpec} (hok : ContainerSpec.ofText text = .ok s) :
      s.Obtained

end

mutual

/-- An attribute that was built has a sound pattern. -/
theorem AttributeSpec.Obtained.sound : ∀ {a : AttributeSpec}, a.Obtained → a.expected.Sound
  | _, .ofText _ _ expected => Pattern.sound_parse expected
  | _, .decoded hok => AttributeSpec.sound_of_decode hok
  | a, .ofElement he hattributes ha => by
    obtain ⟨-, heach, -⟩ := ElementSpec.sound_iff.mp he.sound
    exact heach _ hattributes a ha

/-- An element that was built or read from a file is sound. -/
theorem ElementSpec.Obtained.sound : ∀ {e : ElementSpec}, e.Obtained → e.Sound
  | _, .existing _ _ => ⟨nofun, nofun, nofun⟩
  | _, .withValue he expected => by
    obtain ⟨-, hattributes, hchildren⟩ := ElementSpec.sound_iff.mp he.sound
    refine ⟨?_, hattributes, hchildren⟩
    intro p hp
    cases hp
    exact Pattern.sound_parse expected
  | _, .withAttributes he hgiven => by
    obtain ⟨hvalue, -, hchildren⟩ := ElementSpec.sound_iff.mp he.sound
    have heach := fun a ha => (hgiven a ha).sound
    refine ⟨hvalue, ?_, hchildren⟩
    intro as has
    cases has
    exact heach
  | _, .withChildren he hgiven => by
    obtain ⟨hvalue, hattributes, -⟩ := ElementSpec.sound_iff.mp he.sound
    have heach := fun c hc => (hgiven c hc).sound
    refine ⟨hvalue, hattributes, ?_⟩
    intro specs hspecs
    cases hspecs
    exact heach
  | _, .decoded hok => ElementSpec.sound_of_decode hok
  | e, .child he hchildren hc => by
    obtain ⟨-, -, heach⟩ := ElementSpec.sound_iff.mp he.sound
    exact heach _ hchildren e hc
  | e, .ofContainer hs he => hs.sound e he

/-- An expectation that was built or read from a file is sound. -/
theorem ContainerSpec.Obtained.sound : ∀ {s : ContainerSpec}, s.Obtained → s.Sound
  | _, .new _ helements => fun e he => (helements e he).sound
  | _, .ofText hok => ContainerSpec.sound_of_decode (ContainerSpec.ofText_eq_ok_iff.mp hok).1

end

/-! ## Records and their members -/

/-- The fields of an attribute and their trees. -/
def AttributeSpec.entries (a : AttributeSpec) : List (AttributeField × Tree) :=
  [(.id, .ofText a.id), (.name, .ofText a.name), (.expected, .ofText a.expected.text)]

/-- The fields of an element that are written, and their trees. -/
def ElementSpec.entries (e : ElementSpec) : List (ElementField × Tree) :=
  [(.id, .ofText e.id), (.name, .ofText e.name)] ++
  (e.value.map fun p => (.value, .ofText p.text)).toList ++
  (e.attributes.map fun as => (.attributes, .array (as.map AttributeSpec.encode) true)).toList ++
  (e.children.map fun es => (.children, .array (es.map ElementSpec.encode) true)).toList

/-- The fields of an expectation and their trees. -/
def ContainerSpec.entries (s : ContainerSpec) : List (ContainerField × Tree) :=
  [(.container, .ofText s.container), (.elements, .array (s.elements.map ElementSpec.encode) true)]

/-- Elements are written one after the other. -/
theorem ElementSpec.encodeList_eq (es : List ElementSpec) :
    ElementSpec.encodeList es = es.map ElementSpec.encode := by
  induction es with
  | nil => rfl
  | cons e rest ih => rw [ElementSpec.encodeList, ih, List.map_cons]

/-- Children are written as a list, and left out if there are none to be checked. -/
theorem ElementSpec.encodeOption_eq (children : Option (List ElementSpec)) :
    ElementSpec.encodeOption children =
      children.map fun es => .array (es.map ElementSpec.encode) true := by
  cases children with
  | none => rfl
  | some es => rw [ElementSpec.encodeOption, ElementSpec.encodeList_eq, Option.map_some]

/-- An attribute is written as the members of its layout. -/
theorem AttributeSpec.encode_eq (room : Nat) (a : AttributeSpec) :
    a.encode = .object ((attributeLayout room).members a.entries) true := rfl

/-- An element is written as the members of its layout. -/
theorem ElementSpec.encode_eq (room : Nat)
    (readChildren : Tree → Except DecodeFault (List ElementSpec)) (e : ElementSpec) :
    e.encode = .object ((elementLayout room readChildren).members e.entries) true := by
  obtain ⟨id, name, value, attributes, children⟩ := e
  rw [ElementSpec.encode, ElementSpec.encodeOption_eq]
  cases value <;> cases attributes <;> cases children <;> rfl

/-- An expectation is written as the members of its layout. -/
theorem ContainerSpec.encode_eq (room : Nat) (s : ContainerSpec) :
    s.encode = .object ((containerLayout room).members s.entries) true := by
  rw [ContainerSpec.encode, ElementSpec.encodeList_eq]
  rfl

/-- What is written for a field of a record is less deep than the record. -/
theorem Json.Layout.depth_lt_of_mem_entries {F α : Type} [DecidableEq F] (l : Layout F α)
    {entries : List (F × Tree)} {entry : F × Tree} (hentry : entry ∈ entries) :
    entry.2.depth < (Tree.object (l.members entries) true).depth := by
  refine Tree.depth_lt_of_mem_parts (List.mem_map.mpr ⟨(some (l.name entry.1), entry.2), ?_, rfl⟩)
  exact List.mem_map_of_mem hentry

/-! ## Decoding what was encoded -/

/-- A sound pattern is read back from its text. -/
theorem Pattern.decode_text {p : Pattern} (hp : p.Sound) :
    Pattern.decode (.ofText p.text) = .ok p := congrArg Except.ok hp

/-- With room for it, a list of items that are each decoded is decoded. -/
theorem Json.decodeList_map {α : Type} {room : Nat} {item : Tree → Except DecodeFault α}
    {encode : α → Tree} {as : List α} (hroom : (Tree.array (as.map encode) true).depth ≤ room)
    (heach : ∀ a ∈ as, (encode a).depth ≤ room - 1 → item (encode a) = .ok a) :
    decodeList room item (.array (as.map encode) true) = .ok as := by
  have hopen : room ≠ 0 := by
    rw [Tree.depth] at hroom
    omega
  rw [decodeList, if_neg hopen]
  refine decodeItems_map fun a ha => heach a ha ?_
  have hlt := Tree.depth_lt_of_mem_parts (t := .array (as.map encode) true)
    (List.mem_map_of_mem (f := encode) ha)
  omega

/-- An attribute is read back, if there is room for it. -/
theorem AttributeSpec.decode_encode {room : Nat} {a : AttributeSpec} (ha : a.expected.Sound)
    (hroom : a.encode.depth ≤ room) : AttributeSpec.decode room a.encode = .ok a := by
  have hopen : room ≠ 0 := by
    rintro rfl
    cases hroom
  have htake : (attributeLayout (room - 1)).takeAll a.entries (attributeLayout (room - 1)).start =
      .ok a := by
    refine Layout.takeAll_cons rfl (Layout.takeAll_cons rfl (Layout.takeAll_cons ?_ rfl))
    simp only [attributeLayout, Pattern.decode_text ha, Except.map]
  rw [AttributeSpec.decode, AttributeSpec.encode_eq (room - 1), bne_iff_ne.mpr hopen]
  refine Layout.decode_members ?_ ?_ ?_ htake
  · intro f
    cases f <;> rfl
  · simp [AttributeSpec.entries]
  · intro f hf
    cases f <;> simp [AttributeSpec.entries]

/-- An element is put together again from the values of its fields, each of which is read back. -/
theorem ElementSpec.takeAll_entries {room : Nat}
    {readChildren : Tree → Except DecodeFault (List ElementSpec)} (id name : String)
    {value : Option Pattern} {attributes : Option (List AttributeSpec)}
    {children : Option (List ElementSpec)}
    (hvalue : ∀ p, value = some p → Pattern.decode (.ofText p.text) = .ok p)
    (hattributes : ∀ as, attributes = some as →
      decodeList room (AttributeSpec.decode (room - 1))
          (.array (as.map AttributeSpec.encode) true) =
        .ok as)
    (hchildren : ∀ es, children = some es →
      readChildren (.array (es.map ElementSpec.encode) true) = .ok es) :
    (elementLayout room readChildren).takeAll
        (ElementSpec.entries ⟨id, name, value, attributes, children⟩)
        (elementLayout room readChildren).start =
      .ok ⟨id, name, value, attributes, children⟩ := by
  have htexts : (elementLayout room readChildren).takeAll
      [(.id, .ofText id), (.name, .ofText name)] (elementLayout room readChildren).start =
        .ok ⟨id, name, none, none, none⟩ := rfl
  -- The fields that may be left out are put in one after the other, each from where the last one
  -- led.
  have htakeValue := Layout.takeAll_toList (l := elementLayout room readChildren) (f := .value)
    (fun p => .ofText p.text) (fun value => ⟨id, name, value, none, none⟩)
    fun p hp => by
      have hdecode := decodeOptional_of_ok (t := .ofText p.text) nofun (hvalue p hp)
      simp only [elementLayout, hdecode, Except.map]
  have htakeAttributes := Layout.takeAll_toList (l := elementLayout room readChildren)
    (f := .attributes) (fun as => .array (as.map AttributeSpec.encode) true)
    (fun attributes => ⟨id, name, value, attributes, none⟩)
    fun as has => by
      have hdecode := decodeOptional_of_ok (t := .array _ true) nofun (hattributes as has)
      simp only [elementLayout, hdecode, Except.map]
  have htakeChildren := Layout.takeAll_toList (l := elementLayout room readChildren)
    (f := .children) (fun es => .array (es.map ElementSpec.encode) true)
    (fun children => ⟨id, name, value, attributes, children⟩)
    fun es hes => by
      have hdecode := decodeOptional_of_ok (t := .array _ true) nofun (hchildren es hes)
      simp only [elementLayout, hdecode, Except.map]
  exact Layout.takeAll_append (Layout.takeAll_append (Layout.takeAll_append htexts htakeValue)
    htakeAttributes) htakeChildren

/-- What is written of a sound element is decoded to it, with room for its depth. -/
theorem ElementSpec.decode_encode {e : ElementSpec} (he : e.Sound) {room : Nat}
    (hroom : e.encode.depth ≤ room) : ElementSpec.decode room e.encode = .ok e := by
  induction e using ElementSpec.tree_induction generalizing room with
  | step e ih =>
    obtain ⟨hvalue, hattributes, hchildren⟩ := ElementSpec.sound_iff.mp he
    cases room with
    | zero =>
      rw [ElementSpec.encode_eq 0 (decodeList 0 fun _ => .error .malformed)] at hroom
      cases hroom
    | succ room =>
      -- Members stand one level below their object, and there is room for one level less.
      have hbelow : ∀ entry ∈ e.entries, entry.2.depth ≤ room := by
        intro entry hentry
        have hlt := Json.Layout.depth_lt_of_mem_entries (elementLayout room (decodeList room
          (ElementSpec.decode (room - 1)))) hentry
        rw [← ElementSpec.encode_eq] at hlt
        omega
      have hdecodeAttributes : ∀ as, e.attributes = some as →
          decodeList room (AttributeSpec.decode (room - 1))
            (.array (as.map AttributeSpec.encode) true) = .ok as := by
        intro as has
        have hmem : (.attributes, .array (as.map AttributeSpec.encode) true) ∈ e.entries := by
          simp [ElementSpec.entries, has]
        exact decodeList_map (hbelow _ hmem) fun a ha hdepth =>
          AttributeSpec.decode_encode (hattributes as has a ha) hdepth
      have hdecodeChildren : ∀ es, e.children = some es →
          decodeList room (ElementSpec.decode (room - 1))
            (.array (es.map ElementSpec.encode) true) = .ok es := by
        intro es hes
        have hmem : (.children, .array (es.map ElementSpec.encode) true) ∈ e.entries := by
          simp [ElementSpec.entries, hes]
        exact decodeList_map (hbelow _ hmem) fun child hchild hdepth =>
          ih es hes child hchild (hchildren es hes child hchild) hdepth
      rw [ElementSpec.decode_eq, ElementSpec.encode_eq room
        (decodeList room (ElementSpec.decode (room - 1)))]
      refine Layout.decode_members ?_ ?_ ?_ ?_
      · intro f
        cases f <;> rfl
      · obtain ⟨id, name, value, attributes, children⟩ := e
        cases value <;> cases attributes <;> cases children <;> simp [ElementSpec.entries]
      · intro f hf
        cases f with
        | name => simp [ElementSpec.entries]
        | _ => cases hf
      · obtain ⟨id, name, value, attributes, children⟩ := e
        exact ElementSpec.takeAll_entries id name (fun p hp => Pattern.decode_text (hvalue p hp))
          hdecodeAttributes hdecodeChildren

/-- What is written of a sound expectation is decoded to it, with room for its depth. -/
theorem ContainerSpec.decode_encode {s : ContainerSpec} (hs : s.Sound) {room : Nat}
    (hroom : s.encode.depth ≤ room) : ContainerSpec.decode room s.encode = .ok s := by
  have hopen : room ≠ 0 := by
    rintro rfl
    cases hroom
  have hlist : decodeList (room - 1) (ElementSpec.decode (room - 1 - 1))
      (.array (s.elements.map ElementSpec.encode) true) = .ok s.elements := by
    have hmem : (.elements, .array (s.elements.map ElementSpec.encode) true) ∈ s.entries :=
      List.mem_cons_of_mem _ List.mem_cons_self
    have hlt := Json.Layout.depth_lt_of_mem_entries (containerLayout (room - 1)) hmem
    rw [← ContainerSpec.encode_eq] at hlt
    exact decodeList_map (Nat.le_sub_one_of_lt (Nat.lt_of_lt_of_le hlt hroom)) fun e he hdepth =>
      ElementSpec.decode_encode (hs e he) hdepth
  rw [ContainerSpec.decode, ContainerSpec.encode_eq (room - 1), bne_iff_ne.mpr hopen]
  refine Layout.decode_members ?_ ?_ ?_ ?_
  · intro f
    cases f <;> rfl
  · simp [ContainerSpec.entries]
  · intro f hf
    cases f <;> simp [ContainerSpec.entries]
  · refine Layout.takeAll_cons rfl (Layout.takeAll_cons ?_ rfl)
    simp only [containerLayout, hlist, Except.map]

/-! ## What is written is well-formed -/

/-- A tree that is written as a text without any numbers, and can be read from this text. -/
structure Json.Tree.Printable (t : Tree) : Prop where
  formed : t.wellFormed
  plain : ∀ token ∈ t.tokens, token.isPlain

namespace Json.Tree

/-- A text can be printed. -/
theorem printable_ofText (s : String) : (ofText s).Printable := by
  refine ⟨rfl, fun token htoken => ?_⟩
  obtain rfl := List.mem_singleton.mp htoken
  rfl

/-- All tokens of printable items are plain. -/
theorem plain_tokensOfItems {items : List Tree} (hitems : ∀ t ∈ items, t.Printable) (fresh : Bool) :
    ∀ token ∈ tokensOfItems fresh items, token.isPlain := by
  induction items generalizing fresh with
  | nil => exact nofun
  | cons t rest ih =>
    intro token htoken
    rw [tokensOfItems, List.mem_append, List.mem_append] at htoken
    rcases htoken with (hcomma | ht) | hrest
    · cases fresh with
      | true => cases hcomma
      | false =>
        obtain rfl := List.mem_singleton.mp hcomma
        rfl
    · exact (hitems t List.mem_cons_self).plain token ht
    · exact ih (fun u hu => hitems u (List.mem_cons_of_mem t hu)) false token hrest

/-- A list of printable items can be printed. -/
theorem printable_array {items : List Tree} (hitems : ∀ t ∈ items, t.Printable) :
    (array items true).Printable := by
  constructor
  · rw [wellFormed, Bool.and_true, wellFormedItems_iff]
    exact fun t ht => (hitems t ht).formed
  · intro token htoken
    rw [tokens, if_pos rfl, List.cons_append, List.mem_cons, List.mem_append,
      List.mem_singleton] at htoken
    rcases htoken with rfl | hin | rfl
    · rfl
    · exact plain_tokensOfItems hitems true token hin
    · rfl

/-- All tokens of members with names and printable values are plain. -/
theorem plain_tokensOfMembers {members : List (Option String × Tree)}
    (hmembers : ∀ m ∈ members, m.1.isSome ∧ m.2.Printable) (fresh : Bool) :
    ∀ token ∈ tokensOfMembers fresh members, token.isPlain := by
  induction members generalizing fresh with
  | nil => exact nofun
  | cons m rest ih =>
    obtain ⟨key, t⟩ := m
    obtain ⟨hkey, ht⟩ := hmembers (key, t) List.mem_cons_self
    intro token htoken
    rw [tokensOfMembers, List.mem_append, List.mem_append, List.mem_cons, List.mem_cons] at htoken
    rcases htoken with (hcomma | rfl | rfl | hin) | hrest
    · cases fresh with
      | true => cases hcomma
      | false =>
        obtain rfl := List.mem_singleton.mp hcomma
        rfl
    · exact hkey
    · rfl
    · exact ht.plain token hin
    · exact ih (fun u hu => hmembers u (List.mem_cons_of_mem _ hu)) false token hrest

/-- A record whose fields have printable values can be printed. -/
theorem printable_members {F α : Type} [DecidableEq F] (l : Layout F α) {entries : List (F × Tree)}
    (hentries : ∀ entry ∈ entries, entry.2.Printable) :
    (object (l.members entries) true).Printable := by
  have hmembers : ∀ m ∈ l.members entries, m.1.isSome ∧ m.2.Printable := by
    intro m hm
    obtain ⟨entry, hentry, rfl⟩ := List.mem_map.mp hm
    exact ⟨rfl, hentries entry hentry⟩
  constructor
  · rw [wellFormed, Bool.and_true, wellFormedMembers_iff]
    exact fun m hm => (hmembers m hm).2.formed
  · intro token htoken
    rw [tokens, if_pos rfl, List.cons_append, List.mem_cons, List.mem_append,
      List.mem_singleton] at htoken
    rcases htoken with rfl | hin | rfl
    · rfl
    · exact plain_tokensOfMembers hmembers true token hin
    · rfl

end Json.Tree

/-- An attribute can be printed as it is written. -/
theorem AttributeSpec.printable_encode (a : AttributeSpec) : a.encode.Printable := by
  rw [AttributeSpec.encode_eq 0]
  refine Tree.printable_members _ fun entry hentry => ?_
  simp only [AttributeSpec.entries, List.mem_cons, List.not_mem_nil, or_false] at hentry
  obtain rfl | rfl | rfl := hentry <;> exact Tree.printable_ofText _

/-- An element can be printed as it is written. -/
theorem ElementSpec.printable_encode (e : ElementSpec) : e.encode.Printable := by
  induction e using ElementSpec.tree_induction with
  | step e ih =>
    rw [ElementSpec.encode_eq 0 (decodeList 0 fun _ => .error .malformed)]
    refine Tree.printable_members _ fun entry hentry => ?_
    simp only [ElementSpec.entries, List.mem_append, List.mem_cons, List.not_mem_nil, or_false,
      Option.mem_toList, Option.map_eq_some_iff] at hentry
    rcases hentry with (((rfl | rfl) | ⟨p, -, rfl⟩) | ⟨as, -, rfl⟩) | ⟨es, hes, rfl⟩
    · exact Tree.printable_ofText _
    · exact Tree.printable_ofText _
    · exact Tree.printable_ofText _
    · refine Tree.printable_array fun t ht => ?_
      obtain ⟨a, -, rfl⟩ := List.mem_map.mp ht
      exact AttributeSpec.printable_encode a
    · refine Tree.printable_array fun t ht => ?_
      obtain ⟨child, hchild, rfl⟩ := List.mem_map.mp ht
      exact ih es hes child hchild

/-- An expectation can be printed as it is written. -/
theorem ContainerSpec.printable_encode (s : ContainerSpec) : s.encode.Printable := by
  rw [ContainerSpec.encode_eq 0]
  refine Tree.printable_members _ fun entry hentry => ?_
  simp only [ContainerSpec.entries, List.mem_cons, List.not_mem_nil, or_false] at hentry
  rcases hentry with rfl | rfl
  · exact Tree.printable_ofText _
  · refine Tree.printable_array fun t ht => ?_
    obtain ⟨e, -, rfl⟩ := List.mem_map.mp ht
    exact ElementSpec.printable_encode e

/-! ## Reading what was written -/

/-- Every expectation that can be had is read back from its written form. This does not depend on
how its tokens are written, and holds of the text without blanks in particular. -/
theorem ContainerSpec.ofText_of_tokens_encode {s : ContainerSpec} (hs : s.Obtained)
    (hdepth : s.encode.depth ≤ nestingLimit) :
    (∀ text : String, tokens text.toList = s.encode.tokens → ContainerSpec.ofText text = .ok s) ∧
      ContainerSpec.ofText (String.ofList s.encode.print) = .ok s := by
  have hprintable := s.printable_encode
  have hread : ∀ text : String, tokens text.toList = s.encode.tokens →
      ContainerSpec.ofText text = .ok s := by
    intro text htokens
    have hdocument := Document.read_of_tokens hprintable.formed htokens
    have hdecode := ContainerSpec.decode_encode hs.sound hdepth
    rw [ContainerSpec.ofText_eq_ok_iff, hdocument]
    exact ⟨hdecode, rfl⟩
  refine ⟨hread, hread _ ?_⟩
  rw [String.toList_ofList]
  exact tokens_print hprintable.plain

/-- An expectation with every kind of pattern, and with absent, empty and filled lists. -/
theorem ContainerSpec.ofText_of_tokens_encode_movie :
    let cast := (ElementSpec.existing "2" "cast").withAttributes
      [.ofText "" "role" "lead, guest,", .ofText "a" "credit" "*"]
    let title := ((ElementSpec.existing "1" "title").withValue "").withChildren []
    let movie : ContainerSpec := ⟨"movie", [title, (cast.withValue "*").withChildren [title, cast]]⟩
    movie.Obtained ∧ movie.encode.depth ≤ nestingLimit ∧
      (∀ text : String, tokens text.toList = movie.encode.tokens →
        ContainerSpec.ofText text = .ok movie) ∧
      ContainerSpec.ofText (String.ofList movie.encode.print) = .ok movie := by
  intro cast title movie
  have hcast : cast.Obtained := by
    refine .withAttributes (.existing "2" "cast") fun a ha => ?_
    rcases List.mem_pair.mp ha with rfl | rfl
    · exact .ofText _ _ _
    · exact .ofText _ _ _
  have htitle : title.Obtained := .withChildren (.withValue (.existing "1" "title") "") nofun
  have hmovie : movie.Obtained := by
    refine .new "movie" fun e he => ?_
    rcases List.mem_pair.mp he with rfl | rfl
    · exact htitle
    · refine .withChildren (.withValue hcast "*") fun child hchild => ?_
      rcases List.mem_pair.mp hchild with rfl | rfl
      · exact htitle
      · exact hcast
  have hdepth : movie.encode.depth ≤ nestingLimit := by decide
  exact ⟨hmovie, hdepth, ContainerSpec.ofText_of_tokens_encode hmovie hdepth⟩

end FeedAudit

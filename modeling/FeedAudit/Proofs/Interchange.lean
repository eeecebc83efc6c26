import FeedAudit.Proofs.Numerals
import FeedAudit.Proofs.RecordChanges
import FeedAudit.Proofs.Spelling
import Mathlib.Logic.Relation

/-!
# Expectation files written in different ways

A field may be given under either of its names, anywhere in a file; this does not change what the
file is read as, be it an expectation or a fault. An expectation is also the same when the members
of a record are put in another order, when members are added that name no field, and when an integer
for an id is written as a text. Faults of records carry the canonical names of fields.

Main statement: `ContainerSpec.ofText_of_spelling`.
-/

namespace FeedAudit

open Json

/-! ## Records are changed alike -/

namespace RecordKind

/-- It does not matter in which order two fields of a record are decoded. -/
theorem commutes (room : Nat) (k : RecordKind) : (k.layout room).Commutes := by
  intro f g hne t u r next result hfirst hsecond
  rw [take_eq] at hfirst hsecond
  obtain ⟨v, hv, rfl⟩ := exists_of_map_eq_ok hfirst
  obtain ⟨w, hw, rfl⟩ := exists_of_map_eq_ok hsecond
  refine ⟨k.put g w r, ?_, ?_⟩
  · rw [take_eq, hw]
    rfl
  · rw [take_eq, hv]
    exact congrArg Except.ok (put_comm k hne v w r)

/-- Whether a value is decoded does not depend on what is known of the record. -/
theorem independent (room : Nat) (k : RecordKind) : (k.layout room).Independent := by
  intro f t r next htake other
  rw [take_eq] at htake
  obtain ⟨v, hv, rfl⟩ := exists_of_map_eq_ok htake
  refine ⟨k.put f v other, ?_⟩
  rw [take_eq, hv]
  rfl

/-- Leaving a field out is leaving out what is given under one of its names. -/
theorem without_eq (room : Nat) (k : RecordKind) (f : k.Field)
    (members : List (Option String × Tree)) :
    (k.layout room).without f members =
      members.filter fun m => !m.1.any (k.entry room f).isNamed := by
  refine List.filter_congr fun m _ => ?_
  cases hkey : m.1 with
  | none => rfl
  | some key =>
    rw [Option.bind_some, Option.any_some, Bool.eq_iff_iff, bne_iff_ne, ne_eq, field?_eq_some_iff,
      Bool.not_eq_true', Bool.not_eq_true]

end RecordKind

/-! ## Changes anywhere in a file -/

/-- A change at one place of a file, where values of the given shape are expected, and its effect.
-/
inductive Changed : Option DecodeFault → Shape → Tree → Tree → Prop
  /-- The members of a record in another order. -/
  | reordered {k : RecordKind} {members members' : List (Option String × Tree)}
      (hperm : members.Perm members') (closed : Bool) :
      Changed none (.record k) (.object members closed) (.object members' closed)
  /-- A further member whose key names no field; its value may be anything. -/
  | added {k : RecordKind} {key : String} (hkey : (Shape.record k).field? key = none) {t : Tree}
      (hformed : t.wellFormed) (before after : List (Option String × Tree)) (closed : Bool) :
      Changed none (.record k) (.object (before ++ after) closed)
        (.object (before ++ (some key, t) :: after) closed)
  /-- An integer for an id, written as a text. -/
  | quoted {a : Numeral} (ha : a.IsInteger) :
      Changed none .id (.number a) (.string (some (String.ofList a.print)))
  /-- A field that is named again, under any of its names. -/
  | repeated {k : RecordKind} {key key' name : String} {s s' : Shape}
      (hkey : (Shape.record k).field? key = some (name, s))
      (hkey' : (Shape.record k).field? key' = some (name, s')) (t u : Tree)
      (before middle after : List (Option String × Tree)) (closed : Bool) :
      Changed (some (.duplicate name)) (.record k)
        (.object (before ++ (some key, t) :: middle ++ after) closed)
        (.object (before ++ (some key, t) :: middle ++ (some key', u) :: after) closed)
  /-- A required field that is left out, under whichever of its names it was given. -/
  | leftOut {k : RecordKind} {e : FieldEntry} (he : e ∈ k.schema) (hrequired : e.required)
      (members : List (Option String × Tree)) (closed : Bool) :
      Changed (some (.missing e.name)) (.record k) (.object members closed)
        (.object (members.filter fun m => !m.1.any e.isNamed) closed)
  /-- A change in the value of a field. -/
  | member {effect : Option DecodeFault} {s inner : Shape} {key name : String}
      (hkey : s.field? key = some (name, inner)) {t t' : Tree} (h : Changed effect inner t t')
      (before after : List (Option String × Tree)) (closed : Bool) :
      Changed effect s (.object (before ++ (some key, t) :: after) closed)
        (.object (before ++ (some key, t') :: after) closed)
  /-- A change in an item of a list, or of a record that is written as a list. -/
  | item {effect : Option DecodeFault} {s : Shape} {t t' : Tree} (before : List Tree)
      (h : Changed effect (s.item before.length) t t') (after : List Tree) (closed : Bool) :
      Changed effect s (.array (before ++ t :: after) closed)
        (.array (before ++ t' :: after) closed)

namespace Changed

variable {effect : Option DecodeFault} {s : Shape} {t t' : Tree}

/-- What is passed over is not changed. -/
theorem ne_any (h : Changed effect s t t') : s ≠ .any := by
  induction h with
  | member hkey _ _ _ _ _ =>
    rintro rfl
    cases hkey
  | item _ _ _ _ ih =>
    rintro rfl
    exact ih rfl
  | _ => exact nofun

/-- A change in the value of a field has the effect that it has on the value. -/
theorem turns_member {inner : Shape} {key name : String} (hkey : s.field? key = some (name, inner))
    (h : ∀ room, Turns effect (inner.decode room t) (inner.decode room t'))
    (before after : List (Option String × Tree)) (closed : Bool) (room : Nat) :
    Turns effect (s.decode room (.object (before ++ (some key, t) :: after) closed))
      (s.decode room (.object (before ++ (some key, t') :: after) closed)) := by
  induction s with
  | record k =>
    obtain ⟨f, hf, -, rfl⟩ := RecordKind.exists_field_of_record (room - 1) hkey
    have htake : ∀ r, Turns effect ((k.layout (room - 1)).take f t r)
        ((k.layout (room - 1)).take f t' r) := by
      intro r
      rw [RecordKind.take_eq, RecordKind.take_eq]
      exact (h (room - 1)).map _
    exact Layout.decode_object_turns (Layout.decodeMembers_turns hf htake before after _ _) _ _
  | optional s ih => exact Turns.optional nofun nofun (ih hkey)
  | _ => cases hkey

/-- A change of an item has the effect that it has on the item. -/
theorem turns_item {before : List Tree} (hexpected : s.item before.length ≠ .any)
    (h : ∀ room, Turns effect ((s.item before.length).decode room t)
      ((s.item before.length).decode room t'))
    (after : List Tree) (closed : Bool) (room : Nat) :
    Turns effect (s.decode room (.array (before ++ t :: after) closed))
      (s.decode room (.array (before ++ t' :: after) closed)) := by
  induction s with
  | record k =>
    cases hf : (k.layout (room - 1)).fields[before.length]? with
    | none =>
      rw [RecordKind.item_record (room - 1), hf] at hexpected
      exact absurd rfl hexpected
    | some f =>
      rw [RecordKind.item_record (room - 1), hf] at h
      have htake : ∀ r, Turns effect ((k.layout (room - 1)).take f t r)
          ((k.layout (room - 1)).take f t' r) := by
        intro r
        rw [RecordKind.take_eq, RecordKind.take_eq]
        exact (h (room - 1)).map _
      rw [Shape.decode, RecordKind.decode, RecordKind.decode, Layout.decode, Layout.decode]
      split
      · intro a ha
        cases ha
      · exact Layout.decodePositions_turns htake closed before after 0 _ hf _
  | list k =>
    rw [Shape.decode, decodeList, decodeList]
    split
    · intro a ha
      cases ha
    · exact decodeItems_turns (h (room - 1)) closed before after
  | optional s ih =>
    have hgiven : ∀ items, Tree.array items closed ≠ .null := by
      intro items hnull
      cases hnull
    exact Turns.optional (hgiven _) (hgiven _) (ih hexpected h)
  | _ => exact absurd rfl hexpected

/-- A change anywhere in a file has its effect on all that was decoded. -/
theorem turns (h : Changed effect s t t') (room : Nat) :
    Turns effect (s.decode room t) (s.decode room t') := by
  induction h generalizing room with
  | @reordered k members members' hperm closed =>
    exact Layout.decode_object_perm (RecordKind.commutes _ k) hperm _ _
  | added hkey hformed before after closed =>
    rw [RecordKind.field?_record_eq_none (room - 1)] at hkey
    exact Layout.decode_object_added hkey hformed before after _ _
  | quoted ha =>
    obtain ⟨n, hvalue, htext⟩ := ha.text_eq
    rw [← htext, Shape.decode, decodeId, decodeId, Tree.readable, hvalue]
    rintro _ ⟨⟩
    rfl
  | @repeated k key key' name s s' hkey hkey' t u before middle after closed =>
    obtain ⟨f, hf, rfl, -⟩ := RecordKind.exists_field_of_record (room - 1) hkey
    obtain ⟨g, hg, hname, -⟩ := RecordKind.exists_field_of_record (room - 1) hkey'
    obtain rfl := RecordKind.name_injective _ _ hname
    exact Layout.decode_object_repeated hf hg t u before middle after _ closed
  | @leftOut k e he hrequired members closed =>
    rw [RecordKind.schema_eq (room - 1)] at he
    obtain ⟨f, -, rfl⟩ := List.mem_map.mp he
    rw [← RecordKind.without_eq]
    exact Layout.decode_object_leftOut (RecordKind.independent (room - 1) k)
      (RecordKind.mem_fields (room - 1) k f) hrequired members _ closed
  | member hkey _ before after closed ih => exact turns_member hkey ih before after closed room
  | item before hitem after closed ih => exact turns_item hitem.ne_any ih after closed room

end Changed

/-! ## Names in faults -/

/-- The canonical name of a field that has to be given. -/
def IsRequiredName (name : String) : Prop :=
  ∃ k : RecordKind, ∃ e ∈ k.schema, e.required ∧ e.name = name

/-- The canonical name of a field. -/
def IsCanonicalName (name : String) : Prop :=
  ∃ k : RecordKind, ∃ e ∈ k.schema, e.name = name

/-- A fault that names a field as missing or as a duplicate names it canonically. -/
theorem Shape.names_of_decode {t : Tree} {s : Shape} {room : Nat} {fault : DecodeFault}
    (herror : s.decode room t = .error fault) : fault.Names IsRequiredName IsCanonicalName := by
  induction t using Tree.parts_induction generalizing s room fault with
  | step t ih =>
    induction s generalizing room fault with
    | any =>
      rw [Shape.decode] at herror
      dsimp only at herror
      split at herror
      · cases herror
      · cases herror
        trivial
    | id => exact names_of_decodeId herror
    | text => exact names_of_decodeText herror
    | pattern => exact names_of_map (fun _ => names_of_decodeText) herror
    | record k =>
      refine Layout.names_of_decode ?_ ?_ ?_ herror
      · exact fun f hf => ⟨k, _, k.entry_mem_schema _ f, hf, rfl⟩
      · exact fun f => ⟨k, _, k.entry_mem_schema _ f, rfl⟩
      · intro u hu f r other htake
        rw [RecordKind.take_eq] at htake
        exact names_of_map (fun _ => ih u hu) htake
    | list k =>
      rw [Shape.decode, decodeList.eq_def] at herror
      split at herror
      · split at herror
        · cases herror
          trivial
        · exact names_of_decodeItems (fun u hu _ hitem => ih u hu (s := .record k) hitem) herror
      · exact names_of_refuse herror
    | optional s ihShape =>
      rw [Shape.decode, decodeOptional.eq_def] at herror
      split at herror
      · cases herror
      · exact names_of_map (fun _ => ihShape) herror

/-! ## Files -/

/-- How a file is spelled. Under whichever names its fields are given, it is read as the same
expectation, or has the same fault, and such a fault names fields canonically. A file that is read
as an expectation is spoiled by naming a field again or leaving a required one out, and is still
read as the same expectation when the members of its records are reordered, members that name no
field are added and integers for ids are written as texts. -/
theorem ContainerSpec.ofText_of_spelling (text : String) :
    (∀ text' : String, Respelled (.value []) (tokens text.toList) (tokens text'.toList) →
      ContainerSpec.ofText text' = ContainerSpec.ofText text) ∧
    (∀ fault, ContainerSpec.ofText text = .error fault →
      fault.Names IsRequiredName IsCanonicalName) ∧
    (∀ s, ContainerSpec.ofText text = .ok s → ∀ (text' : String) (fault : DecodeFault),
      Changed (some fault) (.record .container) (Document.read text).root
        (Document.read text').root →
      ContainerSpec.ofText text' = .error fault) ∧
    ∀ s, ContainerSpec.ofText text = .ok s → ∀ text' : String,
      Relation.ReflTransGen (Changed none (.record .container)) (Document.read text).root
        (Document.read text').root →
      (Document.read text').ended = true → ContainerSpec.ofText text' = .ok s := by
  refine ⟨fun _ h => ContainerSpec.ofText_of_respelled h, ?_, ?_, ?_⟩
  · intro fault herror
    rcases ContainerSpec.decode_error_of_ofText herror with hdecode | rfl
    · exact Shape.names_of_decode (s := .record .container) hdecode
    · trivial
  · intro s hok text' fault hchanged
    obtain ⟨hdecode, -⟩ := ContainerSpec.ofText_eq_ok_iff.mp hok
    exact ContainerSpec.ofText_of_decode_error (hchanged.turns nestingLimit s hdecode)
  · intro s hok text' hchanged hended
    obtain ⟨hdecode, -⟩ := ContainerSpec.ofText_eq_ok_iff.mp hok
    have hkept : ∀ t, Relation.ReflTransGen (Changed none (.record .container))
        (Document.read text).root t → ContainerSpec.decode nestingLimit t = .ok s := by
      intro t hchain
      induction hchain with
      | refl => exact hdecode
      | tail _ hstep ih => exact hstep.turns nestingLimit s ih
    exact ContainerSpec.ofText_eq_ok_iff.mpr ⟨hkept _ hchanged, hended⟩

/-! ## A title under all second names -/

/-- The value of a file that expects one element of a movie, with the given members. -/
def movieTree (element : List (Option String × Tree)) : Tree :=
  .object [(some "container", .ofText "movie"),
    (some "elements", .array [.object element true] true)] true

/-- The members of an element for the title, of which all fields have their second names; `id` is
written for its id, and `members` are those of its only attribute. -/
def titleMembers (id : Tree) (members : List (Option String × Tree)) :
    List (Option String × Tree) :=
  [(some "element_id", id), (some "element_name", .ofText "title"),
    (some "element_value", .ofText "Up"), (some "attributes", .array [.object members true] true),
    (some "child_elements", .array [] true)]

/-- A change in the only element of a file changes the file. -/
theorem Changed.movieTree {effect : Option DecodeFault} {m m' : List (Option String × Tree)}
    (h : Changed effect (.record .element) (.object m true) (.object m' true)) :
    Changed effect (.record .container) (movieTree m) (movieTree m') := by
  have helements : (Shape.record .container).field? "elements" =
      some ("elements", .list .element) := by decide +kernel
  have hitem : Changed effect (.list .element) (.array [.object m true] true)
      (.array [.object m' true] true) := .item [] h [] true
  exact .member helements hitem [(some "container", .ofText "movie")] [] true

/-- A change in the only attribute of the title changes the title. -/
theorem Changed.titleMembers {effect : Option DecodeFault} {m m' : List (Option String × Tree)}
    (h : Changed effect (.record .attr) (.object m true) (.object m' true)) (id : Tree) :
    Changed effect (.record .element) (.object (titleMembers id m) true)
      (.object (titleMembers id m') true) := by
  have hattributes : (Shape.record .element).field? "attributes" =
      some ("attributes", .optional (.list .attr)) := by decide +kernel
  have hitem : Changed effect (.optional (.list .attr)) (.array [.object m true] true)
      (.array [.object m' true] true) := .item [] h [] true
  exact .member hattributes hitem [(some "element_id", id), (some "element_name", .ofText "title"),
    (some "element_value", .ofText "Up")] [(some "child_elements", .array [] true)] true

/-- A text that is joined of three has the tokens of their characters. -/
theorem tokens_joined (a b c : List Char) :
    tokens (String.ofList a ++ String.ofList b ++ String.ofList c).toList =
      tokens (a ++ b ++ c) := by
  rw [String.toList_append, String.toList_append, String.toList_ofList, String.toList_ofList,
    String.toList_ofList]

/-- A text that is joined of three is read as the tree whose tokens it has. -/
theorem Json.Document.read_joined {a b c : List Char} {t : Tree} (hformed : t.wellFormed)
    (htokens : tokens (a ++ b ++ c) = t.tokens) :
    Document.read (String.ofList a ++ String.ofList b ++ String.ofList c) = ⟨t, true⟩ :=
  Document.read_of_tokens hformed ((tokens_joined a b c).trans htokens)

/-- Texts that are joined of three are spelled differently if their characters are. -/
theorem Respelled.joined {a b c a' b' c' : List Char}
    (h : Respelled (.value []) (tokens (a ++ b ++ c)) (tokens (a' ++ b' ++ c'))) :
    Respelled (.value [])
      (tokens (String.ofList a ++ String.ofList b ++ String.ofList c).toList)
      (tokens (String.ofList a' ++ String.ofList b' ++ String.ofList c').toList) := by
  rwa [tokens_joined, tokens_joined]

/-- A title under all second names of its fields is read as the same expectation as under all
canonical names. The value of its attribute is missed under the canonical name, and is not to be
given under both names; and the order of members, a note beside them and the way in which the id is
written do not matter. -/
theorem ContainerSpec.ofText_of_spelling_title :
    let second :=
      "\x7b\"container\":\"movie\",\"elements\":[\x7b\"element_id\":7,\"element_name\":" ++
      "\"title\",\"element_value\":\"Up\",\"attributes\":[\x7b\"attribute_id\":1,\"attribute_name\":" ++
      "\"lang\",\"attribute_value\":\"en\"\x7d],\"child_elements\":[]\x7d]\x7d"
    let canonical :=
      "\x7b\"container_selector\":\"movie\",\"elements\":[\x7b\"id\":7,\"name\":\"title\"," ++
      "\"expected_value\":\"Up\",\"attributes\":[\x7b\"id\":1,\"name\":\"lang\"," ++
      "\"expected_value\":\"en\"\x7d],\"children\":[]\x7d]\x7d"
    let twice :=
      "\x7b\"container\":\"movie\",\"elements\":[\x7b\"element_id\":7,\"element_name\":" ++
      "\"title\",\"element_value\":\"Up\",\"attributes\":[\x7b\"attribute_id\":1,\"attribute_name\":" ++
      "\"lang\",\"attribute_value\":\"en\",\"expected_value\":\"de\"\x7d],\"child_elements\":[]\x7d]\x7d"
    let bare :=
      "\x7b\"container\":\"movie\",\"elements\":[\x7b\"element_id\":7,\"element_name\":" ++
      "\"title\",\"element_value\":\"Up\",\"attributes\":[\x7b\"attribute_id\":1,\"attribute_name\":" ++
      "\"lang\"\x7d],\"child_elements\":[]\x7d]\x7d"
    let loose :=
      "\x7b\"note\":[],\"container\":\"movie\",\"elements\":[\x7b\"element_id\":\"7\",\"element_name\":" ++
      "\"title\",\"element_value\":\"Up\",\"attributes\":[\x7b\"attribute_name\":\"lang\",\"attribute_id\":" ++
      "1,\"attribute_value\":\"en\"\x7d],\"child_elements\":[]\x7d]\x7d"
    let title := (ElementSpec.existing "7" "title").withValue "Up"
    let s : ContainerSpec :=
      ⟨"movie", [(title.withAttributes [.ofText "1" "lang" "en"]).withChildren []]⟩
    ContainerSpec.ofText second = .ok s ∧ ContainerSpec.ofText canonical = .ok s ∧
      ContainerSpec.ofText twice = .error (.duplicate "expected_value") ∧
      ContainerSpec.ofText bare = .error (.missing "expected_value") ∧
      ContainerSpec.ofText loose = .ok s := by
  intro second canonical twice bare loose title s
  let seven : Tree := .number ⟨false, ['7'], none, none⟩
  let id : Option String × Tree := (some "attribute_id", .number ⟨false, ['1'], none, none⟩)
  let name : Option String × Tree := (some "attribute_name", .ofText "lang")
  let value : Option String × Tree := (some "attribute_value", .ofText "en")
  have hsecond : Document.read second = ⟨movieTree (titleMembers seven [id, name, value]), true⟩ :=
    Document.read_joined rfl (by decide +kernel)
  have hok : ContainerSpec.ofText second = .ok s := by
    rw [ContainerSpec.ofText_eq_ok_iff, hsecond]
    exact ⟨rfl, rfl⟩
  obtain ⟨hnames, -, hspoiled, hkept⟩ := ContainerSpec.ofText_of_spelling second
  refine ⟨hok, ?_, ?_, ?_, ?_⟩
  · have hrespelled : Respelled (.value []) (tokens second.toList) (tokens canonical.toList) :=
      Respelled.joined (by decide +kernel)
    rw [hnames canonical hrespelled, hok]
  · have htwice : Document.read twice = ⟨movieTree (titleMembers seven
        [id, name, value, (some "expected_value", .ofText "de")]), true⟩ :=
      Document.read_joined rfl (by decide +kernel)
    have hvalue : (Shape.record .attr).field? "attribute_value" =
        some ("expected_value", .pattern) := by decide +kernel
    have hvalue' : (Shape.record .attr).field? "expected_value" =
        some ("expected_value", .pattern) := by decide +kernel
    have hrepeated := Changed.repeated hvalue hvalue' (.ofText "en") (.ofText "de") [id, name] [] []
      true
    refine hspoiled s hok twice _ ?_
    rw [hsecond, htwice]
    exact (hrepeated.titleMembers seven).movieTree
  · have hbare : Document.read bare = ⟨movieTree (titleMembers seven [id, name]), true⟩ :=
      Document.read_joined rfl (by decide +kernel)
    have hentry : (⟨"expected_value", some "attribute_value", true, .pattern⟩ : FieldEntry) ∈
        RecordKind.attr.schema := by decide +kernel
    have hleft := Changed.leftOut hentry rfl [id, name, value] true
    refine hspoiled s hok bare _ ?_
    rw [hsecond, hbare]
    exact (hleft.titleMembers seven).movieTree
  · have hloose : Document.read loose = ⟨.object ((some "note", .array [] true) ::
        [(some "container", .ofText "movie"), (some "elements", .array [.object (titleMembers
          (.ofText "7") [name, id, value]) true] true)]) true, true⟩ :=
      Document.read_joined rfl (by decide +kernel)
    refine hkept s hok loose ?_ ?_
    · have hdigits : ∀ c ∈ ['7'], c.isDigit := by
        intro c hc
        obtain rfl := List.mem_singleton.mp hc
        rfl
      have hinteger : (⟨false, ['7'], none, none⟩ : Numeral).IsInteger :=
        ⟨hdigits, rfl, rfl, rfl, by decide⟩
      have hquoted : Changed none .id seven (.ofText "7") := by
        have hprint : String.ofList (⟨false, ['7'], none, none⟩ : Numeral).print = "7" := by
          decide +kernel
        have h := Changed.quoted hinteger
        rwa [hprint] at h
      have hid : (Shape.record .element).field? "element_id" = some ("id", .id) := by
        decide +kernel
      have hnote : (Shape.record .container).field? "note" = none := by decide +kernel
      have hwritten : Changed none (.record .element)
          (.object (titleMembers seven [id, name, value]) true)
          (.object (titleMembers (.ofText "7") [id, name, value]) true) :=
        .member hid hquoted [] (titleMembers seven [id, name, value]).tail true
      have hswapped : Changed none (.record .attr) (.object [id, name, value] true)
          (.object [name, id, value] true) := .reordered (.swap name id [value]) true
      rw [hsecond, hloose]
      exact .tail (.tail (.single hwritten.movieTree) (hswapped.titleMembers _).movieTree)
        (.added hnote rfl [] _ true)
    · rw [hloose]

end FeedAudit

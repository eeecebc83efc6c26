import FeedAudit.Expectation.File
import FeedAudit.Proofs.Layouts
import Mathlib.Logic.Function.Basic

/-!
# The schema of expectation files

Three kinds of records stand in an expectation file, and every field of them holds a value of one
*shape*: a text, an id, a pattern, a list of records, or one of these that may be absent. The format
of files is written down as a schema of its own (`RecordKind.schema`): the names of every field, of
which all but two have a second one, whether it has to be given, and the shape of its values.
Records are decoded by this schema (`RecordKind.schema_eq`), each value in the shape of its field
(`RecordKind.take_eq`), so that shapes say what is expected anywhere in a file, at any depth. -/

namespace FeedAudit

open Json

/-- With room for itself, an element is decoded by its layout, with one level less for the fields
and two levels less for each child. -/
theorem ElementSpec.decode_eq (room : Nat) (t : Tree) :
    ElementSpec.decode room t =
      (elementLayout (room - 1) (decodeList (room - 1) (ElementSpec.decode (room - 2)))).decode
        (room != 0) t := by
  have hclosed : decodeList 0 (fun _ => .error .malformed) =
      decodeList 0 (ElementSpec.decode 0) := by
    funext u
    cases u <;> rfl
  match room with
  | 0 =>
    rw [ElementSpec.decode, hclosed]
    rfl
  | 1 =>
    rw [ElementSpec.decode, hclosed]
    rfl
  | room + 2 =>
    rw [ElementSpec.decode]
    rfl

/-- A file is read as an expectation when its value is decoded and nothing else follows. -/
theorem ContainerSpec.ofText_eq_ok_iff {text : String} {s : ContainerSpec} :
    ContainerSpec.ofText text = .ok s ↔
      ContainerSpec.decode nestingLimit (Document.read text).root = .ok s ∧
        (Document.read text).ended = true := by
  rw [ContainerSpec.ofText, decodeDocument]
  cases hdecode : ContainerSpec.decode nestingLimit (Document.read text).root with
  | error fault => simp
  | ok other => cases (Document.read text).ended <;> simp

/-- A fault of the value of a file is met before what follows the value. -/
theorem ContainerSpec.ofText_of_decode_error {text : String} {fault : DecodeFault}
    (herror : ContainerSpec.decode nestingLimit (Document.read text).root = .error fault) :
    ContainerSpec.ofText text = .error fault := by
  simp only [ContainerSpec.ofText, decodeDocument, herror]

/-- What is wrong with a file is a fault of its value, or something else follows the value. -/
theorem ContainerSpec.decode_error_of_ofText {text : String} {fault : DecodeFault}
    (herror : ContainerSpec.ofText text = .error fault) :
    ContainerSpec.decode nestingLimit (Document.read text).root = .error fault ∨
      fault = .malformed := by
  rw [ContainerSpec.ofText, decodeDocument] at herror
  split at herror
  · cases herror
    exact .inl ‹_›
  · split at herror
    · cases herror
    · cases herror
      exact .inr rfl

/-! ## Records -/

/-- A kind of record. -/
inductive RecordKind where
  | container
  | element
  | attr
  deriving DecidableEq, Repr

/-- What is expected at a place of an expectation file. -/
inductive Shape where
  /-- Any value; it is passed over. -/
  | any
  | id
  | text
  | pattern
  | record (k : RecordKind)
  | list (k : RecordKind)
  | optional (s : Shape)
  deriving DecidableEq, Repr

namespace RecordKind

/-- The fields of a record. -/
def Field : RecordKind → Type
  | container => ContainerField
  | element => ElementField
  | attr => AttributeField

instance : (k : RecordKind) → DecidableEq k.Field
  | container => inferInstanceAs (DecidableEq ContainerField)
  | element => inferInstanceAs (DecidableEq ElementField)
  | attr => inferInstanceAs (DecidableEq AttributeField)

/-- What a record is decoded to. -/
def Value : RecordKind → Type
  | container => ContainerSpec
  | element => ElementSpec
  | attr => AttributeSpec

/-- How a record is written, with the given room inside. -/
def layout (room : Nat) : (k : RecordKind) → Layout k.Field k.Value
  | container => containerLayout room
  | element => elementLayout room (decodeList room (ElementSpec.decode (room - 1)))
  | attr => attributeLayout room

/-- Decodes a record. -/
def decode (room : Nat) (k : RecordKind) (t : Tree) : Except DecodeFault k.Value :=
  (k.layout (room - 1)).decode (room != 0) t

/-- Elements are decoded as records. -/
theorem decode_element (room : Nat) : element.decode room = ElementSpec.decode room := by
  funext t
  exact (ElementSpec.decode_eq room t).symm

end RecordKind

/-! ## Values -/

namespace Shape

/-- What a value of a shape is decoded to. -/
def Value : Shape → Type
  | any => Unit
  | id => String
  | text => String
  | pattern => Pattern
  | record k => k.Value
  | list k => List k.Value
  | optional s => Option s.Value

/-- Decodes a value of a shape. -/
def decode (room : Nat) : (s : Shape) → Tree → Except DecodeFault s.Value
  | any => fun t => if t.wellFormed then .ok () else .error .malformed
  | id => decodeId room
  | text => decodeText "a string"
  | pattern => Pattern.decode
  | record k => k.decode room
  | list k => decodeList room (k.decode (room - 1))
  | optional s => decodeOptional (s.decode room)

end Shape

namespace RecordKind

/-- The shape of the values of a field. -/
def shape : (k : RecordKind) → k.Field → Shape
  | container, .container => .text
  | container, .elements => .list element
  | element, .id => .id
  | element, .name => .text
  | element, .value => .optional .pattern
  | element, .attributes => .optional (.list attr)
  | element, .children => .optional (.list element)
  | attr, .id => .id
  | attr, .name => .text
  | attr, .expected => .pattern

/-- Puts the value of a field into a record. -/
def put : (k : RecordKind) → (f : k.Field) → (k.shape f).Value → k.Value → k.Value
  | container, .container => fun v (r : ContainerSpec) => { r with container := v }
  | container, .elements => fun v (r : ContainerSpec) => { r with elements := v }
  | element, .id => fun v (r : ElementSpec) => { r with id := v }
  | element, .name => fun v (r : ElementSpec) => { r with name := v }
  | element, .value => fun v (r : ElementSpec) => { r with value := v }
  | element, .attributes => fun v (r : ElementSpec) => { r with attributes := v }
  | element, .children => fun v (r : ElementSpec) => { r with children := v }
  | attr, .id => fun v (r : AttributeSpec) => { r with id := v }
  | attr, .name => fun v (r : AttributeSpec) => { r with name := v }
  | attr, .expected => fun v (r : AttributeSpec) => { r with expected := v }

/-- The value of a field is decoded in the shape of the field, whatever is known of the record. -/
theorem take_eq (room : Nat) (k : RecordKind) (f : k.Field) (t : Tree) (r : k.Value) :
    (k.layout room).take f t r = ((k.shape f).decode room t).map fun v => k.put f v r := by
  cases k with
  | container =>
    cases f with
    | container => rfl
    | elements =>
      change _ = (decodeList room (element.decode (room - 1)) t).map _
      rw [decode_element]
      rfl
  | element =>
    cases f with
    | children =>
      change _ = (decodeOptional (decodeList room (element.decode (room - 1))) t).map _
      rw [decode_element]
      rfl
    | _ => rfl
  | attr => cases f <;> rfl

/-- It does not matter in which order the values of two fields are put into a record. -/
theorem put_comm (k : RecordKind) {f g : k.Field} (hne : f ≠ g) (v : (k.shape f).Value)
    (w : (k.shape g).Value) (r : k.Value) : k.put f v (k.put g w r) = k.put g w (k.put f v r) := by
  cases k <;> cases f <;> cases g <;> first | rfl | exact absurd rfl hne

end RecordKind

/-! ## The schema -/

/-- A field of a record in the format of expectation files. -/
structure FieldEntry where
  /-- The canonical name, by which faults name the field. -/
  name : String
  /-- A second name under which the field may be given. -/
  otherName : Option String
  required : Bool
  /-- What is expected as its value. -/
  shape : Shape
  deriving DecidableEq, Repr

/-- Whether a key is one of the names of a field. -/
def FieldEntry.isNamed (e : FieldEntry) (key : String) : Bool :=
  key == e.name || some key == e.otherName

namespace RecordKind

/-- The fields of a record in the order of their declaration: eight of the ten have two names. -/
def schema : RecordKind → List FieldEntry
  | container =>
    [⟨"container_selector", some "container", true, .text⟩,
      ⟨"elements", none, true, .list element⟩]
  | element =>
    [⟨"id", some "element_id", false, .id⟩,
      ⟨"name", some "element_name", true, .text⟩,
      ⟨"expected_value", some "element_value", false, .optional .pattern⟩,
      ⟨"attributes", none, false, .optional (.list attr)⟩,
      ⟨"children", some "child_elements", false, .optional (.list element)⟩]
  | attr =>
    [⟨"id", some "attribute_id", false, .id⟩,
      ⟨"name", some "attribute_name", true, .text⟩,
      ⟨"expected_value", some "attribute_value", true, .pattern⟩]

/-- A field as it is decoded. -/
def entry (room : Nat) (k : RecordKind) (f : k.Field) : FieldEntry :=
  ⟨(k.layout room).name f, (k.layout room).otherName f, (k.layout room).required f, k.shape f⟩

/-- Records are decoded by the schema. -/
theorem schema_eq (room : Nat) (k : RecordKind) :
    k.schema = (k.layout room).fields.map (k.entry room) := by
  cases k <;> rfl

/-- Every field is declared. -/
theorem mem_fields (room : Nat) (k : RecordKind) (f : k.Field) : f ∈ (k.layout room).fields := by
  cases k <;> cases f <;> exact List.mem_of_elem_eq_true rfl

/-- Every field that is decoded stands in the schema. -/
theorem entry_mem_schema (room : Nat) (k : RecordKind) (f : k.Field) :
    k.entry room f ∈ k.schema := by
  rw [schema_eq room]
  exact List.mem_map_of_mem (k.mem_fields room f)

/-- A key names the field that has it as one of its names. -/
theorem field?_eq_some_iff {room : Nat} {k : RecordKind} {key : String} {f : k.Field} :
    (k.layout room).field? key = some f ↔ (k.entry room f).isNamed key = true := by
  constructor
  · intro hkey
    rw [Layout.field?] at hkey
    exact List.find?_some (p := (k.entry room · |>.isNamed key)) hkey
  · -- The names of a record are told apart by comparing each with the others.
    intro hkey
    have hnames : key = (k.layout room).name f ∨ some key = (k.layout room).otherName f := by
      rw [FieldEntry.isNamed, Bool.or_eq_true, beq_iff_eq, beq_iff_eq] at hkey
      exact hkey
    cases k <;> cases f <;> rcases hnames with hname | hname <;> cases hname <;> rfl

/-- The canonical name of a field names this field. -/
theorem field?_name (room : Nat) (k : RecordKind) (f : k.Field) :
    (k.layout room).field? ((k.layout room).name f) = some f := by
  rw [field?_eq_some_iff, FieldEntry.isNamed, entry, beq_self_eq_true, Bool.true_or]

/-- Fields are told apart by their canonical names. -/
theorem name_injective (room : Nat) (k : RecordKind) :
    Function.Injective (k.layout room).name := by
  intro f g heq
  have hf := field?_name room k f
  rw [heq, field?_name] at hf
  exact (Option.some.inj hf).symm

end RecordKind

/-! ## Places -/

namespace Shape

/-- The canonical name of the field that a key names and the shape of its values. -/
def field? : Shape → String → Option (String × Shape)
  | record k, key => (k.schema.find? fun e => e.isNamed key).map fun e => (e.name, e.shape)
  | optional s, key => s.field? key
  | _, _ => none

/-- The canonical name of a key; one that names no field stands for itself. -/
def canonicalKey (s : Shape) (key : String) : String :=
  match s.field? key with
  | some (name, _) => name
  | none => key

/-- What is expected as the value of a member. -/
def member (s : Shape) (key : Option String) : Shape :=
  match key.bind s.field? with
  | some (_, inner) => inner
  | none => any

/-- What is expected as an item of a list; records may be written as the list of their fields. -/
def item : Shape → Nat → Shape
  | record k, i => (k.schema[i]?.map (·.shape)).getD any
  | list k, _ => record k
  | optional s, i => s.item i
  | _, _ => any

end Shape

namespace RecordKind

/-- A key names the same field in the schema and where records are decoded. -/
theorem field?_record (room : Nat) (k : RecordKind) (key : String) :
    (Shape.record k).field? key =
      ((k.layout room).field? key).map fun f => ((k.layout room).name f, k.shape f) := by
  rw [Shape.field?, schema_eq room, List.find?_map, Option.map_map]
  rfl

/-- A key that names no field, seen from the schema and from where records are decoded. -/
theorem field?_record_eq_none (room : Nat) {k : RecordKind} {key : String} :
    (Shape.record k).field? key = none ↔ (k.layout room).field? key = none := by
  rw [field?_record room, Option.map_eq_none_iff]

/-- A key of a record names a field, which is known where records are decoded. -/
theorem exists_field_of_record (room : Nat) {k : RecordKind} {key name : String} {s : Shape}
    (hkey : (Shape.record k).field? key = some (name, s)) :
    ∃ f, (k.layout room).field? key = some f ∧ (k.layout room).name f = name ∧ k.shape f = s := by
  rw [field?_record room] at hkey
  obtain ⟨f, hf, heq⟩ := Option.map_eq_some_iff.mp hkey
  obtain ⟨rfl, rfl⟩ := Prod.mk.inj heq
  exact ⟨f, hf, rfl, rfl⟩

/-- What is expected as an item of a record that is written as the list of its fields. -/
theorem item_record (room : Nat) (k : RecordKind) (i : Nat) :
    (Shape.record k).item i = ((k.layout room).fields[i]?.map k.shape).getD .any := by
  rw [Shape.item, schema_eq room, List.getElem?_map, Option.map_map]
  rfl

end RecordKind

end FeedAudit

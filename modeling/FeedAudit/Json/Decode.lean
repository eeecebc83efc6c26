import FeedAudit.Decimal.Whole
import FeedAudit.Json.Tree
import FeedAudit.Text.Quoted

/-!
# Decoding JSON trees

A tree is decoded in one pass from left to right, and the first fault met is the answer. Records
are written as objects, whose members may come in any order and under several names, or as lists of
their fields in order. Members that name no field are passed over, as long as they are well-formed.

Lists and objects may be nested to a limited depth. The *room* of a decoder is the number of further
levels that may be opened below it; what is passed over takes no room.
-/

namespace FeedAudit.Json

/-- Why a tree is not of the expected shape. -/
inductive DecodeFault where
  /-- The text is not well-formed, or nested too deeply. -/
  | malformed
  | missing (field : String)
  | duplicate (field : String)
  | wrongType (found wanted : String)
  | outOfRange (n : Int) (wanted : String)
  /-- Neither a text nor a number stands where an id is wanted. -/
  | noId
  | tooShort (length : Nat) (wanted : String)
  deriving DecidableEq, Repr, Inhabited

/-- The fault in words. -/
def DecodeFault.message : DecodeFault → String
  | .malformed => "malformed text"
  | .missing field => "missing field \x60" ++ field ++ "\x60"
  | .duplicate field => "duplicate field \x60" ++ field ++ "\x60"
  | .wrongType found wanted => "invalid type: " ++ found ++ ", expected " ++ wanted
  | .outOfRange n wanted =>
    "invalid value: integer \x60" ++ toString n ++ "\x60, expected " ++ wanted
  | .noId => "data did not match any variant of untagged enum RawId"
  | .tooShort length wanted => "invalid length " ++ toString length ++ ", expected " ++ wanted

/-- The depth to which lists and objects may be nested. -/
def nestingLimit : Nat := 127

/-! ## Simple values -/

/-- The name of what a tree holds where something else was wanted. -/
def Tree.found : Tree → Except DecodeFault String
  | .null => .ok "null"
  | .boolean b => .ok ("boolean \x60" ++ toString b ++ "\x60")
  | .number a =>
    match a.value? with
    | some (.integer n) => .ok ("integer \x60" ++ toString n ++ "\x60")
    | some (.double x) => .ok ("floating point \x60" ++ doubleText x ++ "\x60")
    | none => .error .malformed
  | .string (some s) => .ok ("string " ++ Text.quoted s)
  | .string none => .error .malformed
  | .array _ _ => .ok "sequence"
  | .object _ _ => .ok "map"
  | .broken => .error .malformed

/-- The fault of a tree that is not what was wanted. -/
def refuse {α : Type} (wanted : String) (t : Tree) : Except DecodeFault α :=
  match t.found with
  | .ok found => .error (.wrongType found wanted)
  | .error fault => .error fault

/-- A text; `wanted` says what it is used for. -/
def decodeText (wanted : String) : Tree → Except DecodeFault String
  | .string (some s) => .ok s
  | t => refuse wanted t

/-- A truth value. -/
def decodeBoolean : Tree → Except DecodeFault Bool
  | .boolean b => .ok b
  | t => refuse "a boolean" t

/-- A natural number up to a limit. -/
def decodeNatural (limit : Nat) (wanted : String) : Tree → Except DecodeFault Nat
  | .number a =>
    match a.value? with
    | some (.integer n) =>
      if 0 ≤ n ∧ n ≤ limit then .ok n.toNat else .error (.outOfRange n wanted)
    | _ => refuse wanted (.number a)
  | t => refuse wanted t

/-- A value that may be absent, which is written `null`. -/
def decodeOptional {α : Type} (decode : Tree → Except DecodeFault α) :
    Tree → Except DecodeFault (Option α)
  | .null => .ok none
  | t => (decode t).map some

/-! ## Lists -/

/-- Decodes the items of a list in order. -/
def decodeItems {α : Type} (item : Tree → Except DecodeFault α) (closed : Bool) :
    List Tree → Except DecodeFault (List α)
  | [] => if closed then .ok [] else .error .malformed
  | t :: rest => do
    let first ← item t
    let others ← decodeItems item closed rest
    return first :: others

/-- A list, in the given room. -/
def decodeList {α : Type} (room : Nat) (item : Tree → Except DecodeFault α) :
    Tree → Except DecodeFault (List α)
  | .array items closed => if room = 0 then .error .malformed else decodeItems item closed items
  | t => refuse "a sequence" t

/-! ## Any value -/

mutual

/-- Whether a value can be read whole in the given room: it is well-formed, its texts and numbers
have values, and it is not nested too deeply. -/
def Tree.readable (room : Nat) : Tree → Bool
  | .number a => a.value?.isSome
  | .string text => text.isSome
  | .array items closed => room != 0 && readableItems (room - 1) items && closed
  | .object members closed => room != 0 && readableMembers (room - 1) members && closed
  | .broken => false
  | _ => true

/-- Whether all items can be read whole. -/
def Tree.readableItems (room : Nat) : List Tree → Bool
  | [] => true
  | t :: rest => t.readable room && readableItems room rest

/-- Whether all members can be read whole. -/
def Tree.readableMembers (room : Nat) : List (Option String × Tree) → Bool
  | [] => true
  | (key, t) :: rest => key.isSome && t.readable room && readableMembers room rest

end

/-- An id, which is a text or a number; a number becomes its text. -/
def decodeId (room : Nat) (t : Tree) : Except DecodeFault String :=
  if t.readable room then
    match t with
    | .string (some s) => .ok s
    | .number a =>
      match a.value? with
      | some n => .ok n.text
      | none => .error .malformed
    | _ => .error .noId
  else .error .malformed

/-! ## Records -/

/-- How a record of type `α` with the fields `F` is written. -/
structure Layout (F α : Type) where
  /-- What a record of this kind is called where something else was found. -/
  wanted : String
  /-- The fields in the order of their declaration. -/
  fields : List F
  /-- The name of a field. -/
  name : F → String
  /-- A further name under which a field may be given. -/
  otherName : F → Option String := fun _ => none
  /-- Whether a field has to be given. -/
  required : F → Bool := fun _ => false
  /-- Whether items behind the last field of a list are passed over. -/
  passesOver : Bool := false
  /-- The record of which nothing has been given. -/
  start : α
  /-- Takes the value of a field into the record. -/
  take : F → Tree → α → Except DecodeFault α

namespace Layout

variable {F α : Type} [DecidableEq F]

/-- The field that a key names. -/
def field? (l : Layout F α) (key : String) : Option F :=
  l.fields.find? fun f => key == l.name f || some key == l.otherName f

/-- Decodes the members of an object; `given` holds the fields seen so far. -/
def decodeMembers (l : Layout F α) (given : List F) (record : α) :
    List (Option String × Tree) → Except DecodeFault (List F × α)
  | [] => .ok (given, record)
  | (none, _) :: _ => .error .malformed
  | (some key, t) :: rest =>
    match l.field? key with
    | none => if t.wellFormed then decodeMembers l given record rest else .error .malformed
    | some f =>
      if f ∈ given then .error (.duplicate (l.name f))
      else
        match l.take f t record with
        | .ok record => decodeMembers l (f :: given) record rest
        | .error fault => .error fault

/-- Decodes a list of fields in order; `position` is that of the next one. -/
def decodePositions (l : Layout F α) (closed : Bool) (position : Nat) :
    List F → List Tree → α → Except DecodeFault α
  | [], [], record => if closed then .ok record else .error .malformed
  | [], _ :: _, record => if l.passesOver && closed then .ok record else .error .malformed
  | f :: fields, [], record =>
    if !closed then .error .malformed
    else if l.required f then
      .error (.tooShort position (l.wanted ++ " with " ++ toString l.fields.length ++ " elements"))
    else decodePositions l closed (position + 1) fields [] record
  | f :: fields, t :: rest, record =>
    match l.take f t record with
    | .ok record => decodePositions l closed (position + 1) fields rest record
    | .error fault => .error fault

/-- Decodes a record; `mayOpen` says whether there is room for it. -/
def decode (l : Layout F α) (mayOpen : Bool) : Tree → Except DecodeFault α
  | .object members closed =>
    if !mayOpen then .error .malformed
    else
      match l.decodeMembers [] l.start members with
      | .error fault => .error fault
      | .ok (given, record) =>
        if !closed then .error .malformed
        else
          match l.fields.find? fun f => l.required f && f ∉ given with
          | some f => .error (.missing (l.name f))
          | none => .ok record
  | .array items closed =>
    if !mayOpen then .error .malformed
    else l.decodePositions closed 0 l.fields items l.start
  | t => refuse l.wanted t

end Layout

/-- Decodes a whole text; nothing but blanks may follow the value. -/
def decodeDocument {α : Type} (decode : Tree → Except DecodeFault α) (s : String) :
    Except DecodeFault α :=
  let d := Document.read s
  match decode d.root with
  | .error fault => .error fault
  | .ok a => if d.ended then .ok a else .error .malformed

end FeedAudit.Json

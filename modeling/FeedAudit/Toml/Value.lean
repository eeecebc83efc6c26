/-!
# TOML values

A TOML text describes one table. Its parts may be given in any order, but none of them twice: a
table that has a header of its own gets no second one, a table that dotted keys have made is added
to by dotted keys alone, and what is written as a value is complete. How a table came to be is its
*origin*, and `Table.editAt` walks to a table while these rules are kept.
-/

namespace FeedAudit.Toml

/-- What is wrong with a text. -/
inductive Fault where
  | badKey
  | badText
  | badEscape
  | badWord
  | badValue
  | badLine
  | unended
  | tooDeep
  /-- The key is given twice, or stands for something that cannot be added to. -/
  | taken (key : String)
  deriving DecidableEq, Repr

/-- The fault in words. -/
def Fault.message : Fault → String
  | .badKey => "malformed text: a key is expected"
  | .badText => "malformed text: a string is not well-formed"
  | .badEscape => "malformed text: an escape is not well-formed"
  | .badWord => "malformed text: a word is neither number nor time nor truth value"
  | .badValue => "malformed text: a value is expected"
  | .badLine => "malformed text: the line does not end where it should"
  | .unended => "malformed text: something is not ended"
  | .tooDeep => "malformed text: nested too deeply"
  | .taken key => s!"malformed text: the key '{key}' cannot be given here"

/-- How a table came to be. -/
inductive Origin where
  /-- It has a header, or is the whole text. -/
  | header
  /-- It stands in the path of a header. -/
  | path
  /-- It stands in the path of a dotted key. -/
  | dotted
  /-- It is written as a value. -/
  | inline
  deriving DecidableEq, Repr

/-- A value. -/
inductive Value where
  | text (s : String)
  | whole (n : Int)
  /-- A number with a fraction or an exponent, or one that is not finite. -/
  | fraction
  | boolean (b : Bool)
  /-- A date, a time of day, or both. -/
  | time
  | array (items : List Value)
  | table (origin : Origin) (members : List (String × Value))
  /-- Tables that share a header, of which each has its own. -/
  | tables (each : List (List (String × Value)))
  deriving Inhabited, Repr

/-- Keys with their values. -/
abbrev Table := List (String × Value)

namespace Table

/-- The value of a key. -/
def get? (t : Table) (key : String) : Option Value := (t.find? fun m => m.1 == key).map (·.2)

/-- Gives a key a value, in place of the one it has. -/
def put (t : Table) (key : String) (v : Value) : Table :=
  if (t.get? key).isSome then t.map fun m => if m.1 == key then (key, v) else m
  else t ++ [(key, v)]

/-! ## Walking to a table -/

/-- Whether a table of some origin may be added to by one who makes missing tables of origin
`made`. -/
def isOpen (made origin : Origin) : Bool :=
  match origin with
  | .header => made == .path
  | .path => true
  | .dotted => true
  | .inline => false

/-- Edits the table at the end of a path. Missing tables are made, with the origin `made`, and of
tables that share a header the last one is meant. -/
def editAt (made : Origin) (edit : Origin → Table → Except Fault Table) (origin : Origin)
    (t : Table) : List String → Except Fault Table
  | [] => edit origin t
  | key :: rest =>
    match t.get? key with
    | none => do
      let inner ← editAt made edit made [] rest
      return t.put key (.table made inner)
    | some (.table origin inner) =>
      if isOpen made origin then do
        let inner ← editAt made edit origin inner rest
        return t.put key (.table origin inner)
      else .error (.taken key)
    | some (.tables each) =>
      match each.reverse with
      | [] => .error (.taken key)
      | last :: before => do
        let last ← editAt made edit .header last rest
        return t.put key (.tables (before.reverse ++ [last]))
    | some _ => .error (.taken key)

/-! ## Adding to a table -/

/-- Gives a new key a value. -/
def insertNew (t : Table) (key : String) (v : Value) : Except Fault Table :=
  if (t.get? key).isSome then .error (.taken key) else .ok (t ++ [(key, v)])

/-- Gives a dotted key a value. -/
def assign (t : Table) (path : List String) (key : String) (v : Value) : Except Fault Table :=
  editAt .dotted
    (fun origin inner =>
      if path.isEmpty || origin == .dotted then inner.insertNew key v else .error (.taken key))
    .header t path

/-- Opens the table of a header, which has none yet. -/
def openTable (t : Table) (path : List String) (key : String) : Except Fault Table :=
  editAt .path
    (fun _ inner =>
      match inner.get? key with
      | none => .ok (inner.put key (.table .header []))
      | some (.table .path members) => .ok (inner.put key (.table .header members))
      | some _ => .error (.taken key))
    .header t path

/-- Opens a further table of a header that many share. -/
def openFurther (t : Table) (path : List String) (key : String) : Except Fault Table :=
  editAt .path
    (fun _ inner =>
      match inner.get? key with
      | none => .ok (inner.put key (.tables [[]]))
      | some (.tables each) => .ok (inner.put key (.tables (each ++ [[]])))
      | some _ => .error (.taken key))
    .header t path

/-- Gives a dotted key a value in the table of the header `at_`. -/
def assignUnder (t : Table) (at_ path : List String) (key : String) (v : Value) :
    Except Fault Table :=
  editAt .path (fun _ inner => inner.assign path key v) .header t at_

end Table

end FeedAudit.Toml

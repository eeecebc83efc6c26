import FeedAudit.Toml.Text
import FeedAudit.Toml.Word

/-!
# Reading TOML

A text is a sequence of lines: a key with its value, or the header of the table to which the keys
behind it belong. A key may be dotted and then leads to an inner table. Lists and inline tables may
run over several lines, may have a comma behind their last item, and are nested to a limited depth.
A byte order mark in front of everything is passed over.
-/

namespace FeedAudit.Toml

/-- The depth to which lists and inline tables may be nested. -/
def nestingLimit : Nat := 80

/-! ## Keys -/

/-- The characters of keys that stand without quotes. -/
def isBare (c : Char) : Bool := c.isAlphanum || c == '-' || c == '_'

/-- Reads one part of a key. -/
def readKeyPart : List Char → Except Fault (String × List Char)
  | '"' :: rest => (readEscaped rest).map fun (text, after) => (String.ofList text, after)
  | '\'' :: rest => (readLiteral rest).map fun (text, after) => (String.ofList text, after)
  | cs =>
    let part := cs.takeWhile isBare
    if part.isEmpty then .error .badKey
    else .ok (String.ofList part, cs.drop part.length)

/-- A dotted key: the path to an inner table, and the last part. -/
structure Key where
  path : List String
  last : String

/-- Reads a key of at most the given number of parts, and the blanks behind it. -/
def readKeyUpTo : Nat → List Char → Except Fault (Key × List Char)
  | 0, _ => .error .badKey
  | n + 1, cs => do
    let (part, rest) ← readKeyPart (skipGap cs)
    match skipGap rest with
    | '.' :: more =>
      let (key, after) ← readKeyUpTo n more
      return (⟨part :: key.path, key.last⟩, after)
    | after => return (⟨[], part⟩, after)

/-- Reads a key and the blanks around it. -/
def readKey (cs : List Char) : Except Fault (Key × List Char) := readKeyUpTo cs.length cs

/-! ## Values -/

/-- How a value is read. -/
abbrev ValueReader := List Char → Except Fault (Value × List Char)

/-- Reads a key with its value into a table. -/
def readMember (value : ValueReader) (assign : Key → Value → Except Fault Table)
    (cs : List Char) : Except Fault (Table × List Char) := do
  let (key, rest) ← readKey cs
  match rest with
  | '=' :: rest =>
    let (v, rest) ← value (skipGap rest)
    return (← assign key v, rest)
  | _ => .error .badKey

/-- Reads the items of a list, at most the given number, behind its opening bracket. -/
def readItems (value : ValueReader) : Nat → List Char → Except Fault (List Value × List Char)
  | 0, _ => .error .unended
  | n + 1, cs =>
    match skipSpace false cs with
    | ']' :: rest => .ok ([], rest)
    | cs => do
      let (v, rest) ← value cs
      match skipSpace false rest with
      | ',' :: rest =>
        let (others, rest) ← readItems value n rest
        return (v :: others, rest)
      | ']' :: rest => return ([v], rest)
      | _ => .error .unended

/-- Reads the members of an inline table, at most the given number, behind its opening brace. -/
def readMembers (value : ValueReader) : Nat → Table → List Char →
    Except Fault (Table × List Char)
  | 0, _, _ => .error .unended
  | n + 1, t, cs =>
    match skipSpace false cs with
    | '\x7d' :: rest => .ok (t, rest)
    | cs => do
      let (t, rest) ← readMember value (fun key v => t.assign key.path key.last v) cs
      match skipSpace false rest with
      | ',' :: rest => readMembers value n t rest
      | '\x7d' :: rest => return (t, rest)
      | _ => .error .unended

/-- A string as a value. -/
def textValue (read : Except Fault (List Char × List Char)) : Except Fault (Value × List Char) :=
  read.map fun (text, after) => (.text (String.ofList text), after)

/-- Reads a value that is neither list nor inline table. -/
def readSimple : ValueReader
  | '"' :: '"' :: '"' :: rest => textValue (readLong '"' rest)
  | '"' :: rest => textValue (readEscaped rest)
  | '\'' :: '\'' :: '\'' :: rest => textValue (readLong '\'' rest)
  | '\'' :: rest => textValue (readLiteral rest)
  | cs => readWord cs

/-- Reads a value in which lists and inline tables may be opened to the given depth. -/
def readValue : Nat → ValueReader
  | 0, cs =>
    match cs with
    | '[' :: _ => .error .tooDeep
    | '\x7b' :: _ => .error .tooDeep
    | cs => readSimple cs
  | room + 1, cs =>
    match cs with
    | '[' :: rest =>
      (readItems (readValue room) cs.length rest).map fun (items, after) => (.array items, after)
    | '\x7b' :: rest =>
      (readMembers (readValue room) cs.length [] rest).map fun (members, after) =>
        (.table .inline members, after)
    | cs => readSimple cs

/-! ## Lines -/

/-- Reads lines, at most the given number, into a table; `at_` is the header above them. -/
def readLines : Nat → (at_ : List String) → Table → List Char → Except Fault Table
  | 0, _, _, _ => .error .unended
  | n + 1, at_, t, cs =>
    match skipSpace false cs with
    | [] => .ok t
    | '[' :: '[' :: rest => do
      let (key, rest) ← readKey rest
      match rest with
      | ']' :: ']' :: rest =>
        let t ← t.openFurther key.path key.last
        readLines n (key.path ++ [key.last]) t (← endLine rest)
      | _ => .error .badKey
    | '[' :: rest => do
      let (key, rest) ← readKey rest
      match rest with
      | ']' :: rest =>
        let t ← t.openTable key.path key.last
        readLines n (key.path ++ [key.last]) t (← endLine rest)
      | _ => .error .badKey
    | cs => do
      let (t, rest) ←
        readMember (readValue nestingLimit) (fun key v => t.assignUnder at_ key.path key.last v) cs
      readLines n at_ t (← endLine rest)

/-- Passes over a byte order mark. -/
def skipMark : List Char → List Char
  | '\uFEFF' :: rest => rest
  | cs => cs

/-- Reads a text. -/
def Table.read (s : String) : Except Fault Table :=
  let cs := skipMark s.toList
  readLines (cs.length + 1) [] [] cs

end FeedAudit.Toml

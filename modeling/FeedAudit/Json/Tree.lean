import FeedAudit.Json.Token

/-!
# JSON trees

A JSON text is read into a tree even when it is malformed: a list or object that does not end
properly is kept as *open* with what was read of it, and a value that is none is `broken`. Whoever
looks at a tree from left to right therefore meets the faults of the text exactly where they stand,
and may find fault with something earlier first.

A tree whose lists and objects are all closed and that has nothing broken in it is `wellFormed`.
-/

namespace FeedAudit.Json

/-- A JSON value as far as it could be read. The members of an object keep their order and may
repeat; a key that stands for no text is `none`. -/
inductive Tree where
  | null
  | boolean (b : Bool)
  | number (a : Numeral)
  | string (text : Option String)
  | array (items : List Tree) (closed : Bool)
  | object (members : List (Option String × Tree)) (closed : Bool)
  | broken
  deriving Inhabited

/-- A text: its value, and whether nothing else follows. -/
structure Document where
  root : Tree
  ended : Bool

/-! ## Building a tree from tokens -/

/-- A list or object that is being read, with what has been read of it, newest first. -/
inductive Frame where
  | array (before : List Tree)
  /-- An object that waits for the value of `key`. -/
  | object (before : List (Option String × Tree)) (key : Option String)

/-- What may come next, in which surroundings. -/
inductive Reading where
  /-- A value. -/
  | value (stack : List Frame)
  /-- The first item of a list, or its end. -/
  | firstItem (stack : List Frame)
  /-- A key, or the end of the object when nothing has been read of it. -/
  | key (before : List (Option String × Tree)) (fresh : Bool) (stack : List Frame)
  /-- The colon after a key. -/
  | colon (before : List (Option String × Tree)) (key : Option String) (stack : List Frame)
  /-- A value has ended; a comma or the end of what it stands in. -/
  | ended (tree : Tree) (stack : List Frame)

/-- Puts a tree that could not be completed into what stands around it, all of it open. -/
def leaveOpen (tree : Tree) : List Frame → Tree
  | [] => tree
  | .array before :: stack => leaveOpen (.array (tree :: before).reverse false) stack
  | .object before key :: stack => leaveOpen (.object ((key, tree) :: before).reverse false) stack

/-- What is left of a reading that cannot go on. -/
def Reading.abandon : Reading → Document
  | .value stack => ⟨leaveOpen .broken stack, false⟩
  | .firstItem stack => ⟨leaveOpen (.array [] false) stack, false⟩
  | .key before _ stack => ⟨leaveOpen (.object before.reverse false) stack, false⟩
  | .colon before name stack =>
    ⟨leaveOpen (.object ((name, .broken) :: before).reverse false) stack, false⟩
  | .ended tree [] => ⟨tree, false⟩
  | .ended tree (.array before :: stack) =>
    ⟨leaveOpen (.array (tree :: before).reverse false) stack, false⟩
  | .ended tree (.object before name :: stack) =>
    ⟨leaveOpen (.object ((name, tree) :: before).reverse false) stack, false⟩

/-- Starts a value with a token, if one can start with it. -/
def Reading.start (stack : List Frame) : Token → Option Reading
  | .null => some (.ended .null stack)
  | .boolean b => some (.ended (.boolean b) stack)
  | .number a => some (.ended (.number a) stack)
  | .string text => some (.ended (.string text) stack)
  | .openArray => some (.firstItem stack)
  | .openObject => some (.key [] true stack)
  | _ => none

/-- Reads one token more, if it may come next. -/
def Reading.step : Reading → Token → Option Reading
  | .value stack, token => start stack token
  | .firstItem stack, .closeArray => some (.ended (.array [] true) stack)
  | .firstItem stack, token => start (.array [] :: stack) token
  | .key before fresh stack, token =>
    match token with
    | .string text => some (.colon before text stack)
    | .closeObject => if fresh then some (.ended (.object before.reverse true) stack) else none
    | _ => none
  | .colon before name stack, .colon => some (.value (.object before name :: stack))
  | .colon _ _ _, _ => none
  | .ended tree (.array before :: stack), token =>
    match token with
    | .comma => some (.value (.array (tree :: before) :: stack))
    | .closeArray => some (.ended (.array (tree :: before).reverse true) stack)
    | _ => none
  | .ended tree (.object before name :: stack), token =>
    match token with
    | .comma => some (.key ((name, tree) :: before) false stack)
    | .closeObject => some (.ended (.object ((name, tree) :: before).reverse true) stack)
    | _ => none
  | .ended _ [], _ => none

/-- Reads on until the tokens end or one of them may not come next. -/
def Reading.run : Reading → List Token → Document
  | .ended tree [], [] => ⟨tree, true⟩
  | reading, [] => reading.abandon
  | reading, token :: rest =>
    match reading.step token with
    | some next => next.run rest
    | none => reading.abandon

/-- Reads a text. -/
def Document.read (s : String) : Document := (Reading.value []).run (tokens s.toList)

/-! ## Well-formed trees -/

mutual

/-- Whether a value was read to its end, and so was all that it contains. -/
def Tree.wellFormed : Tree → Bool
  | .array items closed => wellFormedItems items && closed
  | .object members closed => wellFormedMembers members && closed
  | .broken => false
  | _ => true

/-- Whether all items are well-formed. -/
def Tree.wellFormedItems : List Tree → Bool
  | [] => true
  | t :: rest => t.wellFormed && wellFormedItems rest

/-- Whether the values of all members are well-formed. -/
def Tree.wellFormedMembers : List (Option String × Tree) → Bool
  | [] => true
  | (_, t) :: rest => t.wellFormed && wellFormedMembers rest

end

end FeedAudit.Json

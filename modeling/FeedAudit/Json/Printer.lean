import FeedAudit.Json.Tree

/-!
# Printing JSON trees

A tree is printed token by token, with no blanks in between. In a string the quote, the backslash
and the controls are escaped, five of the controls by a letter and the others by their number, and
every other character stands for itself.
-/

namespace FeedAudit.Json

/-! ## Tokens -/

/-- A digit of a number below sixteen. -/
def hexDigit (n : Nat) : Char := Char.ofNat (if n < 10 then 48 + n else 87 + n)

/-- A character as it is written in a string. -/
def escaped (c : Char) : List Char :=
  if c = '"' then ['\\', '"']
  else if c = '\\' then ['\\', '\\']
  else if c = '\x08' then ['\\', 'b']
  else if c = '\x0c' then ['\\', 'f']
  else if c = '\n' then ['\\', 'n']
  else if c = '\r' then ['\\', 'r']
  else if c = '\t' then ['\\', 't']
  else if c.toNat < 0x20 then
    ['\\', 'u', '0', '0', hexDigit (c.toNat / 16), hexDigit (c.toNat % 16)]
  else [c]

/-- A numeral as it is written, its exponent with a small letter and without a plus. -/
def Numeral.print (a : Numeral) : List Char :=
  (if a.negative then ['-'] else []) ++ a.whole ++
  (match a.fraction with
    | none => []
    | some digits => '.' :: digits) ++
  match a.exponent with
    | none => []
    | some (down, digits) => 'e' :: (if down then ['-'] else []) ++ digits

/-- The characters of a token; a string that stands for no text has none. -/
def Token.print : Token → List Char
  | .openArray => ['[']
  | .closeArray => [']']
  | .openObject => ['\x7b']
  | .closeObject => ['\x7d']
  | .comma => [',']
  | .colon => [':']
  | .null => ['n', 'u', 'l', 'l']
  | .boolean true => ['t', 'r', 'u', 'e']
  | .boolean false => ['f', 'a', 'l', 's', 'e']
  | .number a => a.print
  | .string (some text) => '"' :: text.toList.flatMap escaped ++ ['"']
  | .string none => []
  | .bad => []

/-! ## Trees -/

mutual

/-- The tokens of a tree. -/
def Tree.tokens : Tree → List Token
  | .null => [.null]
  | .boolean b => [.boolean b]
  | .number a => [.number a]
  | .string text => [.string text]
  | .array items closed =>
    .openArray :: tokensOfItems true items ++ if closed then [.closeArray] else []
  | .object members closed =>
    .openObject :: tokensOfMembers true members ++ if closed then [.closeObject] else []
  | .broken => [.bad]

/-- The tokens of items; a comma stands before all of them but the first one of a list. -/
def Tree.tokensOfItems (fresh : Bool) : List Tree → List Token
  | [] => []
  | t :: rest => (if fresh then [] else [.comma]) ++ t.tokens ++ tokensOfItems false rest

/-- The tokens of members; a comma stands before all of them but the first one of an object. -/
def Tree.tokensOfMembers (fresh : Bool) : List (Option String × Tree) → List Token
  | [] => []
  | (key, t) :: rest =>
    (if fresh then [] else [.comma]) ++ .string key :: .colon :: t.tokens ++
      tokensOfMembers false rest

end

/-- The characters of a tree. -/
def Tree.print (t : Tree) : List Char := t.tokens.flatMap Token.print

end FeedAudit.Json

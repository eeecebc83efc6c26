import FeedAudit.Text.Digits
import FeedAudit.Toml.Value

/-!
# Strings and blanks of a TOML text

A string stands between double quotes, where a backslash starts an escape, or between single
quotes, where every character stands for itself. Three quotes instead of one let it run over
several lines; a line end directly behind them does not count, and up to two quotes may stand in
front of the closing ones. Between lines there are blanks, line ends and comments.
-/

namespace FeedAudit.Toml

open FeedAudit.Text

/-! ## Blanks -/

/-- The blanks within a line. -/
def isGap (c : Char) : Bool := c == ' ' || c == '\t'

/-- The characters that may stand in a comment or a string: all but the controls; the tab may. -/
def isPlain (c : Char) : Bool := c == '\t' || (0x20 ≤ c.toNat && c.toNat != 0x7f)

/-- Skips blanks within a line. -/
def skipGap (cs : List Char) : List Char := cs.dropWhile isGap

/-- Skips blanks, line ends and comments; `inComment` says whether a comment has begun. -/
def skipSpace (inComment : Bool) : List Char → List Char
  | [] => []
  | '\n' :: rest => skipSpace false rest
  | '\r' :: '\n' :: rest => skipSpace false rest
  | c :: rest =>
    if inComment then if isPlain c then skipSpace true rest else c :: rest
    else if isGap c then skipSpace false rest
    else if c == '#' then skipSpace true rest
    else c :: rest

/-- Skips a line end, if there is one. -/
def skipLineEnd : List Char → Option (List Char)
  | '\n' :: rest => some rest
  | '\r' :: '\n' :: rest => some rest
  | _ => none

/-- Skips the rest of a line, in which nothing but a comment may stand. -/
def endLine (cs : List Char) : Except Fault (List Char) :=
  let rest :=
    match skipGap cs with
    | '#' :: comment => comment.dropWhile isPlain
    | rest => rest
  match rest, skipLineEnd rest with
  | [], _ => .ok []
  | _, some after => .ok after
  | _, none => .error .badLine

/-! ## Escapes -/

/-- The character with a number. -/
def numbered? (digits : List Char) : Option Char :=
  (hexNumber? digits).bind fun n => if n.isValidChar then some (Char.ofNat n) else none

/-- The character that an escape by number stands for, whose digits come first, and the length of
what stands behind the backslash. -/
def numberedEscape? (width : Nat) (cs : List Char) : Option (Char × Nat) :=
  if cs.length < width then none
  else (numbered? (cs.take width)).map fun c => (c, width + 1)

/-- The character that an escape stands for, and the length of what stands behind the backslash. -/
def escape? : List Char → Option (Char × Nat)
  | 'b' :: _ => some ('\x08', 1)
  | 't' :: _ => some ('\t', 1)
  | 'n' :: _ => some ('\n', 1)
  | 'f' :: _ => some ('\x0c', 1)
  | 'r' :: _ => some ('\r', 1)
  | 'e' :: _ => some ('\x1b', 1)
  | '"' :: _ => some ('"', 1)
  | '\\' :: _ => some ('\\', 1)
  | 'x' :: rest => numberedEscape? 2 rest
  | 'u' :: rest => numberedEscape? 4 rest
  | 'U' :: rest => numberedEscape? 8 rest
  | _ => none

/-! ## Strings in one line -/

/-- Puts characters in front of a string that has been read. -/
def prepend (text : List Char) (read : Except Fault (List Char × List Char)) :
    Except Fault (List Char × List Char) :=
  read.map fun (more, after) => (text ++ more, after)

/-- Reads a string with escapes, behind its opening quote. -/
def readEscaped (cs : List Char) : Except Fault (List Char × List Char) :=
  match cs with
  | [] => .error .unended
  | '"' :: rest => .ok ([], rest)
  | '\\' :: rest =>
    match escape? rest with
    | none => .error .badEscape
    | some (c, width) => prepend [c] (readEscaped (rest.drop width))
  | c :: rest => if isPlain c then prepend [c] (readEscaped rest) else .error .badText
termination_by cs.length
decreasing_by
  · simp only [List.length_cons, List.length_drop]; omega
  · simp

/-- Reads a string without escapes, behind its opening quote. -/
def readLiteral : List Char → Except Fault (List Char × List Char)
  | [] => .error .unended
  | '\'' :: rest => .ok ([], rest)
  | c :: rest => if isPlain c then prepend [c] (readLiteral rest) else .error .badText

/-! ## Strings over several lines -/

/-- What stands at the front of a string over several lines. -/
inductive LongPart where
  /-- The end, in front of which some quotes belong to the string. -/
  | ending (quotes : Nat) (rest : List Char)
  | lineEnd (text : List Char) (rest : List Char)
  | other

/-- Looks for the end of a string or of a line. -/
def LongPart.of (quote : Char) : List Char → LongPart
  | '\n' :: rest => .lineEnd ['\n'] rest
  | '\r' :: '\n' :: rest => .lineEnd ['\r', '\n'] rest
  | cs =>
    let quotes := min (cs.takeWhile (· == quote)).length 5
    if quotes < 3 then .other else .ending (quotes - 3) (cs.drop quotes)

/-- Skips what a backslash at the end of a line joins: the rest of the line, which must be blank,
and all blanks and line ends behind it. -/
def joinLines? (cs : List Char) : Option (List Char) :=
  (skipLineEnd (skipGap cs)).map dropBlank
where
  /-- Skips blanks and line ends. -/
  dropBlank : List Char → List Char
    | '\r' :: '\n' :: rest => dropBlank rest
    | c :: rest => if isGap c || c == '\n' then dropBlank rest else c :: rest
    | [] => []

/-- Reads a string over several lines, in at most the given number of steps. -/
def readLongUpTo (quote : Char) : Nat → List Char → Except Fault (List Char × List Char)
  | 0, _ => .error .unended
  | n + 1, cs =>
    match LongPart.of quote cs, cs with
    | .ending quotes rest, _ => .ok (List.replicate quotes quote, rest)
    | .lineEnd text rest, _ => prepend text (readLongUpTo quote n rest)
    | .other, [] => .error .unended
    | .other, c :: rest =>
      if c == '\\' && quote == '"' then
        match joinLines? rest with
        | some after => readLongUpTo quote n after
        | none =>
          match escape? rest with
          | none => .error .badEscape
          | some (e, width) => prepend [e] (readLongUpTo quote n (rest.drop width))
      else if isPlain c then prepend [c] (readLongUpTo quote n rest)
      else .error .badText

/-- Reads a string over several lines, behind its opening quotes. -/
def readLong (quote : Char) (cs : List Char) : Except Fault (List Char × List Char) :=
  readLongUpTo quote (cs.length + 1) ((skipLineEnd cs).getD cs)

end FeedAudit.Toml

import FeedAudit.Markup.Character
import FeedAudit.Text.Piece

/-!
# Tokens of markup

Markup is first cut into tags, texts, comments and processing instructions, without regard to how
they nest. Names are taken apart at their colon, while the values of attributes and the texts stay
as they are written.
-/

namespace FeedAudit.Markup

/-- What is wrong with markup. -/
inductive MarkupFault where
  | unexpectedEnd
  | badCharacter (c : Char)
  | badName
  | badTag
  | badComment
  | badInstruction
  | badDeclaration
  | badReference
  | badText
  | unknownMarkup
  | documentType
  | mismatchedTag (name : String)
  | unclosed
  | badBinding (nsPrefix : String)
  | unboundPrefix (nsPrefix : String)
  | duplicateAttribute (name : String)
  | outsideRoot
  | noRoot
  deriving DecidableEq, Repr

/-- The fault in words. -/
def MarkupFault.message : MarkupFault → String
  | .unexpectedEnd => "malformed markup: unexpected end"
  | .badCharacter c => "malformed markup: character " ++ toString c.toNat ++ " is not allowed"
  | .badName => "malformed markup: a name is expected"
  | .badTag => "malformed markup: a tag is not well-formed"
  | .badComment => "malformed markup: a comment is not well-formed"
  | .badInstruction => "malformed markup: a processing instruction is not well-formed"
  | .badDeclaration => "malformed markup: the declaration is not well-formed"
  | .badReference => "malformed markup: a reference is not well-formed"
  | .badText => "malformed markup: a text holds the end of character data"
  | .unknownMarkup => "malformed markup: unknown kind of markup"
  | .documentType => "malformed markup: a document type is not supported"
  | .mismatchedTag name => "malformed markup: unexpected end tag of " ++ name
  | .unclosed => "malformed markup: the root element is not closed"
  | .badBinding p => "malformed markup: the namespace prefix " ++ p ++ " may not be bound so"
  | .unboundPrefix p => "malformed markup: the namespace prefix " ++ p ++ " is not bound"
  | .duplicateAttribute name => "malformed markup: attribute " ++ name ++ " is given twice"
  | .outsideRoot => "malformed markup: content outside the root element"
  | .noRoot => "malformed markup: there is no root element"

/-- A name as it is written: a prefix, empty when there is none, and a local name. -/
structure TagName where
  nsPrefix : String
  localName : String
  deriving DecidableEq, Repr, Inhabited

/-- The text of a name. -/
def TagName.text (n : TagName) : String :=
  if n.nsPrefix = "" then n.localName else n.nsPrefix ++ ":" ++ n.localName

/-- An attribute as it is written, without its quotes. -/
structure TagAttribute where
  name : TagName
  value : List Char
  deriving DecidableEq, Repr, Inhabited

/-- A token. -/
inductive Token where
  | openTag (name : TagName) (attributes : List TagAttribute) (isEmpty : Bool)
  | closeTag (name : TagName)
  | text (raw : List Char)
  | characterData (raw : List Char)
  | comment (content : List Char)
  | instruction (target content : List Char)
  deriving DecidableEq, Repr

/-- What a scanner returns: what it found, and what follows. -/
abbrev Scan (α : Type) := Except MarkupFault (α × List Char)

/-! ## Parts of tokens -/

def skipSpaces (cs : List Char) : List Char := cs.dropWhile isSpace

/-- Cuts off everything up to `stop`, which is cut off too. -/
def scanUntil (stop : List Char) : List Char → Scan (List Char)
  | [] => .error .unexpectedEnd
  | c :: rest =>
    if !isAllowed c then .error (.badCharacter c)
    else if stop.isPrefixOf (c :: rest) then .ok ([], (c :: rest).drop stop.length)
    else
      match scanUntil stop rest with
      | .ok (head, after) => .ok (c :: head, after)
      | .error fault => .error fault

/-- Cuts off everything up to one of the characters `stops`, or up to the end. -/
def scanRun (stops : List Char) : List Char → Scan (List Char)
  | [] => .ok ([], [])
  | c :: rest =>
    if !isAllowed c then .error (.badCharacter c)
    else if c ∈ stops then .ok ([], c :: rest)
    else
      match scanRun stops rest with
      | .ok (head, after) => .ok (c :: head, after)
      | .error fault => .error fault

/-- Cuts off a name in which colons have no meaning. -/
def scanPlainName : List Char → Scan (List Char)
  | [] => .error .badName
  | c :: rest =>
    if isNameStart c then .ok (c :: rest.takeWhile isNamePart, rest.dropWhile isNamePart)
    else .error .badName

/-- Whether a part of a name starts as it must. -/
def startsName : List Char → Bool
  | [] => false
  | c :: _ => isNameStart c

/-- Takes a name apart at its colon. At most one may stand in it, and what follows is not empty. -/
def TagName.ofChars (run : List Char) : Except MarkupFault TagName :=
  match Text.pieceChars ':' run with
  | [name] => if startsName name then .ok ⟨"", String.ofList name⟩ else .error .badName
  | [before, name] =>
    if startsName name && (before.isEmpty || startsName before) then
      .ok ⟨String.ofList before, String.ofList name⟩
    else .error .badName
  | _ => .error .badName

/-- Cuts off a name with an optional prefix. -/
def scanName (cs : List Char) : Scan TagName :=
  match TagName.ofChars (cs.takeWhile isNamePart) with
  | .ok name => .ok (name, cs.dropWhile isNamePart)
  | .error fault => .error fault

/-- Cuts off a quoted value. -/
def scanQuoted : List Char → Scan (List Char)
  | [] => .error .unexpectedEnd
  | quote :: rest =>
    if quote = '"' ∨ quote = '\'' then
      match scanRun [quote, '<'] rest with
      | .error fault => .error fault
      | .ok (value, c :: after) => if c = quote then .ok (value, after) else .error .badTag
      | .ok (_, []) => .error .unexpectedEnd
    else .error .badTag

/-- Cuts off an attribute. -/
def scanAttribute (cs : List Char) : Scan TagAttribute :=
  match scanName cs with
  | .error fault => .error fault
  | .ok (name, rest) =>
    match skipSpaces rest with
    | '=' :: rest =>
      match scanQuoted (skipSpaces rest) with
      | .error fault => .error fault
      | .ok (value, after) => .ok (⟨name, value⟩, after)
    | _ => .error .badTag

/-! ## Tags -/

/-- Cuts off the attributes of a tag, at most `fuel` of them, and its end; every attribute has
blanks in front. -/
def scanTagRest (fuel : Nat) (cs : List Char) : Scan (List TagAttribute × Bool) :=
  match fuel with
  | 0 => .error .unexpectedEnd
  | fuel + 1 =>
    match skipSpaces cs with
    | [] => .error .unexpectedEnd
    | '>' :: rest => .ok (([], false), rest)
    | '/' :: '>' :: rest => .ok (([], true), rest)
    | '/' :: _ => .error .badTag
    | c :: rest =>
      if !(cs.head?.any isSpace) then .error .badTag
      else
        match scanAttribute (c :: rest) with
        | .error fault => .error fault
        | .ok (a, after) =>
          match scanTagRest fuel after with
          | .error fault => .error fault
          | .ok ((others, isEmpty), after) => .ok ((a :: others, isEmpty), after)

/-- Cuts off a start tag behind its opening bracket. -/
def scanOpenTag (cs : List Char) : Scan Token :=
  match scanName cs with
  | .error fault => .error fault
  | .ok (name, rest) =>
    match scanTagRest (rest.length + 1) rest with
    | .error fault => .error fault
    | .ok ((attributes, isEmpty), after) => .ok (.openTag name attributes isEmpty, after)

/-- Cuts off an end tag behind its slash. -/
def scanCloseTag (cs : List Char) : Scan Token :=
  match scanName cs with
  | .error fault => .error fault
  | .ok (name, rest) =>
    match skipSpaces rest with
    | '>' :: after => .ok (.closeTag name, after)
    | _ => .error .badTag

/-! ## Other markup -/

/-- Cuts off a comment behind its start; two dashes may not stand in it, nor one at its end. -/
def scanComment (cs : List Char) : Scan Token :=
  match scanUntil ['-', '-', '>'] cs with
  | .error fault => .error fault
  | .ok (content, after) =>
    if Text.occursInChars ['-', '-'] content || content.getLast? == some '-' then .error .badComment
    else .ok (.comment content, after)

/-- Cuts off a processing instruction behind its start. -/
def scanInstruction (cs : List Char) : Scan Token :=
  if ['x', 'm', 'l', ' '].isPrefixOf cs then .error .badDeclaration
  else
    match scanPlainName cs with
    | .error fault => .error fault
    | .ok (target, rest) =>
      match scanUntil ['?', '>'] (skipSpaces rest) with
      | .error fault => .error fault
      | .ok (content, after) => .ok (.instruction target content, after)

/-- The token at the front of markup that is not empty, and what follows it. -/
def scanToken : List Char → Scan Token
  | '<' :: '!' :: '-' :: '-' :: rest => scanComment rest
  | '<' :: '!' :: '[' :: 'C' :: 'D' :: 'A' :: 'T' :: 'A' :: '[' :: rest =>
    match scanUntil [']', ']', '>'] rest with
    | .error fault => .error fault
    | .ok (raw, after) => .ok (.characterData raw, after)
  | '<' :: '!' :: 'D' :: 'O' :: 'C' :: 'T' :: 'Y' :: 'P' :: 'E' :: _ => .error .documentType
  | '<' :: '!' :: _ => .error .unknownMarkup
  | '<' :: '?' :: rest => scanInstruction rest
  | '<' :: '/' :: rest => scanCloseTag rest
  | '<' :: rest => scanOpenTag rest
  | cs =>
    match scanRun ['<'] cs with
    | .error fault => .error fault
    | .ok (raw, after) =>
      if Text.occursInChars [']', ']', '>'] raw then .error .badText else .ok (.text raw, after)

/-- The tokens of markup, at most `fuel` of them. -/
def tokensUpTo : Nat → List Char → Except MarkupFault (List Token)
  | _, [] => .ok []
  | 0, _ => .error .unexpectedEnd
  | fuel + 1, c :: rest =>
    match scanToken (c :: rest) with
    | .error fault => .error fault
    | .ok (token, after) =>
      match tokensUpTo fuel after with
      | .error fault => .error fault
      | .ok others => .ok (token :: others)

/-! ## The start of a document -/

/-- Skips blanks where they must stand unless the declaration ends. -/
def declarationGap (cs : List Char) : Except MarkupFault (List Char) :=
  if cs.head?.any isSpace then .ok (skipSpaces cs)
  else if cs.isEmpty || ['?', '>'].isPrefixOf cs then .ok cs
  else .error .badDeclaration

/-- Skips an entry of the declaration with the given name, if it comes next. -/
def declarationEntry (name : List Char) (cs : List Char) : Except MarkupFault (List Char) :=
  if name.isPrefixOf cs then (scanAttribute cs).map (·.2) else .ok cs

/-- Skips the declaration of a document, of which only the form is looked at. -/
def skipDeclaration (cs : List Char) : Except MarkupFault (List Char) :=
  if ['<', '?', 'x', 'm', 'l', ' '].isPrefixOf cs then do
    let cs := skipSpaces (cs.drop 5)
    if !"version".toList.isPrefixOf cs then .error .badDeclaration
    let cs ← declarationGap (← declarationEntry "version".toList cs)
    let hasEncoding := "encoding".toList.isPrefixOf cs
    let cs ← declarationEntry "encoding".toList cs
    let cs ← if hasEncoding then declarationGap cs else pure cs
    let cs ← declarationEntry "standalone".toList cs
    match skipSpaces cs with
    | '?' :: '>' :: rest => .ok rest
    | _ => .error .badDeclaration
  else .ok cs

/-- The tokens of a document. A mark of byte order may stand in front of it. -/
def tokens (cs : List Char) : Except MarkupFault (List Token) := do
  let cs := if cs.head? == some '\uFEFF' then cs.drop 1 else cs
  let cs ← skipDeclaration cs
  tokensUpTo cs.length cs

end FeedAudit.Markup

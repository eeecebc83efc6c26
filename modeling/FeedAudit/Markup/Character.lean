/-!
# Characters of markup

Which characters may stand in markup at all, which may start a name and which may go on with it, and
which separate the parts of a tag.
-/

namespace FeedAudit.Markup

/-- The blanks of markup. -/
def isSpace (c : Char) : Bool := c == ' ' || c == '\t' || c == '\n' || c == '\r'

/-- The characters that may stand in markup: no controls but tabs and line ends, and none of the
two code points that are no characters. -/
def isAllowed (c : Char) : Bool :=
  if c.toNat < 0x20 then c == '\t' || c == '\n' || c == '\r'
  else c.toNat != 0xFFFE && c.toNat != 0xFFFF

/-- The characters beyond ASCII with which a name may start. -/
def nameStartRanges : List (Nat × Nat) :=
  [(0xC0, 0xD6), (0xD8, 0xF6), (0xF8, 0x2FF), (0x370, 0x37D), (0x37F, 0x1FFF), (0x200C, 0x200D),
   (0x2070, 0x218F), (0x2C00, 0x2FEF), (0x3001, 0xD7FF), (0xF900, 0xFDCF), (0xFDF0, 0xFFFD),
   (0x10000, 0xEFFFF)]

/-- The further characters beyond ASCII with which a name may go on. -/
def nameExtraRanges : List (Nat × Nat) :=
  [(0xB7, 0xB7), (0x300, 0x36F), (0x203F, 0x2040)]

/-- Whether a number lies in one of the ranges. -/
def within (ranges : List (Nat × Nat)) (n : Nat) : Bool :=
  ranges.any fun (low, high) => low ≤ n && n ≤ high

/-- The characters with which a name may start; the colon is one of them. -/
def isNameStart (c : Char) : Bool :=
  if c.toNat ≤ 0x80 then c.isAlpha || c == ':' || c == '_' else within nameStartRanges c.toNat

/-- The characters with which a name may go on. -/
def isNamePart (c : Char) : Bool :=
  if c.toNat ≤ 0x80 then c.isAlphanum || c == ':' || c == '_' || c == '-' || c == '.'
  else within nameStartRanges c.toNat || within nameExtraRanges c.toNat

end FeedAudit.Markup

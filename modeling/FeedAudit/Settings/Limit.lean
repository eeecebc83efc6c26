import FeedAudit.Decimal.Whole

/-!
# Limits

A limit on the number of records is given as a number, or as the word for all of them in any mix of
small and large letters, which is a limit of zero.
-/

namespace FeedAudit

/-- The word for no limit. -/
def noLimit : String := "all"

/-- Whether two texts differ in the size of their letters at most; only letters from `a` to `z`
have two sizes. -/
def sameLetters (s t : String) : Bool := s.toList.map Char.toLower == t.toList.map Char.toLower

/-- The limit that a text stands for. -/
def readLimit (s : String) : Option Nat :=
  if sameLetters s noLimit then some 0 else (Decimal.readNatural Decimal.largest32 s).toOption

end FeedAudit

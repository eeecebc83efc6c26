/-!
# Blank characters and trimming

A character is *blank* when it has the Unicode property `White_Space`. Names and paths given by
hand, and the members of an enumeration, are trimmed of blanks on both ends; a text that trims to
nothing is itself called blank.
-/

namespace FeedAudit.Text

/-! ## The class -/

/-- The characters with the Unicode property `White_Space`. -/
def isBlank (c : Char) : Bool :=
  let n := c.toNat
  (0x09 ≤ n && n ≤ 0x0D) || n == 0x20 || n == 0x85 || n == 0xA0 || n == 0x1680 ||
    (0x2000 ≤ n && n ≤ 0x200A) || n == 0x2028 || n == 0x2029 || n == 0x202F || n == 0x205F ||
    n == 0x3000

/-- A text is blank when all its characters are. -/
def IsBlank (s : String) : Prop := ∀ c ∈ s.toList, isBlank c = true

instance (s : String) : Decidable (IsBlank s) :=
  inferInstanceAs (Decidable (∀ c ∈ s.toList, isBlank c = true))

/-! ## Trimming -/

/-- The characters left after dropping blanks from both ends. -/
def trimChars (cs : List Char) : List Char :=
  ((cs.dropWhile isBlank).reverse.dropWhile isBlank).reverse

/-- The text left after dropping blanks from both ends. -/
def trim (s : String) : String := String.ofList (trimChars s.toList)

/-- A text is trimmed by trimming its characters. -/
@[simp] theorem toList_trim (s : String) : (trim s).toList = trimChars s.toList := by
  simp [trim]

end FeedAudit.Text

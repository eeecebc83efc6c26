/-!
# Bytes as text

A text arrives in bytes, as a sequence of characters of one to four bytes each. Bytes that belong
to no character are replaced: every longest start of a character that is not continued, and every
byte that starts none, gives one replacement character. A byte order mark in front is no part of
the text.
-/

namespace FeedAudit.Text

/-- What stands for bytes that belong to no character. -/
def replacement : Char := '\uFFFD'

/-- A character that has been started: the bits read so far, the number of bytes that are missing,
and the range of the next one. -/
structure Started where
  bits : Nat
  missing : Nat
  least : Nat
  most : Nat
  deriving Repr

/-- What the first byte of a character starts, or the character that it is by itself. -/
def startOf (b : Nat) : Char ⊕ Started :=
  if b < 0x80 then .inl (Char.ofNat b)
  else if 0xC2 ≤ b ∧ b ≤ 0xDF then .inr ⟨b - 0xC0, 1, 0x80, 0xBF⟩
  else if b = 0xE0 then .inr ⟨0, 2, 0xA0, 0xBF⟩
  else if b = 0xED then .inr ⟨0x0D, 2, 0x80, 0x9F⟩
  else if 0xE1 ≤ b ∧ b ≤ 0xEF then .inr ⟨b - 0xE0, 2, 0x80, 0xBF⟩
  else if b = 0xF0 then .inr ⟨0, 3, 0x90, 0xBF⟩
  else if b = 0xF4 then .inr ⟨4, 3, 0x80, 0x8F⟩
  else if 0xF1 ≤ b ∧ b ≤ 0xF3 then .inr ⟨b - 0xF0, 3, 0x80, 0xBF⟩
  else .inl replacement

/-- The characters of bytes behind those of a character that has been started. -/
def decodeFrom : Option Started → List UInt8 → List Char
  | none, [] => []
  | some _, [] => [replacement]
  | none, b :: rest =>
    match startOf b.toNat with
    | .inl c => c :: decodeFrom none rest
    | .inr started => decodeFrom (some started) rest
  | some started, b :: rest =>
    if started.least ≤ b.toNat ∧ b.toNat ≤ started.most then
      let bits := started.bits * 64 + (b.toNat - 0x80)
      if started.missing = 1 then Char.ofNat bits :: decodeFrom none rest
      else decodeFrom (some ⟨bits, started.missing - 1, 0x80, 0xBF⟩) rest
    else
      replacement ::
        match startOf b.toNat with
        | .inl c => c :: decodeFrom none rest
        | .inr started => decodeFrom (some started) rest

/-- The text of bytes. -/
def decodeBytes (bytes : List UInt8) : String :=
  match decodeFrom none bytes with
  | '\uFEFF' :: rest => String.ofList rest
  | cs => String.ofList cs

end FeedAudit.Text

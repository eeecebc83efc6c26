import FeedAudit.Text.Piece

/-!
# Addresses of feeds

A feed is asked for by an address that holds the key of the account, the channel, and a limit when
there is one. Addresses that are shown have the key masked.
-/

namespace FeedAudit

open Text

/-- The address of a channel's feed; a limit of zero is no limit. -/
def feedUrl (domain key channel : String) (limit : Nat) : String :=
  s!"http://api.{domain}/api/v2/reviews/browse?api_key={key}&channel={channel}" ++
    (if 0 < limit then s!"&limit={limit}" else "")

/-! ## Masking the key -/

/-- The parameter that holds the key. -/
def keyParameter : String := "api_key"

/-- What stands for the parameter that holds the key. -/
def maskedKey : String := "api_key=***"

/-- A parameter as it may be shown: the one that holds the key loses its value. -/
def redactPair (pair : String) : String :=
  match splitFirst '=' pair with
  | some (name, _) => if name = keyParameter then maskedKey else pair
  | none => pair

/-- An address as it may be shown. -/
def redactUrl (url : String) : String :=
  match splitFirst '?' url with
  | none => url
  | some (base, query) => base ++ "?" ++ joined "&" ((pieces '&' query).map redactPair)

end FeedAudit

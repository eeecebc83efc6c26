import FeedAudit.Program

/-!
# What is shown of a key

Errors tell the address of a feed with the key masked. The key stands in the address as it is, and
the address is cut at its ampersands before the key is looked for: what is shown of a key is what
stands behind its first ampersand (`redactUrl_feedUrl_eq_iff`). Main statement:
`runSettings_of_masked`. Of a key without ampersands nothing can be told from what is fetched or
from a whole run. Other keys are told apart, and behind a question mark in the domain the key is not
looked for (`fetch_tells_keys_apart`).
-/

namespace FeedAudit

open Text

/-! ## Parameters -/

/-- What is shown of a key: what stands behind its first ampersand, as parameters of its own. -/
def shownOfKey (key : String) : List String := (pieces '&' key).tail.map redactPair

/-- The parameters behind the key. -/
def otherParameters (channel : String) (limit : Nat) : String :=
  s!"channel={channel}" ++ (if 0 < limit then s!"&limit={limit}" else "")

/-- Nothing is shown of a key exactly if it has no ampersand. -/
theorem shownOfKey_eq_nil_iff {key : String} : shownOfKey key = [] ↔ '&' ∉ key.toList := by
  constructor
  · intro hnil hmem
    obtain ⟨before, after, hsplit⟩ := List.append_of_mem hmem
    unfold shownOfKey pieces at hnil
    rw [hsplit, pieceChars_append] at hnil
    cases hfirst : pieceChars '&' before with
    | nil => exact pieceChars_ne_nil '&' before hfirst
    | cons piece others =>
      rw [hfirst, List.cons_append, List.map_cons, List.tail_cons, List.map_eq_nil_iff,
        List.map_eq_nil_iff, List.append_eq_nil_iff] at hnil
      exact pieceChars_ne_nil '&' after hnil.2
  · intro hkey
    unfold shownOfKey
    rw [pieces_of_not_mem hkey]
    rfl

/-- Whatever its value, the parameter that holds the key is masked. -/
theorem redactPair_key (value : String) : redactPair ("api_key=" ++ value) = maskedKey := by
  have hname : '=' ∉ "api_key".toList := by decide
  have hsplit := splitFirst_append hname value
  have hequals : "api_key" ++ String.singleton '=' = "api_key=" := by decide
  rw [hequals] at hsplit
  unfold redactPair
  rw [hsplit]
  exact if_pos rfl

/-- A parameter that is redacted does not fall apart. -/
theorem not_mem_redactPair {pair : String} (hpair : '&' ∉ pair.toList) :
    '&' ∉ (redactPair pair).toList := by
  unfold redactPair
  split
  · split
    · decide
    · exact hpair
  · exact hpair

/-- Joined and cut again, the pieces of a query as they are shown are the same. -/
theorem pieces_joined_redactPair (query : String) :
    pieces '&' (joined "&" ((pieces '&' query).map redactPair)) =
      (pieces '&' query).map redactPair := by
  have hne : (pieces '&' query).map redactPair ≠ [] := by
    unfold pieces
    rw [List.map_map, Ne, List.map_eq_nil_iff]
    exact pieceChars_ne_nil '&' query.toList
  have hfree : ∀ p ∈ (pieces '&' query).map redactPair, '&' ∉ p.toList := by
    intro p hp
    obtain ⟨pair, hpair, rfl⟩ := List.mem_map.mp hp
    exact not_mem_redactPair (not_mem_of_mem_pieces hpair)
  have hand : "&" = String.singleton '&' := by decide
  rw [hand]
  exact pieces_joined hne hfree

/-! ## Addresses -/

/-- The address of a feed, cut before its parameters. -/
theorem feedUrl_eq (domain key channel : String) (limit : Nat) :
    feedUrl domain key channel limit =
      ("http://api." ++ domain ++ "/api/v2/reviews/browse") ++ "?" ++
        ("api_key=" ++ key ++ "&" ++ otherParameters channel limit) := by
  have hpath : "/api/v2/reviews/browse?api_key=" =
      "/api/v2/reviews/browse" ++ "?" ++ "api_key=" := by decide
  have hchannel : "&channel=" = "&" ++ "channel=" := by decide
  have htext : ∀ s : String, toString s = s := fun _ => rfl
  unfold feedUrl otherParameters
  rw [hpath, hchannel]
  simp only [htext, String.append_assoc]

/-- The parameters of an address as they are shown: the key is masked up to its first ampersand. -/
def shownParameters (key channel : String) (limit : Nat) : List String :=
  maskedKey :: shownOfKey key ++ (pieces '&' (otherParameters channel limit)).map redactPair

/-- The parameters of a feed are shown as they are, but for the parts of the key. -/
theorem map_redactPair_parameters (key channel : String) (limit : Nat) :
    (pieces '&' ("api_key=" ++ key ++ "&" ++ otherParameters channel limit)).map redactPair =
      shownParameters key channel limit := by
  have hname : '&' ∉ "api_key=".toList := by decide
  have hkey : (pieces '&' ("api_key=" ++ key)).map redactPair = maskedKey :: shownOfKey key := by
    cases hchars : pieceChars '&' key.toList with
    | nil => exact absurd hchars (pieceChars_ne_nil '&' key.toList)
    | cons first others =>
      have hfirst : String.ofList ("api_key=".toList ++ first) =
          "api_key=" ++ String.ofList first := by
        rw [String.ofList_append, String.ofList_toList]
      unfold shownOfKey pieces
      rw [String.toList_append, pieceChars_append_of_not_mem hname hchars, hchars, List.map_cons,
        List.map_cons, hfirst, redactPair_key]
      rfl
  have hand : "&" = String.singleton '&' := by decide
  rw [hand, pieces_append, List.map_append, hkey]
  rfl

/-- Joined and cut again, the parameters that are shown are the same. -/
theorem pieces_shownParameters (key channel : String) (limit : Nat) :
    pieces '&' (joined "&" (shownParameters key channel limit)) =
      shownParameters key channel limit := by
  rw [← map_redactPair_parameters, pieces_joined_redactPair]

/-- An address is cut at its first question mark in front of the parameters. -/
theorem splitFirst_feedUrl {domain : String} (hdomain : '?' ∉ domain.toList)
    (key channel : String) (limit : Nat) :
    splitFirst '?' (feedUrl domain key channel limit) =
      some ("http://api." ++ domain ++ "/api/v2/reviews/browse",
        "api_key=" ++ key ++ "&" ++ otherParameters channel limit) := by
  have hbase : '?' ∉ ("http://api." ++ domain ++ "/api/v2/reviews/browse").toList := by
    have hfirst : '?' ∉ "http://api.".toList := by decide
    have hlast : '?' ∉ "/api/v2/reviews/browse".toList := by decide
    rw [String.toList_append, String.toList_append]
    simp only [List.mem_append, not_or]
    exact ⟨⟨hfirst, hdomain⟩, hlast⟩
  have hsplit := splitFirst_append hbase ("api_key=" ++ key ++ "&" ++ otherParameters channel limit)
  have hmark : String.singleton '?' = "?" := by decide
  rw [hmark] at hsplit
  rw [feedUrl_eq, hsplit]

/-- An address as it is shown. -/
theorem redactUrl_feedUrl {domain : String} (hdomain : '?' ∉ domain.toList)
    (key channel : String) (limit : Nat) :
    redactUrl (feedUrl domain key channel limit) =
      "http://api." ++ domain ++ "/api/v2/reviews/browse" ++ "?" ++
        joined "&" (shownParameters key channel limit) := by
  unfold redactUrl
  rw [splitFirst_feedUrl hdomain]
  dsimp only
  rw [map_redactPair_parameters]

/-- Two keys are told apart by the addresses that are shown exactly if they differ behind their
first ampersands. -/
theorem redactUrl_feedUrl_eq_iff {domain : String} (hdomain : '?' ∉ domain.toList)
    (key key' channel : String) (limit : Nat) :
    redactUrl (feedUrl domain key channel limit) = redactUrl (feedUrl domain key' channel limit) ↔
      shownOfKey key = shownOfKey key' := by
  rw [redactUrl_feedUrl hdomain, redactUrl_feedUrl hdomain]
  constructor
  · intro hsame
    have hjoined := (String.append_right_inj _).mp hsame
    have hshown := congrArg (pieces '&') hjoined
    rw [pieces_shownParameters, pieces_shownParameters] at hshown
    unfold shownParameters at hshown
    rw [List.cons_append, List.cons_append] at hshown
    exact List.append_cancel_right (List.cons.inj hshown).2
  · intro hshown
    unfold shownParameters
    rw [hshown]

/-! ## Fetching -/

/-- An attempt is settled by what is shown of the address. -/
theorem Attempt.settle_congr {url url' : String} (hshown : redactUrl url = redactUrl url')
    (attempt : Attempt) (timeoutSeconds : Nat) :
    attempt.settle url timeoutSeconds = attempt.settle url' timeoutSeconds := by
  unfold Attempt.settle
  rw [hshown]

section Fetch

variable {m : Type → Type} [Monad m]

/-- However often the request is repeated, what is fetched depends on what is shown of the address
only. -/
theorem fetchWithin_congr {url url' : String} (hshown : redactUrl url = redactUrl url')
    (request : m Attempt) (wait : Nat → m Unit) (settings : FetchSettings) (failures left : Nat) :
    fetchWithin request wait settings url failures left =
      fetchWithin request wait settings url' failures left := by
  induction left generalizing failures with
  | zero =>
    unfold fetchWithin
    simp only [Attempt.settle_congr hshown]
  | succ left ih =>
    unfold fetchWithin
    simp only [Attempt.settle_congr hshown, ih]

/-- Where requests have the same answers for two keys that are shown alike, the same is fetched. -/
theorem FeedSource.fetch_congr {domain key key' channel : String} {limit : Nat}
    (hshown : redactUrl (feedUrl domain key channel limit) =
      redactUrl (feedUrl domain key' channel limit))
    {request : FetchSettings → String → m Attempt} {settings : FetchSettings}
    (hrequest : request settings (feedUrl domain key channel limit) =
      request settings (feedUrl domain key' channel limit))
    (readText : String → m (Except IoFault String)) (wait : Nat → m Unit) :
    (FeedSource.domain domain key).fetch readText request wait settings channel limit =
      (FeedSource.domain domain key').fetch readText request wait settings channel limit := by
  unfold FeedSource.fetch fetchText
  dsimp only
  rw [hrequest]
  exact fetchWithin_congr hshown _ wait settings 0 settings.retryAttempts

end Fetch

/-! ## Runs -/

/-- Settings with another key. -/
def Settings.withKey (s : Settings) (key : String) : Settings :=
  { s with source := { s.source with apiKey := some key } }

/-- Where requests have the same answers for two keys that are shown alike, a run has the same
surroundings. -/
theorem Machine.host_withKey {m : Type → Type} [Monad m] (machine : Machine m) (s : Settings)
    (key key' : String)
    (hshown : ∀ channel limit, redactUrl (feedUrl (s.source.domain.getD "") key channel limit) =
      redactUrl (feedUrl (s.source.domain.getD "") key' channel limit))
    (hrequest : ∀ channel limit,
      machine.request s.fetching (feedUrl (s.source.domain.getD "") key channel limit) =
        machine.request s.fetching (feedUrl (s.source.domain.getD "") key' channel limit))
    (started : Moment) :
    machine.host (s.withKey key) started = machine.host (s.withKey key') started := by
  have hfetch : (s.withKey key).feedSource.fetch machine.readText machine.request machine.wait
      s.fetching = (s.withKey key').feedSource.fetch machine.readText machine.request machine.wait
        s.fetching := by
    unfold Settings.feedSource Settings.withKey
    dsimp only
    cases s.source.inputFile with
    | some path => rfl
    | none =>
      funext channel limit
      exact FeedSource.fetch_congr (hshown channel limit) (hrequest channel limit) _ _
  have hfetching : ∀ k, (s.withKey k).fetching = s.fetching := fun _ => rfl
  unfold Machine.host
  rw [hfetching, hfetching, hfetch]
  rfl

/-! ## Scripts -/

/-- A server that lets requests come to the attempts of a script, one after the other, and then
leaves them unanswered. -/
def answering (_ : FetchSettings) (_ : String) : StateM (List Attempt) Attempt := fun script =>
  match script with
  | [] => (.timedOut, [])
  | attempt :: rest => (attempt, rest)

/-- The error with which a feed cannot be fetched, in words, if its requests come to the attempts of
a script. -/
def errorText (settings : FetchSettings) (domain key channel : String) (limit : Nat)
    (script : List Attempt) : Option String :=
  match ((FeedSource.domain domain key).fetch (fun _ => pure (.error .notFound)) answering
    (fun _ => pure ()) settings channel limit script).1 with
  | .ok _ => none
  | .error e => some e.message

/-- Keys without ampersands cannot be told apart, as long as the domain has no question mark: by
the addresses that are shown, by the error of a feed that cannot be fetched, whatever its requests
come to, and by all that a run writes, shows and returns, if the machine lets the same come of the
requests. -/
theorem runSettings_of_masked {domain key key' : String} (hdomain : '?' ∉ domain.toList)
    (hkey : '&' ∉ key.toList) (hkey' : '&' ∉ key'.toList) :
    (∀ channel limit, redactUrl (feedUrl domain key channel limit) =
      redactUrl (feedUrl domain key' channel limit)) ∧
    (∀ settings channel limit script, errorText settings domain key channel limit script =
      errorText settings domain key' channel limit script) ∧
    ∀ (m : Type → Type) [Monad m] (machine : Machine m) (s : Settings),
      s.source.domain = some domain →
      (∀ channel limit, machine.request s.fetching (feedUrl domain key channel limit) =
        machine.request s.fetching (feedUrl domain key' channel limit)) →
      machine.runSettings (s.withKey key) = machine.runSettings (s.withKey key') := by
  have hshown : ∀ channel limit, redactUrl (feedUrl domain key channel limit) =
      redactUrl (feedUrl domain key' channel limit) := by
    intro channel limit
    rw [redactUrl_feedUrl_eq_iff hdomain, shownOfKey_eq_nil_iff.mpr hkey,
      shownOfKey_eq_nil_iff.mpr hkey']
  refine ⟨hshown, ?_, ?_⟩
  · intro settings channel limit script
    unfold errorText
    rw [FeedSource.fetch_congr (hshown channel limit) rfl]
  · intro m _ machine s hs hrequest
    have hname : s.source.domain.getD "" = domain := by
      rw [hs]
      rfl
    rw [← hname] at hshown hrequest
    have hhost := machine.host_withKey s key key' hshown hrequest
    unfold Machine.runSettings
    simp only [hhost]
    rfl

/-- A server that is down, then does not answer in time, and then has no feed. -/
def failingScript : List Attempt :=
  [.answered 503 (.ok ""), .timedOut, .answered 404 (.ok "")]

/-- A machine that keeps all lines that are written or shown, and has its requests forbidden. -/
def forbiddenMachine : Machine (StateM (List String)) where
  readText _ := pure (.ok ("\x7b\"container\": \"movie\", \"elements\": [" ++
    "\x7b\"element_id\": \"1\", \"element_name\": \"id\"\x7d]\x7d"))
  exists_ _ := pure false
  now := pure ⟨0, 0, 0⟩
  userDir := pure none
  environment := pure (.ofList [])
  request _ _ := pure (.answered 403 (.ok ""))
  wait _ := pure ()
  write _ _ lines kept := (.ok (), kept ++ lines)
  print text kept := ((), kept ++ [text])
  printError text kept := ((), kept ++ [text])

/-- Settings by which one channel is asked for. -/
def movieSettings : Settings :=
  { run := { channel := "movie" }, source := { domain := some "example.com" } }

/-- With two keys the same is written and shown, down to the error in the log. -/
theorem runSettings_of_masked_movie :
    '?' ∉ "example.com".toList ∧ '&' ∉ "k3y".toList ∧ '&' ∉ "secret".toList ∧
    errorText {} "example.com" "k3y" "movie" 0 failingScript =
      some ("HTTP status error: 404 for http://api.example.com/api/v2/reviews/browse?" ++
        "api_key=***&channel=movie - HTTP 404: Not Found") ∧
    errorText {} "example.com" "secret" "movie" 0 failingScript =
      errorText {} "example.com" "k3y" "movie" 0 failingScript ∧
    ("HTTP status error: 403 for http://api.example.com/api/v2/reviews/browse?" ++
      "api_key=***&channel=movie - HTTP 403: Forbidden") ∈
        (forbiddenMachine.runSettings (movieSettings.withKey "k3y") []).2 ∧
    forbiddenMachine.runSettings (movieSettings.withKey "secret") =
      forbiddenMachine.runSettings (movieSettings.withKey "k3y") := by
  have hdomain : '?' ∉ "example.com".toList := by decide
  have hkey : '&' ∉ "k3y".toList := by decide
  have hsecret : '&' ∉ "secret".toList := by decide
  obtain ⟨-, herror, hrun⟩ := runSettings_of_masked hdomain hsecret hkey
  refine ⟨hdomain, hkey, hsecret, ?_, herror {} "movie" 0 failingScript, ?_, ?_⟩
  · decide +kernel
  · decide +kernel
  · exact hrun (StateM (List String)) forbiddenMachine movieSettings rfl fun _ _ => rfl

/-- A key with an ampersand is told from one without, and behind a question mark in the domain the
key is shown as it is. -/
theorem fetch_tells_keys_apart :
    errorText {} "example.com" "a&b" "movie" 0 failingScript ≠
      errorText {} "example.com" "x" "movie" 0 failingScript ∧
    errorText {} "example.com?" "k3y" "movie" 0 failingScript =
      some ("HTTP status error: 404 for http://api.example.com?/api/v2/reviews/browse?" ++
        "api_key=k3y&channel=movie - HTTP 404: Not Found") := by
  constructor
  · decide +kernel
  · decide +kernel

end FeedAudit

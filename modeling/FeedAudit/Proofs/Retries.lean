import FeedAudit.Feed.Fetch
import Mathlib.Data.ENat.Lattice

/-!
# How often a feed is asked for

A network is given by what comes of each request, the first, the second and so on without end, and
keeps what is done while a feed is fetched (`FetchEvent`). A request is repeated after a fault of
the server, after too long a wait, and after a fault for which asking again may help
(`Attempt.Repeatable`); anything else is final. Of the faults that are met on the way only the last
one is told, and faults that may be met again differ in their words.

Fetching is a loop that is left as soon as a request is final or the limit of repetitions is reached
(`fetchFrom_eq`), so the number of requests is bounded by counting.

Main statement: `fetchText_exchange`. Requests are made up to the first one that is final, or until
no repetition is left, with a wait before every repetition, and what comes of the last of them
alone decides what is returned (`Attempt.Settles`).
-/

namespace FeedAudit

/-! ## Attempts -/

namespace Attempt

/-- What may come of a request that is made again: a fault of the server, no answer in time, or a
fault for which asking again may help. -/
def Repeatable : Attempt → Prop
  | answered status _ => 500 ≤ status ∧ status ≤ 599
  | timedOut => True
  | failed fault => fault.retryable = true

/-- A request is repeated exactly if what came of it is repeatable. -/
theorem retryable_iff {attempt : Attempt} : attempt.retryable = true ↔ attempt.Repeatable := by
  cases attempt with
  | answered status body =>
    simp only [retryable, isServerFault, Repeatable, Bool.and_eq_true, decide_eq_true_eq]
    omega
  | timedOut => simp [retryable, Repeatable]
  | failed fault => rfl

/-- `attempt.Settles url seconds result` says that `result` is what the last attempt to fetch `url`
comes to, with `seconds` the time that a request may take. -/
inductive Settles (url : String) (seconds : Nat) : Attempt → Except FeedError String → Prop
  | fetched {status : Nat} {text : String} (success : 200 ≤ status ∧ status ≤ 299) :
    Settles url seconds (.answered status (.ok text)) (.ok text)
  | brokenOff {status : Nat} {fault : TransportFault} (success : 200 ≤ status ∧ status ≤ 299) :
    Settles url seconds (.answered status (.error fault)) (.error (.http fault))
  | refused {status : Nat} {body : Except TransportFault String}
      (no_success : status < 200 ∨ 299 < status) :
    Settles url seconds (.answered status body)
      (.error (.httpStatus (redactUrl url) status (statusMessage status)))
  | late : Settles url seconds .timedOut (.error (.timeout (redactUrl url) seconds))
  | failed {fault : TransportFault} : Settles url seconds (.failed fault) (.error (.http fault))

/-- A status tells of success exactly if it lies between 200 and 299. -/
theorem isSuccess_iff {status : Nat} : isSuccess status = true ↔ 200 ≤ status ∧ status ≤ 299 := by
  simp only [isSuccess, Bool.and_eq_true, decide_eq_true_eq]
  omega

/-- What is made of an attempt is what the attempt comes to. -/
theorem settles_settle (url : String) (seconds : Nat) (attempt : Attempt) :
    attempt.Settles url seconds (attempt.settle url seconds) := by
  cases attempt with
  | answered status body =>
    by_cases hsuccess : isSuccess status = true
    · rw [settle, if_pos hsuccess]
      cases body with
      | ok text => exact .fetched (isSuccess_iff.mp hsuccess)
      | error fault => exact .brokenOff (isSuccess_iff.mp hsuccess)
    · rw [settle, if_neg hsuccess]
      rw [isSuccess_iff] at hsuccess
      exact .refused (by omega)
  | timedOut => exact .late
  | failed fault => exact .failed

end Attempt

/-! ## The network -/

/-- What is done while a feed is fetched. -/
inductive FetchEvent where
  | requested
  | waited (millis : Nat)
  deriving DecidableEq

namespace FetchEvent

/-- A network on which the requests come to the given attempts, one after the other. -/
def requesting (outcomes : Nat → Attempt) : StateM (List FetchEvent) Attempt := fun past =>
  (outcomes (past.count requested), past ++ [requested])

/-- A clock that keeps the waits. -/
def waiting (millis : Nat) : StateM (List FetchEvent) Unit := fun past =>
  ((), past ++ [waited millis])

/-- What is done if requests are repeated `n` times after `failures` others that failed. -/
def exchange (settings : FetchSettings) (failures : Nat) : Nat → List FetchEvent
  | 0 => [requested]
  | n + 1 =>
    requested :: waited (settings.retryDelay failures) :: exchange settings (failures + 1) n

/-- A wait is not a request. -/
theorem waited_ne_requested (millis : Nat) : waited millis ≠ requested := fun h => by cases h

/-- There is one request more than repetitions. -/
theorem count_requested_exchange (settings : FetchSettings) (failures n : Nat) :
    (exchange settings failures n).count requested = n + 1 := by
  induction n generalizing failures with
  | zero => rfl
  | succ n ih =>
    rw [exchange, List.count_cons_self, List.count_cons_of_ne (waited_ne_requested _), ih]

end FetchEvent

open FetchEvent

/-! ## One request after the other -/

section Loop

variable {m : Type → Type} [Monad m] (request : m Attempt) (wait : Nat → m Unit)
  (settings : FetchSettings) (url : String)

/-- Fetching after `failures` requests that were followed by others. -/
def fetchFrom (failures : Nat) : m (Except FeedError String) :=
  fetchWithin request wait settings url failures (settings.retryAttempts - failures)

/-- Fetching is a loop that counts up to the limit: it is left as soon as a request is final or the
limit is reached. -/
theorem fetchFrom_eq (failures : Nat) :
    fetchFrom request wait settings url failures = do
      let attempt ← request
      if attempt.retryable = true ∧ failures < settings.retryAttempts then
        wait (settings.retryDelay failures)
        fetchFrom request wait settings url (failures + 1)
      else return attempt.settle url settings.timeoutSeconds := by
  unfold fetchFrom
  by_cases hlimit : failures < settings.retryAttempts
  · have hleft : settings.retryAttempts - failures =
        settings.retryAttempts - (failures + 1) + 1 := by omega
    rw [hleft, fetchWithin]
    simp only [hlimit, and_true]
  · have hleft : settings.retryAttempts - failures = 0 := by omega
    rw [hleft, fetchWithin]
    simp only [hlimit, and_false, if_false]

end Loop

section Requests

variable (settings : FetchSettings) (url : String) (outcomes : Nat → Attempt)

/-- A request is made, and it is either the last or followed by a wait and others. -/
theorem run_fetchFrom {failures : Nat} {past : List FetchEvent}
    (hpast : past.count requested = failures) :
    (fetchFrom (requesting outcomes) waiting settings url failures).run past =
      if (outcomes failures).retryable = true ∧ failures < settings.retryAttempts then
        (fetchFrom (requesting outcomes) waiting settings url (failures + 1)).run
          (past ++ [requested, waited (settings.retryDelay failures)])
      else ((outcomes failures).settle url settings.timeoutSeconds, past ++ [requested]) := by
  subst hpast
  rw [fetchFrom_eq]
  change StateT.run (if (outcomes (past.count requested)).retryable = true ∧ _ then _ else _)
    (past ++ [requested]) = _
  split
  · have hevents : past ++ [requested, waited (settings.retryDelay (past.count requested))] =
        past ++ [requested] ++ [waited (settings.retryDelay (past.count requested))] := by
      rw [List.append_assoc]
      rfl
    rw [hevents]
    rfl
  · rfl

/-- Requests are made until one is final or the limit is reached. -/
theorem exists_run_fetchFrom {failures : Nat} {past : List FetchEvent}
    (hpast : past.count requested = failures) (hlimit : failures ≤ settings.retryAttempts) :
    ∃ n, failures ≤ n ∧ n ≤ settings.retryAttempts ∧
      (∀ i, failures ≤ i → i < n → (outcomes i).Repeatable) ∧
      (n = settings.retryAttempts ∨ ¬(outcomes n).Repeatable) ∧
      (fetchFrom (requesting outcomes) waiting settings url failures).run past =
        ((outcomes n).settle url settings.timeoutSeconds,
          past ++ exchange settings failures (n - failures)) := by
  -- The induction is on how many repetitions are left.
  induction hleft : settings.retryAttempts - failures generalizing failures past with
  | zero =>
    have hreached : failures = settings.retryAttempts := by omega
    have hrun := run_fetchFrom settings url outcomes hpast
    rw [if_neg fun hmore => by omega] at hrun
    refine ⟨failures, Nat.le_refl failures, hlimit, fun i hi hless => ?_, .inl hreached, ?_⟩
    · omega
    · rw [hrun, Nat.sub_self, exchange]
  | succ left ih =>
    have hrun := run_fetchFrom settings url outcomes hpast
    by_cases hrepeat : (outcomes failures).Repeatable
    · have hmore : failures < settings.retryAttempts := by omega
      have hnext : (past ++ [requested, waited (settings.retryDelay failures)]).count requested =
          failures + 1 := by
        rw [List.count_append, hpast, List.count_cons_self,
          List.count_cons_of_ne (waited_ne_requested _)]
        rfl
      obtain ⟨n, hn, hmost, hbefore, hend, hothers⟩ := ih hnext hmore (by omega)
      refine ⟨n, by omega, hmost, fun i hi hless => ?_, hend, ?_⟩
      · rcases Nat.eq_or_lt_of_le hi with rfl | hlater
        · exact hrepeat
        · exact hbefore i hlater hless
      · have hcount : n - failures = n - (failures + 1) + 1 := by omega
        rw [hrun, if_pos ⟨Attempt.retryable_iff.mpr hrepeat, hmore⟩, hothers, hcount, exchange,
          List.append_assoc]
        rfl
    · have hfinal : ¬((outcomes failures).retryable = true ∧ failures < settings.retryAttempts) :=
        fun hmore => hrepeat (Attempt.retryable_iff.mp hmore.1)
      rw [if_neg hfinal] at hrun
      refine ⟨failures, Nat.le_refl failures, hlimit, fun i hi hless => ?_, .inr hrepeat, ?_⟩
      · omega
      · rw [hrun, Nat.sub_self, exchange]

end Requests

/-! ## All requests -/

/-- The position of the first attempt that is final, infinite when there is none. -/
noncomputable def firstFinal (outcomes : Nat → Attempt) : ℕ∞ :=
  ⨅ (i : Nat) (_ : ¬(outcomes i).Repeatable), (i : ℕ∞)

/-- Requests end at the first that is final, or at the last that may be made. -/
theorem eq_min_firstFinal {outcomes : Nat → Attempt} {n most : Nat} (hn : n ≤ most)
    (hbefore : ∀ i < n, (outcomes i).Repeatable)
    (hend : n = most ∨ ¬(outcomes n).Repeatable) :
    (n : ℕ∞) = min (firstFinal outcomes) most := by
  apply le_antisymm
  · have hfirst : (n : ℕ∞) ≤ firstFinal outcomes := by
      refine le_iInf₂ fun i hi => ?_
      have hle : n ≤ i := Nat.not_lt.mp fun hless => hi (hbefore i hless)
      exact Nat.cast_le.mpr hle
    exact le_min hfirst (Nat.cast_le.mpr hn)
  · rcases hend with rfl | hfinal
    · exact min_le_right _ _
    · exact (min_le_left _ _).trans (iInf₂_le n hfinal)

/-- Whatever comes of the requests, a feed is asked for up to the first request that is final, and
once more than it may be repeated at most. All requests but the last came to a fault of the server,
no answer in time or a fault for which asking again may help, so that no other status is asked for
again; before each repetition there is a wait. What is returned is what the last attempt comes
to. -/
theorem fetchText_exchange (settings : FetchSettings) (url : String) (outcomes : Nat → Attempt) :
    ∃ (n : Nat) (result : Except FeedError String) (events : List FetchEvent),
      (fetchText (requesting outcomes) waiting settings url).run [] = (result, events) ∧
        (n : ℕ∞) = min (firstFinal outcomes) settings.retryAttempts ∧
        events.count requested = n + 1 ∧ events = exchange settings 0 n ∧
        (outcomes n).Settles url settings.timeoutSeconds result ∧
        (∀ i < n, (outcomes i).Repeatable) ∧
        ∀ i ≤ n, ∀ status body, outcomes i = .answered status body →
          ¬(500 ≤ status ∧ status ≤ 599) → i = n := by
  have hstart : ([] : List FetchEvent).count requested = 0 := rfl
  obtain ⟨n, -, hn, hrange, hend, hrun⟩ :=
    exists_run_fetchFrom settings url outcomes hstart (Nat.zero_le _)
  have hbefore : ∀ i < n, (outcomes i).Repeatable := fun i hi => hrange i (Nat.zero_le i) hi
  refine ⟨n, _, _, hrun, eq_min_firstFinal hn hbefore hend, count_requested_exchange settings 0 n,
    rfl, Attempt.settles_settle url settings.timeoutSeconds (outcomes n), hbefore, ?_⟩
  intro i hi status body houtcome hstatus
  by_contra hne
  have hrepeat := hbefore i (Nat.lt_of_le_of_ne hi hne)
  rw [houtcome] at hrepeat
  exact hstatus hrepeat

/-- When no connection comes about first and then no answer, it is the second fault that is told. -/
example :
    let unreachable : TransportFault := { message := "connection refused", isConnect := true }
    let silent : TransportFault := { message := "connection closed", isRequest := true }
    let settings : FetchSettings := { retryAttempts := 1 }
    let outcomes n := if n = 0 then Attempt.failed unreachable else .failed silent
    (fetchText (requesting outcomes) waiting settings "http://feeds.example").run [] =
      (.error (.http silent), [.requested, .waited (settings.retryDelay 0), .requested]) := rfl

end FeedAudit

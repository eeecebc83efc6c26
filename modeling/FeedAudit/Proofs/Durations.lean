import FeedAudit.Console
import FeedAudit.Proofs.Rounding
import Mathlib.Tactic.Positivity
import Mathlib.Tactic.Ring

/-!
# How times read

The console shows a time in whole milliseconds, in seconds with two places, or in minutes and
seconds with one place. From the text it is known which of these it is and what the digits are
(`TimeReading.text_inj`), so that a time has a value as it reads.

Main statement: `elapsed_reads`, for seconds and minutes that are held exactly. The value is less
than a unit of the last place away from the time, and a longer time never reads as less. But seconds
are rounded only after the minutes were taken off, and after it was found that there are none: just
before a minute is full, sixty seconds are shown (`sixty_seconds_shown`).
-/

namespace FeedAudit

/-! ## Readings -/

/-- What the text of a time says: its digits, and in which form they are given. -/
inductive TimeReading where
  | milliseconds (n : ℕ)
  | seconds (hundredths : ℕ)
  | minutes (n tenths : ℕ)
  deriving DecidableEq, Repr

namespace TimeReading

/-- The text that says it. -/
def text : TimeReading → String
  | milliseconds n => toString n ++ "ms"
  | seconds hundredths => Decimal.placesText 2 hundredths ++ "s"
  | minutes n tenths => toString n ++ "m" ++ Decimal.placesText 1 tenths ++ "s"

/-- The time that is said, in seconds. -/
def value : TimeReading → ℚ
  | milliseconds n => n / 1000
  | seconds hundredths => hundredths / 100
  | minutes n tenths => 60 * n + tenths / 10

/-- A unit of the last place, in seconds. -/
def lastPlace : TimeReading → ℚ
  | milliseconds _ => 1 / 1000
  | seconds _ => 1 / 100
  | minutes _ _ => 1 / 10

/-- What is said is not said in larger units: there are less than a thousand milliseconds, at least
one second but less than sixty, and at least one minute with less than sixty seconds. -/
def Proper : TimeReading → Prop
  | milliseconds n => n < 1000
  | seconds hundredths => 100 ≤ hundredths ∧ hundredths < 6000
  | minutes n tenths => 1 ≤ n ∧ tenths < 600

/-- What is said is proper, or sixty seconds stand for one more minute. -/
def NearlyProper : TimeReading → Prop
  | milliseconds n => n < 1000
  | seconds hundredths => 100 ≤ hundredths ∧ hundredths ≤ 6000
  | minutes n tenths => 1 ≤ n ∧ tenths ≤ 600

/-- The time that the form of a reading stands for at least. -/
def least : TimeReading → ℚ
  | milliseconds _ => 0
  | seconds _ => 1
  | minutes n _ => 60 * n

/-- The time that the form of a reading stands for at most. -/
def most : TimeReading → ℚ
  | milliseconds _ => 1
  | seconds _ => 60
  | minutes n _ => 60 * (n + 1)

/-- A reading has a point exactly if it is not in milliseconds. -/
theorem point_mem_text_iff {r : TimeReading} : '.' ∈ r.text.toList ↔ ∀ n, r ≠ milliseconds n := by
  cases r with
  | milliseconds n =>
    have hnone : '.' ∉ (toString n ++ "ms").toList := by
      rw [String.toList_append, List.mem_append, not_or]
      exact ⟨not_mem_repr (by decide) n, by decide⟩
    simpa [text] using hnone
  | seconds hundredths => simp [text, Decimal.point_mem_placesText]
  | minutes n tenths => simp [text, Decimal.point_mem_placesText]

/-- Minutes are not written like seconds. -/
theorem minutes_text_ne (n tenths hundredths : ℕ) :
    (minutes n tenths).text ≠ (seconds hundredths).text := by
  have hminutes : 'm' ∈ (minutes n tenths).text.toList := by simp [text]
  have hseconds : 'm' ∉ (seconds hundredths).text.toList := by
    simp [text, Decimal.not_mem_placesText]
  intro heq
  rw [heq] at hminutes
  exact hseconds hminutes

/-- From the text of a time it is known what it says. -/
theorem text_inj {r r' : TimeReading} (heq : r.text = r'.text) : r = r' := by
  have hpoint : (∀ n, r ≠ milliseconds n) ↔ ∀ n, r' ≠ milliseconds n := by
    rw [← point_mem_text_iff, heq, point_mem_text_iff]
  cases r <;> cases r'
  case milliseconds.milliseconds m n =>
    rw [eq_of_repr_eq ((String.append_left_inj _).mp heq)]
  case seconds.seconds units units' =>
    rw [Decimal.placesText_inj ((String.append_left_inj _).mp heq)]
  case minutes.minutes m units n units' =>
    have hcut : ∀ n units, Text.splitFirst 'm' (minutes n units).text =
        some (toString n, Decimal.placesText 1 units ++ "s") := by
      intro n units
      have htext : (minutes n units).text =
          toString n ++ "m" ++ (Decimal.placesText 1 units ++ "s") := String.append_assoc
      rw [htext]
      exact Text.splitFirst_append (not_mem_repr (by decide) _) _
    have hparts := hcut m units
    rw [heq, hcut, Option.some.injEq, Prod.mk.injEq] at hparts
    rw [eq_of_repr_eq hparts.1,
      Decimal.placesText_inj ((String.append_left_inj _).mp hparts.2)]
  case minutes.seconds m units units' => exact absurd heq (minutes_text_ne m units units')
  case seconds.minutes units n units' => exact absurd heq.symm (minutes_text_ne n units' units)
  all_goals simp at hpoint

end TimeReading

/-! ## What is read of a time -/

/-- A time in seconds is read in the form that its size asks for: milliseconds are those that are
full, and seconds are rounded to the nearest unit of their last place, which in the last form
happens behind the full minutes. -/
inductive ReadAs (t : ℚ) : TimeReading → Prop where
  | milliseconds {n : ℕ} (short : n < 1000) (full : (n : ℚ) / 1000 ≤ t)
      (most : t < ((n : ℚ) + 1) / 1000) : ReadAs t (.milliseconds n)
  | seconds (second : 1 ≤ t) (short : t < 60) :
      ReadAs t (.seconds (Decimal.nearestUnits (t * 100)))
  | minutes {n : ℕ} {rest : ℚ} (minute : 1 ≤ n) (left : 0 ≤ rest) (short : rest < 60)
      (split : t = 60 * n + rest) : ReadAs t (.minutes n (Decimal.nearestUnits (rest * 10)))

/-- A time is just before a full minute: it is half a unit of the last place below it or less. -/
def JustBeforeMinute (t : ℚ) : Prop :=
  (59.995 ≤ t ∧ t < 60) ∨ ∃ n : ℕ, 1 ≤ n ∧ 60 * n + 59.95 ≤ t ∧ t < 60 * (n + 1)

section ReadAs

variable {t : ℚ} {r : TimeReading}

/-- A time has no more full minutes than those that are followed by less than one. -/
theorem minutes_le {m n : ℕ} (hm : 60 * (m : ℚ) ≤ t) (hn : t < 60 * ((n : ℚ) + 1)) : m ≤ n := by
  have hlt : (m : ℚ) < (n + 1 : ℕ) := by
    push_cast
    linarith
  exact Nat.lt_succ_iff.mp (Nat.cast_lt.mp hlt)

/-- A time is read within the bounds of the form of its reading, these included. -/
theorem ReadAs.nearlyProper (hr : ReadAs t r) : r.NearlyProper := by
  cases hr with
  | milliseconds short full most => exact short
  | seconds second short =>
    have hlower : ((100 : ℕ) : ℚ) ≤ t * 100 := by
      push_cast
      linarith
    have hupper : t * 100 ≤ ((6000 : ℕ) : ℚ) := by
      push_cast
      linarith
    exact ⟨Decimal.le_nearestUnits hlower, Decimal.nearestUnits_le hupper⟩
  | @minutes n rest minute left short split =>
    have hupper : rest * 10 ≤ ((600 : ℕ) : ℚ) := by
      push_cast
      linarith
    exact ⟨minute, Decimal.nearestUnits_le hupper⟩

/-- Below a minute there is one time before a full minute. -/
theorem justBeforeMinute_iff_of_lt (ht : t < 60) : JustBeforeMinute t ↔ 59.995 ≤ t := by
  constructor
  · rintro (⟨hlower, -⟩ | ⟨m, hm, hlower, -⟩)
    · exact hlower
    · have hminute : (1 : ℚ) ≤ m := by exact_mod_cast hm
      norm_num at hlower ⊢
      linarith
  · exact fun hlower => Or.inl ⟨hlower, ht⟩

/-- Behind full minutes the rest decides. -/
theorem justBeforeMinute_iff_of_split {n : ℕ} {rest : ℚ} (minute : 1 ≤ n) (left : 0 ≤ rest)
    (short : rest < 60) (split : t = 60 * n + rest) : JustBeforeMinute t ↔ 59.95 ≤ rest := by
  have hminute : (1 : ℚ) ≤ n := by exact_mod_cast minute
  constructor
  · rintro (⟨-, hupper⟩ | ⟨m, hm, hlower, hupper⟩)
    · linarith
    · have hfull : 60 * (m : ℚ) ≤ t := by
        norm_num at hlower
        linarith
      obtain rfl := le_antisymm (minutes_le hfull (by linarith))
        (minutes_le (by linarith : 60 * (n : ℚ) ≤ t) hupper)
      linarith
  · exact fun hlower => Or.inr ⟨n, minute, by linarith, by linarith⟩

/-- Sixty seconds are read just before a full minute and at no other time. -/
theorem ReadAs.proper_iff (hr : ReadAs t r) : r.Proper ↔ ¬JustBeforeMinute t := by
  have hnear := hr.nearlyProper
  cases hr with
  | @milliseconds n short full most =>
    have hcast : (n : ℚ) + 1 ≤ 1000 := by exact_mod_cast short
    have hearly : ¬59.995 ≤ t := by
      norm_num
      linarith
    rw [justBeforeMinute_iff_of_lt (by linarith)]
    exact iff_of_true short hearly
  | seconds second short =>
    have hsixty := Decimal.le_nearestUnits_iff (m := 6000) (by decide) (x := t * 100) (by linarith)
    have hbefore : ((6000 : ℕ) : ℚ) - 1 / 2 ≤ t * 100 ↔ 59.995 ≤ t := by
      constructor <;> intro hlower <;> norm_num at hlower ⊢ <;> linarith
    rw [justBeforeMinute_iff_of_lt short, ← hbefore, ← hsixty, Nat.not_le]
    exact and_iff_right hnear.1
  | @minutes n rest minute left short split =>
    have hsixty := Decimal.le_nearestUnits_iff (m := 600) (by decide) (x := rest * 10) (by linarith)
    have hbefore : ((600 : ℕ) : ℚ) - 1 / 2 ≤ rest * 10 ↔ 59.95 ≤ rest := by
      constructor <;> intro hlower <;> norm_num at hlower ⊢ <;> linarith
    rw [justBeforeMinute_iff_of_split minute left short split, ← hbefore, ← hsixty, Nat.not_le]
    exact and_iff_right minute

/-- What is read is less than a unit of its last place away from the time. -/
theorem ReadAs.abs_value_sub_lt (hr : ReadAs t r) : |r.value - t| < r.lastPlace := by
  rw [abs_lt]
  cases hr with
  | @milliseconds n short full most =>
    unfold TimeReading.value TimeReading.lastPlace
    constructor <;> linarith
  | seconds second short =>
    have hround := abs_le.mp (Decimal.abs_nearestUnits_sub_le (x := t * 100) (by linarith))
    unfold TimeReading.value TimeReading.lastPlace
    constructor <;> linarith
  | @minutes n rest minute left short split =>
    have hround := abs_le.mp (Decimal.abs_nearestUnits_sub_le (x := rest * 10) (by linarith))
    unfold TimeReading.value TimeReading.lastPlace
    constructor <;> linarith

/-- A time and what is read of it are at least as long as the form of the reading says, and not
longer than it says: the time is even shorter. -/
theorem ReadAs.bounds (hr : ReadAs t r) :
    r.least ≤ r.value ∧ r.value ≤ r.most ∧ r.least ≤ t ∧ t < r.most := by
  have hnear := hr.nearlyProper
  cases hr with
  | @milliseconds n short full most =>
    have hn : (n : ℚ) + 1 ≤ 1000 := by exact_mod_cast short
    have hn' : (0 : ℚ) ≤ n := Nat.cast_nonneg n
    unfold TimeReading.value TimeReading.least TimeReading.most
    refine ⟨?_, ?_, ?_, ?_⟩ <;> linarith
  | seconds second short =>
    have hunits : (100 : ℚ) ≤ Decimal.nearestUnits (t * 100) := by exact_mod_cast hnear.1
    have hunits' : (Decimal.nearestUnits (t * 100) : ℚ) ≤ 6000 := by exact_mod_cast hnear.2
    unfold TimeReading.value TimeReading.least TimeReading.most
    refine ⟨?_, ?_, ?_, ?_⟩ <;> linarith
  | @minutes n rest minute left short split =>
    have hunits : (0 : ℚ) ≤ Decimal.nearestUnits (rest * 10) := Nat.cast_nonneg _
    have hunits' : (Decimal.nearestUnits (rest * 10) : ℚ) ≤ 600 := by exact_mod_cast hnear.2
    unfold TimeReading.value TimeReading.least TimeReading.most
    refine ⟨?_, ?_, ?_, ?_⟩ <;> linarith

/-- A longer time is not read as less. -/
theorem ReadAs.value_le {t' : ℚ} {r' : TimeReading} (hr : ReadAs t r) (hr' : ReadAs t' r')
    (hle : t ≤ t') : r.value ≤ r'.value := by
  obtain ⟨-, hmost, hleast, -⟩ := hr.bounds
  obtain ⟨hleast', -, -, hmost'⟩ := hr'.bounds
  -- Readings in the same form are compared by their digits; else the bounds decide.
  cases hr with
  | @milliseconds n short full most =>
    cases hr' with
    | @milliseconds n' short' full' most' =>
      have hlt : (n : ℚ) < (n' + 1 : ℕ) := by
        push_cast
        linarith
      have hunits : (n : ℚ) ≤ n' := by exact_mod_cast Nat.lt_succ_iff.mp (Nat.cast_lt.mp hlt)
      unfold TimeReading.value
      linarith
    | seconds second' short' => exact hmost.trans hleast'
    | @minutes n' rest' minute' left' short' split' =>
      have hminute : (1 : ℚ) ≤ n' := by exact_mod_cast minute'
      simp only [TimeReading.least, TimeReading.most] at hmost hleast'
      linarith
  | seconds second short =>
    cases hr' with
    | milliseconds short' full' most' =>
      simp only [TimeReading.most] at hmost'
      linarith
    | seconds second' short' =>
      have hunits : (Decimal.nearestUnits (t * 100) : ℚ) ≤ Decimal.nearestUnits (t' * 100) := by
        exact_mod_cast Decimal.nearestUnits_mono (by linarith)
      unfold TimeReading.value
      linarith
    | @minutes n' rest' minute' left' short' split' =>
      have hminute : (1 : ℚ) ≤ n' := by exact_mod_cast minute'
      simp only [TimeReading.least, TimeReading.most] at hmost hleast'
      linarith
  | @minutes n rest minute left short split =>
    have hminute : (1 : ℚ) ≤ n := by exact_mod_cast minute
    cases hr' with
    | milliseconds short' full' most' =>
      simp only [TimeReading.most] at hmost'
      linarith
    | seconds second' short' => linarith
    | @minutes n' rest' minute' left' short' split' =>
      have hminutes : n ≤ n' := minutes_le (hleast.trans hle) hmost'
      rcases hminutes.eq_or_lt with rfl | hless
      · have hunits : (Decimal.nearestUnits (rest * 10) : ℚ) ≤
            Decimal.nearestUnits (rest' * 10) := by
          exact_mod_cast Decimal.nearestUnits_mono (by linarith)
        unfold TimeReading.value
        linarith
      · have hnext : (n : ℚ) + 1 ≤ n' := by exact_mod_cast hless
        simp only [TimeReading.least, TimeReading.most] at hmost hleast'
        linarith

end ReadAs

/-! ## Texts of times -/

/-- A number of small units is that of the full large ones and the rest. -/
theorem units_eq (n k : ℕ) : (n : ℚ) = k * (n / k : ℕ) + (n % k : ℕ) := by
  exact_mod_cast (Nat.div_add_mod n k).symm

/-- A number of nanoseconds in seconds, held exactly. -/
theorem secondsOfNanos_id (nanos : ℕ) : secondsOfNanos id nanos = (nanos : ℚ) / 1000000000 := by
  have hsplit := units_eq nanos 1000000000
  rw [Nat.cast_ofNat] at hsplit
  unfold secondsOfNanos
  simp only [id]
  rw [hsplit]
  ring

/-- A whole number of seconds is compared with a time in nanoseconds. -/
theorem seconds_lt_iff {nanos k : ℕ} :
    (nanos : ℚ) / 1000000000 < k ↔ nanos < k * 1000000000 := by
  rw [div_lt_iff₀ (by positivity)]
  exact_mod_cast Iff.rfl

/-- A time is its full minutes and the rest. -/
theorem seconds_eq (nanos : ℕ) :
    (nanos : ℚ) / 1000000000 =
      60 * (nanos / 60000000000 : ℕ) + ((nanos % 60000000000 : ℕ) : ℚ) / 1000000000 := by
  have hsplit := units_eq nanos 60000000000
  rw [Nat.cast_ofNat] at hsplit
  rw [hsplit]
  ring

/-- The whole minutes of a time are found by dividing its nanoseconds. -/
theorem floor_minutes (nanos : ℕ) :
    ((nanos : ℚ) / 1000000000 / 60).floor = (nanos / 60000000000 : ℕ) := by
  have hfloor := Rat.floor_natCast_div_natCast nanos 60000000000
  rw [div_div]
  norm_num at hfloor ⊢
  exact hfloor

/-- The text of a time that is held exactly, with the numbers that are written. -/
theorem durationTextWith_id (nanos : ℕ) :
    durationTextWith id nanos =
      if nanos < 1000000000 then toString (nanos / 1000000) ++ "ms"
      else if nanos < 60000000000 then Decimal.fixed 2 ((nanos : ℚ) / 1000000000) ++ "s"
      else toString (nanos / 60000000000) ++ "m" ++
        Decimal.fixed 1 (((nanos % 60000000000 : ℕ) : ℚ) / 1000000000) ++ "s" := by
  have hone : (nanos : ℚ) / 1000000000 < 1 ↔ nanos < 1000000000 := by
    exact_mod_cast seconds_lt_iff (k := 1)
  have hsixty : (nanos : ℚ) / 1000000000 < 60 ↔ nanos < 60000000000 := by
    exact_mod_cast seconds_lt_iff (k := 60)
  have hrest : (nanos : ℚ) / 1000000000 - 60 * ((nanos / 60000000000 : ℕ) : ℤ) =
      ((nanos % 60000000000 : ℕ) : ℚ) / 1000000000 := by
    rw [Int.cast_natCast, seconds_eq]
    ring
  unfold durationTextWith
  dsimp only
  rw [secondsOfNanos_id, id, floor_minutes, hrest]
  simp only [hone, hsixty]
  rfl

/-- The text of a time says what is read of it. -/
theorem exists_readAs (nanos : ℕ) :
    ∃ r : TimeReading, r.text = durationTextWith id nanos ∧
      ReadAs ((nanos : ℚ) / 1000000000) r := by
  rw [durationTextWith_id]
  split_ifs with hmillis hseconds
  · have hsplit := units_eq nanos 1000000
    rw [Nat.cast_ofNat] at hsplit
    have hless : ((nanos % 1000000 : ℕ) : ℚ) < 1000000 := by
      exact_mod_cast Nat.mod_lt nanos (by decide : 0 < 1000000)
    have hnone : (0 : ℚ) ≤ (nanos % 1000000 : ℕ) := Nat.cast_nonneg _
    refine ⟨.milliseconds (nanos / 1000000), rfl, .milliseconds (by omega) ?_ ?_⟩
    · linarith
    · linarith
  · refine ⟨_, ?_, .seconds ?_ ?_⟩
    · rw [Decimal.fixed_eq (by decide)]
      rfl
    · exact_mod_cast not_lt.mp (mt (seconds_lt_iff (k := 1)).mp (by omega))
    · exact_mod_cast (seconds_lt_iff (k := 60)).mpr (by omega)
  · refine ⟨_, ?_, .minutes (n := nanos / 60000000000) (by omega) (by positivity) ?_
      (seconds_eq nanos)⟩
    · rw [Decimal.fixed_eq (by decide)]
      rfl
    · exact_mod_cast (seconds_lt_iff (k := 60)).mpr (by omega)

/-- The seconds from one moment to another, none when that is earlier. -/
def Moment.elapsed (start finish : Moment) : ℚ :=
  max 0 ((finish.seconds - start.seconds : ℚ) + (finish.nanos - start.nanos : ℚ) / 1000000000)

/-- The nanoseconds between two moments are the time that passed between them. -/
theorem Moment.nanosUntil_eq (start finish : Moment) :
    (start.nanosUntil finish : ℚ) / 1000000000 = start.elapsed finish := by
  have hcast : ∀ z : ℤ, ((z.toNat : ℕ) : ℚ) = max 0 (z : ℚ) := by
    intro z
    have hmax : ((z.toNat : ℕ) : ℤ) = max z 0 := Int.toNat_eq_max z
    rw [max_comm]
    exact_mod_cast congrArg (Int.cast : ℤ → ℚ) hmax
  unfold nanosUntil elapsed
  rw [hcast, ← max_div_div_right (by positivity), zero_div]
  push_cast
  congr 1
  ring

/-- How the time between two moments reads. Its text is that of one reading, which is less than a
unit of its last place away from the time; this is at least one second when it is given in seconds,
at least one minute when it is given in minutes, and in either case it has less than sixty seconds
unless the time is just before a full minute, when it has sixty. A longer time never reads as
less. -/
theorem elapsed_reads (start finish : Moment) :
    (∃ r : TimeReading, r.text = durationTextWith id (start.nanosUntil finish)) ∧
    (∀ r : TimeReading, r.text = durationTextWith id (start.nanosUntil finish) →
      r.NearlyProper ∧ (r.Proper ↔ ¬JustBeforeMinute (start.elapsed finish)) ∧
        |r.value - start.elapsed finish| < r.lastPlace) ∧
    ∀ (start' finish' : Moment) (r r' : TimeReading),
      r.text = durationTextWith id (start.nanosUntil finish) →
      r'.text = durationTextWith id (start'.nanosUntil finish') →
      start.elapsed finish ≤ start'.elapsed finish' → r.value ≤ r'.value := by
  have hreads : ∀ (start finish : Moment) (r : TimeReading),
      r.text = durationTextWith id (start.nanosUntil finish) → ReadAs (start.elapsed finish) r := by
    intro start finish r htext
    obtain ⟨r', htext', hread⟩ := exists_readAs (start.nanosUntil finish)
    rw [← htext'] at htext
    rw [TimeReading.text_inj htext, ← Moment.nanosUntil_eq]
    exact hread
  refine ⟨?_, ?_, ?_⟩
  · obtain ⟨r, htext, -⟩ := exists_readAs (start.nanosUntil finish)
    exact ⟨r, htext⟩
  · intro r htext
    have hread := hreads start finish r htext
    exact ⟨hread.nearlyProper, hread.proper_iff, hread.abs_value_sub_lt⟩
  · intro start' finish' r r' htext htext' hle
    exact (hreads start finish r htext).value_le (hreads start' finish' r' htext') hle

/-- Full milliseconds and minutes are counted, seconds are rounded. -/
example : durationTextWith id 999999999 = "999ms" ∧ durationTextWith id 1005000000 = "1.00s" ∧
    durationTextWith id 60040000000 = "1m0.0s" := by decide +kernel

/-- Just before a full minute sixty seconds are shown, with seconds alone and with minutes, also
where times are held in doubles; no proper reading has these texts. -/
theorem sixty_seconds_shown :
    durationText (Moment.nanosUntil ⟨1709802300, 0, 0⟩ ⟨1709802359, 996000000, 0⟩) = "60.00s" ∧
    durationTextWith id (Moment.nanosUntil ⟨1709802300, 0, 0⟩ ⟨1709802359, 996000000, 0⟩) =
        "60.00s" ∧
    durationText (Moment.nanosUntil ⟨1709802300, 0, 0⟩ ⟨1709805899, 990000000, 0⟩) = "59m60.0s" ∧
    durationTextWith id (Moment.nanosUntil ⟨1709802300, 0, 0⟩ ⟨1709805899, 990000000, 0⟩) =
        "59m60.0s" ∧
    ∀ r : TimeReading, r.text = "60.00s" ∨ r.text = "59m60.0s" → ¬r.Proper := by
  refine ⟨by decide +kernel, by decide +kernel, by decide +kernel, by decide +kernel, ?_⟩
  have hseconds : (TimeReading.seconds 6000).text = "60.00s" := by decide +kernel
  have hminutes : (TimeReading.minutes 59 600).text = "59m60.0s" := by decide +kernel
  rintro r (htext | htext) hproper
  · obtain rfl := TimeReading.text_inj (htext.trans hseconds.symm)
    exact Nat.lt_irrefl 6000 hproper.2
  · obtain rfl := TimeReading.text_inj (htext.trans hminutes.symm)
    exact Nat.lt_irrefl 600 hproper.2

end FeedAudit

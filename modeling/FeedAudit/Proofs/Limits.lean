import FeedAudit.Proofs.Layering
import Mathlib.Tactic.Common

/-!
# The limits that are accepted

A limit is given on the command line or by a variable of the environment. What texts are accepted,
and which limit they mean, is said here without reading them from left to right (`MeansLimit`): the
word for all records in small and large letters, or digits whose value fits 32 bits, with or without
a plus sign in front.

Main statement: `limits_alike`. The command line and the environment accept just these texts and
take the same limit from them. With any other text the environment leaves no settings but an error
that names the variable and the text.
-/

namespace FeedAudit

open Decimal

/-! ## Texts -/

/-- The word for no limit in small and large letters. -/
def spellingsOfAll : List String := ["all", "alL", "aLl", "aLL", "All", "AlL", "ALl", "ALL"]

/-- A text means a limit: a spelling of the word for all means none, and digits, which may have a
plus sign and any number of zeros in front, mean their value if that fits 32 bits. -/
inductive MeansLimit : String → Nat → Prop where
  | word {s : String} (spelled : s ∈ spellingsOfAll) : MeansLimit s 0
  | number {sign : String} {digits : List Char} (signed : sign = "" ∨ sign = "+")
      (some_digits : digits ≠ []) (only_digits : ∀ c ∈ digits, c.isDigit)
      (fits : Nat.ofDigitChars 10 digits 0 ≤ 4294967295) :
      MeansLimit (sign ++ String.ofList digits) (Nat.ofDigitChars 10 digits 0)

/-! ## The word -/

/-- The number of a letter made small. -/
theorem toNat_toLower (c : Char) :
    c.toLower.toNat = if 65 ≤ c.toNat ∧ c.toNat ≤ 90 then c.toNat + 32 else c.toNat := by
  have hrange : (c.val ≥ 'A'.val ∧ c.val ≤ 'Z'.val) ↔ 65 ≤ c.toNat ∧ c.toNat ≤ 90 := by
    rw [ge_iff_le, UInt32.le_iff_toNat_le, UInt32.le_iff_toNat_le]
    rfl
  unfold Char.toLower
  by_cases hlarge : 65 ≤ c.toNat ∧ c.toNat ≤ 90
  · rw [dif_pos (hrange.mpr hlarge), if_pos hlarge]
    change (c.val + 32).toNat = c.val.toNat + 32
    have hsmall : c.val.toNat ≤ 90 := hlarge.2
    rw [UInt32.toNat_add]
    change (c.val.toNat + 32) % 4294967296 = c.val.toNat + 32
    omega
  · rw [dif_neg (mt hrange.mp hlarge), if_neg hlarge]

/-- A small letter is the small form of itself and of the large one. -/
theorem toLower_eq_iff {c small large : Char} (hsmall : 97 ≤ small.toNat ∧ small.toNat ≤ 122)
    (hlarge : large.toNat + 32 = small.toNat) : c.toLower = small ↔ c = small ∨ c = large := by
  rw [← Char.toNat_inj, ← Char.toNat_inj, ← Char.toNat_inj, toNat_toLower]
  split <;> omega

/-- The word for no limit may be spelled with large and small letters. -/
theorem sameLetters_noLimit_iff {s : String} :
    sameLetters s noLimit = true ↔ s ∈ spellingsOfAll := by
  have ha : ∀ c : Char, c.toLower = 'a' ↔ c = 'a' ∨ c = 'A' := fun c =>
    toLower_eq_iff (by decide) (by decide)
  have hl : ∀ c : Char, c.toLower = 'l' ↔ c = 'l' ∨ c = 'L' := fun c =>
    toLower_eq_iff (by decide) (by decide)
  have hword : noLimit.toList.map Char.toLower = ['a', 'l', 'l'] := by decide
  constructor
  · intro hsame
    rw [sameLetters, beq_iff_eq, hword] at hsame
    obtain ⟨c₁, rest, hs, h₁, hsame⟩ := List.map_eq_cons_iff.mp hsame
    obtain ⟨c₂, rest, rfl, h₂, hsame⟩ := List.map_eq_cons_iff.mp hsame
    obtain ⟨c₃, rest, rfl, h₃, hsame⟩ := List.map_eq_cons_iff.mp hsame
    obtain rfl := List.map_eq_nil_iff.mp hsame
    rw [← String.ofList_toList (s := s), hs]
    rcases (ha c₁).mp h₁ with rfl | rfl <;> rcases (hl c₂).mp h₂ with rfl | rfl <;>
      rcases (hl c₃).mp h₃ with rfl | rfl <;> decide
  · intro hspelled
    revert s
    decide

/-! ## Numbers -/

/-- Further digits do not make a number smaller. -/
theorem le_ofDigitChars (n : Nat) (digits : List Char) : n ≤ Nat.ofDigitChars 10 digits n := by
  induction digits generalizing n with
  | nil => exact Nat.le_refl n
  | cons c rest ih =>
    rw [Nat.ofDigitChars_cons]
    have hrest := ih (10 * n + (c.toNat - '0'.toNat))
    omega

/-- Digits are read to the end if their value is allowed: what is read on the way is not larger. -/
theorem readDigits_eq_ok_iff {limit n m : Nat} {digits : List Char} (hn : n ≤ limit) :
    readDigits limit n digits = .ok m ↔
      (∀ c ∈ digits, c.isDigit) ∧ Nat.ofDigitChars 10 digits n = m ∧ m ≤ limit := by
  induction digits generalizing n with
  | nil =>
    rw [readDigits, Nat.ofDigitChars_nil, Except.ok.injEq]
    constructor
    · rintro rfl
      exact ⟨nofun, rfl, hn⟩
    · exact fun h => h.2.1
  | cons c rest ih =>
    have hnext : n * 10 + digitValue c = 10 * n + (c.toNat - '0'.toNat) := by
      rw [Nat.mul_comm, digitValue]
    rw [readDigits, Nat.ofDigitChars_cons, List.forall_mem_cons, hnext]
    by_cases hc : c.isDigit
    · by_cases hlarge : limit < 10 * n + (c.toNat - '0'.toNat)
      · have hbeyond := le_ofDigitChars (10 * n + (c.toNat - '0'.toNat)) rest
        rw [if_neg (by simpa using hc), if_pos hlarge]
        refine ⟨nofun, fun h => ?_⟩
        omega
      · rw [if_neg (by simpa using hc), if_neg hlarge, ih (Nat.le_of_not_lt hlarge)]
        simp [hc]
    · rw [if_pos (by simpa using hc)]
      exact ⟨nofun, fun h => absurd h.1.1 hc⟩

/-- A natural number is read of an optional plus and digits, as their value, if it is within the
limit. -/
theorem readNatural_eq_ok_iff {limit m : Nat} {s : String} :
    readNatural limit s = .ok m ↔
      ∃ sign digits, s = sign ++ String.ofList digits ∧ (sign = "" ∨ sign = "+") ∧ digits ≠ [] ∧
        (∀ c ∈ digits, c.isDigit) ∧ Nat.ofDigitChars 10 digits 0 = m ∧ m ≤ limit := by
  have hplus : "+".toList = ['+'] := by decide
  constructor
  · intro hread
    unfold readNatural at hread
    split at hread
    · cases hread
    · cases hread
    · rename_i digits hne hs
      refine ⟨"+", digits, ?_, Or.inr rfl, ?_, (readDigits_eq_ok_iff (Nat.zero_le _)).mp hread⟩
      · rw [← String.toList_inj, hs, String.toList_append, hplus, String.toList_ofList,
          List.singleton_append]
      · exact hne
    · rename_i digits hne _ _
      refine ⟨"", s.toList, ?_, Or.inl rfl, hne, (readDigits_eq_ok_iff (Nat.zero_le _)).mp hread⟩
      rw [String.empty_append, String.ofList_toList]
  · rintro ⟨sign, digits, rfl, hsign, hne, hdigits, hvalue⟩
    have hread := (readDigits_eq_ok_iff (Nat.zero_le limit)).mpr ⟨hdigits, hvalue⟩
    cases digits with
    | nil => exact absurd rfl hne
    | cons c rest =>
      -- Digits do not start with a plus, so that the sign is told from the first character.
      have hc : c ≠ '+' := by
        rintro rfl
        exact absurd (hdigits _ List.mem_cons_self) (by decide)
      unfold readNatural
      rcases hsign with rfl | rfl
      · rw [String.empty_append, String.toList_ofList]
        split
        · rename_i heq
          cases heq
        · rename_i heq
          exact absurd (List.cons.inj heq).1 hc
        · rename_i heq
          exact absurd (List.cons.inj heq).1 hc
        · exact hread
      · rw [String.toList_append, hplus, String.toList_ofList, List.singleton_append]
        exact hread

/-- No spelling of the word is a number. -/
theorem not_mem_spellingsOfAll {sign : String} {digits : List Char} (hsign : sign = "" ∨ sign = "+")
    (hdigits : ∀ c ∈ digits, c.isDigit) : sign ++ String.ofList digits ∉ spellingsOfAll := by
  have hword : ∀ s ∈ spellingsOfAll, (s.toList.all fun c => c == '+' || c.isDigit) = false := by
    decide
  have hnumber : ((sign ++ String.ofList digits).toList.all fun c => c == '+' || c.isDigit) =
      true := by
    rw [String.toList_append, String.toList_ofList, List.all_append, Bool.and_eq_true]
    refine ⟨?_, List.all_eq_true.mpr fun c hc => ?_⟩
    · rcases hsign with rfl | rfl <;> rfl
    · rw [hdigits c hc, Bool.or_true]
  intro hspelled
  rw [hword _ hspelled] at hnumber
  cases hnumber

/-- A limit is read from a text exactly if the text means it. -/
theorem readLimit_eq_some_iff {s : String} {n : Nat} : readLimit s = some n ↔ MeansLimit s n := by
  have hlargest : largest32 = 4294967295 := by decide
  constructor
  · intro hread
    unfold readLimit at hread
    split at hread
    · rename_i hsame
      obtain rfl := Option.some.inj hread
      exact .word (sameLetters_noLimit_iff.mp hsame)
    · cases hnumber : readNatural largest32 s with
      | error fault =>
        rw [hnumber] at hread
        cases hread
      | ok m =>
        rw [hnumber] at hread
        obtain rfl := Option.some.inj hread
        obtain ⟨sign, digits, rfl, hsign, hne, hdigits, rfl, hfits⟩ :=
          readNatural_eq_ok_iff.mp hnumber
        exact .number hsign hne hdigits (hlargest ▸ hfits)
  · intro hmeans
    unfold readLimit
    cases hmeans with
    | word hspelled => rw [if_pos (sameLetters_noLimit_iff.mpr hspelled)]
    | @number sign digits hsign hne hdigits hfits =>
      have hnumber : readNatural largest32 (sign ++ String.ofList digits) =
          .ok (Nat.ofDigitChars 10 digits 0) :=
        readNatural_eq_ok_iff.mpr ⟨sign, digits, rfl, hsign, hne, hdigits, rfl, hlargest ▸ hfits⟩
      have hword : ¬sameLetters (sign ++ String.ofList digits) noLimit = true := fun hsame =>
        not_mem_spellingsOfAll hsign hdigits (sameLetters_noLimit_iff.mp hsame)
      rw [if_neg hword, hnumber]
      rfl

/-! ## The command line -/

/-- An option for a limit is taken if its value means one. -/
theorem Arguments.take_limit {a : Arguments} (ha : a.limit = none) (s : String) :
    a.take .limit s =
      match readLimit s with
      | some n => .ok { a with limit := some n }
      | none => .error (.badValue .limit s ("expected a number or 'all', got '" ++ s ++ "'")) := by
  have hnew : a.has .limit = false := by
    rw [has, ha]
    rfl
  rw [take, hnew]
  rfl

/-- A limit on the command line is read as such. -/
theorem Arguments.read_limit (s : String) :
    Arguments.read ["--limit=" ++ s] = ({} : Arguments).take .limit s := by
  have hargument : ("--limit=" ++ s).toList = '-' :: '-' :: 'l' :: ("imit=" ++ s).toList := by
    simp
  have hbody : String.ofList ('l' :: ("imit=" ++ s).toList) = "limit" ++ "=" ++ s := by
    rw [← String.toList_inj, String.toList_ofList]
    simp
  have hcut : Text.splitFirst '=' ("limit" ++ "=" ++ s) = some ("limit", s) :=
    Text.splitFirst_append (by decide) s
  have hkind : OptionKind.ofLong? "limit" = some (.value .limit) := by decide
  have hlong : ({} : ArgumentReading).readLong ("--limit=" ++ s) ("limit" ++ "=" ++ s) =
      (({} : Arguments).take .limit s).map fun a => ⟨a, none⟩ := by
    unfold ArgumentReading.readLong
    rw [hcut]
    dsimp only
    rw [hkind]
    rfl
  unfold Arguments.read ArgumentReading.read
  rw [hargument]
  change (({} : ArgumentReading).readLong ("--limit=" ++ s) (String.ofList _)).bind
    (fun r => r.read []) = _
  rw [hbody, hlong, take_limit rfl]
  cases readLimit s <;> rfl

/-! ## The environment -/

namespace Environment

/-- An environment in which a variable is not set. -/
def without (env : Environment) (name : String) : Environment :=
  fun other => if other = name then none else env other

variable {env : Environment} {setting name text : String}

/-- A variable says the same when another one is taken away. -/
theorem said_without {α : Type} (hname : variableName setting ≠ name) (read : String → Option α) :
    (env.without name).said setting read = env.said setting read := by
  rw [said, without, if_neg hname, said]

/-- A variable is misread alike when another one is taken away. -/
theorem misreading_without (hname : variableName setting ≠ name) (reads : String → Bool) :
    (env.without name).misreading setting reads = env.misreading setting reads := by
  rw [misreading, without, if_neg hname, misreading]

/-- The limit is set by a variable of this name. -/
theorem variableName_limit : variableName "LIMIT" = "VALIDATE_FEED_LIMIT" := by decide

/-- The variable of the limit says what its text is read as. -/
theorem said_limit (hset : env "VALIDATE_FEED_LIMIT" = some text) :
    env.said "LIMIT" readLimit = readLimit text := by
  rw [said, variableName_limit, hset]
  rfl

/-- The variable of the limit is misread exactly if its text cannot be read, and the error names
both. -/
theorem misreading_limit (hset : env "VALIDATE_FEED_LIMIT" = some text) :
    env.misreading "LIMIT" (fun text => (readLimit text).isSome) =
      if (readLimit text).isSome then none
      else some (.environment "VALIDATE_FEED_LIMIT" text) := by
  rw [misreading, variableName_limit, hset]
  rfl

/-- The limit is read behind two other variables. -/
theorem firstMisreading_of_before
    (hbefore : ∀ reading ∈ readings.take 2, env.misreading reading.1 reading.2 = none) :
    env.firstMisreading =
      (env.misreading "LIMIT" fun text => (readLimit text).isSome).or
        ((readings.drop 3).findSome? fun reading => env.misreading reading.1 reading.2) := by
  have hsplit : readings = readings.take 2 ++
      ("LIMIT", fun text => (readLimit text).isSome) :: readings.drop 3 := rfl
  rw [firstMisreading, hsplit, List.findSome?_append, List.findSome?_eq_none_iff.mpr hbefore,
    Option.none_or, List.findSome?_cons]
  cases env.misreading "LIMIT" fun text => (readLimit text).isSome <;> rfl

/-- Where all other variables can be read, the limit alone decides whether the environment can. -/
theorem firstMisreading_of_without
    (hothers : (env.without "VALIDATE_FEED_LIMIT").firstMisreading = none) :
    env.firstMisreading = env.misreading "LIMIT" fun text => (readLimit text).isSome := by
  have hnames : ∀ reading ∈ readings.take 2 ++ readings.drop 3,
      variableName reading.1 ≠ "VALIDATE_FEED_LIMIT" := by decide
  have hread : ∀ reading ∈ readings, variableName reading.1 ≠ "VALIDATE_FEED_LIMIT" →
      env.misreading reading.1 reading.2 = none := by
    intro reading hmem hname
    rw [← misreading_without hname]
    exact List.findSome?_eq_none_iff.mp hothers reading hmem
  have hbefore : ∀ reading ∈ readings.take 2, env.misreading reading.1 reading.2 = none :=
    fun reading hmem => hread reading (List.mem_of_mem_take hmem)
      (hnames reading (List.mem_append_left _ hmem))
  have hafter : ∀ reading ∈ readings.drop 3, env.misreading reading.1 reading.2 = none :=
    fun reading hmem => hread reading (List.mem_of_mem_drop hmem)
      (hnames reading (List.mem_append_right _ hmem))
  rw [firstMisreading_of_before hbefore, List.findSome?_eq_none_iff.mpr hafter, Option.or_none]

/-- A variable that is not misread gives no error. -/
theorem misreading_eq_none_of_not_misreads {reads : String → Bool}
    (hmem : (setting, reads) ∈ readings)
    (hread : ∀ value, ¬env.Misreads (variableName setting) value) :
    env.misreading setting reads = none := by
  unfold misreading
  cases hset : env (variableName setting) with
  | none => rfl
  | some value =>
    have hreads : reads value = true := by
      by_contra hnot
      exact hread value ⟨hset, _, hmem, rfl, eq_false_of_ne_true hnot⟩
    rw [Option.bind_some, if_pos hreads]

end Environment

namespace Settings

/-- The settings with another limit. -/
def withLimit (s : Settings) (n : Nat) : Settings := { s with run := { s.run with limit := n } }

variable {env : Environment} {text : String}

/-- A variable for the limit sets it and nothing else, or there are no settings. -/
theorem withEnvironment_of_limit {base settings : Settings}
    (hset : env "VALIDATE_FEED_LIMIT" = some text)
    (hothers : base.withEnvironment (env.without "VALIDATE_FEED_LIMIT") = .ok settings) :
    base.withEnvironment env =
      match readLimit text with
      | some n => .ok (settings.withLimit n)
      | none => .error (.environment "VALIDATE_FEED_LIMIT" text) := by
  rw [withEnvironment_eq] at hothers
  split at hothers
  · cases hothers
  · rename_i hnone
    cases hothers
    rw [withEnvironment_eq, Environment.firstMisreading_of_without hnone,
      Environment.misreading_limit hset]
    cases hlimit : readLimit text with
    | none => rfl
    | some n =>
      have hsaid := Environment.said_limit hset
      unfold settled withLimit
      simp (disch := decide) only [Environment.said_without, hsaid, hlimit]
      rfl

/-- With a limit that cannot be read there are no settings. -/
theorem withEnvironment_ne_ok {base settings : Settings}
    (hset : env "VALIDATE_FEED_LIMIT" = some text) (hread : readLimit text = none) :
    base.withEnvironment env ≠ .ok settings := by
  have hnone : (readLimit text).isSome = false := by
    rw [hread]
    rfl
  have hmisreads : env.Misreads "VALIDATE_FEED_LIMIT" text :=
    ⟨hset, _, List.mem_of_getElem? (i := 2) rfl, Environment.variableName_limit, hnone⟩
  obtain ⟨e, hfirst⟩ := Environment.exists_firstMisreading hmisreads
  rw [withEnvironment_eq, hfirst]
  exact nofun

/-- With a limit that cannot be read the error is that of the limit, unless it is that of a variable
that is read before. -/
theorem withEnvironment_of_misread_limit {base : Settings}
    (hset : env "VALIDATE_FEED_LIMIT" = some text) (hread : readLimit text = none)
    (htimeout : ∀ value, ¬env.Misreads "VALIDATE_FEED_TIMEOUT" value)
    (hretries : ∀ value, ¬env.Misreads "VALIDATE_FEED_RETRY_ATTEMPTS" value) :
    base.withEnvironment env = .error (.environment "VALIDATE_FEED_LIMIT" text) := by
  have hbefore : ∀ reading ∈ Environment.readings.take 2,
      env.misreading reading.1 reading.2 = none := by
    have hfirst : env.misreading "TIMEOUT" (fun text => (read64 text).isSome) = none :=
      Environment.misreading_eq_none_of_not_misreads (List.mem_of_getElem? (i := 0) rfl) htimeout
    have hsecond : env.misreading "RETRY_ATTEMPTS" (fun text => (read32 text).isSome) = none :=
      Environment.misreading_eq_none_of_not_misreads (List.mem_of_getElem? (i := 1) rfl) hretries
    exact List.forall_mem_cons.mpr ⟨hfirst, List.forall_mem_singleton.mpr hsecond⟩
  rw [withEnvironment_eq, Environment.firstMisreading_of_before hbefore,
    Environment.misreading_limit hset, hread]
  rfl

end Settings

/-! ## Both -/

/-- A text cannot be read as a limit exactly if it means none. -/
theorem readLimit_eq_none_iff {s : String} : readLimit s = none ↔ ¬∃ n, MeansLimit s n := by
  rw [Option.eq_none_iff_forall_ne_some, not_exists]
  simp only [ne_eq, readLimit_eq_some_iff]

/-- The command line and the environment read limits alike. The option for a limit is taken if and
only if its value means a limit, and then this is the one that is set; the same holds for the
variable, as long as all other variables can be read, and it changes no other setting. A text that
means none is refused by the command line, and from an environment it leaves no settings: unless one
of the two variables that are read before cannot be read either, the error names the variable and
the text. -/
theorem limits_alike (text : String) :
    (∀ (a : Arguments) (n : Nat), a.limit = none →
      (a.take .limit text = .ok { a with limit := some n } ↔ MeansLimit text n)) ∧
    (∀ n, Arguments.read ["--limit=" ++ text] = .ok { limit := some n } ↔ MeansLimit text n) ∧
    (∀ (base settings : Settings) (env : Environment) (n : Nat),
      env "VALIDATE_FEED_LIMIT" = some text →
      base.withEnvironment (env.without "VALIDATE_FEED_LIMIT") = .ok settings →
      (base.withEnvironment env = .ok (settings.withLimit n) ↔ MeansLimit text n)) ∧
    ((¬∃ n, MeansLimit text n) →
      Arguments.read ["--limit=" ++ text] = .error
        (.badValue .limit text ("expected a number or 'all', got '" ++ text ++ "'")) ∧
      ∀ (base : Settings) (env : Environment), env "VALIDATE_FEED_LIMIT" = some text →
        (∀ settings, base.withEnvironment env ≠ .ok settings) ∧
        ((∀ value, ¬env.Misreads "VALIDATE_FEED_TIMEOUT" value) →
          (∀ value, ¬env.Misreads "VALIDATE_FEED_RETRY_ATTEMPTS" value) →
          base.withEnvironment env = .error (.environment "VALIDATE_FEED_LIMIT" text))) := by
  have htake : ∀ (a : Arguments) (n : Nat), a.limit = none →
      (a.take .limit text = .ok { a with limit := some n } ↔ MeansLimit text n) := by
    intro a n ha
    rw [Arguments.take_limit ha, ← readLimit_eq_some_iff]
    cases readLimit text <;> simp
  refine ⟨htake, fun n => ?_, fun base settings env n hset hothers => ?_, fun hnone => ⟨?_, ?_⟩⟩
  · rw [Arguments.read_limit]
    exact htake {} n rfl
  · rw [Settings.withEnvironment_of_limit hset hothers, ← readLimit_eq_some_iff]
    cases readLimit text <;> simp [Settings.withLimit]
  · rw [Arguments.read_limit, Arguments.take_limit rfl, readLimit_eq_none_iff.mpr hnone]
  · intro base env hset
    have hread := readLimit_eq_none_iff.mpr hnone
    exact ⟨fun settings => Settings.withEnvironment_ne_ok hset hread,
      Settings.withEnvironment_of_misread_limit hset hread⟩

/-- Zeros in front do not count, and the first number that does not fit is refused. -/
example : readLimit "+0004294967295" = some 4294967295 ∧ readLimit "4294967296" = none ∧
    readLimit "aLL" = some 0 ∧ readLimit "+" = none := by decide +kernel

end FeedAudit

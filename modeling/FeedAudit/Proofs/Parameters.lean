import FeedAudit.Proofs.Masking
import FeedAudit.Proofs.Storage
import FeedAudit.Settings.Validity
import Mathlib.Data.List.TakeWhile

/-!
# What an address asks for

A server takes the parameters of an address from what stands behind its first question mark, up to
a number sign: they stand between ampersands, each one with its value behind its first equals sign,
and percent signs with two hexadecimal digits behind them stand for bytes. A key and the name of a
channel stand in the address as they are. They are read back exactly if they have none of these
signs (`Plain`). Main statement: `parametersOf_feedUrl`.

Nothing keeps the name of a channel from having such signs: it may ask for a limit
(`accepted_name_asks_limit`).
-/

namespace FeedAudit

open Text

namespace Query

/-! ## Percent signs -/

/-- The byte that two hexadecimal digits stand for. -/
def hexByte? (high low : Char) : Option UInt8 := do
  return UInt8.ofNat ((← hexValue? high) * 16 + (← hexValue? low))

/-- The bytes of characters. A percent sign with two hexadecimal digits behind it stands for a byte,
all other characters stand for themselves. -/
def unescape : List Char → List UInt8
  | [] => []
  | '%' :: high :: low :: rest =>
    match hexByte? high low with
    | some b => b :: unescape rest
    | none => String.utf8EncodeChar '%' ++ unescape (high :: low :: rest)
  | c :: rest => String.utf8EncodeChar c ++ unescape rest

/-- The bytes of characters all of which stand for themselves. -/
def bytesOf (cs : List Char) : List UInt8 := cs.flatMap String.utf8EncodeChar

/-- No percent sign has two hexadecimal digits behind it. -/
def Unescaped (cs : List Char) : Prop :=
  ∀ high low, ['%', high, low] <:+: cs → hexByte? high low = none

@[simp] theorem bytesOf_nil : bytesOf [] = [] := rfl

@[simp] theorem bytesOf_cons (c : Char) (rest : List Char) :
    bytesOf (c :: rest) = String.utf8EncodeChar c ++ bytesOf rest := rfl

/-- The bytes of two texts, one after the other. -/
theorem bytesOf_append (cs ds : List Char) : bytesOf (cs ++ ds) = bytesOf cs ++ bytesOf ds :=
  List.flatMap_append

/-- Every character has a byte at least. -/
theorem length_pos_utf8EncodeChar (c : Char) : 0 < (String.utf8EncodeChar c).length := by
  rw [String.length_utf8EncodeChar]
  exact c.utf8Size_pos

/-- A text is free of escapes exactly if none starts at its first character and the rest is free of
them. -/
theorem unescaped_cons {c : Char} {rest : List Char} :
    Unescaped (c :: rest) ↔
      (∀ high low, ['%', high, low] <+: c :: rest → hexByte? high low = none) ∧
        Unescaped rest := by
  unfold Unescaped
  simp only [List.infix_cons_iff, or_imp, forall_and]

/-- Characters stand for no more bytes than they have. -/
theorem length_unescape_le (cs : List Char) : (unescape cs).length ≤ (bytesOf cs).length := by
  induction cs using unescape.induct with
  | case1 => exact Nat.le_refl _
  | case2 high low rest b hbyte ih =>
    have hhigh := length_pos_utf8EncodeChar high
    rw [unescape, hbyte]
    simp only [bytesOf_cons, List.length_cons, List.length_append]
    omega
  | case3 high low rest hbyte ih =>
    rw [unescape, hbyte, bytesOf_cons, List.length_append, List.length_append]
    exact Nat.add_le_add_left ih _
  | case4 c rest hplain ih =>
    rw [unescape, bytesOf_cons, List.length_append, List.length_append]
    · exact Nat.add_le_add_left ih _
    · exact hplain

/-- All characters stand for themselves exactly if no percent sign stands before two digits. -/
theorem unescape_eq_bytesOf_iff {cs : List Char} : unescape cs = bytesOf cs ↔ Unescaped cs := by
  induction cs using unescape.induct with
  | case1 => simp [unescape, Unescaped]
  | case2 high low rest b hbyte ih =>
    have hfree : ¬Unescaped ('%' :: high :: low :: rest) := fun hnone => by
      have hfirst := hnone high low ⟨[], rest, rfl⟩
      rw [hbyte] at hfirst
      cases hfirst
    refine iff_of_false (fun heq => ?_) hfree
    -- A byte is put in place of three characters.
    have hlength := congrArg List.length heq
    have hrest := length_unescape_le rest
    have hhigh := length_pos_utf8EncodeChar high
    have hlow := length_pos_utf8EncodeChar low
    have hsign := length_pos_utf8EncodeChar '%'
    rw [unescape, hbyte] at hlength
    simp only [bytesOf_cons, List.length_cons, List.length_append] at hlength
    omega
  | case3 high low rest hbyte ih =>
    have hfirst : ∀ h l, ['%', h, l] <+: '%' :: high :: low :: rest → hexByte? h l = none := by
      rintro h l ⟨tail, heq⟩
      cases heq
      exact hbyte
    rw [unescape, hbyte, bytesOf_cons, unescaped_cons, ← ih, and_iff_right hfirst]
    exact List.append_right_inj _
  | case4 c rest hplain ih =>
    have hfirst : ∀ h l, ['%', h, l] <+: c :: rest → hexByte? h l = none := by
      rintro h l ⟨tail, heq⟩
      obtain ⟨hc, hrest⟩ := List.cons.inj heq
      exact absurd hrest.symm (hplain h l tail hc.symm)
    rw [unescape, bytesOf_cons, unescaped_cons, ← ih, and_iff_right hfirst]
    · exact List.append_right_inj _
    · exact hplain

/-- The text that is meant by percent-encoded characters, unless their bytes are none. -/
def decode (s : String) : Option String := String.fromUTF8? (unescape s.toList).toByteArray

/-- The bytes of a text are those of its characters. -/
theorem toByteArray_eq (s : String) : s.toByteArray = (bytesOf s.toList).toByteArray := by
  rw [← String.utf8Encode_toList]
  rfl

/-- A text is decoded to exactly the text of its bytes behind the escapes. -/
theorem decode_eq_some_iff {s t : String} :
    decode s = some t ↔ unescape s.toList = bytesOf t.toList := by
  rw [← List.toByteArray_inj, ← toByteArray_eq, decode]
  constructor
  · intro hsome
    rw [String.fromUTF8?] at hsome
    split at hsome
    · rw [← Option.some.inj hsome]
      rfl
    · cases hsome
  · intro heq
    rw [heq]
    exact FileSystem.fromUTF8?_toUTF8 t

/-- A text is decoded to itself exactly if it is free of escapes. -/
theorem decode_eq_self_iff {s : String} : decode s = some s ↔ Unescaped s.toList := by
  rw [decode_eq_some_iff, unescape_eq_bytesOf_iff]

/-- Nothing of a text is missing where a first part of it is read as the whole. -/
theorem eq_of_decode_eq_some {s t : String} (hpart : s.toList <+: t.toList)
    (hdecode : decode s = some t) : s = t := by
  obtain ⟨missing, hwhole⟩ := hpart
  have hlength := congrArg List.length (decode_eq_some_iff.mp hdecode)
  have hle := length_unescape_le s.toList
  rw [← hwhole, bytesOf_append, List.length_append] at hlength
  have hnone : missing = [] := by
    cases missing with
    | nil => rfl
    | cons c rest =>
      have hc := length_pos_utf8EncodeChar c
      rw [bytesOf_cons, List.length_append] at hlength
      omega
  rw [hnone, List.append_nil] at hwhole
  exact String.toList_inj.mp hwhole

/-! ## Parameters -/

/-- The text before the first separator, or all of it. -/
def beforeFirst (sep : Char) (s : String) : String := String.ofList (s.toList.takeWhile (· != sep))

/-- The name and the value of a parameter. -/
def readPair (pair : String) : Option (String × String) :=
  match splitFirst '=' pair with
  | some (name, value) => do return (← decode name, ← decode value)
  | none => do return (← decode pair, "")

/-- The parameters of a query, with what stands behind a number sign left out. -/
def read (query : String) : Option (List (String × String)) :=
  (pieces '&' (beforeFirst '#' query)).mapM readPair

/-- A value is read as it is written. -/
structure Plain (value : String) : Prop where
  no_ampersand : '&' ∉ value.toList
  no_mark : '#' ∉ value.toList
  unescaped : Unescaped value.toList

/-- A part without the separator stands before the first one. -/
theorem beforeFirst_append {sep : Char} {front : String} (hfront : sep ∉ front.toList)
    (rest : String) : beforeFirst sep (front ++ rest) = front ++ beforeFirst sep rest := by
  have hall : ∀ c ∈ front.toList, (c != sep) = true := fun c hc =>
    bne_iff_ne.mpr fun heq => hfront (heq ▸ hc)
  rw [beforeFirst, String.toList_append, List.takeWhile_append_of_pos hall, String.ofList_append,
    String.ofList_toList, beforeFirst]

/-- All of a text without the separator stands before it. -/
theorem beforeFirst_of_not_mem {sep : Char} {s : String} (hs : sep ∉ s.toList) :
    beforeFirst sep s = s := by
  have hnone : beforeFirst sep "" = "" := rfl
  have hall := beforeFirst_append hs ""
  rwa [hnone, String.append_empty] at hall

/-- What stands before the first separator is the start of the text. -/
theorem toList_beforeFirst_isPrefix (sep : Char) (s : String) :
    (beforeFirst sep s).toList <+: s.toList := by
  rw [beforeFirst, String.toList_ofList]
  exact List.takeWhile_prefix _

/-- There is no separator before the first one. -/
theorem not_mem_beforeFirst (sep : Char) (s : String) : sep ∉ (beforeFirst sep s).toList := by
  rw [beforeFirst, String.toList_ofList]
  intro hmem
  have hne := List.mem_takeWhile_imp hmem
  exact bne_iff_ne.mp hne rfl

/-- The first piece of a text ends before its first separator. -/
theorem pieces_eq_cons (sep : Char) (s : String) :
    pieces sep s = beforeFirst sep s :: (pieces sep s).tail := by
  have hchars : ∀ cs, pieceChars sep cs =
      cs.takeWhile (· != sep) :: (pieceChars sep cs).tail := by
    intro cs
    induction cs with
    | nil => rfl
    | cons c rest ih =>
      by_cases hc : c = sep
      · rw [pieceChars, if_pos hc, List.takeWhile_cons_of_neg (by simpa using hc)]
        rfl
      · rw [pieceChars, if_neg hc, List.takeWhile_cons_of_pos (by simpa using hc), ih]
        rfl
  unfold pieces beforeFirst
  rw [hchars, List.map_cons]
  rfl

/-- Names and values are read one by one. -/
theorem readPair_append {name : String} (hname : '=' ∉ name.toList) (hplain : Unescaped name.toList)
    (value : String) :
    readPair (name ++ "=" ++ value) = (decode value).map fun read => (name, read) := by
  have hsign : "=" = String.singleton '=' := rfl
  rw [readPair, hsign, splitFirst_append hname]
  dsimp only
  rw [decode_eq_self_iff.mpr hplain]
  cases decode value with
  | none => rfl
  | some read => rfl

/-- What ends before an ampersand is part of what stands before it. -/
theorem prefix_of_prefix_append {front value rest : List Char} (hfront : '&' ∉ front)
    (hpart : front <+: value ++ '&' :: rest) : front <+: value := by
  have hvalue : value ++ ['&'] <+: value ++ '&' :: rest := ⟨rest, by simp⟩
  rcases List.prefix_or_prefix_of_prefix hpart hvalue with hshort | hlong
  · rcases List.prefix_concat_iff.mp hshort with heq | hshort
    · exact absurd (heq ▸ List.mem_concat_self) hfront
    · exact hshort
  · exact absurd (hlong.subset List.mem_concat_self) hfront

/-- The name of a parameter has none of the signs that are looked for. -/
structure PlainName (name : String) : Prop extends Plain name where
  no_equals : '=' ∉ name.toList

/-- The value of a parameter in front of a query is read from what stands before the next number
sign and the next ampersand. -/
theorem decode_of_read {name text value : String} {others : List (String × String)}
    (hname : PlainName name) (hread : read (name ++ "=" ++ text) = some ((name, value) :: others)) :
    decode (beforeFirst '&' (beforeFirst '#' text)) = some value := by
  have hmark : '#' ∉ (name ++ "=").toList := by
    simp [hname.no_mark]
  have hand : '&' ∉ (name ++ "=").toList := by
    simp [hname.no_ampersand]
  rw [read, beforeFirst_append hmark, pieces_eq_cons, beforeFirst_append hand, List.mapM_cons,
    readPair_append hname.no_equals hname.unescaped] at hread
  obtain ⟨pair, hpair, hothers⟩ := Option.bind_eq_some_iff.mp hread
  obtain ⟨v, hv, rfl⟩ := Option.map_eq_some_iff.mp hpair
  obtain ⟨rest, -, hrest⟩ := Option.bind_eq_some_iff.mp hothers
  cases hrest
  exact hv

/-- If a parameter in front of a query is read as it is written, its value is plain. -/
theorem plain_of_read {name value tail : String} {others : List (String × String)}
    (hname : PlainName name) (htail : tail = "" ∨ ∃ rest, tail = "&" ++ rest)
    (hread : read (name ++ "=" ++ (value ++ tail)) = some ((name, value) :: others)) :
    Plain value := by
  have hdecode := decode_of_read hname hread
  have hand := not_mem_beforeFirst '&' (beforeFirst '#' (value ++ tail))
  have hmark : '#' ∉ (beforeFirst '&' (beforeFirst '#' (value ++ tail))).toList := fun hmem =>
    not_mem_beforeFirst '#' (value ++ tail) ((toList_beforeFirst_isPrefix '&' _).subset hmem)
  have hpart := (toList_beforeFirst_isPrefix '&' (beforeFirst '#' (value ++ tail))).trans
    (toList_beforeFirst_isPrefix '#' (value ++ tail))
  have hvalue : (beforeFirst '&' (beforeFirst '#' (value ++ tail))).toList <+: value.toList := by
    rw [String.toList_append] at hpart
    rcases htail with rfl | ⟨rest, rfl⟩
    · rwa [String.toList_empty, List.append_nil] at hpart
    · rw [String.toList_append] at hpart
      exact prefix_of_prefix_append hand hpart
  have hall := eq_of_decode_eq_some hvalue hdecode
  rw [hall] at hand hmark hdecode
  exact ⟨hand, hmark, decode_eq_self_iff.mp hdecode⟩

/-- A plain name and a plain value are read back. -/
theorem read_of_plain {name value : String} (hname : PlainName name) (hvalue : Plain value) :
    read (name ++ "=" ++ value) = some [(name, value)] := by
  have hmark : '#' ∉ (name ++ "=" ++ value).toList := by
    simp [hname.no_mark, hvalue.no_mark]
  have hand : '&' ∉ (name ++ "=" ++ value).toList := by
    simp [hname.no_ampersand, hvalue.no_ampersand]
  rw [read, beforeFirst_of_not_mem hmark, pieces_of_not_mem hand, List.mapM_cons,
    readPair_append hname.no_equals hname.unescaped, decode_eq_self_iff.mpr hvalue.unescaped]
  rfl

/-- A plain name and a plain value are read back before the other parameters. -/
theorem read_append_of_plain {name value : String} (hname : PlainName name) (hvalue : Plain value)
    (rest : String) :
    read (name ++ "=" ++ (value ++ ("&" ++ rest))) = (read rest).map ((name, value) :: ·) := by
  have hmark : '#' ∉ (name ++ "=" ++ value ++ "&").toList := by
    simp [hname.no_mark, hvalue.no_mark]
  have hand : '&' ∉ (name ++ "=" ++ value).toList := by
    simp [hname.no_ampersand, hvalue.no_ampersand]
  have hparts : name ++ "=" ++ (value ++ ("&" ++ rest)) = name ++ "=" ++ value ++ "&" ++ rest := by
    simp only [String.append_assoc]
  have hsign : "&" = String.singleton '&' := rfl
  rw [read, hparts, beforeFirst_append hmark, hsign, pieces_append, pieces_of_not_mem hand,
    List.singleton_append, List.mapM_cons, readPair_append hname.no_equals hname.unescaped,
    decode_eq_self_iff.mpr hvalue.unescaped, read]
  cases (pieces '&' (beforeFirst '#' rest)).mapM readPair with
  | none => rfl
  | some others => rfl

/-- A value behind a plain name is read back, alone, exactly if it is plain. -/
theorem read_eq_singleton_iff {name value : String} (hname : PlainName name) :
    read (name ++ "=" ++ value) = some [(name, value)] ↔ Plain value := by
  refine ⟨fun hread => ?_, read_of_plain hname⟩
  have htext : value ++ "" = value := String.append_empty
  have hall : read (name ++ "=" ++ (value ++ "")) = some [(name, value)] := by
    rw [htext]
    exact hread
  exact plain_of_read hname (Or.inl rfl) hall

/-- A value behind a plain name is read back, before others, exactly if it is plain. -/
theorem read_eq_cons_iff {name value rest : String} {others : List (String × String)}
    (hname : PlainName name) :
    read (name ++ "=" ++ (value ++ ("&" ++ rest))) = some ((name, value) :: others) ↔
      Plain value ∧ read rest = some others := by
  constructor
  · intro hread
    have hvalue := plain_of_read hname (Or.inr ⟨rest, rfl⟩) hread
    rw [read_append_of_plain hname hvalue] at hread
    obtain ⟨found, hfound, heq⟩ := Option.map_eq_some_iff.mp hread
    exact ⟨hvalue, hfound.trans (congrArg some (List.cons.inj heq).2)⟩
  · rintro ⟨hvalue, hrest⟩
    rw [read_append_of_plain hname hvalue, hrest]
    rfl

/-- A value without any of the signs is plain. -/
theorem plain_of_no_signs {value : String} (hand : '&' ∉ value.toList) (hmark : '#' ∉ value.toList)
    (hpercent : '%' ∉ value.toList) : Plain value where
  no_ampersand := hand
  no_mark := hmark
  unescaped := fun _ _ hsign => absurd (hsign.subset List.mem_cons_self) hpercent

/-- Numbers are read as they are written. -/
theorem plain_repr (n : Nat) : Plain n.repr :=
  plain_of_no_signs (not_mem_repr rfl n) (not_mem_repr rfl n) (not_mem_repr rfl n)

end Query

/-! ## Addresses -/

/-- The parameters of an address: what stands behind its first question mark is read as a query. -/
def parametersOf (url : String) : Option (List (String × String)) :=
  match splitFirst '?' url with
  | some (_, query) => Query.read query
  | none => some []

/-- The parameters that are meant: no limit is none. -/
def asked (key channel : String) (limit : Nat) : List (String × String) :=
  ("api_key", key) :: ("channel", channel) ::
    if 0 < limit then [("limit", toString limit)] else []

/-- The parameters of the address of a feed are those behind its question mark. -/
theorem parametersOf_feedUrl_eq {domain : String} (hdomain : '?' ∉ domain.toList)
    (key channel : String) (limit : Nat) :
    parametersOf (feedUrl domain key channel limit) =
      Query.read ("api_key" ++ "=" ++ (key ++ ("&" ++ otherParameters channel limit))) := by
  have hname : "api_key=" = "api_key" ++ "=" := by decide
  have hquery : "api_key=" ++ key ++ "&" ++ otherParameters channel limit =
      "api_key" ++ "=" ++ (key ++ ("&" ++ otherParameters channel limit)) := by
    rw [hname]
    simp only [String.append_assoc]
  rw [parametersOf, splitFirst_feedUrl hdomain, hquery]

/-- Without a limit, only the channel is asked for. -/
theorem otherParameters_zero (channel : String) :
    otherParameters channel 0 = "channel" ++ "=" ++ channel := by
  have hname : "channel=" = "channel" ++ "=" := by decide
  have htext : ∀ s : String, toString s = s := fun _ => rfl
  rw [otherParameters, if_neg (Nat.lt_irrefl 0), hname]
  simp only [htext, String.append_empty]

/-- A limit is asked for behind the channel. -/
theorem otherParameters_of_pos (channel : String) {limit : Nat} (hlimit : 0 < limit) :
    otherParameters channel limit =
      "channel" ++ "=" ++ (channel ++ ("&" ++ ("limit" ++ "=" ++ limit.repr))) := by
  have hname : "channel=" = "channel" ++ "=" := by decide
  have hnext : "&limit=" = "&" ++ ("limit" ++ "=") := by decide
  have htext : ∀ s : String, toString s = s := fun _ => rfl
  have hnumber : toString limit = limit.repr := rfl
  rw [otherParameters, if_pos hlimit, hname, hnext, hnumber]
  simp only [htext, String.append_assoc]

/-- The parameters behind the key are read back exactly if the name of the channel is plain. -/
theorem read_otherParameters_iff {channel : String} {limit : Nat} :
    Query.read (otherParameters channel limit) =
      some (("channel", channel) :: if 0 < limit then [("limit", toString limit)] else []) ↔
      Query.Plain channel := by
  have hchannel : Query.PlainName "channel" :=
    ⟨Query.plain_of_no_signs (by decide) (by decide) (by decide), by decide⟩
  rcases Nat.eq_zero_or_pos limit with rfl | hlimit
  · rw [otherParameters_zero, if_neg (Nat.lt_irrefl 0), Query.read_eq_singleton_iff hchannel]
  · have hname : Query.PlainName "limit" :=
      ⟨Query.plain_of_no_signs (by decide) (by decide) (by decide), by decide⟩
    rw [otherParameters_of_pos channel hlimit, if_pos hlimit, Query.read_eq_cons_iff hchannel]
    exact and_iff_left (Query.read_of_plain hname (Query.plain_repr limit))

/-- Key, channel and limit are read back from the address exactly if key and channel are plain. -/
theorem parametersOf_feedUrl_iff {domain : String} (hdomain : '?' ∉ domain.toList)
    {key channel : String} {limit : Nat} :
    parametersOf (feedUrl domain key channel limit) = some (asked key channel limit) ↔
      Query.Plain key ∧ Query.Plain channel := by
  have hkey : Query.PlainName "api_key" :=
    ⟨Query.plain_of_no_signs (by decide) (by decide) (by decide), by decide⟩
  rw [parametersOf_feedUrl_eq hdomain, asked, Query.read_eq_cons_iff hkey, read_otherParameters_iff]

/-- The parameters behind the key as they are cut. -/
theorem pieces_otherParameters {channel : String} (hchannel : '&' ∉ channel.toList) (limit : Nat) :
    pieces '&' (otherParameters channel limit) =
      ("channel" ++ "=" ++ channel) ::
        if 0 < limit then ["limit" ++ "=" ++ limit.repr] else [] := by
  have hfirst : '&' ∉ ("channel" ++ "=" ++ channel).toList := by
    simp [hchannel]
  rcases Nat.eq_zero_or_pos limit with rfl | hlimit
  · rw [otherParameters_zero, pieces_of_not_mem hfirst, if_neg (Nat.lt_irrefl 0)]
  · have hnumber : '&' ∉ limit.repr.toList := not_mem_repr (by decide) limit
    have hlast : '&' ∉ ("limit" ++ "=" ++ limit.repr).toList := by
      rw [String.toList_append, List.mem_append, not_or]
      exact ⟨by decide, hnumber⟩
    have hsign : "&" = String.singleton '&' := rfl
    rw [otherParameters_of_pos channel hlimit, ← String.append_assoc, ← String.append_assoc, hsign,
      pieces_append, pieces_of_not_mem hfirst, pieces_of_not_mem hlast, if_pos hlimit,
      List.singleton_append]

/-- The last piece tells whether there is a limit. -/
theorem append_channel_ne_append_limit (early early' : List String) (channel channel' : String)
    (limit : Nat) :
    early ++ ["channel" ++ "=" ++ channel] ≠
      early' ++ ["channel" ++ "=" ++ channel', "limit" ++ "=" ++ limit.repr] := by
  intro heq
  have hlast := congrArg List.getLast? heq
  simp only [List.getLast?_append, List.getLast?_cons_cons, List.getLast?_singleton,
    Option.some_or, Option.some_inj] at hlast
  have hfirst := congrArg (fun s => s.toList.head?) hlast
  simp at hfirst

/-- From an address it is known what is asked for, if the names of channels have no ampersands. -/
theorem feedUrl_inj {domain key key' channel channel' : String} {limit limit' : Nat}
    (hchannel : '&' ∉ channel.toList) (hchannel' : '&' ∉ channel'.toList)
    (heq : feedUrl domain key channel limit = feedUrl domain key' channel' limit') :
    key = key' ∧ channel = channel' ∧ limit = limit' := by
  rw [feedUrl_eq, feedUrl_eq] at heq
  have hquery := congrArg (pieces '&') ((String.append_right_inj _).mp heq)
  have hsign : "&" = String.singleton '&' := rfl
  rw [hsign, pieces_append, pieces_append, pieces_otherParameters hchannel,
    pieces_otherParameters hchannel'] at hquery
  have hkeys : pieces '&' ("api_key=" ++ key) = pieces '&' ("api_key=" ++ key') → key = key' :=
    fun hpieces => (String.append_right_inj _).mp (pieces_inj hpieces)
  rcases Nat.eq_zero_or_pos limit with rfl | hlimit <;>
    rcases Nat.eq_zero_or_pos limit' with rfl | hlimit'
  · obtain ⟨hkey, hothers⟩ := List.append_inj' hquery rfl
    have hname := (List.cons.inj hothers).1
    exact ⟨hkeys hkey, (String.append_right_inj _).mp hname, rfl⟩
  · rw [if_neg (Nat.lt_irrefl 0), if_pos hlimit'] at hquery
    exact absurd hquery (append_channel_ne_append_limit _ _ _ _ _)
  · rw [if_neg (Nat.lt_irrefl 0), if_pos hlimit] at hquery
    exact absurd hquery.symm (append_channel_ne_append_limit _ _ _ _ _)
  · rw [if_pos hlimit, if_pos hlimit'] at hquery
    obtain ⟨hkey, hothers⟩ := List.append_inj' hquery rfl
    obtain ⟨hname, hlast⟩ := List.cons.inj hothers
    have hnumber := (String.append_right_inj _).mp (List.cons.inj hlast).1
    exact ⟨hkeys hkey, (String.append_right_inj _).mp hname, eq_of_repr_eq hnumber⟩

/-- What an address asks for. The parameters that are meant are read back from the address of a
domain without question marks exactly if the key and the name of the channel are plain. If only the
names of channels have no ampersands, whatever the keys, different parameters have different
addresses. -/
theorem parametersOf_feedUrl {domain : String} (hdomain : '?' ∉ domain.toList)
    (key channel : String) (limit : Nat) :
    (parametersOf (feedUrl domain key channel limit) = some (asked key channel limit) ↔
      Query.Plain key ∧ Query.Plain channel) ∧
    ∀ key' channel' limit', '&' ∉ channel.toList → '&' ∉ channel'.toList →
      (key, channel, limit) ≠ (key', channel', limit') →
      feedUrl domain key channel limit ≠ feedUrl domain key' channel' limit' := by
  refine ⟨parametersOf_feedUrl_iff hdomain, ?_⟩
  intro key' channel' limit' hchannel hchannel' hne heq
  obtain ⟨rfl, rfl, rfl⟩ := feedUrl_inj hchannel hchannel' heq
  exact hne rfl

/-- A plain key and a plain name are read back, and a limit makes the address another one. -/
theorem parametersOf_feedUrl_movie :
    '?' ∉ "example.com".toList ∧
      parametersOf (feedUrl "example.com" "k3y" "movie" 25) = some (asked "k3y" "movie" 25) ∧
      feedUrl "example.com" "k3y" "movie" 25 ≠ feedUrl "example.com" "k3y" "movie" 0 := by
  have hdomain : '?' ∉ "example.com".toList := by decide
  have hkey : Query.Plain "k3y" := Query.plain_of_no_signs (by decide) (by decide) (by decide)
  have hchannel : Query.Plain "movie" :=
    Query.plain_of_no_signs (by decide) (by decide) (by decide)
  obtain ⟨hread, hapart⟩ := parametersOf_feedUrl hdomain "k3y" "movie" 25
  exact ⟨hdomain, hread.mpr ⟨hkey, hchannel⟩,
    hapart "k3y" "movie" 0 hchannel.no_ampersand hchannel.no_ampersand (by decide)⟩

/-- Settings with a channel whose name has an ampersand. -/
def limitingSettings : Settings :=
  { source := { domain := some "example.com", apiKey := some "k3y" }
    channels := [⟨"movie", "movie.json"⟩, ⟨"movie&limit=5", "movie.json"⟩] }

/-- Settings are accepted with two channels, one of which has the address that the other one has
with a limit: although it has none, a limit is read back. -/
theorem accepted_name_asks_limit :
    limitingSettings.validate = .ok () ∧
      limitingSettings.channelNames = ["movie", "movie&limit=5"] ∧
      feedUrl "example.com" "k3y" "movie&limit=5" 0 = feedUrl "example.com" "k3y" "movie" 5 ∧
      parametersOf (feedUrl "example.com" "k3y" "movie&limit=5" 0) =
        some [("api_key", "k3y"), ("channel", "movie"), ("limit", "5")] := by
  refine ⟨?_, rfl, by decide +kernel, by decide +kernel⟩
  have hnone : limitingSettings.objection? = none := by decide +kernel
  rw [Settings.validate, hnone]

end FeedAudit

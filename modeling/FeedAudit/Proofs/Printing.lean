import FeedAudit.Json.Printer
import Mathlib.Data.List.Basic

/-!
# Printed trees read back

Printing is undone by reading, in two stages. The characters of tokens are cut into these tokens
again (`tokens_print`), and the tokens of a well-formed tree are put together to this tree
(`Document.run_tokens`). The second stage does not depend on how tokens are written, so it also
covers texts with blanks between the tokens or with other escapes in the strings.
-/

namespace FeedAudit.Json

/-! ## Induction over trees -/

/-- The trees directly below a tree. -/
def Tree.parts : Tree → List Tree
  | .array items _ => items
  | .object members _ => members.map (·.2)
  | _ => []

/-- A property of trees holds of all of them if it passes from the parts of a tree to the tree. -/
theorem Tree.parts_induction {P : Tree → Prop}
    (step : ∀ t : Tree, (∀ part ∈ t.parts, P part) → P t) (t : Tree) : P t := by
  refine @Tree.rec P (fun items => ∀ item ∈ items, P item)
    (fun members => ∀ member ∈ members, P member.2) (fun member => P member.2)
    ?_ ?_ ?_ ?_ ?_ ?_ ?_ ?_ ?_ ?_ ?_ ?_ t
  · exact step _ nofun
  · intro b
    exact step _ nofun
  · intro a
    exact step _ nofun
  · intro text
    exact step _ nofun
  · intro items closed hitems
    exact step _ hitems
  · intro members closed hmembers
    refine step _ fun part hpart => ?_
    obtain ⟨member, hmember, rfl⟩ := List.mem_map.mp hpart
    exact hmembers member hmember
  · exact step _ nofun
  · exact nofun
  · intro first rest hfirst hrest item hitem
    rcases List.mem_cons.mp hitem with rfl | hin
    · exact hfirst
    · exact hrest item hin
  · exact nofun
  · intro first rest hfirst hrest member hmember
    rcases List.mem_cons.mp hmember with rfl | hin
    · exact hfirst
    · exact hrest member hin
  · intro key t ht
    exact ht

/-- Items are well-formed if each of them is. -/
theorem Tree.wellFormedItems_iff {items : List Tree} :
    Tree.wellFormedItems items ↔ ∀ t ∈ items, t.wellFormed := by
  induction items with
  | nil => simp [Tree.wellFormedItems]
  | cons t rest ih => simp [Tree.wellFormedItems, ih]

/-- Members are well-formed if the value of each is. -/
theorem Tree.wellFormedMembers_iff {members : List (Option String × Tree)} :
    Tree.wellFormedMembers members ↔ ∀ m ∈ members, m.2.wellFormed := by
  induction members with
  | nil => simp [Tree.wellFormedMembers]
  | cons m rest ih => simp [Tree.wellFormedMembers, ih]

/-! ## Trees from their tokens -/

namespace Reading

variable {stack : List Frame} {ts : List Token}

/-- A token that may come next is read before the others. -/
theorem run_of_step {reading next : Reading} {token : Token}
    (hstep : reading.step token = some next) : reading.run (token :: ts) = next.run ts := by
  rw [run, hstep]

/-- Reading is left off at a token that may not come next. -/
theorem run_of_step_none {reading : Reading} {token : Token} (hstep : reading.step token = none) :
    reading.run (token :: ts) = reading.abandon := by
  rw [run, hstep]

/-- Where the first item of a list is awaited, a value is read as any other item is. -/
theorem run_firstItem {t : Tree} (hformed : t.wellFormed) :
    (firstItem stack).run (t.tokens ++ ts) = (value (.array [] :: stack)).run (t.tokens ++ ts) := by
  cases t with
  | broken => cases hformed
  | _ =>
    rw [Tree.tokens]
    exact (run_of_step rfl).trans (run_of_step rfl).symm

/-- A value that is read whole from its tokens, whatever stands around it. -/
def ReadsBack (t : Tree) : Prop :=
  ∀ stack ts, (value stack).run (t.tokens ++ ts) = (ended t stack).run ts

/-- The items of a list are read back to its end, behind those that were read before. -/
theorem run_items {items : List Tree} (hitems : ∀ t ∈ items, ReadsBack t) (last : Tree)
    (before : List Tree) :
    (ended last (.array before :: stack)).run
        (Tree.tokensOfItems false items ++ .closeArray :: ts) =
      (ended (.array ((last :: before).reverse ++ items) true) stack).run ts := by
  induction items generalizing last before with
  | nil => rw [Tree.tokensOfItems, List.nil_append, run_of_step rfl, List.append_nil]
  | cons t rest ih =>
    have ht := hitems t List.mem_cons_self (.array (last :: before) :: stack)
    have hrest := ih (fun u hu => hitems u (List.mem_cons_of_mem t hu)) t (last :: before)
    rw [Tree.tokensOfItems, if_neg Bool.false_ne_true, List.append_assoc, List.append_assoc,
      List.singleton_append, run_of_step rfl, ht, hrest, List.reverse_cons, List.append_assoc,
      List.singleton_append]

/-- The members of a record are read back to its end, behind those that were read before. -/
theorem run_members {members : List (Option String × Tree)}
    (hmembers : ∀ m ∈ members, ReadsBack m.2) (key : Option String) (last : Tree)
    (before : List (Option String × Tree)) :
    (ended last (.object before key :: stack)).run
        (Tree.tokensOfMembers false members ++ .closeObject :: ts) =
      (ended (.object (((key, last) :: before).reverse ++ members) true) stack).run ts := by
  induction members generalizing key last before with
  | nil => rw [Tree.tokensOfMembers, List.nil_append, run_of_step rfl, List.append_nil]
  | cons m rest ih =>
    obtain ⟨name, t⟩ := m
    have ht := hmembers (name, t) List.mem_cons_self (.object ((key, last) :: before) name :: stack)
    have hrest := ih (fun u hu => hmembers u (List.mem_cons_of_mem _ hu)) name t
      ((key, last) :: before)
    rw [Tree.tokensOfMembers, if_neg Bool.false_ne_true, List.append_assoc, List.append_assoc,
      List.singleton_append, run_of_step rfl, List.cons_append, run_of_step rfl,
      List.cons_append, run_of_step rfl, ht, hrest, List.reverse_cons, List.append_assoc,
      List.singleton_append]

/-- The tokens of a well-formed tree are read as this tree. -/
theorem run_tokens {t : Tree} (hformed : t.wellFormed) : ReadsBack t := by
  induction t using Tree.parts_induction with
  | step t ih =>
    intro stack ts
    -- The first item is read from another state than the others, and so is the first member.
    cases t with
    | broken => cases hformed
    | array items closed =>
      rw [Tree.wellFormed, Bool.and_eq_true, Tree.wellFormedItems_iff] at hformed
      obtain ⟨hitems, rfl⟩ := hformed
      have hread : ∀ item ∈ items, ReadsBack item :=
        fun item hitem => ih item hitem (hitems item hitem)
      rw [Tree.tokens, if_pos rfl, List.cons_append, List.cons_append, run_of_step rfl,
        List.append_assoc, List.singleton_append]
      cases items with
      | nil => exact run_of_step rfl
      | cons first rest =>
        have hfirst := hread first List.mem_cons_self (.array [] :: stack)
        rw [Tree.tokensOfItems, if_pos rfl, List.nil_append, List.append_assoc,
          run_firstItem (hitems first List.mem_cons_self), hfirst,
          run_items fun item hitem => hread item (List.mem_cons_of_mem _ hitem)]
        rfl
    | object members closed =>
      rw [Tree.wellFormed, Bool.and_eq_true, Tree.wellFormedMembers_iff] at hformed
      obtain ⟨hmembers, rfl⟩ := hformed
      have hread : ∀ m ∈ members, ReadsBack m.2 := fun m hm =>
        ih m.2 (List.mem_map_of_mem hm) (hmembers m hm)
      rw [Tree.tokens, if_pos rfl, List.cons_append, List.cons_append, run_of_step rfl,
        List.append_assoc, List.singleton_append]
      cases members with
      | nil => exact run_of_step rfl
      | cons first rest =>
        obtain ⟨key, t⟩ := first
        have hfirst := hread (key, t) List.mem_cons_self (.object [] key :: stack)
        rw [Tree.tokensOfMembers, if_pos rfl, List.nil_append, List.append_assoc,
          List.cons_append, run_of_step rfl, List.cons_append, run_of_step rfl, hfirst,
          run_members fun m hm => hread m (List.mem_cons_of_mem _ hm)]
        rfl
    | _ => exact run_of_step rfl

end Reading

/-- A text whose tokens are those of a well-formed tree is read as this tree, to its end. -/
theorem Document.read_of_tokens {t : Tree} (hformed : t.wellFormed) {s : String}
    (htokens : FeedAudit.Json.tokens s.toList = t.tokens) : Document.read s = ⟨t, true⟩ := by
  have hrun := Reading.run_tokens hformed [] []
  rw [List.append_nil] at hrun
  rw [Document.read, htokens, hrun]
  rfl

/-! ## Tokens from their characters -/

/-- A token that is no numeral and stands for something. A numeral would also need that the
character behind it does not go on with it. -/
def Token.isPlain : Token → Bool
  | .number _ => false
  | .string text => text.isSome
  | .bad => false
  | _ => true

/-- The element of a string as which a printed character is read: most controls are numbered. -/
def unitOf (c : Char) : Unit16 :=
  if c.toNat < 0x20 ∧ c ∉ ['\x08', '\x0c', '\n', '\r', '\t'] then .half c.toNat else .char c

/-- The number of a control character is read back from its four digits. -/
theorem hexNumber?_control :
    ∀ n < 0x20, Text.hexNumber? ['0', '0', hexDigit (n / 16), hexDigit (n % 16)] = some n := by
  decide

/-- A printed character is read as one element of the string, and the string goes on behind it. -/
theorem scanString_escaped (c : Char) {cs after : List Char} {units : List Unit16}
    (hscan : scanString cs = some (units, after)) :
    scanString (escaped c ++ cs) = some (unitOf c :: units, after) := by
  by_cases hletter : c ∈ ['"', '\\', '\x08', '\x0c', '\n', '\r', '\t']
  · simp only [List.mem_cons, List.not_mem_nil, or_false] at hletter
    obtain rfl | rfl | rfl | rfl | rfl | rfl | rfl := hletter <;>
      simp [escaped, scanString, shortEscape?, unitOf, hscan]
  · simp only [List.mem_cons, List.not_mem_nil, or_false, not_or] at hletter
    by_cases hcontrol : c.toNat < 0x20
    · simp [escaped, scanString, hexNumber?_control c.toNat hcontrol, unitOf, hscan, hletter,
        hcontrol]
    · simp [escaped, scanString, unitOf, hscan, hletter, hcontrol]

/-- The element of the string for a character stands for this character. -/
theorem unitsText_unitOf (c : Char) (units : List Unit16) :
    unitsText (unitOf c :: units) = (unitsText units).map (c :: ·) := by
  unfold unitOf
  split
  · next hcontrol =>
    have hleading : isLeadingHalf c.toNat = false := by
      simp [isLeadingHalf]; omega
    have htrailing : isTrailingHalf c.toNat = false := by
      simp [isTrailingHalf]; omega
    cases units with
    | nil => simp [unitsText, hleading, htrailing]
    | cons u rest =>
      cases u with
      | char d => simp [unitsText, hleading, htrailing]
      | half m => simp [unitsText, hleading, htrailing]
  · rw [unitsText]

/-- A printed text is read up to the quote that ends it, and stands for itself. -/
theorem scanString_print (cs after : List Char) :
    scanString (cs.flatMap escaped ++ '"' :: after) = some (cs.map unitOf, after) ∧
      unitsText (cs.map unitOf) = some cs := by
  induction cs with
  | nil => exact ⟨rfl, rfl⟩
  | cons c rest ih =>
    obtain ⟨hscan, htext⟩ := ih
    constructor
    · rw [List.flatMap_cons, List.append_assoc, List.map_cons]
      exact scanString_escaped c hscan
    · rw [List.map_cons, unitsText_unitOf, htext, Option.map_some]

/-- A plain token is read back from what is printed for it, whatever follows. -/
theorem scanToken_print {token : Token} (hplain : token.isPlain) (after : List Char) :
    scanToken (token.print ++ after) = some (token, after) := by
  cases token with
  | boolean b => cases b <;> rfl
  | number a => cases hplain
  | bad => cases hplain
  | string text =>
    cases text with
    | none => cases hplain
    | some text =>
      obtain ⟨hscan, htext⟩ := scanString_print text.toList after
      rw [Token.print, List.append_assoc, List.cons_append, List.singleton_append, scanToken,
        hscan, Option.map_some]
      dsimp only
      rw [htext, Option.map_some, String.ofList_toList]
  | _ => rfl

/-- What is printed for a token does not start with a blank. -/
theorem exists_print_eq_cons {token : Token} (hplain : token.isPlain) :
    ∃ c cs, token.print = c :: cs ∧ isSpace c = false := by
  cases token with
  | boolean b => cases b <;> exact ⟨_, _, rfl, rfl⟩
  | number a => cases hplain
  | bad => cases hplain
  | string text =>
    cases text with
    | none => cases hplain
    | some text => exact ⟨'"', _, rfl, rfl⟩
  | _ => exact ⟨_, _, rfl, rfl⟩

/-- Printed tokens are cut into these tokens again. -/
theorem tokensUpTo_print {ts : List Token} (hplain : ∀ token ∈ ts, token.isPlain) {fuel : Nat}
    (hfuel : (ts.flatMap Token.print).length < fuel) :
    tokensUpTo fuel (ts.flatMap Token.print) = ts := by
  induction ts generalizing fuel with
  | nil =>
    obtain ⟨fuel, rfl⟩ := Nat.exists_eq_add_one_of_ne_zero (Nat.ne_of_gt hfuel)
    rfl
  | cons token rest ih =>
    have htoken := hplain token List.mem_cons_self
    obtain ⟨c, cs, hprint, hspace⟩ := exists_print_eq_cons htoken
    have hscan := scanToken_print htoken (rest.flatMap Token.print)
    rw [List.flatMap_cons, hprint, List.cons_append] at hfuel ⊢
    rw [hprint, List.cons_append] at hscan
    rw [List.length_cons] at hfuel
    obtain ⟨fuel, rfl⟩ := Nat.exists_eq_add_one_of_ne_zero (Nat.ne_zero_of_lt hfuel)
    have hstart : (c :: (cs ++ rest.flatMap Token.print)).dropWhile isSpace =
        c :: (cs ++ rest.flatMap Token.print) :=
      List.dropWhile_cons_of_neg (by rw [hspace]; exact Bool.false_ne_true)
    have hshort : (rest.flatMap Token.print).length < fuel := by
      rw [List.length_append] at hfuel
      omega
    have hrest := ih (fun other hother => hplain other (List.mem_cons_of_mem token hother)) hshort
    rw [tokensUpTo, hstart]
    dsimp only
    rw [hscan]
    dsimp only
    rw [hrest]

/-- The text of a tree has the tokens of the tree. -/
theorem tokens_print {t : Tree} (hplain : ∀ token ∈ t.tokens, token.isPlain) :
    tokens t.print = t.tokens :=
  tokensUpTo_print hplain (Nat.lt_succ_self _)

end FeedAudit.Json

import FeedAudit.Proofs.Printing
import FeedAudit.Proofs.Schema

/-!
# Names of fields are interchangeable

A tree is in *canonical* spelling when every key of a record that names a field is the canonical
name of this field. Decoding does not see the difference between a tree and its canonical spelling
(`Shape.decode_canonical`). The tokens of a text have a canonical spelling too, which is read as the
canonical tree, whether or not the text can be read to its end (`Reading.run_canonical`).

Main statement: `ContainerSpec.ofText_of_respelled`.
-/

namespace FeedAudit

open Json

/-! ## Canonical trees -/

namespace Json.Tree

mutual

/-- A tree with the canonical names of all fields, where a value of the given shape is expected. -/
def canonical (s : Shape) : Tree → Tree
  | .array items closed => .array (canonicalItems s 0 items) closed
  | .object members closed => .object (canonicalMembers s members) closed
  | t => t

/-- Items with the canonical names of all fields; `i` is the position of the first one. -/
def canonicalItems (s : Shape) (i : Nat) : List Tree → List Tree
  | [] => []
  | t :: rest => t.canonical (s.item i) :: canonicalItems s (i + 1) rest

/-- Members with the canonical names of all fields. -/
def canonicalMembers (s : Shape) : List (Option String × Tree) → List (Option String × Tree)
  | [] => []
  | (key, t) :: rest =>
    (key.map s.canonicalKey, t.canonical (s.member key)) :: canonicalMembers s rest

end

/-- The last item is put in canonical spelling by its position. -/
theorem canonicalItems_append (s : Shape) (i : Nat) (items : List Tree) (t : Tree) :
    canonicalItems s i (items ++ [t]) =
      canonicalItems s i items ++ [t.canonical (s.item (i + items.length))] := by
  induction items generalizing i with
  | nil => rfl
  | cons first rest ih =>
    have hposition : i + 1 + rest.length = i + (rest.length + 1) := by omega
    rw [List.cons_append, canonicalItems, ih, canonicalItems, List.cons_append, List.length_cons,
      hposition]

/-- Canonical spelling keeps the number of items. -/
theorem length_canonicalItems (s : Shape) (i : Nat) (items : List Tree) :
    (canonicalItems s i items).length = items.length := by
  induction items generalizing i with
  | nil => rfl
  | cons t rest ih => rw [canonicalItems, List.length_cons, ih, List.length_cons]

/-- Members are put in canonical spelling one by one. -/
theorem canonicalMembers_eq_map (s : Shape) (members : List (Option String × Tree)) :
    canonicalMembers s members =
      members.map fun m => (m.1.map s.canonicalKey, m.2.canonical (s.member m.1)) := by
  induction members with
  | nil => rfl
  | cons m rest ih => rw [canonicalMembers, ih, List.map_cons]

end Json.Tree

open Json.Tree

/-- A shape that expects nothing inside a value. -/
def Shape.IsLeaf (s : Shape) : Prop := (∀ key, s.field? key = none) ∧ ∀ i, s.item i = .any

/-- Nothing is expected inside a value that is passed over. -/
theorem Shape.isLeaf_any : Shape.any.IsLeaf := ⟨fun _ => rfl, fun _ => rfl⟩

/-- Where nothing is expected inside a value, its members are passed over. -/
theorem Shape.IsLeaf.member_eq {s : Shape} (hs : s.IsLeaf) (key : Option String) :
    s.member key = .any := by
  cases key with
  | none => rfl
  | some key => rw [member, Option.bind_some, hs.1 key]

/-- Where nothing is expected inside a value, keys stand for themselves. -/
theorem Shape.IsLeaf.canonicalKey_eq {s : Shape} (hs : s.IsLeaf) (key : String) :
    s.canonicalKey key = key := by
  rw [canonicalKey, hs.1 key]

/-- Where nothing is expected inside a value, there are no names of fields in it. -/
theorem Shape.IsLeaf.canonical_eq {s : Shape} (hs : s.IsLeaf) (t : Tree) : t.canonical s = t := by
  induction t using Tree.parts_induction generalizing s with
  | step t ih =>
    have hparts : ∀ part ∈ t.parts, part.canonical .any = part :=
      fun part hpart => ih part hpart Shape.isLeaf_any
    cases t with
    | array items closed =>
      have hitems : ∀ i, canonicalItems s i items = items := by
        have heach : ∀ item ∈ items, item.canonical .any = item := hparts
        clear ih hparts
        induction items with
        | nil => exact fun _ => rfl
        | cons first rest ihRest =>
          intro i
          have hrest := ihRest fun item hitem => heach item (List.mem_cons_of_mem first hitem)
          rw [canonicalItems, hs.2, heach first List.mem_cons_self, hrest]
      rw [canonical, hitems]
    | object members closed =>
      have hmembers : ∀ m ∈ members,
          (m.1.map s.canonicalKey, m.2.canonical (s.member m.1)) = m := by
        rintro ⟨key, u⟩ hm
        have hu := hparts u (List.mem_map_of_mem hm)
        rw [hs.member_eq, hu]
        cases key with
        | none => rfl
        | some key => rw [Option.map_some, hs.canonicalKey_eq]
      rw [canonical, canonicalMembers_eq_map, List.map_congr_left hmembers, List.map_id']
    | _ => rfl

/-- Items are spelled the same where the value may be absent. -/
theorem Json.Tree.canonicalItems_optional (s : Shape) (i : Nat) (items : List Tree) :
    canonicalItems (.optional s) i items = canonicalItems s i items := by
  induction items generalizing i with
  | nil => rfl
  | cons t rest ih =>
    rw [canonicalItems, ih, canonicalItems]
    rfl

/-- A value is spelled the same where it may be absent. -/
theorem Json.Tree.canonical_optional (s : Shape) (t : Tree) :
    t.canonical (.optional s) = t.canonical s := by
  cases t with
  | array items closed => rw [canonical, canonicalItems_optional, canonical]
  | object members closed =>
    rw [canonical, canonicalMembers_eq_map, canonical, canonicalMembers_eq_map]
    rfl
  | _ => rfl

/-! ## Decoding canonical trees -/

namespace RecordKind

variable {room : Nat} {k : RecordKind}

/-- The members of a record are decoded alike in canonical spelling, if their values are. -/
theorem decodeMembers_canonical {members : List (Option String × Tree)}
    (hvalues : ∀ m ∈ members, ∀ (s : Shape) (room : Nat),
      s.decode room (m.2.canonical s) = s.decode room m.2)
    (given : List k.Field) (r : k.Value) :
    (k.layout room).decodeMembers given r (canonicalMembers (.record k) members) =
      (k.layout room).decodeMembers given r members := by
  induction members generalizing given r with
  | nil => rfl
  | cons m rest ih =>
    obtain ⟨key, t⟩ := m
    have ht : ∀ (s : Shape) (room : Nat), s.decode room (t.canonical s) = s.decode room t :=
      hvalues (key, t) List.mem_cons_self
    have hrest := ih fun m hm => hvalues m (List.mem_cons_of_mem _ hm)
    rw [canonicalMembers]
    cases key with
    | none => rfl
    | some key =>
      rw [Option.map_some, Layout.decodeMembers, Layout.decodeMembers]
      -- A key that names no field stands for itself, and its value is passed over either way.
      cases hfield : (k.layout room).field? key with
      | none =>
        have hnone := (field?_record_eq_none room).mpr hfield
        rw [Shape.canonicalKey, hnone]
        dsimp only
        rw [hfield, Shape.member, Option.bind_some, hnone]
        dsimp only
        rw [Shape.isLeaf_any.canonical_eq, hrest]
      | some f =>
        have hsome := field?_record room k key
        rw [hfield, Option.map_some] at hsome
        rw [Shape.canonicalKey, hsome]
        dsimp only
        rw [field?_name, Shape.member, Option.bind_some, hsome]
        dsimp only
        rw [take_eq, take_eq, ht]
        split
        · rfl
        · split
          · exact hrest _ _
          · rfl

/-- A record that is written as a list is decoded alike in canonical spelling, if its items are. -/
theorem decodePositions_canonical {items : List Tree}
    (hitems : ∀ t ∈ items, ∀ (s : Shape) (room : Nat),
      s.decode room (t.canonical s) = s.decode room t)
    {closed : Bool} {position i : Nat} {fields : List k.Field}
    (hfields : fields = (k.layout room).fields.drop i) (r : k.Value) :
    (k.layout room).decodePositions closed position fields (canonicalItems (.record k) i items) r =
      (k.layout room).decodePositions closed position fields items r := by
  induction items generalizing i position fields r with
  | nil => rfl
  | cons t rest ih =>
    rw [canonicalItems]
    cases fields with
    | nil => rfl
    | cons f fields =>
      have hf : (k.layout room).fields[i]? = some f := by
        rw [← Nat.add_zero i, ← List.getElem?_drop, ← hfields]
        rfl
      have hrest : fields = (k.layout room).fields.drop (i + 1) := by
        rw [← List.tail_drop, ← hfields]
        rfl
      have ht := hitems t List.mem_cons_self (k.shape f) room
      rw [Layout.decodePositions, Layout.decodePositions, item_record room, hf, Option.map_some,
        Option.getD_some, take_eq, take_eq, ht]
      split
      · exact ih (fun u hu => hitems u (List.mem_cons_of_mem t hu)) hrest _
      · rfl

/-- Decoding a record does not see how the names of fields are spelled, if decoding what it consists
of does not. -/
theorem decode_canonical {t : Tree} (hparts : ∀ part ∈ t.parts, ∀ (s : Shape) (room : Nat),
      s.decode room (part.canonical s) = s.decode room part) :
    k.decode room (t.canonical (.record k)) = k.decode room t := by
  cases t with
  | array items closed =>
    have hitems : ∀ u ∈ items, ∀ (s : Shape) (room : Nat),
        s.decode room (u.canonical s) = s.decode room u := hparts
    rw [decode, decode, canonical, Layout.decode, Layout.decode,
      decodePositions_canonical hitems (List.drop_zero).symm]
  | object members closed =>
    have hvalues : ∀ m ∈ members, ∀ (s : Shape) (room : Nat),
        s.decode room (m.2.canonical s) = s.decode room m.2 :=
      fun m hm => hparts m.2 (List.mem_map_of_mem hm)
    rw [decode, decode, canonical, Layout.decode, Layout.decode, decodeMembers_canonical hvalues]
  | _ => rfl

end RecordKind

/-- A key and its canonical name name the same field. -/
theorem Shape.field?_canonicalKey (s : Shape) (key : String) :
    s.field? (s.canonicalKey key) = s.field? key := by
  induction s with
  | record k =>
    rw [canonicalKey]
    cases hkey : (Shape.record k).field? key with
    | none => exact hkey
    | some field =>
      obtain ⟨name, inner⟩ := field
      obtain ⟨f, hf, rfl, rfl⟩ := RecordKind.exists_field_of_record 0 hkey
      dsimp only
      rw [RecordKind.field?_record 0, RecordKind.field?_name, Option.map_some]
  | optional s ih => exact ih
  | _ => rfl

/-- The items of a list are records of one kind, wherever they stand. -/
theorem Json.Tree.canonicalItems_list (k : RecordKind) (i : Nat) (items : List Tree) :
    canonicalItems (.list k) i items = items.map (canonical (.record k)) := by
  induction items generalizing i with
  | nil => rfl
  | cons t rest ih =>
    rw [canonicalItems, ih, List.map_cons]
    rfl

/-- Decoding does not see how the names of fields are spelled. -/
theorem Shape.decode_canonical (t : Tree) (s : Shape) (room : Nat) :
    s.decode room (t.canonical s) = s.decode room t := by
  induction t using Tree.parts_induction generalizing s room with
  | step t ih =>
    induction s with
    | any => rw [Shape.isLeaf_any.canonical_eq]
    | id => rw [Shape.IsLeaf.canonical_eq ⟨fun _ => rfl, fun _ => rfl⟩]
    | text => rw [Shape.IsLeaf.canonical_eq ⟨fun _ => rfl, fun _ => rfl⟩]
    | pattern => rw [Shape.IsLeaf.canonical_eq ⟨fun _ => rfl, fun _ => rfl⟩]
    | record k => exact RecordKind.decode_canonical ih
    | list k =>
      cases t with
      | array items closed =>
        have hitems : ∀ as : List Tree, (∀ u ∈ as, u ∈ items) →
            decodeItems (k.decode (room - 1)) closed (as.map (canonical (.record k))) =
              decodeItems (k.decode (room - 1)) closed as := by
          intro as has
          induction as with
          | nil => rfl
          | cons u rest ihRest =>
            have hu : k.decode (room - 1) (u.canonical (.record k)) = k.decode (room - 1) u :=
              ih u (has u List.mem_cons_self) (.record k) (room - 1)
            rw [List.map_cons, decodeItems, decodeItems, hu,
              ihRest fun v hv => has v (List.mem_cons_of_mem u hv)]
        rw [Shape.decode, canonical, canonicalItems_list, decodeList, decodeList,
          hitems items fun u hu => hu]
      | _ => rfl
    | optional s ihShape =>
      rw [canonical_optional]
      cases t with
      | null => rfl
      | _ => exact congrArg (Except.map some) ihShape

/-! ## Canonical tokens -/

namespace Json

/-- What is expected where a value is read, with the given surroundings. -/
def expected : List Frame → Shape
  | [] => .record .container
  | .array before :: stack => (expected stack).item before.length
  | .object _ key :: stack => (expected stack).member key

/-- A token with the canonical name of a field, if it is a key of a record. -/
def Reading.canonicalToken : Reading → Token → Token
  | .key _ _ stack, .string (some name) => .string (some ((expected stack).canonicalKey name))
  | _, token => token

/-- Tokens with the canonical names of all fields, up to the first one that may not come next. -/
def Reading.canonicalTokens : Reading → List Token → List Token
  | _, [] => []
  | reading, token :: rest =>
    reading.canonicalToken token ::
      match reading.step token with
      | some next => next.canonicalTokens rest
      | none => []

/-- What has been read, with the canonical names of all fields. -/
def canonicalStack : List Frame → List Frame
  | [] => []
  | .array before :: stack =>
    .array (canonicalItems (expected stack) 0 before.reverse).reverse :: canonicalStack stack
  | .object before key :: stack =>
    .object (canonicalMembers (expected stack) before) (key.map (expected stack).canonicalKey) ::
      canonicalStack stack

/-- A state of reading with the canonical names of all fields. -/
def Reading.canonical : Reading → Reading
  | .value stack => .value (canonicalStack stack)
  | .firstItem stack => .firstItem (canonicalStack stack)
  | .key before fresh stack =>
    .key (canonicalMembers (expected stack) before) fresh (canonicalStack stack)
  | .colon before name stack =>
    .colon (canonicalMembers (expected stack) before) (name.map (expected stack).canonicalKey)
      (canonicalStack stack)
  | .ended tree stack => .ended (tree.canonical (expected stack)) (canonicalStack stack)

/-- A document with the canonical names of all fields. -/
def Document.canonical (d : Document) : Document :=
  ⟨d.root.canonical (.record .container), d.ended⟩

/-- Canonical spelling does not change whether a document was read to its end. -/
theorem Document.canonical_ended (d : Document) : d.canonical.ended = d.ended := rfl

/-- The items of a list that is being read, with one more. -/
theorem canonicalItems_reverse_append (s : Shape) (t : Tree) (before : List Tree) :
    canonicalItems s 0 (before.reverse ++ [t]) =
      canonicalItems s 0 before.reverse ++ [t.canonical (s.item before.length)] := by
  rw [canonicalItems_append, Nat.zero_add, List.length_reverse]

/-- Members may be put in canonical spelling in any order. -/
theorem canonicalMembers_reverse (s : Shape) (members : List (Option String × Tree)) :
    canonicalMembers s members.reverse = (canonicalMembers s members).reverse := by
  rw [canonicalMembers_eq_map, canonicalMembers_eq_map, List.map_reverse]

/-- A value starts alike in canonical spelling. -/
theorem start_canonical (stack : List Frame) (token : Token) :
    Reading.start (canonicalStack stack) token =
      (Reading.start stack token).map Reading.canonical := by
  cases token <;> rfl

/-- One token more, in canonical spelling or not. -/
theorem Reading.step_canonical (reading : Reading) (token : Token) :
    reading.canonical.step (reading.canonicalToken token) =
      (reading.step token).map Reading.canonical := by
  cases reading with
  | value stack => exact start_canonical stack token
  | firstItem stack => cases token <;> rfl
  | key before fresh stack =>
    cases token with
    | string text => cases text <;> rfl
    | closeObject =>
      cases fresh with
      | false => rfl
      | true =>
        simp only [canonical, canonicalToken, step, if_true, Option.map_some, Tree.canonical,
          canonicalMembers_reverse]
    | _ => rfl
  | colon before key stack => cases token <;> rfl
  | ended tree stack =>
    cases stack with
    | nil => rfl
    | cons frame stack =>
      cases frame with
      | array before =>
        have hitems := canonicalItems_reverse_append (expected stack) tree before
        cases token with
        | comma =>
          simp only [canonical, canonicalToken, canonicalStack, step, Option.map_some,
            List.reverse_cons, hitems, List.reverse_append, List.reverse_nil, List.nil_append,
            List.singleton_append, expected]
        | closeArray =>
          simp only [canonical, canonicalToken, canonicalStack, step, Option.map_some,
            Tree.canonical, List.reverse_cons, hitems, List.reverse_reverse, expected]
        | _ => rfl
      | object before name =>
        cases token with
        | comma => rfl
        | closeObject =>
          simp only [canonical, canonicalToken, canonicalStack, step, Option.map_some,
            Tree.canonical, canonicalMembers_reverse, canonicalMembers, expected]
        | _ => rfl

/-- A reading that is left off, in canonical spelling or not. -/
theorem leaveOpen_canonical (tree : Tree) (stack : List Frame) :
    leaveOpen (tree.canonical (expected stack)) (canonicalStack stack) =
      (leaveOpen tree stack).canonical (.record .container) := by
  induction stack generalizing tree with
  | nil => rfl
  | cons frame stack ih =>
    cases frame with
    | array before =>
      have hitems := canonicalItems_reverse_append (expected stack) tree before
      rw [leaveOpen, ← ih, Tree.canonical, List.reverse_cons, hitems]
      simp only [canonicalStack, leaveOpen, List.reverse_cons, List.reverse_reverse, expected]
    | object before name =>
      rw [leaveOpen, ← ih, Tree.canonical, canonicalMembers_reverse]
      rfl

/-- A reading that is left off comes to the same document, in canonical spelling or not. -/
theorem Reading.abandon_canonical (reading : Reading) :
    reading.canonical.abandon = reading.abandon.canonical := by
  have hleave : ∀ tree stack, (leaveOpen tree stack).canonical (.record .container) =
      leaveOpen (tree.canonical (expected stack)) (canonicalStack stack) :=
    fun tree stack => (leaveOpen_canonical tree stack).symm
  cases reading with
  | value stack => simp only [abandon, Document.canonical, hleave, canonical, Tree.canonical]
  | firstItem stack =>
    simp only [abandon, Document.canonical, hleave, canonical, Tree.canonical, canonicalItems]
  | key before fresh stack =>
    simp only [abandon, Document.canonical, hleave, canonical, Tree.canonical,
      canonicalMembers_reverse]
  | colon before name stack =>
    simp only [abandon, Document.canonical, hleave, canonical, Tree.canonical,
      canonicalMembers_reverse, canonicalMembers]
  | ended tree stack =>
    cases stack with
    | nil => rfl
    | cons frame stack =>
      cases frame with
      | array before =>
        have hitems := canonicalItems_reverse_append (expected stack) tree before
        simp only [abandon, Document.canonical, hleave, canonical, Tree.canonical, canonicalStack,
          List.reverse_cons, hitems, List.reverse_reverse, expected]
      | object before name =>
        simp only [abandon, Document.canonical, hleave, canonical, Tree.canonical, canonicalStack,
          canonicalMembers_reverse, canonicalMembers, expected]

/-- The canonical tokens are read as the document with the canonical names of all fields. -/
theorem Reading.run_canonical (reading : Reading) (ts : List Token) :
    reading.canonical.run (reading.canonicalTokens ts) = (reading.run ts).canonical := by
  induction ts generalizing reading with
  | nil =>
    rw [canonicalTokens]
    cases reading with
    | ended tree stack =>
      cases stack with
      | nil => rfl
      | cons frame stack =>
        have habandon := abandon_canonical (.ended tree (frame :: stack))
        cases frame <;> exact habandon
    | _ => exact abandon_canonical _
  | cons token rest ih =>
    have hstep := reading.step_canonical token
    rw [canonicalTokens]
    cases hnext : reading.step token with
    | none =>
      rw [hnext] at hstep
      rw [run_of_step_none hstep, run_of_step_none hnext, abandon_canonical]
    | some next =>
      rw [hnext] at hstep
      rw [run_of_step hstep, run_of_step hnext, ih]

/-! ## Keys that are replaced -/

/-- What is expected somewhere does not depend on how the names of fields are spelled. -/
theorem expected_canonicalStack (stack : List Frame) :
    expected (canonicalStack stack) = expected stack := by
  induction stack with
  | nil => rfl
  | cons frame stack ih =>
    cases frame with
    | array before =>
      rw [canonicalStack, expected, ih, expected, List.length_reverse, length_canonicalItems,
        List.length_reverse]
    | object before name =>
      rw [canonicalStack, expected, ih, expected]
      cases name with
      | none => rfl
      | some name =>
        rw [Option.map_some, Shape.member, Option.bind_some, Shape.field?_canonicalKey,
          Shape.member, Option.bind_some]

/-- The canonical form of a token does not depend on the spelling of what was read before. -/
theorem Reading.canonicalToken_canonical (reading : Reading) (token : Token) :
    reading.canonical.canonicalToken token = reading.canonicalToken token := by
  cases reading with
  | key before fresh stack =>
    cases token with
    | string text =>
      cases text with
      | none => rfl
      | some name => rw [canonical, canonicalToken, expected_canonicalStack, canonicalToken]
    | _ => rfl
  | _ => rfl

/-- States of reading that differ in the names of fields only go on alike. -/
theorem Reading.canonicalTokens_congr {reading other : Reading}
    (h : reading.canonical = other.canonical) (ts : List Token) :
    reading.canonicalTokens ts = other.canonicalTokens ts := by
  induction ts generalizing reading other with
  | nil => rw [canonicalTokens, canonicalTokens]
  | cons token rest ih =>
    have htoken : reading.canonicalToken token = other.canonicalToken token := by
      rw [← canonicalToken_canonical, h, canonicalToken_canonical]
    have hstep : (reading.step token).map Reading.canonical =
        (other.step token).map Reading.canonical := by
      rw [← step_canonical, ← step_canonical, h, htoken]
    rw [canonicalTokens, canonicalTokens, htoken]
    cases hreading : reading.step token with
    | none =>
      rw [hreading, Option.map_none, eq_comm, Option.map_eq_none_iff] at hstep
      rw [hstep]
    | some next =>
      rw [hreading, Option.map_some, eq_comm, Option.map_eq_some_iff] at hstep
      obtain ⟨next', hother, hnext⟩ := hstep
      rw [hother]
      exact congrArg _ (ih hnext.symm)

/-- The second tokens are the first ones, in which keys of records have been replaced by other names
of the same fields; `reading` is the state in which the tokens are read. Behind a token that may not
come next, nothing is read. -/
inductive Respelled : Reading → List Token → List Token → Prop
  | done (reading : Reading) : Respelled reading [] []
  | unread {reading : Reading} {token : Token} (hstep : reading.step token = none)
      (ts ts' : List Token) : Respelled reading (token :: ts) (token :: ts')
  | token {reading next : Reading} {token : Token} (hstep : reading.step token = some next)
      {ts ts' : List Token} (h : Respelled next ts ts') :
      Respelled reading (token :: ts) (token :: ts')
  | name {before : List (Option String × Tree)} {fresh : Bool} {stack : List Frame}
      {name name' : String} {field : String × Shape}
      (hname : (expected stack).field? name = some field)
      (hname' : (expected stack).field? name' = some field) {ts ts' : List Token}
      (h : Respelled (.colon before (some name) stack) ts ts') :
      Respelled (.key before fresh stack) (.string (some name) :: ts) (.string (some name') :: ts')

/-- Whether a token that may come next stands for another one: it is the same, or both are names of
one field. -/
def Reading.standsFor : Reading → Token → Token → Bool
  | .key _ _ stack, .string (some name), .string (some name') =>
    name == name' || ((expected stack).field? name).isSome &&
      (expected stack).field? name == (expected stack).field? name'
  | _, token, token' => token == token'

/-- Whether keys have been replaced by other names of the same fields only. -/
def Reading.respells : Reading → List Token → List Token → Bool
  | _, [], [] => true
  | reading, token :: ts, token' :: ts' =>
    match reading.step token with
    | none => token == token'
    | some next => reading.standsFor token token' && next.respells ts ts'
  | _, _, _ => false

/-- Every token stands for itself. -/
theorem Reading.standsFor_self (reading : Reading) (token : Token) :
    reading.standsFor token token = true := by
  unfold standsFor
  split <;> simp

/-- A token stands for another one if the rest of the text is read alike. -/
theorem Respelled.of_standsFor {reading next : Reading} {token token' : Token}
    (hstep : reading.step token = some next) (hstands : reading.standsFor token token' = true)
    {ts ts' : List Token} (h : Respelled next ts ts') :
    Respelled reading (token :: ts) (token' :: ts') := by
  unfold Reading.standsFor at hstands
  split at hstands
  · next before fresh stack name name' =>
    obtain rfl := Option.some.inj hstep
    rcases Bool.or_eq_true_iff.mp hstands with heq | hfield
    · obtain rfl := eq_of_beq heq
      exact .token hstep h
    · obtain ⟨hnamed, hsame⟩ := Bool.and_eq_true_iff.mp hfield
      obtain ⟨field, hname⟩ := Option.isSome_iff_exists.mp hnamed
      exact .name hname ((eq_of_beq hsame).symm.trans hname) h
  · obtain rfl := eq_of_beq hstands
    exact .token hstep h

/-- It can be computed whether keys have been replaced by other names of the same fields only. -/
theorem Reading.respells_iff {reading : Reading} {ts ts' : List Token} :
    reading.respells ts ts' = true ↔ Respelled reading ts ts' := by
  constructor
  · intro h
    induction ts generalizing reading ts' with
    | nil =>
      cases ts' with
      | nil => exact .done reading
      | cons => cases h
    | cons token ts ih =>
      cases ts' with
      | nil => cases h
      | cons token' ts' =>
        rw [respells] at h
        cases hstep : reading.step token with
        | none =>
          rw [hstep] at h
          obtain rfl := eq_of_beq h
          exact .unread hstep ts ts'
        | some next =>
          rw [hstep] at h
          obtain ⟨hstands, hrest⟩ := Bool.and_eq_true_iff.mp h
          exact .of_standsFor hstep hstands (ih hrest)
  · intro h
    induction h with
    | done reading => rfl
    | @unread reading token hstep ts ts' =>
      rw [respells, hstep]
      exact beq_self_eq_true token
    | @token reading next token hstep ts ts' _ ih =>
      rw [respells, hstep]
      dsimp only
      rw [standsFor_self, ih, Bool.and_self]
    | @name before fresh stack name name' field hname hname' ts ts' _ ih =>
      have hstands : (Reading.key before fresh stack).standsFor (.string (some name))
          (.string (some name')) = true := by
        rw [standsFor, hname, hname', Option.isSome_some, beq_self_eq_true, Bool.and_self,
          Bool.or_true]
      exact Bool.and_eq_true_iff.mpr ⟨hstands, ih⟩

instance (reading : Reading) (ts ts' : List Token) : Decidable (Respelled reading ts ts') :=
  decidable_of_iff _ Reading.respells_iff

/-- Replacing keys by other names of the same fields does not change the canonical tokens. -/
theorem Respelled.canonicalTokens_eq {reading : Reading} {ts ts' : List Token}
    (h : Respelled reading ts ts') {other : Reading}
    (hother : reading.canonical = other.canonical) :
    reading.canonicalTokens ts = other.canonicalTokens ts' := by
  induction h generalizing other with
  | done reading => rw [Reading.canonicalTokens, Reading.canonicalTokens]
  | unread hstep ts ts' =>
    rw [← Reading.canonicalTokens_congr hother, Reading.canonicalTokens, Reading.canonicalTokens,
      hstep]
  | @token reading next token hstep ts ts' _ ih =>
    have hrest := ih rfl
    rw [← Reading.canonicalTokens_congr hother, Reading.canonicalTokens, Reading.canonicalTokens,
      hstep]
    dsimp only
    rw [hrest]
  | @name before fresh stack name name' field hname hname' ts ts' _ ih =>
    have hkey : (expected stack).canonicalKey name = (expected stack).canonicalKey name' := by
      rw [Shape.canonicalKey, hname, Shape.canonicalKey, hname']
    have hcolon : (Reading.colon before (some name) stack).canonical =
        (Reading.colon before (some name') stack).canonical := by
      rw [Reading.canonical, Option.map_some, hkey, Reading.canonical, Option.map_some]
    have hrest := ih hcolon
    rw [← Reading.canonicalTokens_congr hother, Reading.canonicalTokens, Reading.canonicalTokens,
      Reading.canonicalToken, Reading.canonicalToken, hkey]
    exact congrArg _ hrest

/-- The canonical tokens of a text are read as the canonical document. -/
theorem Document.read_canonical (text : String) :
    (Document.read text).canonical =
      (Reading.value []).run ((Reading.value []).canonicalTokens (tokens text.toList)) :=
  (Reading.run_canonical (.value []) (tokens text.toList)).symm

end Json

/-- A text is read as the same, be it an expectation or a fault, under whichever names its fields
are given. -/
theorem ContainerSpec.ofText_of_respelled {text text' : String}
    (h : Respelled (.value []) (tokens text.toList) (tokens text'.toList)) :
    ContainerSpec.ofText text' = ContainerSpec.ofText text := by
  have hsame := h.canonicalTokens_eq rfl
  have hdocument : (Document.read text).canonical = (Document.read text').canonical := by
    rw [Document.read_canonical, Document.read_canonical, hsame]
  have hdecode : ∀ text : String,
      ContainerSpec.decode nestingLimit (Document.read text).canonical.root =
        ContainerSpec.decode nestingLimit (Document.read text).root :=
    fun text => Shape.decode_canonical _ (.record .container) nestingLimit
  have hroot : ContainerSpec.decode nestingLimit (Document.read text).root =
      ContainerSpec.decode nestingLimit (Document.read text').root := by
    rw [← hdecode, ← hdecode, hdocument]
  have hended : (Document.read text).ended = (Document.read text').ended := by
    rw [← Document.canonical_ended, hdocument, Document.canonical_ended]
  simp only [ContainerSpec.ofText, decodeDocument, hroot, hended]

end FeedAudit

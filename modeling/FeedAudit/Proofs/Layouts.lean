import FeedAudit.Json.Decode
import Mathlib.Data.List.Basic

/-!
# Records and how they are written

What holds of every layout, whatever its record is. The members of an object are taken one after the
other, each by the field that its key names. A record that is written with the names of its fields
is decoded by taking these fields in order (`Layout.decode_members`), and what every field preserves
holds of all that is decoded (`Layout.decode_induction`).
-/

namespace FeedAudit.Json

/-- What is not of the wanted shape is not decoded. -/
theorem refuse_ne_ok {α : Type} (wanted : String) (t : Tree) (a : α) : refuse wanted t ≠ .ok a := by
  unfold refuse
  split <;> exact nofun

/-- What is taken from a decoder into a record was decoded. -/
theorem exists_of_map_eq_ok {α β : Type} {x : Except DecodeFault α} {f : α → β} {b : β}
    (hok : x.map f = .ok b) : ∃ a, x = .ok a ∧ f a = b := by
  cases x with
  | error fault => cases hok
  | ok a => exact ⟨a, rfl, Except.ok.inj hok⟩

/-! ## Lists -/

/-- Items that are each decoded are decoded as a list. -/
theorem decodeItems_map {α : Type} {item : Tree → Except DecodeFault α} {encode : α → Tree}
    {as : List α} (heach : ∀ a ∈ as, item (encode a) = .ok a) :
    decodeItems item true (as.map encode) = .ok as := by
  induction as with
  | nil => rfl
  | cons a rest ih =>
    have hrest := ih fun b hb => heach b (List.mem_cons_of_mem a hb)
    rw [List.map_cons, decodeItems, heach a List.mem_cons_self, hrest]
    rfl

/-- What holds of every decoded item holds throughout a decoded list. -/
theorem decodeItems_forall {α : Type} {item : Tree → Except DecodeFault α} {closed : Bool}
    {P : α → Prop} (heach : ∀ t a, item t = .ok a → P a) {items : List Tree} {as : List α}
    (hok : decodeItems item closed items = .ok as) : ∀ a ∈ as, P a := by
  induction items generalizing as with
  | nil =>
    rw [decodeItems] at hok
    split at hok
    · obtain rfl := Except.ok.inj hok
      exact nofun
    · cases hok
  | cons t rest ih =>
    rw [decodeItems] at hok
    cases hfirst : item t with
    | error fault =>
      rw [hfirst] at hok
      cases hok
    | ok a =>
      rw [hfirst] at hok
      cases hrest : decodeItems item closed rest with
      | error fault =>
        rw [hrest] at hok
        cases hok
      | ok others =>
        rw [hrest] at hok
        obtain rfl := Except.ok.inj hok
        intro b hb
        rcases List.mem_cons.mp hb with rfl | hin
        · exact heach t b hfirst
        · exact ih hrest b hin

/-- What holds of every item that is decoded holds of all items of a list. -/
theorem decodeList_forall {α : Type} {room : Nat} {item : Tree → Except DecodeFault α}
    {P : α → Prop} (heach : ∀ t a, item t = .ok a → P a) {t : Tree} {as : List α}
    (hok : decodeList room item t = .ok as) : ∀ a ∈ as, P a := by
  rw [decodeList.eq_def] at hok
  split at hok
  · split at hok
    · cases hok
    · exact decodeItems_forall heach hok
  · exact absurd hok (refuse_ne_ok _ _ _)

/-- What holds of every value that is decoded holds of one that may be absent. -/
theorem decodeOptional_forall {α : Type} {decode : Tree → Except DecodeFault α} {P : α → Prop}
    (heach : ∀ t a, decode t = .ok a → P a) {t : Tree} {o : Option α}
    (hok : decodeOptional decode t = .ok o) : ∀ a ∈ o, P a := by
  rw [decodeOptional.eq_def] at hok
  split at hok
  · obtain rfl := Except.ok.inj hok
    exact nofun
  · cases hdecode : decode t with
    | error fault =>
      rw [hdecode] at hok
      cases hok
    | ok a =>
      rw [hdecode] at hok
      obtain rfl := Except.ok.inj hok
      intro b hb
      obtain rfl := Option.mem_some_iff.mp hb
      exact heach t a hdecode

/-- A value that is given is decoded as such. -/
theorem decodeOptional_of_ok {α : Type} {decode : Tree → Except DecodeFault α} {t : Tree} {a : α}
    (hgiven : t ≠ .null) (hok : decode t = .ok a) : decodeOptional decode t = .ok (some a) := by
  rw [decodeOptional.eq_def]
  split
  · exact absurd rfl hgiven
  · rw [hok]
    rfl

namespace Layout

variable {F α : Type} [DecidableEq F] (l : Layout F α)

/-! ## Members that are written for fields -/

/-- The members that are written for the values of fields. -/
def members (entries : List (F × Tree)) : List (Option String × Tree) :=
  entries.map fun entry => (some (l.name entry.1), entry.2)

/-- Takes the values of fields into a record, one after the other. -/
def takeAll (entries : List (F × Tree)) (record : α) : Except DecodeFault α :=
  entries.foldlM (fun record entry => l.take entry.1 entry.2 record) record

variable {l}

omit [DecidableEq F] in
/-- The first entry is put into a record before the others. -/
theorem takeAll_cons {f : F} {t : Tree} {entries : List (F × Tree)} {record next result : α}
    (hfirst : l.take f t record = .ok next) (hentries : l.takeAll entries next = .ok result) :
    l.takeAll ((f, t) :: entries) record = .ok result := by
  rw [takeAll, List.foldlM_cons, hfirst]
  exact hentries

omit [DecidableEq F] in
/-- All entries can be put into a record exactly if the first can and then the others can. -/
theorem takeAll_cons_eq_ok_iff {f : F} {t : Tree} {rest : List (F × Tree)} {record result : α} :
    l.takeAll ((f, t) :: rest) record = .ok result ↔
      ∃ next, l.take f t record = .ok next ∧ l.takeAll rest next = .ok result := by
  constructor
  · intro h
    rw [takeAll, List.foldlM_cons] at h
    cases htake : l.take f t record with
    | error fault =>
      rw [htake] at h
      cases h
    | ok next =>
      rw [htake] at h
      exact ⟨next, rfl, h⟩
  · rintro ⟨next, htake, hrest⟩
    exact takeAll_cons htake hrest

omit [DecidableEq F] in
/-- The entries of two lists are put into a record one list after the other. -/
theorem takeAll_append {entries others : List (F × Tree)} {record next result : α}
    (hfirst : l.takeAll entries record = .ok next) (hothers : l.takeAll others next = .ok result) :
    l.takeAll (entries ++ others) record = .ok result := by
  rw [takeAll, List.foldlM_append, ← takeAll, hfirst]
  exact hothers

omit [DecidableEq F] in
/-- A field that is written only when it has a value. -/
theorem takeAll_toList {β : Type} {f : F} (encode : β → Tree) (record : Option β → α) {o : Option β}
    (hsome : ∀ b, o = some b → l.take f (encode b) (record none) = .ok (record (some b))) :
    l.takeAll (o.map fun b => (f, encode b)).toList (record none) = .ok (record o) := by
  cases o with
  | none => rfl
  | some b =>
    rw [Option.map_some, Option.toList_some]
    exact takeAll_cons (hsome b rfl) rfl

/-! ## Members and the fields they name -/

/-- The fields that are named by members, with their values. -/
def entries (l : Layout F α) (members : List (Option String × Tree)) : List (F × Tree) :=
  members.filterMap fun m => (m.1.bind l.field?).map fun f => (f, m.2)

/-- A member whose key can be read and that is well-formed if it names no field. -/
def Passes (l : Layout F α) (m : Option String × Tree) : Prop :=
  ∃ key, m.1 = some key ∧ (l.field? key = none → m.2.wellFormed)

omit [DecidableEq F] in
/-- A member whose key names a field is an entry for this field. -/
theorem entries_cons_of_field {key : String} {f : F} (hkey : l.field? key = some f) (t : Tree)
    (rest : List (Option String × Tree)) :
    l.entries ((some key, t) :: rest) = (f, t) :: l.entries rest := by
  rw [entries, List.filterMap_cons_some (b := (f, t)) (by rw [Option.bind_some, hkey]; rfl),
    entries]

omit [DecidableEq F] in
/-- A member whose key names no field is no entry. -/
theorem entries_cons_of_none {key : String} (hkey : l.field? key = none) (t : Tree)
    (rest : List (Option String × Tree)) :
    l.entries ((some key, t) :: rest) = l.entries rest := by
  rw [entries, List.filterMap_cons_none (by rw [Option.bind_some, hkey]; rfl), entries]

omit [DecidableEq F] in
/-- The entries of members that were written for entries are these entries. -/
theorem entries_members (hnamed : ∀ f, l.field? (l.name f) = some f) (given : List (F × Tree)) :
    l.entries (l.members given) = given := by
  induction given with
  | nil => rfl
  | cons entry rest ih =>
    rw [members, List.map_cons, entries_cons_of_field (hnamed entry.1), ← members, ih]

/-- A member whose key names no field is passed over if it is well-formed. -/
theorem decodeMembers_cons_of_none {key : String} (hkey : l.field? key = none) {t : Tree}
    {rest : List (Option String × Tree)} {given : List F} {record : α} {decoded : List F × α} :
    l.decodeMembers given record ((some key, t) :: rest) = .ok decoded ↔
      t.wellFormed ∧ l.decodeMembers given record rest = .ok decoded := by
  rw [decodeMembers, hkey]
  by_cases hformed : t.wellFormed
  · simp [hformed]
  · simp [hformed]

/-- A member whose key names a field is decoded if the field was not given before and its value can
be taken into the record. -/
theorem decodeMembers_cons_of_field {key : String} {f : F} (hkey : l.field? key = some f) {t : Tree}
    {rest : List (Option String × Tree)} {given : List F} {record : α} {decoded : List F × α} :
    l.decodeMembers given record ((some key, t) :: rest) = .ok decoded ↔
      f ∉ given ∧ ∃ next, l.take f t record = .ok next ∧
        l.decodeMembers (f :: given) next rest = .ok decoded := by
  rw [decodeMembers, hkey]
  by_cases hgiven : f ∈ given
  · simp [hgiven]
  · cases htake : l.take f t record with
    | error fault => simp [hgiven, htake]
    | ok next => simp [hgiven, htake]

/-- Members are decoded when none of them is at fault, no field is named twice or was given before,
and the named fields can be taken one after the other. -/
theorem decodeMembers_eq_ok_iff {members : List (Option String × Tree)} {given fields : List F}
    {record result : α} :
    l.decodeMembers given record members = .ok (fields, result) ↔
      (∀ m ∈ members, l.Passes m) ∧ ((l.entries members).map (·.1)).Nodup ∧
        (∀ f ∈ (l.entries members).map (·.1), f ∉ given) ∧
        l.takeAll (l.entries members) record = .ok result ∧
        fields = ((l.entries members).map (·.1)).reverse ++ given := by
  induction members generalizing given record with
  | nil =>
    constructor
    · intro h
      cases h
      exact ⟨nofun, List.nodup_nil, nofun, rfl, rfl⟩
    · rintro ⟨-, -, -, htake, rfl⟩
      cases htake
      rfl
  | cons m rest ih =>
    obtain ⟨key, t⟩ := m
    cases key with
    | none =>
      constructor
      · exact nofun
      · rintro ⟨hpass, -⟩
        obtain ⟨key, hkey, -⟩ := hpass _ List.mem_cons_self
        cases hkey
    | some key =>
      cases hfield : l.field? key with
      | none =>
        have hpass : l.Passes (some key, t) ↔ t.wellFormed := by
          constructor
          · rintro ⟨_, hkey, h⟩
            cases hkey
            exact h hfield
          · exact fun hformed => ⟨key, rfl, fun _ => hformed⟩
        rw [decodeMembers_cons_of_none hfield, entries_cons_of_none hfield, List.forall_mem_cons,
          hpass, ih, and_assoc]
      | some f =>
        have hpass : l.Passes (some key, t) := ⟨key, rfl, fun h => by cases hfield.symm.trans h⟩
        rw [decodeMembers_cons_of_field hfield, entries_cons_of_field hfield, List.map_cons,
          List.nodup_cons, List.forall_mem_cons, List.forall_mem_cons, takeAll_cons_eq_ok_iff,
          List.reverse_cons, List.append_assoc, List.singleton_append]
        -- A field may be new in two ways: it is not among those given before, and it is not named
        -- again in the rest.
        constructor
        · rintro ⟨hgiven, next, htake, hdecoded⟩
          obtain ⟨hrest, hdistinct, hnew, htakeRest, rfl⟩ := ih.mp hdecoded
          have hf : f ∉ (l.entries rest).map (·.1) := fun hin => hnew f hin List.mem_cons_self
          refine ⟨⟨hpass, hrest⟩, ⟨hf, hdistinct⟩, ⟨hgiven, ?_⟩, ⟨next, htake, htakeRest⟩, rfl⟩
          exact fun g hg hin => hnew g hg (List.mem_cons_of_mem f hin)
        · rintro ⟨⟨-, hrest⟩, ⟨hf, hdistinct⟩, ⟨hgiven, hnew⟩, ⟨next, htake, htakeRest⟩, rfl⟩
          refine ⟨hgiven, next, htake, ih.mpr ⟨hrest, hdistinct, ?_, htakeRest, rfl⟩⟩
          intro g hg hin
          rcases List.mem_cons.mp hin with rfl | hin
          · exact hf hg
          · exact hnew g hg hin

/-- An object is decoded as a record when it is whole and there is room for it, its members are
decoded and all required fields are among them. -/
theorem decode_object_eq_ok_iff {mayOpen closed : Bool} {members : List (Option String × Tree)}
    {result : α} :
    l.decode mayOpen (.object members closed) = .ok result ↔
      mayOpen = true ∧ closed = true ∧ (∀ m ∈ members, l.Passes m) ∧
        ((l.entries members).map (·.1)).Nodup ∧
        l.takeAll (l.entries members) l.start = .ok result ∧
        ∀ f ∈ l.fields, l.required f → f ∈ (l.entries members).map (·.1) := by
  rw [decode]
  cases mayOpen with
  | false => simp
  | true =>
    have hempty : ∀ f ∈ (l.entries members).map (·.1), f ∉ ([] : List F) := fun _ _ => nofun
    cases hmembers : l.decodeMembers [] l.start members with
    | error fault =>
      constructor
      · exact nofun
      · rintro ⟨-, -, hpass, hdistinct, htake, -⟩
        have hok := decodeMembers_eq_ok_iff.mpr ⟨hpass, hdistinct, hempty, htake, rfl⟩
        cases hmembers.symm.trans hok
    | ok decoded =>
      obtain ⟨given, record⟩ := decoded
      obtain ⟨hpass, hdistinct, -, htake, rfl⟩ := decodeMembers_eq_ok_iff.mp hmembers
      simp only [List.append_nil, Bool.not_true, Bool.false_eq_true, if_false, true_and]
      cases closed with
      | false => simp
      | true =>
        simp only [Bool.not_true, Bool.false_eq_true, if_false, true_and]
        cases hfind : l.fields.find? fun f =>
            l.required f && f ∉ ((l.entries members).map (·.1)).reverse with
        | some f =>
          have hmissing := List.find?_some hfind
          rw [Bool.and_eq_true, decide_eq_true_eq, List.mem_reverse] at hmissing
          constructor
          · exact nofun
          · rintro ⟨-, -, -, hrequired⟩
            exact absurd (hrequired f (List.mem_of_find?_eq_some hfind) hmissing.1) hmissing.2
        | none =>
          rw [List.find?_eq_none] at hfind
          constructor
          · intro h
            cases h
            refine ⟨hpass, hdistinct, htake, fun f hf hrequired => ?_⟩
            by_contra hmissing
            exact hfind f hf (by simp only [hrequired, List.mem_reverse, hmissing,
              not_false_eq_true, decide_true, Bool.and_true])
          · rintro ⟨-, -, htake', -⟩
            exact htake.symm.trans htake'

/-- A record written with the names of its fields is decoded by taking these fields in order, when
all required fields are among them. -/
theorem decode_members (hnamed : ∀ f, l.field? (l.name f) = some f)
    {given : List (F × Tree)} (hdistinct : (given.map (·.1)).Nodup)
    (hrequired : ∀ f, l.required f → f ∈ given.map (·.1)) {result : α}
    (htake : l.takeAll given l.start = .ok result) :
    l.decode true (.object (l.members given) true) = .ok result := by
  have hentries := entries_members hnamed given
  have hpass : ∀ m ∈ l.members given, l.Passes m := by
    intro m hm
    obtain ⟨entry, -, rfl⟩ := List.mem_map.mp hm
    exact ⟨l.name entry.1, rfl, fun h => by cases (hnamed entry.1).symm.trans h⟩
  refine decode_object_eq_ok_iff.mpr ⟨rfl, rfl, hpass, ?_⟩
  rw [hentries]
  exact ⟨hdistinct, htake, fun f _ => hrequired f⟩

/-! ## What all fields preserve -/

/-- What holds of the record at first and is kept by every field holds when all members are
decoded. -/
theorem decodeMembers_induction {P : α → Prop}
    (htake : ∀ f t a b, P a → l.take f t a = .ok b → P b)
    {members : List (Option String × Tree)} {given fields : List F} {record result : α}
    (hrecord : P record) (hok : l.decodeMembers given record members = .ok (fields, result)) :
    P result := by
  induction members generalizing given record with
  | nil =>
    cases hok
    exact hrecord
  | cons m rest ih =>
    obtain ⟨key, t⟩ := m
    cases key with
    | none => cases hok
    | some key =>
      cases hfield : l.field? key with
      | none => exact ih hrecord ((decodeMembers_cons_of_none hfield).mp hok).2
      | some f =>
        obtain ⟨-, next, htaken, hrest⟩ := (decodeMembers_cons_of_field hfield).mp hok
        exact ih (htake f t record next hrecord htaken) hrest

omit [DecidableEq F] in
/-- What holds of the record at first and is kept by every field holds when all items are
decoded. -/
theorem decodePositions_induction {P : α → Prop}
    (htake : ∀ f t a b, P a → l.take f t a = .ok b → P b) {closed : Bool} {position : Nat}
    {fields : List F} {items : List Tree} {record result : α} (hrecord : P record)
    (hok : l.decodePositions closed position fields items record = .ok result) : P result := by
  induction fields generalizing items position record with
  | nil =>
    cases items with
    | nil =>
      rw [decodePositions] at hok
      split at hok
      · cases hok
        exact hrecord
      · cases hok
    | cons t rest =>
      rw [decodePositions] at hok
      split at hok
      · cases hok
        exact hrecord
      · cases hok
  | cons f fields ih =>
    cases items with
    | nil =>
      rw [decodePositions] at hok
      split at hok
      · cases hok
      · split at hok
        · cases hok
        · exact ih hrecord hok
    | cons t rest =>
      rw [decodePositions] at hok
      split at hok
      · rename_i htaken
        exact ih (htake _ _ _ _ hrecord htaken) hok
      · cases hok

/-- What holds of the empty record and is preserved by every field holds of all that is decoded. -/
theorem decode_induction {P : α → Prop} (hstart : P l.start)
    (htake : ∀ f t a b, P a → l.take f t a = .ok b → P b) {mayOpen : Bool} {t : Tree} {result : α}
    (hok : l.decode mayOpen t = .ok result) : P result := by
  rw [decode.eq_def] at hok
  split at hok
  · split at hok
    · cases hok
    · split at hok
      · cases hok
      · rename_i hmembers
        split at hok
        · cases hok
        · split at hok
          · cases hok
          · cases hok
            exact decodeMembers_induction htake hstart hmembers
  · split at hok
    · cases hok
    · exact decodePositions_induction htake hstart hok
  · exact absurd hok (refuse_ne_ok _ _ _)

end Layout

end FeedAudit.Json

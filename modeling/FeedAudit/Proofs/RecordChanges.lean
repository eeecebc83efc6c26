import FeedAudit.Proofs.Layouts
import FeedAudit.Proofs.Printing
import Mathlib.Data.List.Perm.Basic

/-!
# Changes of a record

What becomes of a record that was decoded when its written form is changed. Members may change their
places, and members that name no field may be added; a field that is named twice or left out is a
fault, which carries its canonical name. A change inside the value of a field has the effect on the
record that it has on the value.
-/

namespace FeedAudit.Json

/-! ## Effects -/

/-- The second result is what a change makes of the first one: it keeps what was decoded, or it
spoils it with a fault. Nothing is said of what was not decoded in the first place. -/
def Turns (effect : Option DecodeFault) {α : Type} (before after : Except DecodeFault α) : Prop :=
  ∀ a, before = .ok a → after = match effect with
    | none => .ok a
    | some fault => .error fault

variable {effect : Option DecodeFault} {α β : Type}

/-- A change has the same effect on what is made of a value. -/
theorem Turns.map {before after : Except DecodeFault α} (h : Turns effect before after)
    (g : α → β) : Turns effect (before.map g) (after.map g) := by
  intro b hb
  cases before with
  | error fault => cases hb
  | ok a =>
    cases hb
    rw [h a rfl]
    cases effect <;> rfl

/-- A value that is given keeps being given. -/
theorem Turns.optional {decode : Tree → Except DecodeFault α} {t t' : Tree} (ht : t ≠ .null)
    (ht' : t' ≠ .null) (h : Turns effect (decode t) (decode t')) :
    Turns effect (decodeOptional decode t) (decodeOptional decode t') := by
  have hgiven : ∀ u : Tree, u ≠ .null → decodeOptional decode u = (decode u).map some := by
    intro u hu
    rw [decodeOptional.eq_def]
    split
    · exact absurd rfl hu
    · rfl
  rw [hgiven t ht, hgiven t' ht']
  exact h.map some

/-- A change of one item. -/
theorem decodeItems_turns {item : Tree → Except DecodeFault α} {t t' : Tree}
    (h : Turns effect (item t) (item t')) (closed : Bool) (before after : List Tree) :
    Turns effect (decodeItems item closed (before ++ t :: after))
      (decodeItems item closed (before ++ t' :: after)) := by
  induction before with
  | nil =>
    intro as has
    rw [List.nil_append, decodeItems] at has ⊢
    cases ht : item t with
    | error fault =>
      rw [ht] at has
      cases has
    | ok a =>
      rw [ht] at has
      rw [h a ht]
      cases effect with
      | none => exact has
      | some fault => rfl
  | cons u before ih =>
    intro as has
    rw [List.cons_append, decodeItems] at has ⊢
    cases hu : item u with
    | error fault =>
      rw [hu] at has
      cases has
    | ok a =>
      rw [hu] at has
      cases hrest : decodeItems item closed (before ++ t :: after) with
      | error fault =>
        rw [hrest] at has
        cases has
      | ok others =>
        rw [hrest] at has
        rw [ih others hrest]
        cases has
        -- What is spoiled by a later item stays spoiled behind earlier ones.
        cases effect <;> rfl

namespace Layout

variable {F : Type} [DecidableEq F] {l : Layout F α}

/-! ## A change inside a value -/

/-- Members are decoded in two parts, the second one with what the first one gave. -/
theorem decodeMembers_append (given : List F) (record : α)
    (first rest : List (Option String × Tree)) :
    l.decodeMembers given record (first ++ rest) =
      match l.decodeMembers given record first with
      | .ok (given, record) => l.decodeMembers given record rest
      | .error fault => .error fault := by
  induction first generalizing given record with
  | nil => rfl
  | cons m first ih =>
    obtain ⟨key, t⟩ := m
    cases key with
    | none => rfl
    | some key =>
      rw [List.cons_append, decodeMembers, decodeMembers]
      cases l.field? key with
      | none =>
        dsimp only
        split
        · exact ih _ _
        · rfl
      | some f =>
        dsimp only
        split
        · rfl
        · cases l.take f t record with
          | error fault => rfl
          | ok next => exact ih _ _

/-- A change in the value of a member has its effect on all members. -/
theorem decodeMembers_turns {key : String} {f : F} (hkey : l.field? key = some f) {t t' : Tree}
    (h : ∀ record, Turns effect (l.take f t record) (l.take f t' record))
    (before after : List (Option String × Tree)) (given : List F) (record : α) :
    Turns effect (l.decodeMembers given record (before ++ (some key, t) :: after))
      (l.decodeMembers given record (before ++ (some key, t') :: after)) := by
  intro result hok
  rw [decodeMembers_append] at hok ⊢
  cases hbefore : l.decodeMembers given record before with
  | error fault =>
    rw [hbefore] at hok
    cases hok
  | ok decoded =>
    obtain ⟨given, record⟩ := decoded
    rw [hbefore] at hok
    dsimp only at hok ⊢
    obtain ⟨hnew, next, htake, hrest⟩ := (decodeMembers_cons_of_field hkey).mp hok
    rw [decodeMembers, hkey]
    dsimp only
    rw [if_neg hnew, h record next htake]
    cases effect with
    | none => exact hrest
    | some fault => rfl

/-- What changes the decoded members changes the record. -/
theorem decode_object_turns {members members' : List (Option String × Tree)}
    (h : Turns effect (l.decodeMembers [] l.start members) (l.decodeMembers [] l.start members'))
    (mayOpen closed : Bool) :
    Turns effect (l.decode mayOpen (.object members closed))
      (l.decode mayOpen (.object members' closed)) := by
  intro result hok
  rw [decode] at hok ⊢
  cases mayOpen with
  | false => cases hok
  | true =>
    rw [Bool.not_true, if_neg Bool.false_ne_true] at hok ⊢
    cases hmembers : l.decodeMembers [] l.start members with
    | error fault =>
      rw [hmembers] at hok
      cases hok
    | ok decoded =>
      rw [hmembers] at hok
      rw [h decoded hmembers]
      cases effect with
      | none => exact hok
      | some fault => rfl

omit [DecidableEq F] in
/-- A change of one item of a record that is written as a list. -/
theorem decodePositions_turns {f : F} {t t' : Tree}
    (h : ∀ record, Turns effect (l.take f t record) (l.take f t' record)) (closed : Bool)
    (before after : List Tree) (position : Nat) (fields : List F)
    (hf : fields[before.length]? = some f) (record : α) :
    Turns effect (l.decodePositions closed position fields (before ++ t :: after) record)
      (l.decodePositions closed position fields (before ++ t' :: after) record) := by
  intro result hok
  -- The position of the changed item decides which field it is for.
  induction before generalizing fields position record with
  | nil =>
    cases fields with
    | nil => cases hf
    | cons g fields =>
      obtain rfl : g = f := Option.some.inj hf
      rw [List.nil_append, decodePositions] at hok ⊢
      cases htake : l.take g t record with
      | error fault =>
        rw [htake] at hok
        cases hok
      | ok next =>
        rw [htake] at hok
        rw [h record next htake]
        cases effect with
        | none => exact hok
        | some fault => rfl
  | cons u before ih =>
    cases fields with
    | nil => cases hf
    | cons g fields =>
      rw [List.cons_append, decodePositions] at hok ⊢
      cases htake : l.take g u record with
      | error fault =>
        rw [htake] at hok
        cases hok
      | ok next =>
        rw [htake] at hok
        exact ih (position + 1) fields hf next hok

/-! ## Members in another order -/

/-- The fields of a record may be taken in any order. -/
def Commutes (l : Layout F α) : Prop :=
  ∀ ⦃f g : F⦄, f ≠ g → ∀ ⦃t u : Tree⦄ ⦃record next result : α⦄, l.take f t record = .ok next →
    l.take g u next = .ok result →
      ∃ other, l.take g u record = .ok other ∧ l.take f t other = .ok result

omit [DecidableEq F] in
/-- Distinct fields that commute may be put into a record in any order. -/
theorem takeAll_perm (hcommutes : l.Commutes) {entries entries' : List (F × Tree)}
    (hperm : entries.Perm entries') (hdistinct : (entries.map (·.1)).Nodup) {record result : α}
    (hok : l.takeAll entries record = .ok result) : l.takeAll entries' record = .ok result := by
  induction hperm generalizing record with
  | nil => exact hok
  | cons entry _ ih =>
    rw [takeAll_cons_eq_ok_iff] at hok ⊢
    obtain ⟨next, htake, hrest⟩ := hok
    rw [List.map_cons, List.nodup_cons] at hdistinct
    exact ⟨next, htake, ih hdistinct.2 hrest⟩
  | swap entry entry' rest =>
    rw [takeAll_cons_eq_ok_iff] at hok
    obtain ⟨next, htake', hok⟩ := hok
    rw [takeAll_cons_eq_ok_iff] at hok
    obtain ⟨last, htake, hrest⟩ := hok
    have hne : entry'.1 ≠ entry.1 := by
      rw [List.map_cons, List.map_cons, List.nodup_cons] at hdistinct
      exact fun heq => hdistinct.1 (heq ▸ List.mem_cons_self)
    obtain ⟨other, hfirst, hsecond⟩ := hcommutes hne htake' htake
    exact takeAll_cons hfirst (takeAll_cons hsecond hrest)
  | trans hfirst _ ih ih' =>
    have hdistinct' := (hfirst.map (·.1)).nodup_iff.mp hdistinct
    exact ih' hdistinct' (ih hdistinct hok)

/-- The order of the members of a record does not matter. -/
theorem decode_object_perm (hcommutes : l.Commutes) {members members' : List (Option String × Tree)}
    (hperm : members.Perm members') (mayOpen closed : Bool) :
    Turns none (l.decode mayOpen (.object members closed))
      (l.decode mayOpen (.object members' closed)) := by
  intro result hok
  obtain ⟨hopen, hclosed, hpass, hdistinct, htake, hrequired⟩ := decode_object_eq_ok_iff.mp hok
  have hentries : (l.entries members).Perm (l.entries members') := hperm.filterMap _
  have hkeys := hentries.map (·.1)
  refine decode_object_eq_ok_iff.mpr ⟨hopen, hclosed, ?_, ?_, ?_, ?_⟩
  · exact fun m hm => hpass m (hperm.mem_iff.mpr hm)
  · exact hkeys.nodup_iff.mp hdistinct
  · exact takeAll_perm hcommutes hentries hdistinct htake
  · exact fun f hf hf' => hkeys.mem_iff.mp (hrequired f hf hf')

/-! ## Members that name no field -/

/-- A well-formed member that names no field may be added anywhere. -/
theorem decode_object_added {key : String} (hkey : l.field? key = none) {t : Tree}
    (hformed : t.wellFormed) (before after : List (Option String × Tree)) (mayOpen closed : Bool) :
    Turns none (l.decode mayOpen (.object (before ++ after) closed))
      (l.decode mayOpen (.object (before ++ (some key, t) :: after) closed)) := by
  refine decode_object_turns (fun decoded hok => ?_) mayOpen closed
  rw [decodeMembers_append] at hok ⊢
  cases hbefore : l.decodeMembers [] l.start before with
  | error fault =>
    rw [hbefore] at hok
    cases hok
  | ok decoded =>
    rw [hbefore] at hok
    exact (decodeMembers_cons_of_none hkey).mpr ⟨hformed, hok⟩

/-! ## Fields that are named twice or left out -/

/-- A field that is named again is a duplicate, under whichever of its names. -/
theorem decode_object_repeated {key key' : String} {f : F} (hkey : l.field? key = some f)
    (hkey' : l.field? key' = some f) (t u : Tree)
    (before middle after : List (Option String × Tree))
    (mayOpen closed : Bool) :
    Turns (some (.duplicate (l.name f)))
      (l.decode mayOpen (.object (before ++ (some key, t) :: middle ++ after) closed))
      (l.decode mayOpen
        (.object (before ++ (some key, t) :: middle ++ (some key', u) :: after) closed)) := by
  refine decode_object_turns (fun decoded hok => ?_) mayOpen closed
  rw [decodeMembers_append] at hok ⊢
  cases hfirst : l.decodeMembers [] l.start (before ++ (some key, t) :: middle) with
  | error fault =>
    rw [hfirst] at hok
    cases hok
  | ok decoded =>
    obtain ⟨given, record⟩ := decoded
    obtain ⟨-, -, -, -, rfl⟩ := decodeMembers_eq_ok_iff.mp hfirst
    have hgiven :
        f ∈ ((l.entries (before ++ (some key, t) :: middle)).map (·.1)).reverse ++ [] := by
      rw [List.append_nil, List.mem_reverse, List.mem_map]
      refine ⟨(f, t), List.mem_filterMap.mpr ⟨(some key, t), ?_, ?_⟩, rfl⟩
      · exact List.mem_append_right before List.mem_cons_self
      · rw [Option.bind_some, hkey]
        rfl
    dsimp only
    rw [decodeMembers, hkey']
    dsimp only
    rw [if_pos hgiven]

/-- Whether a field can be taken does not depend on the record. -/
def Independent (l : Layout F α) : Prop :=
  ∀ ⦃f : F⦄ ⦃t : Tree⦄ ⦃record next : α⦄, l.take f t record = .ok next →
    ∀ other, ∃ result, l.take f t other = .ok result

omit [DecidableEq F] in
/-- Entries can be left out where the fields are decoded independently. -/
theorem takeAll_filter (hindependent : l.Independent) (p : F × Tree → Bool)
    {entries : List (F × Tree)} {record result : α} (hok : l.takeAll entries record = .ok result)
    (other : α) : ∃ result, l.takeAll (entries.filter p) other = .ok result := by
  induction entries generalizing record other with
  | nil => exact ⟨other, rfl⟩
  | cons entry rest ih =>
    obtain ⟨next, htake, hrest⟩ := takeAll_cons_eq_ok_iff.mp hok
    rw [List.filter_cons]
    split
    · obtain ⟨other, htake'⟩ := hindependent htake other
      obtain ⟨result, hresult⟩ := ih hrest other
      exact ⟨result, takeAll_cons htake' hresult⟩
    · exact ih hrest other

/-- Members other than those that name a certain field. -/
def without (l : Layout F α) (f : F) (members : List (Option String × Tree)) :
    List (Option String × Tree) :=
  members.filter fun m => m.1.bind l.field? != some f

/-- Leaving a field out leaves out its entries. -/
theorem entries_without (f : F) (members : List (Option String × Tree)) :
    l.entries (l.without f members) = (l.entries members).filter (·.1 != f) := by
  rw [entries, without, List.filterMap_filter, entries, List.filter_filterMap]
  congr 1
  funext m
  cases m.1.bind l.field? with
  | none => rfl
  | some g =>
    by_cases hg : g = f
    · subst hg
      simp [Option.filter]
    · simp [Option.filter, hg]

/-- A field is given where another one was left out if it was given before. -/
theorem mem_fields_without {f g : F} {members : List (Option String × Tree)} :
    g ∈ (l.entries (l.without f members)).map (·.1) ↔
      g ∈ (l.entries members).map (·.1) ∧ g ≠ f := by
  rw [entries_without]
  simp only [List.mem_map, List.mem_filter, bne_iff_ne]
  constructor
  · rintro ⟨entry, ⟨hentry, hne⟩, rfl⟩
    exact ⟨⟨entry, hentry, rfl⟩, hne⟩
  · rintro ⟨⟨entry, hentry, rfl⟩, hne⟩
    exact ⟨entry, ⟨hentry, hne⟩, rfl⟩

/-- A required field that is left out is missed. -/
theorem decode_object_leftOut (hindependent : l.Independent) {f : F} (hf : f ∈ l.fields)
    (hrequired : l.required f) (members : List (Option String × Tree)) (mayOpen closed : Bool) :
    Turns (some (.missing (l.name f))) (l.decode mayOpen (.object members closed))
      (l.decode mayOpen (.object (l.without f members) closed)) := by
  intro result hok
  obtain ⟨rfl, rfl, hpass, hdistinct, htake, hall⟩ := decode_object_eq_ok_iff.mp hok
  obtain ⟨record, hrecord⟩ := takeAll_filter hindependent (·.1 != f) htake l.start
  have hentries := entries_without (l := l) f members
  have hkeys : ((l.entries (l.without f members)).map (·.1)).Sublist
      ((l.entries members).map (·.1)) := by
    rw [hentries]
    exact List.filter_sublist.map _
  have hmembers : l.decodeMembers [] l.start (l.without f members) =
      .ok (((l.entries (l.without f members)).map (·.1)).reverse ++ [], record) := by
    refine decodeMembers_eq_ok_iff.mpr ⟨?_, hdistinct.sublist hkeys, fun _ _ => nofun, ?_, rfl⟩
    · exact fun m hm => hpass m (List.mem_of_mem_filter hm)
    · rw [hentries]
      exact hrecord
  -- Only the field that was left out is required and not given.
  have hfind : (l.fields.find? fun g =>
      l.required g && g ∉ ((l.entries (l.without f members)).map (·.1)).reverse ++ []) =
        some f := by
    have hmissed : ∀ g ∈ l.fields, (l.required g &&
        g ∉ ((l.entries (l.without f members)).map (·.1)).reverse ++ []) = true ↔ g = f := by
      intro g hg
      rw [Bool.and_eq_true, decide_eq_true_eq, List.append_nil, List.mem_reverse,
        mem_fields_without]
      constructor
      · rintro ⟨hg', hnot⟩
        by_contra hne
        exact hnot ⟨hall g hg hg', hne⟩
      · rintro rfl
        exact ⟨hrequired, fun h => h.2 rfl⟩
    cases hfound : l.fields.find? fun g =>
        l.required g && g ∉ ((l.entries (l.without f members)).map (·.1)).reverse ++ [] with
    | none => exact absurd ((hmissed f hf).mpr rfl) (List.find?_eq_none.mp hfound f hf)
    | some g =>
      have hg := List.find?_some hfound
      rw [(hmissed g (List.mem_of_find?_eq_some hfound)).mp hg]
  rw [decode]
  simp only [Bool.not_true, Bool.false_eq_true, if_false, hmembers, hfind]

end Layout

/-! ## Names in faults -/

/-- A fault that names a field as missing or as a duplicate does so by one of the given names. -/
def DecodeFault.Names (required all : String → Prop) : DecodeFault → Prop
  | .missing name => required name
  | .duplicate name => all name
  | _ => True

variable {required all : String → Prop}

/-- A value of another form is refused without naming a field. -/
theorem names_of_refuse {wanted : String} {t : Tree} {fault : DecodeFault}
    (herror : (refuse wanted t : Except DecodeFault α) = .error fault) :
    fault.Names required all := by
  have hfound : ∀ u : Tree, ∀ fault, u.found = .error fault → fault.Names required all := by
    intro u fault h
    rw [Tree.found.eq_def] at h
    repeat' split at h
    all_goals cases h
    all_goals trivial
  rw [refuse] at herror
  split at herror
  · cases herror
    trivial
  · cases herror
    exact hfound t fault ‹_›

/-- What is made of a value has no other faults than the value. -/
theorem names_of_map {β : Type} {x : Except DecodeFault α} {g : α → β} {fault : DecodeFault}
    (hx : ∀ fault, x = .error fault → fault.Names required all) (herror : x.map g = .error fault) :
    fault.Names required all := by
  cases x with
  | ok a => cases herror
  | error other =>
    cases herror
    exact hx _ rfl

/-- No fault of a text names a field. -/
theorem names_of_decodeText {wanted : String} {t : Tree} {fault : DecodeFault}
    (herror : decodeText wanted t = .error fault) : fault.Names required all := by
  rw [decodeText.eq_def] at herror
  split at herror
  · cases herror
  · exact names_of_refuse herror

/-- No fault of an id names a field. -/
theorem names_of_decodeId {room : Nat} {t : Tree} {fault : DecodeFault}
    (herror : decodeId room t = .error fault) : fault.Names required all := by
  unfold decodeId at herror
  repeat' split at herror
  all_goals cases herror
  all_goals trivial

/-- The items of a list have no other faults than each by itself. -/
theorem names_of_decodeItems {item : Tree → Except DecodeFault α} {closed : Bool}
    {items : List Tree}
    (hitem : ∀ t ∈ items, ∀ fault, item t = .error fault → fault.Names required all)
    {fault : DecodeFault} (herror : decodeItems item closed items = .error fault) :
    fault.Names required all := by
  induction items with
  | nil =>
    rw [decodeItems] at herror
    split at herror
    · cases herror
    · cases herror
      trivial
  | cons t rest ih =>
    rw [decodeItems] at herror
    cases ht : item t with
    | error other =>
      rw [ht] at herror
      cases herror
      exact hitem t List.mem_cons_self _ ht
    | ok a =>
      rw [ht] at herror
      cases hrest : decodeItems item closed rest with
      | error other =>
        rw [hrest] at herror
        cases herror
        exact ih (fun u hu => hitem u (List.mem_cons_of_mem t hu)) hrest
      | ok others =>
        rw [hrest] at herror
        cases herror

namespace Layout

variable {F : Type} [DecidableEq F] {l : Layout F α} {fault : DecodeFault}

/-- A field that is named twice is told by its canonical name, and so are the faults of values. -/
theorem names_of_decodeMembers (hall : ∀ f, all (l.name f)) {members : List (Option String × Tree)}
    (htake : ∀ m ∈ members, ∀ f record fault, l.take f m.2 record = .error fault →
      fault.Names required all)
    {given : List F} {record : α} (herror : l.decodeMembers given record members = .error fault) :
    fault.Names required all := by
  induction members generalizing given record with
  | nil => cases herror
  | cons m rest ih =>
    obtain ⟨key, t⟩ := m
    have htakeRest : ∀ m ∈ rest, ∀ f record fault, l.take f m.2 record = .error fault →
        fault.Names required all := fun m hm => htake m (List.mem_cons_of_mem _ hm)
    cases key with
    | none =>
      cases herror
      trivial
    | some key =>
      rw [decodeMembers] at herror
      split at herror
      · split at herror
        · exact ih htakeRest herror
        · cases herror
          trivial
      · rename_i f _
        split at herror
        · cases herror
          exact hall f
        · split at herror
          · exact ih htakeRest herror
          · rename_i htaken
            cases herror
            exact htake _ List.mem_cons_self f record _ htaken

omit [DecidableEq F] in
/-- The fields of a record that is written as a list have no other faults than their values. -/
theorem names_of_decodePositions {items : List Tree}
    (htake : ∀ t ∈ items, ∀ f record fault, l.take f t record = .error fault →
      fault.Names required all)
    {closed : Bool} {position : Nat} {fields : List F} {record : α}
    (herror : l.decodePositions closed position fields items record = .error fault) :
    fault.Names required all := by
  induction fields generalizing items position record with
  | nil =>
    cases items <;>
    · rw [decodePositions] at herror
      split at herror
      · cases herror
      · cases herror
        trivial
  | cons f fields ih =>
    cases items with
    | nil =>
      rw [decodePositions] at herror
      split at herror
      · cases herror
        trivial
      · split at herror
        · cases herror
          trivial
        · exact ih htake herror
    | cons t rest =>
      rw [decodePositions] at herror
      split at herror
      · exact ih (fun u hu => htake u (List.mem_cons_of_mem t hu)) herror
      · rename_i htaken
        cases herror
        exact htake t List.mem_cons_self f record _ htaken

/-- The faults of a record name its own fields, or are faults of its values. -/
theorem names_of_decode (hrequired : ∀ f, l.required f → required (l.name f))
    (hall : ∀ f, all (l.name f)) {t : Tree}
    (htake : ∀ u ∈ t.parts, ∀ f record fault, l.take f u record = .error fault →
      fault.Names required all)
    {mayOpen : Bool} (herror : l.decode mayOpen t = .error fault) : fault.Names required all := by
  rw [decode.eq_def] at herror
  split at herror
  · rename_i members closed
    split at herror
    · cases herror
      trivial
    · split at herror
      · rename_i hmembers
        cases herror
        exact names_of_decodeMembers hall
          (fun m hm => htake m.2 (List.mem_map_of_mem hm)) hmembers
      · split at herror
        · cases herror
          trivial
        · split at herror
          · rename_i f hfind
            cases herror
            have hmissing := List.find?_some hfind
            rw [Bool.and_eq_true] at hmissing
            exact hrequired f hmissing.1
          · cases herror
  · split at herror
    · cases herror
      trivial
    · exact names_of_decodePositions htake herror
  · exact names_of_refuse herror

end Layout

end FeedAudit.Json

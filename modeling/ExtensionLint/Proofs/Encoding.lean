import ExtensionLint.Json.Decode
import ExtensionLint.Proofs.Acceptance
import ExtensionLint.Proofs.SoundValues

/-!
Values that stand for data. Such a value meets a schema, is decoded as the data, and has only
integers of 64 bits and ascending members, so that its text can be read back. Values that stand for
parts make up values that stand for the whole: the items of a list, and the fields of a record.
-/

namespace ExtensionLint.Json

variable {α : Type}

/-- Says that a value meets a schema, can be written and read, and is decoded as given data. -/
structure Stores (schema : Schema) (decode : Json → Decoded α) (value : Json) (data : α) : Prop where
  accepted : schema.Accepts value
  sound : value.Sound Number.FitsExactly
  decoded : decode value = .ok data

section Parts

theorem stores_string (s : String) : Stores Schema.string decodeString (.string s) s :=
  ⟨Schema.accepts_string.mpr ⟨s, rfl⟩, sound_string s, rfl⟩

theorem stores_nonEmptyString {s : String} (h : s ≠ "") :
    Stores Schema.nonEmptyString decodeString (.string s) s :=
  ⟨Schema.accepts_nonEmptyString.mpr ⟨s, rfl, h⟩, sound_string s, rfl⟩

theorem stores_optionalString {s : String} (h : s ≠ "") :
    Stores Schema.nonEmptyString (decodeOption decodeString) (.string s) (some s) :=
  ⟨Schema.accepts_nonEmptyString.mpr ⟨s, rfl, h⟩, sound_string s, rfl⟩

theorem stores_bool (b : Bool) : Stores Schema.boolean decodeBool (.bool b) b :=
  ⟨Schema.accepts_boolean.mpr ⟨b, rfl⟩, sound_bool b, rfl⟩

theorem stores_bound {n : Nat} (hleast : 1 ≤ n) (hmost : n ≤ Text.word64Max) :
    Stores Schema.gateBound (decodeOption decodeNat) (.ofNat n) (some n) where
  accepted := Schema.accepts_gateBound.mpr ⟨.integer n, n, rfl, by simp [Number.value?], hleast⟩
  sound := sound_number.mpr (Number.fits_natCast hmost)
  decoded := rfl

theorem stores_list {schema : Schema} {decode : Json → Decoded α} {encode : α → Json}
    {data : List α} (h : ∀ entry ∈ data, Stores schema decode (encode entry) entry) :
    Stores (Schema.listOf schema) (decodeList decode) (.array (data.map encode)) data := by
  refine ⟨Schema.accepts_listOf.mpr ⟨_, rfl, ?_⟩, sound_array.mpr ?_, ?_⟩
  · exact List.forall_mem_map.mpr fun entry hentry => (h entry hentry).accepted
  · exact List.forall_mem_map.mpr fun entry hentry => (h entry hentry).sound
  · induction data with
    | nil => rfl
    | cons entry data ih =>
        obtain ⟨hentry, hdata⟩ := List.forall_mem_cons.mp h
        have hrest : (data.map encode).mapM decode = .ok data := ih hdata
        rw [List.map_cons, decodeList, List.mapM_cons, hentry.decoded, hrest]
        rfl

theorem stores_strings (data : List String) :
    Stores Schema.strings (decodeList decodeString) (.ofStrings data) data :=
  stores_list fun s _ => stores_string s

end Parts

section Steps

variable {β : Type}

theorem ok_bind {data : α} {next : α → Decoded β} :
    ((.ok data : Decoded α) >>= next) = next data :=
  rfl

theorem decodeRecord_bind {least most : Nat} {members : List (String × Json)}
    {next : Record → Decoded α} :
    decodeRecord least most (ofMembers members) >>= next =
      next (.named (Object.ofList members).members) :=
  rfl

end Steps

section Records

variable {known : List (String × Schema)} {members : List (String × Json)} {name : String}
  {schema : Schema} {decode : Json → Decoded α} {value : Json} {data : α}

/-- Says that a member is one that a record knows, and stores data. -/
def StoresMember (known : List (String × Schema)) (member : String × Json) : Prop :=
  ∃ schema, known.lookup member.1 = some schema ∧ schema.Accepts member.2 ∧
    member.2.Sound Number.FitsExactly

theorem Stores.member (h : Stores schema decode value data)
    (hknown : known.lookup name = some schema) : StoresMember known (name, value) :=
  ⟨schema, hknown, h.accepted, h.sound⟩

/-- Members that store data make up an object that has known properties only. -/
theorem closed_ofMembers (h : ∀ member ∈ members, StoresMember known member) :
    (Schema.closed known).Accepts (ofMembers members) ∧
      (ofMembers members).Sound Number.FitsExactly := by
  constructor
  · refine Schema.accepts_closed.mpr fun member hmember => ?_
    obtain ⟨schema, hknown, haccepts, -⟩ := h member (Object.mem_of_mem_ofList hmember)
    exact ⟨schema, hknown, haccepts⟩
  · refine sound_toJson.mpr fun member hmember => ?_
    obtain ⟨-, -, -, hsound⟩ := h member (Object.mem_of_mem_ofList hmember)
    exact hsound

theorem stores_closedRecord (hnodup : (members.map Prod.fst).Nodup)
    (hmembers : ∀ member ∈ members, StoresMember known member)
    (hdecoded : (members.map Prod.fst).Nodup → decode (ofMembers members) = .ok data) :
    Stores (Schema.closedRecord known) decode (ofMembers members) data := by
  obtain ⟨hclosed, hsound⟩ := closed_ofMembers hmembers
  exact ⟨Schema.accepts_closedRecord.mpr ⟨_, rfl, hclosed⟩, hsound, hdecoded hnodup⟩

section Options

variable {encode : α → Json} {key : String}

/-- A member for data that may be missing. -/
def optionMember (name : String) (encode : α → Json) (data : Option α) : List (String × Json) :=
  (data.map fun entry => (name, encode entry)).toList

theorem lookup_optionMember {data : Option α} :
    (optionMember name encode data).lookup key = if key = name then data.map encode else none := by
  cases data with
  | none => simp [optionMember]
  | some entry =>
      by_cases hkey : key = name
      · simp [optionMember, hkey]
      · simp [optionMember, List.lookup_cons, beq_eq_false_iff_ne.mpr hkey, hkey]

theorem storesMember_optionMember {data : Option α}
    (hknown : known.lookup name = some schema)
    (h : ∀ entry ∈ data, Stores schema (decodeOption decode) (encode entry) (some entry)) :
    ∀ member ∈ optionMember name encode data, StoresMember known member := by
  cases data with
  | none => exact fun _ hmember => absurd hmember List.not_mem_nil
  | some entry => exact List.forall_mem_singleton.mpr ((h entry rfl).member hknown)

end Options

variable {position : Nat} (hnodup : (members.map Prod.fst).Nodup)
include hnodup

theorem require_ofList (hlookup : members.lookup name = some value)
    (h : Stores schema decode value data) :
    (Record.named (Object.ofList members).members).require position name decode = .ok data := by
  rw [Record.require, Record.field?, Object.get?_ofList hnodup, hlookup]
  exact h.decoded

theorem getD_ofList {standard : α} (hlookup : members.lookup name = some value)
    (h : Stores schema decode value data) :
    (Record.named (Object.ofList members).members).getD position name decode standard = .ok data := by
  rw [Record.getD, Record.field?, Object.get?_ofList hnodup, hlookup]
  exact h.decoded

/-- A field that is left out when there is no data for it. -/
theorem getD_ofList_option {encode : α → Json} {data : Option α}
    (hlookup : members.lookup name = data.map encode)
    (h : ∀ entry ∈ data, Stores schema (decodeOption decode) (encode entry) (some entry)) :
    (Record.named (Object.ofList members).members).getD position name (decodeOption decode) none =
      .ok data := by
  cases data with
  | some entry => exact getD_ofList hnodup hlookup (h entry rfl)
  | none =>
      rw [Record.getD, Record.field?, Object.get?_ofList hnodup, hlookup]
      rfl

end Records
end ExtensionLint.Json

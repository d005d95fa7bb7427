import ExtensionLint.Json.Decode
import ExtensionLint.Proofs.Acceptance

/-!
How reading accepted data ends. A schema takes a number without a fraction for an integer however it
is written, and a decoder takes it only when it is written as one. So where the schema has accepted a
value, reading it gives data, unless one of the numbers that must be natural is written with a fraction
or an exponent; and steps of reading that end so make up a whole that does.
-/

namespace ExtensionLint.Json

/-- How reading can end, given the numbers that must be natural: they are all written as integers and
there is data as described, or it fails at one of them whose value is natural but not so written. -/
inductive Outcome {α : Type} (naturals : List Json) (described : α → Prop) : Decoded α → Prop where
  | ok {data : α} (hdata : described data)
      (hnaturals : ∀ natural ∈ naturals, ∃ n : Nat, natural = .ofNat n) :
      Outcome naturals described (.ok data)
  | fraction {x : Binary64} {n : Nat} (hfraction : .number (.float x) ∈ naturals)
      (hvalue : x.value? = some (n : ℚ)) :
      Outcome naturals described (.error (.fraction x))

namespace Outcome

variable {α β : Type} {naturals more : List Json} {described : α → Prop} {result : Decoded α}

theorem plain {data : α} (h : described data) : Outcome [] described (.ok data) :=
  .ok h fun _ hmem => absurd hmem List.not_mem_nil

theorem mono {other : α → Prop} (h : Outcome naturals described result)
    (himplies : ∀ data, described data → other data) : Outcome naturals other result := by
  cases h with
  | ok hdata hnaturals => exact .ok (himplies _ hdata) hnaturals
  | fraction hfraction hvalue => exact .fraction hfraction hvalue

theorem map {make : α → β} {whole : β → Prop} (h : Outcome naturals described result)
    (hmake : ∀ data, described data → whole (make data)) :
    Outcome naturals whole (do return make (← result)) := by
  cases h with
  | ok hdata hnaturals => exact .ok (hmake _ hdata) hnaturals
  | fraction hfraction hvalue => exact .fraction hfraction hvalue

/-- Reading on with the data of one step, the numbers of both steps count. -/
theorem bind {next : α → Decoded β} {whole : β → Prop} (h : Outcome naturals described result)
    (hnext : ∀ data, described data → Outcome more whole (next data)) :
    Outcome (naturals ++ more) whole (result >>= next) := by
  cases h with
  | fraction hfraction hvalue => exact .fraction (List.mem_append_left _ hfraction) hvalue
  | @ok data hdata hnaturals =>
      have hsecond := hnext data hdata
      show Outcome _ _ (next data)
      generalize next data = second at hsecond
      cases hsecond with
      | fraction hfraction hvalue => exact .fraction (List.mem_append_right _ hfraction) hvalue
      | ok hwhole hmore =>
          refine .ok hwhole fun natural hnatural => ?_
          rcases List.mem_append.mp hnatural with hfirst | hlater
          · exact hnaturals natural hfirst
          · exact hmore natural hlater

/-- A step without numbers that comes first. -/
theorem plain_bind {next : α → Decoded β} {whole : β → Prop} (h : Outcome [] described result)
    (hnext : ∀ data, described data → Outcome more whole (next data)) :
    Outcome more whole (result >>= next) :=
  h.bind hnext

/-- Steps without numbers that come last. -/
theorem bind_plain {next : α → Decoded β} {whole : β → Prop} (h : Outcome naturals described result)
    (hnext : ∀ data, described data → Outcome [] whole (next data)) :
    Outcome naturals whole (result >>= next) := by
  have hboth := h.bind hnext
  rwa [List.append_nil] at hboth

theorem mapM {items : List Json} {decode : Json → Decoded α} {naturalsOf : Json → List Json}
    (h : ∀ item ∈ items, Outcome (naturalsOf item) described (decode item)) :
    Outcome (items.flatMap naturalsOf) (fun data => ∀ entry ∈ data, described entry)
      (items.mapM decode) := by
  induction items with
  | nil => exact .plain fun _ hmem => absurd hmem List.not_mem_nil
  | cons item items ih =>
      rw [List.flatMap_cons, List.mapM_cons]
      refine (h item (List.mem_cons_self ..)).bind fun first hfirst => ?_
      have hrest := ih fun other hother => h other (List.mem_cons_of_mem _ hother)
      exact hrest.map fun rest hrest => List.forall_mem_cons.mpr ⟨hfirst, hrest⟩

end Outcome

section Fields

variable {α : Type} {naturals : List Json} {described : α → Prop} {members : Members}
  {position : Nat} {name : String} {decode : Json → Decoded α}

theorem outcome_record {least most : Nat} {next : Record → Decoded α}
    (h : Outcome naturals described (next (.named members))) :
    Outcome naturals described (decodeRecord least most (.object members) >>= next) :=
  h

/-- A field that has a value of its own when it is not there. -/
theorem outcome_getD {standard : α} {naturalsOf : Json → List Json} (hstandard : described standard)
    (hfield : ∀ value, members.get? name = some value →
      Outcome (naturalsOf value) described (decode value)) :
    Outcome ((members.get? name).toList.flatMap naturalsOf) described
      ((Record.named members).getD position name decode standard) := by
  have hnamed : (Record.named members).field? position name = members.get? name := rfl
  rw [Record.getD, hnamed]
  cases hget : members.get? name with
  | none => exact .plain hstandard
  | some value =>
      rw [Option.toList_some, List.flatMap_singleton]
      exact hfield value hget

theorem outcome_getD_plain {standard : α} (hstandard : described standard)
    (hfield : ∀ value, members.get? name = some value → Outcome [] described (decode value)) :
    Outcome [] described ((Record.named members).getD position name decode standard) := by
  have hread : Outcome ((members.get? name).toList.flatMap fun _ => []) described
      ((Record.named members).getD position name decode standard) :=
    outcome_getD hstandard hfield
  rwa [List.flatMap_eq_nil_iff.mpr fun _ _ => rfl] at hread

theorem outcome_require {value : Json} (hget : members.get? name = some value)
    (h : Outcome naturals described (decode value)) :
    Outcome naturals described ((Record.named members).require position name decode) := by
  have hnamed : (Record.named members).field? position name = some value := hget
  rw [Record.require, hnamed]
  exact h

end Fields

section Accepted

variable {α : Type} {value : Json}

theorem outcome_decodeString (h : Schema.string.Accepts value) :
    Outcome [] (fun _ => True) (decodeString value) := by
  obtain ⟨s, rfl⟩ := Schema.accepts_string.mp h
  exact .plain trivial

theorem outcome_decodeNonEmptyString (h : Schema.nonEmptyString.Accepts value) :
    Outcome [] (· ≠ "") (decodeString value) := by
  obtain ⟨s, rfl, hs⟩ := Schema.accepts_nonEmptyString.mp h
  exact .plain hs

theorem outcome_decodeBool (h : Schema.boolean.Accepts value) :
    Outcome [] (fun _ => True) (decodeBool value) := by
  obtain ⟨b, rfl⟩ := Schema.accepts_boolean.mp h
  exact .plain trivial

/-- A text that may be missing is not empty when it is there. -/
theorem outcome_decodeOptionalString (h : Schema.nonEmptyString.Accepts value) :
    Outcome [] (· ≠ some "") (decodeOption decodeString value) := by
  obtain ⟨s, rfl, hs⟩ := Schema.accepts_nonEmptyString.mp h
  exact .plain fun hempty => hs (Option.some.inj hempty)

/-- A bound of a gate is the one number that must be natural. -/
theorem outcome_decodeBound (h : Schema.gateBound.Accepts value) :
    Outcome [value] (fun bound => ∀ n ∈ bound, 1 ≤ n ∧ value = .ofNat n)
      (decodeOption decodeNat value) := by
  obtain ⟨number, n, rfl, hvalue, hleast⟩ := Schema.accepts_gateBound.mp h
  cases number with
  | float x => exact .fraction (List.mem_singleton_self _) hvalue
  | integer i =>
      obtain rfl : i = n := by exact_mod_cast Option.some.inj hvalue
      refine .ok ?_ fun natural hnatural => ⟨n, List.mem_singleton.mp hnatural⟩
      rintro _ ⟨rfl⟩
      exact ⟨hleast, rfl⟩

theorem outcome_decodeList {schema : Schema} {decode : Json → Decoded α}
    {naturalsOf : Json → List Json} {described : α → Prop} (h : (Schema.listOf schema).Accepts value)
    (hitem : ∀ items, value = .array items → ∀ item ∈ items, schema.Accepts item →
      Outcome (naturalsOf item) described (decode item)) :
    Outcome ((value.items?.getD []).flatMap naturalsOf) (fun data => ∀ entry ∈ data, described entry)
      (decodeList decode value) := by
  obtain ⟨items, rfl, hitems⟩ := Schema.accepts_listOf.mp h
  exact Outcome.mapM fun item hmem => hitem items rfl item hmem (hitems item hmem)

theorem outcome_decodeList_plain {schema : Schema} {decode : Json → Decoded α}
    {described : α → Prop} (h : (Schema.listOf schema).Accepts value)
    (hitem : ∀ item, schema.Accepts item → Outcome [] described (decode item)) :
    Outcome [] (fun data => ∀ entry ∈ data, described entry) (decodeList decode value) := by
  have hread : Outcome ((value.items?.getD []).flatMap fun _ => [])
      (fun data => ∀ entry ∈ data, described entry) (decodeList decode value) :=
    outcome_decodeList h fun _ _ item _ haccepts => hitem item haccepts
  rwa [List.flatMap_eq_nil_iff.mpr fun _ _ => rfl] at hread

end Accepted
end ExtensionLint.Json

import ExtensionLint.Configuration.Basic
import ExtensionLint.Proofs.Decoding
import ExtensionLint.Proofs.ReaderSoundness

/-!
Configurations that the schema accepts. The schema and the decoder describe the same records, fields
and types, with one exception: a bound of a gate is an integer to the schema also when it is written
with a fraction or an exponent. So an accepted configuration loads exactly when its bounds are written
as integers, and what is loaded keeps the limits that the schema sets.
-/

namespace ExtensionLint

open Json (Number Outcome)

/-- Holds of ranges whose bounds are positive and fit 64 bits. -/
def VersionRange.Loadable (range : VersionRange) : Prop :=
  ∀ n, range.max = some n ∨ range.min = some n → 1 ≤ n ∧ n ≤ Text.word64Max

namespace Annotations

/-- Holds of annotations whose version ranges may be loaded. -/
structure Loadable (annotations : Annotations) : Prop where
  propertyGates : ∀ gate ∈ annotations.propertyGates, gate.range.Loadable
  permissionGates : ∀ gate ∈ annotations.permissionGates, gate.range.Loadable

theorem loadable_standard : standard.Loadable := by
  constructor
  · simp [standard, VersionRange.Loadable, Text.word64Max]
  · simp [standard]

/-- The bounds that a gate has. -/
def boundsOfGate (gate : Json) : List Json := (gate.get? "max").toList ++ (gate.get? "min").toList

/-- The bounds that the gates of a table have. -/
def boundsOfTable (table : Json) : List Json := (table.items?.getD []).flatMap boundsOfGate

/-- The bounds that the gates of annotations have. -/
def boundsOf (annotations : Json) : List Json :=
  (annotations.get? "manifest_version_gates").toList.flatMap boundsOfTable ++
    (annotations.get? "permission_gates").toList.flatMap boundsOfTable

section Gates

variable {members : Json.Members} {subject : String}

theorem outcome_decodeRange
    (h : (Schema.closed (Schema.gateFields subject)).Accepts (.object members)) :
    Outcome (boundsOfGate (.object members))
      (fun range => (Json.object members).Sound Number.Fits → range.Loadable)
      (decodeRange (.named members)) := by
  have hfield : ∀ position name, (name = "max" ∨ name = "min") →
      Outcome (members.get? name).toList
        (fun bound => ∀ n ∈ bound, 1 ≤ n ∧
          ((Json.object members).Sound Number.Fits → n ≤ Text.word64Max))
        ((Json.Record.named members).getD position name (Json.decodeOption Json.decodeNat)
          none) := by
    intro position name hname
    rw [← List.flatMap_singleton' (members.get? name).toList]
    refine Json.outcome_getD (by simp) fun value hget => ?_
    have hknown : (Schema.gateFields subject).lookup name = some Schema.gateBound := by
      rcases hname with rfl | rfl <;> rfl
    refine (Json.outcome_decodeBound (h.member hget hknown)).mono fun bound hall n hn => ?_
    obtain ⟨hleast, rfl⟩ := hall n hn
    refine ⟨hleast, fun hsound => ?_⟩
    have hmember := (Json.sound_object.mp hsound).2 _ (Json.Members.mem_of_get? hget)
    have hfits : Number.Fits (.integer n) := Json.sound_number.mp hmember
    exact_mod_cast hfits.2
  refine (hfield 2 "max" (.inl rfl)).bind fun max hmax => ?_
  refine (hfield 1 "min" (.inr rfl)).map fun min hmin hsound n hn => ?_
  rcases hn with hn | hn
  · exact (hmax n hn).imp_right fun hfits => hfits hsound
  · exact (hmin n hn).imp_right fun hfits => hfits hsound

theorem outcome_gate {α : Type} {value : Json} {make : String → VersionRange → α}
    {rangeOf : α → VersionRange} (hrange : ∀ name range, rangeOf (make name range) = range)
    (hsubject : subject ≠ "max" ∧ subject ≠ "min") (h : (Schema.gate subject).Accepts value) :
    Outcome (boundsOfGate value) (fun gate => value.Sound Number.Fits → (rangeOf gate).Loadable)
      (do
        let record ← Json.decodeRecord 1 3 value
        let range ← decodeRange record
        return make (← record.require 0 subject Json.decodeString) range) := by
  obtain ⟨members, rfl, hmembers, found, hfound⟩ := Schema.accepts_gate.mp h
  have hknown := Schema.lookup_gateFields hsubject
  have hname : Outcome [] (fun _ => True)
      ((Json.Record.named members).require 0 subject Json.decodeString) :=
    Json.outcome_require hfound (Json.outcome_decodeString (hmembers.member hfound hknown))
  refine Json.outcome_record ((outcome_decodeRange hmembers).bind_plain fun range hloadable => ?_)
  refine hname.map fun name _ => ?_
  rwa [hrange]

end Gates

theorem outcome_decodePropertyGate {value : Json} (h : (Schema.gate "pointer").Accepts value) :
    Outcome (boundsOfGate value) (fun gate => value.Sound Number.Fits → gate.range.Loadable)
      (decodePropertyGate value) :=
  outcome_gate (fun _ _ => rfl) (by decide) h

theorem outcome_decodePermissionGate {value : Json}
    (h : (Schema.gate "permission").Accepts value) :
    Outcome (boundsOfGate value) (fun gate => value.Sound Number.Fits → gate.range.Loadable)
      (decodePermissionGate value) :=
  outcome_gate (fun _ _ => rfl) (by decide) h

theorem outcome_decodeDeprecated {value : Json} (h : Schema.deprecatedProperty.Accepts value) :
    Outcome [] (fun _ => True) (decodeDeprecated value) := by
  obtain ⟨members, rfl, ⟨pointer, hpointer⟩, ⟨message, hmessage⟩, hmembers⟩ :=
    Schema.accepts_deprecatedProperty.mp h
  have hfirst := Json.outcome_decodeString (hmembers.member hpointer rfl)
  have hsecond := Json.outcome_decodeString (hmembers.member hmessage rfl)
  exact (Json.outcome_require hpointer hfirst).bind fun _ _ =>
    (Json.outcome_require hmessage hsecond).map fun _ _ => trivial

theorem outcome_gates {α : Type} {subject name : String} {position : Nat}
    {decodeGate : Json → Json.Decoded α} {rangeOf : α → VersionRange} {standard : List α}
    {known : List (String × Schema)} {members : Json.Members}
    (hmembers : (Schema.closed known).Accepts (.object members))
    (hknown : known.lookup name = some (Schema.listOf (Schema.gate subject)))
    (hstandard : ∀ gate ∈ standard, (rangeOf gate).Loadable)
    (hgate : ∀ gate, (Schema.gate subject).Accepts gate →
      Outcome (boundsOfGate gate) (fun data => gate.Sound Number.Fits → (rangeOf data).Loadable)
        (decodeGate gate)) :
    Outcome ((members.get? name).toList.flatMap boundsOfTable)
      (fun gates => (Json.object members).Sound Number.Fits →
        ∀ gate ∈ gates, (rangeOf gate).Loadable)
      ((Json.Record.named members).getD position name (Json.decodeList decodeGate) standard) := by
  refine Json.outcome_getD (fun _ => hstandard) fun table hget => ?_
  have hread : Outcome (boundsOfTable table)
      (fun gates => ∀ gate ∈ gates, table.Sound Number.Fits → (rangeOf gate).Loadable)
      (Json.decodeList decodeGate table) := by
    refine Json.outcome_decodeList (hmembers.member hget hknown) fun items hitems item hitem h => ?_
    refine (hgate item h).mono fun gate hloadable hsound => hloadable ?_
    exact Json.sound_array.mp (hitems ▸ hsound) item hitem
  refine hread.mono fun gates hall hsound gate hmem => hall gate hmem ?_
  exact (Json.sound_object.mp hsound).2 _ (Json.Members.mem_of_get? hget)

theorem outcome_decodeStrings {value : Json} (h : Schema.strings.Accepts value) :
    Outcome [] (fun _ => True) (Json.decodeList Json.decodeString value) :=
  (Json.outcome_decodeList_plain h fun _ => Json.outcome_decodeString).mono fun _ _ => trivial

theorem outcome_decode {value : Json} (h : Schema.annotations.Accepts value) :
    Outcome (boundsOf value) (fun annotations => value.Sound Number.Fits → annotations.Loadable)
      (decode value) := by
  obtain ⟨members, rfl, hmembers⟩ := Schema.accepts_closedRecord.mp h
  have hdeprecated : Outcome [] (fun _ => True)
      ((Json.Record.named members).getD 0 "deprecated" (Json.decodeList decodeDeprecated)
        standard.deprecated) :=
    Json.outcome_getD_plain trivial fun table hget =>
      (Json.outcome_decodeList_plain (hmembers.member hget rfl) fun _ =>
        outcome_decodeDeprecated).mono fun _ _ => trivial
  have hstrings : ∀ position name standard,
      (name = "privileged_properties" ∨ name = "privileged_permissions") →
      Outcome [] (fun _ => True)
        ((Json.Record.named members).getD position name (Json.decodeList Json.decodeString)
          standard) := by
    intro position name standard hname
    refine Json.outcome_getD_plain trivial fun table hget => ?_
    refine outcome_decodeStrings (hmembers.member hget ?_)
    rcases hname with rfl | rfl <;> rfl
  have hrequired : Outcome [] (fun _ => True)
      ((Json.Record.named members).getD 5 "amo_permission" Json.decodeString
        standard.requiredPermission) :=
    Json.outcome_getD_plain trivial fun _ hget =>
      Json.outcome_decodeString (hmembers.member hget rfl)
  rw [decode]
  refine Json.outcome_record (hdeprecated.plain_bind fun deprecated _ =>
    (outcome_gates hmembers rfl loadable_standard.propertyGates fun _ =>
      outcome_decodePropertyGate).bind fun propertyGates hproperties =>
    (outcome_gates hmembers rfl loadable_standard.permissionGates fun _ =>
      outcome_decodePermissionGate).bind_plain fun permissionGates hpermissions => ?_)
  refine (hstrings 3 _ _ (.inl rfl)).plain_bind fun _ _ =>
    (hstrings 4 _ _ (.inr rfl)).plain_bind fun _ _ => hrequired.map fun _ _ hwhole => ?_
  exact ⟨hproperties hwhole, hpermissions hwhole⟩

end Annotations

namespace Configuration

/-- Holds of configurations within the limits that the schema sets, with the permissions in order. -/
structure Loadable (configuration : Configuration) : Prop where
  minVersion : configuration.minVersion ≠ some ""
  ascending : configuration.restrictedPermissions.Pairwise fun a b => a.1 < b.1
  restrictedPermissions : ∀ entry ∈ configuration.restrictedPermissions, entry.2 ≠ ""
  blockedHosts : ∀ host ∈ configuration.blockedHosts, host ≠ ""
  restrictedHomepages : ∀ url ∈ configuration.restrictedHomepages, url ≠ ""
  compatibilityData : configuration.compatibilityData ≠ some ""
  annotations : configuration.annotations.Loadable
  baseDirectory : configuration.baseDirectory = none

/-- The bounds that the gates of a configuration have. -/
def gateBounds (value : Json) : List Json :=
  (value.get? "annotations").toList.flatMap Annotations.boundsOf

theorem decodeTexts_object (texts : List (String × String)) :
    decodeTexts (.object (texts.map fun entry => (entry.1, .string entry.2))) = .ok texts := by
  induction texts with
  | nil => rfl
  | cons entry texts ih =>
      have hrest : (texts.map fun entry => (entry.1, Json.string entry.2)).mapM (fun member => do
          let text ← Json.decodeString member.2
          return (member.1, text)) = Except.ok texts := ih
      rw [List.map_cons, decodeTexts, List.mapM_cons, hrest]
      rfl

theorem outcome_decodeTexts {value : Json} (h : (Schema.mapOf Schema.nonEmptyString).Accepts value) :
    Outcome [] (fun texts => value = .object (texts.map fun entry => (entry.1, .string entry.2)) ∧
      ∀ entry ∈ texts, entry.2 ≠ "") (decodeTexts value) := by
  obtain ⟨members, rfl, hmembers⟩ := Schema.accepts_mapOf.mp h
  have hstring : ∀ member ∈ members, ∃ text, member.2 = .string text ∧ text ≠ "" :=
    fun member hmember => Schema.accepts_nonEmptyString.mp (hmembers member hmember)
  clear h hmembers
  have htexts : ∃ texts : List (String × String),
      members = (texts.map fun entry => (entry.1, .string entry.2)) ∧
        ∀ entry ∈ texts, entry.2 ≠ "" := by
    induction members with
    | nil => exact ⟨[], rfl, by simp⟩
    | cons member members ih =>
        obtain ⟨texts, rfl, htexts⟩ := ih fun other hother =>
          hstring other (List.mem_cons_of_mem _ hother)
        obtain ⟨text, htext, hnonempty⟩ := hstring member (List.mem_cons_self ..)
        refine ⟨(member.1, text) :: texts, ?_, List.forall_mem_cons.mpr ⟨hnonempty, htexts⟩⟩
        rw [List.map_cons, ← htext]
  obtain ⟨texts, rfl, hnonempty⟩ := htexts
  rw [decodeTexts_object]
  exact .plain ⟨rfl, hnonempty⟩

theorem outcome_decodeFeatures {value : Json}
    (h : (Schema.closedRecord [("background_service_worker", Schema.boolean)]).Accepts value) :
    Outcome [] (fun _ => True) (decodeFeatures value) := by
  obtain ⟨members, rfl, hmembers⟩ := Schema.accepts_closedRecord.mp h
  exact Json.outcome_record (Json.outcome_getD_plain trivial fun _ hget =>
    Json.outcome_decodeBool (hmembers.member hget rfl))

theorem outcome_decode {value : Json} (h : Schema.configuration.Accepts value) :
    Outcome (gateBounds value)
      (fun configuration => value.Sound Number.Fits → configuration.Loadable) (decode value) := by
  obtain ⟨members, rfl, hmembers⟩ := Schema.accepts_closedRecord.mp h
  have hflag : ∀ position name,
      (name = "privileged" ∨ name = "self_hosted" ∨ name = "already_signed") →
      Outcome [] (fun _ => True)
        ((Json.Record.named members).getD position name Json.decodeBool false) := by
    intro position name hname
    refine Json.outcome_getD_plain trivial fun flag hget => ?_
    refine Json.outcome_decodeBool (hmembers.member hget ?_)
    rcases hname with rfl | rfl | rfl <;> rfl
  have htext : ∀ position name, (name = "min_version" ∨ name = "compat_data") →
      Outcome [] (· ≠ some "")
        ((Json.Record.named members).getD position name (Json.decodeOption Json.decodeString)
          none) := by
    intro position name hname
    refine Json.outcome_getD_plain (by simp) fun text hget => ?_
    refine Json.outcome_decodeOptionalString (hmembers.member hget ?_)
    rcases hname with rfl | rfl <;> rfl
  have hlist : ∀ position name,
      (name = "blocked_content_script_hosts" ∨ name = "restricted_homepage_urls") →
      Outcome [] (fun texts : List String => ∀ text ∈ texts, text ≠ "")
        ((Json.Record.named members).getD position name (Json.decodeList Json.decodeString)
          []) := by
    intro position name hname
    refine Json.outcome_getD_plain (by simp) fun table hget => ?_
    refine Json.outcome_decodeList_plain (hmembers.member hget ?_) fun _ =>
      Json.outcome_decodeNonEmptyString
    rcases hname with rfl | rfl <;> rfl
  have hpermissions : Outcome []
      (fun texts : List (String × String) => ((Json.object members).Sound Number.Fits →
        texts.Pairwise fun a b => a.1 < b.1) ∧ ∀ entry ∈ texts, entry.2 ≠ "")
      ((Json.Record.named members).getD 5 "restricted_permissions" decodeTexts []) := by
    refine Json.outcome_getD_plain (by simp) fun table hget => ?_
    refine (outcome_decodeTexts (hmembers.member hget rfl)).mono fun texts => ?_
    rintro ⟨rfl, hnonempty⟩
    refine ⟨fun hwhole => ?_, hnonempty⟩
    have hsound := (Json.sound_object.mp hwhole).2 _ (Json.Members.mem_of_get? hget)
    have hascending := (Json.sound_object.mp hsound).1
    rwa [Json.Members.Ascending, List.pairwise_map] at hascending
  have hfeatures : Outcome [] (fun _ => True)
      ((Json.Record.named members).getD 3 "features" decodeFeatures false) :=
    Json.outcome_getD_plain trivial fun _ hget =>
      outcome_decodeFeatures (hmembers.member hget rfl)
  have hannotations : Outcome (gateBounds (.object members))
      (fun annotations => (Json.object members).Sound Number.Fits → annotations.Loadable)
      ((Json.Record.named members).getD 9 "annotations" Annotations.decode .standard) := by
    refine Json.outcome_getD (fun _ => Annotations.loadable_standard) fun table hget => ?_
    refine (Annotations.outcome_decode (hmembers.member hget rfl)).mono
      fun annotations hloadable hwhole => hloadable ?_
    exact (Json.sound_object.mp hwhole).2 _ (Json.Members.mem_of_get? hget)
  rw [decode]
  refine Json.outcome_record ?_
  refine (hflag 0 _ (.inl rfl)).plain_bind fun privileged _ =>
    (hflag 1 _ (.inr (.inl rfl))).plain_bind fun selfHosted _ =>
    (hflag 2 _ (.inr (.inr rfl))).plain_bind fun alreadySigned _ =>
    hfeatures.plain_bind fun worker _ =>
    (htext 4 _ (.inl rfl)).plain_bind fun minVersion hminVersion =>
    hpermissions.plain_bind fun permissions hpermissions =>
    (hlist 6 _ (.inl rfl)).plain_bind fun hosts hhosts =>
    (hlist 7 _ (.inr rfl)).plain_bind fun homepages hhomepages =>
    (htext 8 _ (.inr rfl)).plain_bind fun data hdata =>
    hannotations.map fun annotations hannotations hwhole => ?_
  exact ⟨hminVersion, hpermissions.1 hwhole, hpermissions.2, hhosts, hhomepages, hdata,
    hannotations hwhole, rfl⟩

theorem ofValidated_eq {validator : Schema.Validator} {value : Json} (h : validator value = []) :
    ofValidated validator value = (decode value).mapError .mismatch := by
  rw [ofValidated, h]
  cases decode value <;> rfl

/-- A configuration that is accepted loads exactly when the bounds of its gates are written as integers.
Otherwise it fails at a bound whose value is an integer but which is written with a fraction or an
exponent. -/
theorem ofValidated_of_accepted {validator : Schema.Validator}
    (hvalidator : validator.Enforces Schema.configuration) {value : Json}
    (haccepted : validator value = []) :
    ((∃ configuration, ofValidated validator value = .ok configuration) ↔
      ∀ bound ∈ gateBounds value, ∃ n : Nat, bound = .ofNat n) ∧
    (∀ error, ofValidated validator value = .error error → ∃ (x : Binary64) (n : Nat),
      error = .mismatch (.fraction x) ∧ .number (.float x) ∈ gateBounds value ∧
        x.value? = some (n : ℚ)) ∧
    ∀ text, Json.Tolerant.read text = .ok (some value) →
      ofValidatedText validator text = ofValidated validator value := by
  have hread := ofValidated_eq haccepted
  have htext : ∀ text, Json.Tolerant.read text = .ok (some value) →
      ofValidatedText validator text = ofValidated validator value := by
    intro text hvalue
    rw [ofValidatedText, hvalue]
    rfl
  have houtcome := outcome_decode (hvalidator value haccepted)
  generalize decode value = result at hread houtcome
  cases houtcome with
  | @ok configuration _ hnaturals =>
      refine ⟨⟨fun _ => hnaturals, fun _ => ⟨configuration, hread⟩⟩, ?_, htext⟩
      intro error herror
      cases hread.symm.trans herror
  | @fraction x n hfraction hvalue =>
      refine ⟨⟨?_, ?_⟩, ?_, htext⟩
      · rintro ⟨configuration, hloaded⟩
        cases hread.symm.trans hloaded
      · intro hnaturals
        obtain ⟨m, hm⟩ := hnaturals _ hfraction
        cases hm
      · intro error herror
        cases hread.symm.trans herror
        exact ⟨x, n, rfl, hfraction, hvalue⟩

/-- A gate with the bound 3 as an integer loads. -/
theorem ofValidated_of_accepted_integer :
    let value : Json := .object [("annotations", .object [("manifest_version_gates",
      .array [.object [("min", .ofNat 3), ("pointer", .string "/action")]])])]
    Schema.Validator.Enforces Schema.configuration.violations Schema.configuration ∧
    Schema.configuration.violations value = [] ∧
    ∃ configuration, ofJson value = .ok configuration := by
  intro value
  have haccepted : Schema.configuration.violations value = [] := by rfl
  have henforces := Schema.enforces_violations Schema.configuration
  refine ⟨henforces, haccepted,
    (ofValidated_of_accepted henforces haccepted).1.mpr fun bound hbound => ⟨3, ?_⟩⟩
  have hbounds : gateBounds value = [.ofNat 3] := by rfl
  exact List.mem_singleton.mp (hbounds ▸ hbound)

/-- A gate with the bound 3 written with a fraction is accepted and does not load. -/
theorem ofValidated_of_accepted_fraction :
    let three : Number := .float (.ofNat 3)
    let value : Json := .object [("annotations", .object [("manifest_version_gates",
      .array [.object [("min", .number three), ("pointer", .string "/action")]])])]
    Number.ofLiteral? ⟨false, ['3'], some ['0'], none⟩ = some three ∧
    Schema.configuration.violations value = [] ∧
    ofJson value = .error (.mismatch (.fraction (.ofNat 3))) := by
  intro three value
  exact ⟨by decide +kernel, rfl, rfl⟩

/-- What is read from a sound value is within the limits that the schema sets. -/
theorem loadable_of_ofJson {value : Json} {configuration : Configuration}
    (hsound : value.Sound Number.Fits) (h : ofJson value = .ok configuration) :
    configuration.Loadable := by
  unfold ofJson ofValidated at h
  split at h
  · cases h
  · next haccepted =>
      have houtcome := outcome_decode haccepted
      split at h
      · next hdecoded =>
          rw [hdecoded] at houtcome
          cases houtcome with
          | ok hloadable => cases h; exact hloadable hsound
      · cases h

theorem loadable_of_ofText {text : String} {configuration : Configuration}
    (h : ofText text = .ok configuration) : configuration.Loadable := by
  unfold ofText ofValidatedText at h
  split at h
  · next read hread =>
      refine loadable_of_ofJson ?_ h
      cases read with
      | none => exact Json.sound_object.mpr ⟨.nil, fun _ hmember => absurd hmember List.not_mem_nil⟩
      | some value => exact Json.sound_of_read hread
  · cases h

end Configuration
end ExtensionLint

import ExtensionLint.Proofs.ConfigurationLoading
import ExtensionLint.Proofs.Encoding
import ExtensionLint.Proofs.WrittenText

/-!
Configurations survive saving. What is loaded is within the limits of the schema; within these limits
the value that a configuration is saved as meets the schema and is decoded as the same configuration;
and its text, compact or indented, is read as that value. So a saved configuration loads, with every
field as it was.
-/

namespace ExtensionLint

open Json (Number Object Stores StoresMember)

namespace Annotations

section Gates

variable {subject : String} {range : VersionRange}

theorem boundMember_eq (name : String) (bound : Option Nat) :
    boundMember name bound = Json.optionMember name .ofNat bound := by
  cases bound <;> rfl

theorem stores_bounds (hrange : range.Loadable) {bound : Option Nat}
    (hbound : bound = range.max ∨ bound = range.min) : ∀ n ∈ bound,
      Stores Schema.gateBound (Json.decodeOption Json.decodeNat) (.ofNat n) (some n) := by
  intro n hn
  have hnamed : range.max = some n ∨ range.min = some n := by
    rcases hbound with rfl | rfl
    · exact .inl hn
    · exact .inr hn
  obtain ⟨hleast, hmost⟩ := hrange n hnamed
  exact Json.stores_bound hleast hmost

def gateMembers (subject name : String) (range : VersionRange) : List (String × Json) :=
  (subject, .string name) :: rangeMembers range

variable (name : String) (range : VersionRange) (hsubject : subject ≠ "max" ∧ subject ≠ "min")

theorem lookup_gateMembers_self :
    (gateMembers subject name range).lookup subject = some (.string name) := by
  rw [gateMembers, List.lookup_cons, beq_self_eq_true]

include hsubject

theorem nodup_gateMembers : ((gateMembers subject name range).map Prod.fst).Nodup := by
  obtain ⟨min, max⟩ := range
  cases max <;> cases min <;> simp [gateMembers, rangeMembers, boundMember, hsubject]

theorem lookup_gateMembers :
    (gateMembers subject name range).lookup "max" = range.max.map .ofNat ∧
      (gateMembers subject name range).lookup "min" = range.min.map .ofNat := by
  have hbounds : ∀ key, key ≠ subject → (gateMembers subject name range).lookup key =
      (if key = "max" then range.max.map .ofNat else none).or
        (if key = "min" then range.min.map .ofNat else none) := by
    intro key hkey
    rw [gateMembers, List.lookup_cons, beq_eq_false_iff_ne.mpr hkey, rangeMembers,
      boundMember_eq, boundMember_eq, List.lookup_append, Json.lookup_optionMember,
      Json.lookup_optionMember]
  rw [hbounds _ hsubject.1.symm, hbounds _ hsubject.2.symm]
  simp

variable {range} (hrange : range.Loadable)
include hrange

theorem storesMember_gateMembers : ∀ member ∈ gateMembers subject name range,
    StoresMember (Schema.gateFields subject) member := by
  rw [gateMembers, rangeMembers, boundMember_eq, boundMember_eq]
  refine List.forall_mem_cons.mpr ⟨?_, List.forall_mem_append.mpr ⟨?_, ?_⟩⟩
  · exact (Json.stores_string name).member (Schema.lookup_gateFields hsubject)
  · exact Json.storesMember_optionMember rfl (stores_bounds hrange (.inl rfl))
  · exact Json.storesMember_optionMember rfl (stores_bounds hrange (.inr rfl))

theorem decodeRange_gateMembers :
    decodeRange (.named (Object.ofList (gateMembers subject name range)).members) = .ok range := by
  have hnodup := nodup_gateMembers name range hsubject
  obtain ⟨hmax, hmin⟩ := lookup_gateMembers name range hsubject
  rw [decodeRange, Json.getD_ofList_option hnodup hmax (stores_bounds hrange (.inl rfl)),
    Json.getD_ofList_option hnodup hmin (stores_bounds hrange (.inr rfl))]
  rfl

/-- A gate with a loadable range is stored, with the bounds that it has. -/
theorem stores_gate {α : Type} {make : String → VersionRange → α} :
    Stores (Schema.gate subject)
      (fun value => do
        let record ← Json.decodeRecord 1 3 value
        let range ← decodeRange record
        return make (← record.require 0 subject Json.decodeString) range)
      (Json.ofMembers (gateMembers subject name range)) (make name range) := by
  have hnodup := nodup_gateMembers name range hsubject
  obtain ⟨hclosed, hsound⟩ := Json.closed_ofMembers (storesMember_gateMembers name hsubject hrange)
  have hname : (gateMembers subject name range).lookup subject = some (.string name) :=
    lookup_gateMembers_self name range
  refine ⟨Schema.accepts_gate.mpr ⟨_, rfl, hclosed, ?_⟩, hsound, ?_⟩
  · exact ⟨.string name, (Object.get?_ofList hnodup).trans hname⟩
  · rw [Json.decodeRecord_bind, decodeRange_gateMembers name hsubject hrange, Json.ok_bind,
      Json.require_ofList hnodup hname (Json.stores_string name)]
    rfl

end Gates

theorem stores_deprecated (property : DeprecatedProperty) :
    Stores Schema.deprecatedProperty decodeDeprecated
      (Json.ofMembers
        [("pointer", .string property.pointer), ("message", .string property.message)])
      property := by
  have hnodup : ([("pointer", Json.string property.pointer),
      ("message", .string property.message)].map Prod.fst).Nodup := by
    simp
  have hmembers : ∀ member ∈ [("pointer", Json.string property.pointer),
      ("message", .string property.message)],
      StoresMember [("message", Schema.string), ("pointer", Schema.string)] member :=
    List.forall_mem_cons.mpr ⟨(Json.stores_string _).member (by simp [List.lookup_cons]),
      List.forall_mem_singleton.mpr ((Json.stores_string _).member (by simp))⟩
  obtain ⟨hclosed, hsound⟩ := Json.closed_ofMembers hmembers
  refine ⟨Schema.accepts_deprecatedProperty.mpr ⟨_, rfl, ?_, ?_, hclosed⟩, hsound, ?_⟩
  · exact ⟨_, Object.get?_ofList hnodup⟩
  · exact ⟨_, Object.get?_ofList hnodup⟩
  · rw [decodeDeprecated, Json.decodeRecord_bind,
      Json.require_ofList hnodup rfl (Json.stores_string _), Json.ok_bind,
      Json.require_ofList hnodup rfl (Json.stores_string _)]
    rfl

theorem stores_fields {annotations : Annotations}
    {deprecated properties permissions names listed required : Json}
    (hdeprecated : Stores (Schema.listOf Schema.deprecatedProperty)
      (Json.decodeList decodeDeprecated) deprecated annotations.deprecated)
    (hproperties : Stores (Schema.listOf (Schema.gate "pointer"))
      (Json.decodeList decodePropertyGate) properties annotations.propertyGates)
    (hpermissions : Stores (Schema.listOf (Schema.gate "permission"))
      (Json.decodeList decodePermissionGate) permissions annotations.permissionGates)
    (hnames : Stores Schema.strings (Json.decodeList Json.decodeString) names
      annotations.privilegedProperties)
    (hlisted : Stores Schema.strings (Json.decodeList Json.decodeString) listed
      annotations.privilegedPermissions)
    (hrequired : Stores Schema.string Json.decodeString required annotations.requiredPermission) :
    Stores Schema.annotations decode
      (Json.ofMembers [("deprecated", deprecated), ("manifest_version_gates", properties),
        ("permission_gates", permissions), ("privileged_properties", names),
        ("privileged_permissions", listed), ("amo_permission", required)])
      annotations := by
  refine Json.stores_closedRecord (by simp) ?_ fun hnodup => ?_
  · simp only [List.forall_mem_cons]
    exact ⟨hdeprecated.member rfl, hproperties.member rfl, hpermissions.member rfl,
      hnames.member rfl, hlisted.member rfl, hrequired.member rfl, by simp⟩
  · rw [decode, Json.decodeRecord_bind, Json.getD_ofList hnodup rfl hdeprecated, Json.ok_bind,
      Json.getD_ofList hnodup rfl hproperties, Json.ok_bind,
      Json.getD_ofList hnodup rfl hpermissions, Json.ok_bind,
      Json.getD_ofList hnodup rfl hnames, Json.ok_bind,
      Json.getD_ofList hnodup rfl hlisted, Json.ok_bind,
      Json.getD_ofList hnodup rfl hrequired]
    rfl

theorem stores_toJson {annotations : Annotations} (h : annotations.Loadable) :
    Stores Schema.annotations decode annotations.toJson annotations := by
  refine stores_fields ?_ ?_ ?_ (Json.stores_strings _) (Json.stores_strings _)
    (Json.stores_string _)
  · exact Json.stores_list fun property _ => stores_deprecated property
  · refine Json.stores_list fun gate hgate => ?_
    exact stores_gate gate.pointer (by decide) (h.propertyGates gate hgate)
  · refine Json.stores_list fun gate hgate => ?_
    exact stores_gate gate.permission (by decide) (h.permissionGates gate hgate)

end Annotations

namespace Configuration

theorem stores_features (worker : Bool) :
    Stores (Schema.closedRecord [("background_service_worker", Schema.boolean)]) decodeFeatures
      (Json.ofMembers [("background_service_worker", .bool worker)]) worker := by
  refine Json.stores_closedRecord (by simp) ?_ fun hnodup => ?_
  · exact List.forall_mem_singleton.mpr ((Json.stores_bool worker).member rfl)
  · rw [decodeFeatures, Json.decodeRecord_bind,
      Json.getD_ofList hnodup rfl (Json.stores_bool worker)]

/-- Permissions in ascending order are stored as an object. -/
theorem stores_texts {texts : List (String × String)}
    (hascending : texts.Pairwise fun a b => a.1 < b.1) (hnonempty : ∀ entry ∈ texts, entry.2 ≠ "") :
    Stores (Schema.mapOf Schema.nonEmptyString) decodeTexts
      (.object (texts.map fun (permission, version) => (permission, .string version))) texts := by
  refine ⟨Schema.accepts_mapOf.mpr ⟨_, rfl, ?_⟩, Json.sound_object.mpr ⟨?_, ?_⟩, ?_⟩
  · exact List.forall_mem_map.mpr fun entry hentry =>
      (Json.stores_nonEmptyString (hnonempty entry hentry)).accepted
  · exact List.pairwise_map.mpr hascending
  · exact List.forall_mem_map.mpr fun entry _ => Json.sound_string entry.2
  · exact decodeTexts_object texts

theorem textMember_eq (name : String) (text : Option String) :
    Json.textMember name text = Json.optionMember name .string text := by
  cases text <;> rfl

theorem stores_text {text : Option String} (htext : text ≠ some "") : ∀ s ∈ text,
    Stores Schema.nonEmptyString (Json.decodeOption Json.decodeString) (.string s) (some s) := by
  rintro s ⟨rfl⟩
  exact Json.stores_optionalString fun hempty => htext (congrArg some hempty)

/-- The members of a configuration, given the values of those that are always there. -/
def membersWith (configuration : Configuration)
    (privileged hosted signed features permissions hosts homepages annotations : Json) :
    List (String × Json) :=
  [("privileged", privileged), ("self_hosted", hosted), ("already_signed", signed),
      ("features", features), ("restricted_permissions", permissions),
      ("blocked_content_script_hosts", hosts), ("restricted_homepage_urls", homepages),
      ("annotations", annotations)] ++
    Json.textMember "min_version" configuration.minVersion ++
    Json.textMember "compat_data" configuration.compatibilityData

section Fields

variable {configuration : Configuration}
  {privileged hosted signed features permissions hosts homepages annotations : Json}

theorem nodup_membersWith :
    ((membersWith configuration privileged hosted signed features permissions hosts homepages
      annotations).map Prod.fst).Nodup := by
  unfold membersWith
  cases configuration.minVersion <;> cases configuration.compatibilityData <;>
    simp [Json.textMember]

theorem lookup_minVersion :
    (membersWith configuration privileged hosted signed features permissions hosts homepages
      annotations).lookup "min_version" = configuration.minVersion.map .string := by
  rw [membersWith, textMember_eq, textMember_eq, List.lookup_append, List.lookup_append,
    Json.lookup_optionMember, Json.lookup_optionMember]
  simp [List.lookup_cons]

theorem lookup_compatibilityData :
    (membersWith configuration privileged hosted signed features permissions hosts homepages
      annotations).lookup "compat_data" = configuration.compatibilityData.map .string := by
  rw [membersWith, textMember_eq, textMember_eq, List.lookup_append, List.lookup_append,
    Json.lookup_optionMember, Json.lookup_optionMember]
  simp [List.lookup_cons]

theorem stores_fields (h : configuration.Loadable)
    (hprivileged : Stores Schema.boolean Json.decodeBool privileged configuration.privileged)
    (hhosted : Stores Schema.boolean Json.decodeBool hosted configuration.selfHosted)
    (hsigned : Stores Schema.boolean Json.decodeBool signed configuration.alreadySigned)
    (hfeatures : Stores (Schema.closedRecord [("background_service_worker", Schema.boolean)])
      decodeFeatures features configuration.backgroundServiceWorker)
    (hpermissions : Stores (Schema.mapOf Schema.nonEmptyString) decodeTexts permissions
      configuration.restrictedPermissions)
    (hhosts : Stores (Schema.listOf Schema.nonEmptyString) (Json.decodeList Json.decodeString) hosts
      configuration.blockedHosts)
    (hhomepages : Stores (Schema.listOf Schema.nonEmptyString) (Json.decodeList Json.decodeString)
      homepages configuration.restrictedHomepages)
    (hannotations : Stores Schema.annotations Annotations.decode annotations
      configuration.annotations) :
    Stores Schema.configuration decode
      (Json.ofMembers (membersWith configuration privileged hosted signed features permissions hosts
        homepages annotations)) configuration := by
  refine Json.stores_closedRecord nodup_membersWith ?_ fun hnodup => ?_
  · simp only [membersWith, textMember_eq, List.forall_mem_append, List.forall_mem_cons]
    refine ⟨⟨⟨hprivileged.member rfl, hhosted.member rfl, hsigned.member rfl,
      hfeatures.member rfl, hpermissions.member rfl, hhosts.member rfl, hhomepages.member rfl,
      hannotations.member rfl, by simp⟩, ?_⟩, ?_⟩
    · exact Json.storesMember_optionMember rfl (stores_text h.minVersion)
    · exact Json.storesMember_optionMember rfl (stores_text h.compatibilityData)
  · rw [decode, Json.decodeRecord_bind, Json.getD_ofList hnodup rfl hprivileged, Json.ok_bind,
      Json.getD_ofList hnodup rfl hhosted, Json.ok_bind,
      Json.getD_ofList hnodup rfl hsigned, Json.ok_bind,
      Json.getD_ofList hnodup rfl hfeatures, Json.ok_bind,
      Json.getD_ofList_option hnodup lookup_minVersion (stores_text h.minVersion), Json.ok_bind,
      Json.getD_ofList hnodup rfl hpermissions, Json.ok_bind,
      Json.getD_ofList hnodup rfl hhosts, Json.ok_bind,
      Json.getD_ofList hnodup rfl hhomepages, Json.ok_bind,
      Json.getD_ofList_option hnodup lookup_compatibilityData (stores_text h.compatibilityData),
      Json.ok_bind, Json.getD_ofList hnodup rfl hannotations, Json.ok_bind, ← h.baseDirectory]
    rfl

end Fields

theorem stores_toJson {configuration : Configuration} (h : configuration.Loadable) :
    Stores Schema.configuration decode configuration.toJson configuration := by
  refine stores_fields h (Json.stores_bool _) (Json.stores_bool _) (Json.stores_bool _)
    (stores_features _) (stores_texts h.ascending h.restrictedPermissions) ?_ ?_
    (Annotations.stores_toJson h.annotations)
  · exact Json.stores_list fun host hhost => Json.stores_nonEmptyString (h.blockedHosts host hhost)
  · exact Json.stores_list fun url hurl =>
      Json.stores_nonEmptyString (h.restrictedHomepages url hurl)

/-- A text that is read as a saved configuration loads as it. -/
theorem ofText_of_read {configuration : Configuration} {text : String}
    (h : configuration.Loadable) (hread : Json.Tolerant.read text = .ok (some configuration.toJson)) :
    ofText text = .ok configuration := by
  have hstored := stores_toJson h
  rw [ofText, ofValidatedText, hread]
  show ofValidated Schema.configuration.violations configuration.toJson = .ok configuration
  rw [ofValidated_eq hstored.accepted, hstored.decoded]
  rfl

/-- Every configuration that loads is saved as a text that loads as the same configuration, whether
the text is compact, indented or written in another way. -/
theorem ofText_toJson {text : String} {configuration : Configuration}
    (h : ofText text = .ok configuration) :
    ofText configuration.toJson.text = .ok configuration ∧
      ofText configuration.toJson.indentedText = .ok configuration ∧
      ∀ saved, Json.Tolerant.read saved = .ok (some configuration.toJson) →
        ofText saved = .ok configuration := by
  have hloadable := loadable_of_ofText h
  have hsound := (stores_toJson hloadable).sound
  exact ⟨ofText_of_read hloadable (Json.read_text hsound),
    ofText_of_read hloadable (Json.read_indentedText hsound),
    fun _ hsaved => ofText_of_read hloadable hsaved⟩

/-- A configuration with one gate and two settings of its own, given as compact text. -/
theorem ofText_toJson_gate :
    let text := "\x7b\"annotations\":\x7b\"permission_gates\":" ++
      "[\x7b\"max\":2,\"permission\":\"tabs\"\x7d]\x7d," ++
      "\"min_version\":\"115.0\",\"privileged\":true\x7d"
    let configuration : Configuration :=
      { standard with
        privileged := true
        minVersion := some "115.0"
        annotations := { Annotations.standard with permissionGates := [⟨"tabs", none, some 2⟩] } }
    ofText text = .ok configuration ∧
    ofText configuration.toJson.text = .ok configuration ∧
    ofText configuration.toJson.indentedText = .ok configuration := by
  intro text configuration
  let value : Json := .object
    [("annotations", .object [("permission_gates",
      .array [.object [("max", .ofNat 2), ("permission", .string "tabs")]])]),
      ("min_version", .string "115.0"), ("privileged", .bool true)]
  have hgate : (Json.object [("max", .ofNat 2), ("permission", .string "tabs")]).Sound
      Number.FitsExactly := by
    have hbound : (Json.ofNat 2).Sound Number.FitsExactly :=
      Json.sound_number.mpr (Number.fits_natCast (by decide))
    exact Json.sound_object.mpr ⟨by decide, by simp [hbound, Json.sound_string]⟩
  have hannotations : (Json.object [("permission_gates",
      .array [.object [("max", .ofNat 2), ("permission", .string "tabs")]])]).Sound
      Number.FitsExactly :=
    Json.sound_object.mpr ⟨by decide, by simp [Json.sound_array, hgate]⟩
  have hsound : value.Sound Number.FitsExactly :=
    Json.sound_object.mpr
      ⟨by decide, by simp [hannotations, Json.sound_string, Json.sound_bool]⟩
  have hwritten : text = value.text := by decide +kernel
  have hloaded : ofText text = .ok configuration := by
    rw [hwritten, ofText, ofValidatedText, Json.read_text hsound]
    rfl
  obtain ⟨hcompact, hindented, -⟩ := ofText_toJson hloaded
  exact ⟨hloaded, hcompact, hindented⟩

end Configuration
end ExtensionLint

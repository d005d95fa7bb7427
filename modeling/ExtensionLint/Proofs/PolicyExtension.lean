import ExtensionLint.Policy
import ExtensionLint.Proofs.TextSearch
import Mathlib.Data.List.Induction

/-!
Extending the tables of a policy. An extended table has all entries of both lists: the old ones in front,
then each new one once, in the order in which it was given. A search takes the first entry that occurs,
so it answers as before wherever it answered at all, and by the first of the further entries elsewhere,
as if these had been searched by themselves.
-/

namespace ExtensionLint.Policy

/-- Holds of entries that occur in a text. -/
def Within (entry text : String) : Prop := entry.toList <:+: text.toList

/-- Holds of the first of the entries that occur in a text. -/
def FirstWithin (entries : List String) (text entry : String) : Prop :=
  ∃ earlier later, entries = earlier ++ entry :: later ∧ Within entry text ∧
    ∀ other ∈ earlier, ¬Within other text

/-- Holds of entries, further entries, and the entries extended by those of them that are new. -/
structure Extends (entries more extended : List String) : Prop where
  appended : ∃ added, extended = entries ++ added ∧ added.Sublist more ∧ added.Nodup ∧
    ∀ entry ∈ added, entry ∉ entries
  complete : ∀ entry ∈ more, entry ∈ extended

/-- Holds of what is found in a text before entries are extended by further ones, and after it. -/
structure Answers (entries more : List String) (text : String) (before after : Option String) :
    Prop where
  found : after.isSome = true ↔ ∃ entry, (entry ∈ entries ∨ entry ∈ more) ∧ Within entry text
  kept : before.isSome = true → after = before
  added : before = none → ∀ entry, after = some entry ↔ FirstWithin more text entry

section Entries

variable {entries more extended : List String} {text entry : String}

theorem Extends.nodup (h : Extends entries more extended) (hentries : entries.Nodup) :
    extended.Nodup := by
  obtain ⟨added, rfl, -, hadded, hnew⟩ := h.appended
  exact List.nodup_append.mpr
    ⟨hentries, hadded, fun _ hold _ hmem hsame => hnew _ hmem (hsame ▸ hold)⟩

theorem addEntry_of_mem (h : entry ∈ entries) : addEntry entries entry = entries :=
  if_pos (List.contains_iff_mem.mpr h)

theorem addEntry_of_not_mem (h : entry ∉ entries) : addEntry entries entry = entries ++ [entry] :=
  if_neg (mt List.contains_iff_mem.mp h)

/-- One further entry is appended, unless it is there already. -/
theorem Extends.addEntry (h : Extends entries more extended) (entry : String) :
    Extends entries (more ++ [entry]) (addEntry extended entry) := by
  obtain ⟨⟨added, rfl, hsublist, hnodup, hnew⟩, hcomplete⟩ := h
  by_cases hmem : entry ∈ entries ++ added
  · rw [addEntry_of_mem hmem]
    refine ⟨⟨added, rfl, hsublist.trans (List.sublist_append_left _ _), hnodup, hnew⟩, ?_⟩
    exact List.forall_mem_append.mpr ⟨hcomplete, List.forall_mem_singleton.mpr hmem⟩
  · rw [addEntry_of_not_mem hmem]
    obtain ⟨hold, hadded⟩ := not_or.mp (mt List.mem_append.mpr hmem)
    have hlonger : (added ++ [entry]).Nodup := by
      refine List.nodup_append.mpr ⟨hnodup, List.pairwise_singleton _ _, ?_⟩
      intro other hother last hlast hsame
      exact hadded (List.mem_singleton.mp hlast ▸ hsame ▸ hother)
    have hfresh : ∀ other ∈ added ++ [entry], other ∉ entries :=
      List.forall_mem_append.mpr ⟨hnew, List.forall_mem_singleton.mpr hold⟩
    refine ⟨⟨added ++ [entry], List.append_assoc _ _ _, ?_, hlonger, hfresh⟩, ?_⟩
    · exact hsublist.append (List.Sublist.refl _)
    · exact List.forall_mem_append.mpr ⟨fun other hother => List.mem_append_left _ (hcomplete other hother),
        fun other hother => List.mem_append_right _ hother⟩

theorem extends_addEntries (entries more : List String) :
    Extends entries more (addEntries entries more) := by
  induction more using List.reverseRecOn with
  | nil =>
      refine ⟨⟨[], (List.append_nil _).symm, List.Sublist.refl _, List.nodup_nil, ?_⟩, ?_⟩
      · exact fun entry hentry => absurd hentry List.not_mem_nil
      · exact fun entry hentry => absurd hentry List.not_mem_nil
  | append_singleton more entry ih =>
      rw [addEntries, List.foldl_concat]
      exact ih.addEntry entry

theorem addEntries_of_subset (h : ∀ entry ∈ more, entry ∈ entries) :
    addEntries entries more = entries := by
  induction more with
  | nil => rfl
  | cons entry more ih =>
      obtain ⟨hentry, hmore⟩ := List.forall_mem_cons.mp h
      rw [addEntries, List.foldl_cons, addEntry_of_mem hentry]
      exact ih hmore

theorem addEntries_addEntries (entries more : List String) :
    addEntries (addEntries entries more) more = addEntries entries more :=
  addEntries_of_subset (extends_addEntries entries more).complete

/-- A search looks at an added entry last. That an entry is not repeated makes no difference to it. -/
theorem find?_addEntry (occurs : String → Bool) (entries : List String) (entry : String) :
    (addEntry entries entry).find? occurs =
      (entries.find? occurs).or ([entry].find? occurs) := by
  by_cases hmem : entry ∈ entries
  · rw [addEntry_of_mem hmem]
    cases hfound : entries.find? occurs with
    | some found => rfl
    | none =>
        have hentry : ¬occurs entry = true := List.find?_eq_none.mp hfound entry hmem
        simp [hentry]
  · rw [addEntry_of_not_mem hmem, List.find?_append]

theorem find?_addEntries (occurs : String → Bool) (entries more : List String) :
    (addEntries entries more).find? occurs = (entries.find? occurs).or (more.find? occurs) := by
  induction more generalizing entries with
  | nil => simp [addEntries]
  | cons entry more ih =>
      rw [addEntries, List.foldl_cons, ← addEntries, ih, find?_addEntry, Option.or_assoc,
        ← List.find?_append, List.singleton_append]

theorem firstWithin?_addEntries (entries more : List String) (text : String) :
    firstWithin? (addEntries entries more) text =
      (firstWithin? entries text).or (firstWithin? more text) :=
  find?_addEntries _ entries more

theorem firstWithin?_eq_some_iff :
    firstWithin? entries text = some entry ↔ FirstWithin entries text entry := by
  simp only [firstWithin?, List.find?_eq_some_iff_append, Bool.not_eq_true', ← Bool.not_eq_true,
    Text.contains_iff, FirstWithin, Within]
  constructor
  · rintro ⟨hentry, earlier, later, rfl, hearlier⟩
    exact ⟨earlier, later, rfl, hentry, hearlier⟩
  · rintro ⟨earlier, later, rfl, hentry, hearlier⟩
    exact ⟨hentry, earlier, later, rfl, hearlier⟩

theorem isSome_firstWithin?_iff :
    (firstWithin? entries text).isSome = true ↔ ∃ entry ∈ entries, Within entry text := by
  simp only [firstWithin?, List.find?_isSome, Text.contains_iff, Within]

theorem answers_addEntries (entries more : List String) (text : String) :
    Answers entries more text (firstWithin? entries text)
      (firstWithin? (addEntries entries more) text) := by
  rw [firstWithin?_addEntries]
  constructor
  · rw [Option.isSome_or, Bool.or_eq_true, isSome_firstWithin?_iff, isSome_firstWithin?_iff]
    simp only [or_and_right, exists_or]
  · intro hbefore
    exact Option.or_of_isSome hbefore
  · intro hbefore entry
    rw [hbefore, Option.none_or, firstWithin?_eq_some_iff]

end Entries

/-- An extended policy has the entries of both, each table in the order of the old one, then that of the
arguments. Extending it again by the same entries changes nothing, and what it finds is what the old
policy found, or else the first of the further entries. -/
theorem extend_union (policy : Policy) (hosts homepages : List String) :
    let extended := policy.extend hosts homepages
    Extends policy.blockedHosts hosts extended.blockedHosts ∧
      Extends policy.restrictedHomepages homepages extended.restrictedHomepages ∧
      (policy.blockedHosts.Nodup → extended.blockedHosts.Nodup) ∧
      (policy.restrictedHomepages.Nodup → extended.restrictedHomepages.Nodup) ∧
      extended.extend hosts homepages = extended ∧
      (∀ pattern, Answers policy.blockedHosts hosts pattern (policy.blockedHost? pattern)
        (extended.blockedHost? pattern)) ∧
      ∀ address, Answers policy.restrictedHomepages homepages address
        (policy.restrictedHomepage? address) (extended.restrictedHomepage? address) := by
  intro extended
  have hhosts := extends_addEntries policy.blockedHosts hosts
  have hhomepages := extends_addEntries policy.restrictedHomepages homepages
  refine ⟨hhosts, hhomepages, hhosts.nodup, hhomepages.nodup, ?_, ?_, ?_⟩
  · exact congrArg₂ Policy.mk (addEntries_addEntries _ _) (addEntries_addEntries _ _)
  · exact answers_addEntries policy.blockedHosts hosts
  · exact answers_addEntries policy.restrictedHomepages homepages

/-- A further entry is appended once, and not at all if it is an old one. -/
example : (Policy.mk ["a.example"] []).extend ["b.example", "a.example", "b.example"] [] =
    Policy.mk ["a.example", "b.example"] [] := by decide

end ExtensionLint.Policy

/-!
Ascending lists of texts, and of entries by their texts. They hold each text once and are ordered by
code points, which is the order of the UTF-8 bytes, so a collection has one form only.
-/

namespace ExtensionLint.Ordered

/-- Puts a text into an ascending list, if it is not there. -/
def insert (text : String) : List String → List String
  | [] => [text]
  | other :: rest =>
      if text < other then text :: other :: rest
      else if text = other then other :: rest
      else other :: insert text rest

/-- The ascending list of given texts, each once. -/
def ofList (texts : List String) : List String :=
  texts.foldl (fun made text => insert text made) []

/-- Changes the entry of a text. Where there is none, a standard value is changed and put at its
place. -/
def update {β : Type} (key : String) (standard : β) (change : β → β) :
    List (String × β) → List (String × β)
  | [] => [(key, change standard)]
  | (other, value) :: rest =>
      if key < other then (key, change standard) :: (other, value) :: rest
      else if key = other then (key, change value) :: rest
      else (other, value) :: update key standard change rest

def put {β : Type} (key : String) (value : β) (entries : List (String × β)) :
    List (String × β) :=
  update key value (fun _ => value) entries

theorem mem_insert {text other : String} {texts : List String} :
    other ∈ insert text texts ↔ other = text ∨ other ∈ texts := by
  induction texts with
  | nil => simp [insert]
  | cons a rest ih =>
      rw [insert]
      split
      · simp
      · split
        · next same => simp [same]
        · simp only [List.mem_cons, ih]
          constructor
          · rintro (h | h | h) <;> simp [h]
          · rintro (h | h | h) <;> simp [h]

theorem mem_foldl_insert {text : String} {texts made : List String} :
    text ∈ texts.foldl (fun made text => insert text made) made ↔ text ∈ texts ∨ text ∈ made := by
  induction texts generalizing made with
  | nil => simp
  | cons a rest ih =>
      rw [List.foldl_cons, ih, mem_insert, List.mem_cons]
      constructor
      · rintro (h | h | h) <;> simp [h]
      · rintro ((h | h) | h) <;> simp [h]

theorem mem_ofList {text : String} {texts : List String} : text ∈ ofList texts ↔ text ∈ texts := by
  simp [ofList, mem_foldl_insert]

section Update

variable {β : Type} {key : String} {standard : β} {change : β → β} {entries : List (String × β)}

theorem mem_keys_update {other : String} :
    other ∈ (update key standard change entries).map Prod.fst ↔
      other = key ∨ other ∈ entries.map Prod.fst := by
  fun_induction update key standard change entries with
  | case1 => simp
  | case2 first value rest hless => simp
  | case3 value rest hless => simp
  | case4 first value rest hless hfirst ih =>
      rw [List.map_cons, List.mem_cons, ih, List.map_cons, List.mem_cons, or_left_comm]

theorem pairwise_update (hsorted : entries.Pairwise fun a b => a.1 < b.1) :
    (update key standard change entries).Pairwise fun a b => a.1 < b.1 := by
  fun_induction update key standard change entries with
  | case1 => exact List.pairwise_singleton _ _
  | case2 first value rest hless =>
      refine List.pairwise_cons.mpr ⟨fun entry hentry => ?_, hsorted⟩
      rcases List.mem_cons.mp hentry with rfl | hrest
      · exact hless
      · exact String.lt_trans hless (List.rel_of_pairwise_cons hsorted hrest)
  | case3 value rest hless => exact List.pairwise_cons.mpr (List.pairwise_cons.mp hsorted)
  | case4 first value rest hless hfirst ih =>
      obtain ⟨hbefore, hrest⟩ := List.pairwise_cons.mp hsorted
      refine List.pairwise_cons.mpr ⟨fun entry hentry => ?_, ih hrest⟩
      rcases mem_keys_update.mp (List.mem_map_of_mem hentry) with hkey | hentry
      · rw [hkey]
        exact Std.lt_of_le_of_ne (String.not_lt.mp hless) (Ne.symm hfirst)
      · obtain ⟨same, hsame, heq⟩ := List.mem_map.mp hentry
        exact heq ▸ hbefore same hsame

theorem pairwise_put {value : β} (hsorted : entries.Pairwise fun a b => a.1 < b.1) :
    (put key value entries).Pairwise fun a b => a.1 < b.1 :=
  pairwise_update hsorted

end Update

end ExtensionLint.Ordered

import ExtensionLint.Proofs.Filling
import ExtensionLint.Proofs.PackagePath
import ExtensionLint.Text.Ascii

/-!
The extensions of paths. The extension is what stands after the last dot of the name of a file, and the
name is what stands after the last slash; for an extension of letters only, it comes to the same to look
at the end of the path alone. A path that ends in such letters keeps them in its canonical spelling, so
it is not the spelling of a directory.
-/

namespace ExtensionLint

namespace Text

variable {α : Type} [BEq α] [LawfulBEq α] {separator : α} {s before after : List α}

/-- The last separator is the one with none after it. -/
theorem splitLast_eq_some_iff :
    splitLast separator s = some (before, after) ↔
      s = before ++ separator :: after ∧ separator ∉ after := by
  have hfirst : cut [separator] s.reverse = some (after.reverse, before.reverse) ↔
      s.reverse = after.reverse ++ separator :: before.reverse ∧ separator ∉ after.reverse :=
    splitFirst_eq_some_iff
  rw [List.mem_reverse, List.reverse_eq_iff] at hfirst
  rw [splitLast, Option.map_eq_some_iff]
  constructor
  · rintro ⟨⟨back, front⟩, hcut, heq⟩
    obtain ⟨rfl, rfl⟩ := Prod.mk.inj heq
    simpa using hfirst.mp (by simpa using hcut)
  · intro h
    exact ⟨(after.reverse, before.reverse), hfirst.mpr (by simpa using h), by simp⟩

end Text

namespace PackagePath

/-- Holds of a path that ends in a dot and an extension, in letters of either case. -/
def HasExtension (path extension : String) : Prop :=
  ∃ front letters, path.toList = front ++ '.' :: letters ∧ Text.lower letters = extension.toList

/-- Holds of extensions with no sign that a path could be split at. -/
def PlainExtension (extension : String) : Prop :=
  extension ≠ "" ∧ '.' ∉ extension.toList ∧ '/' ∉ extension.toList ∧ '\\' ∉ extension.toList

instance (extension : String) : Decidable (PlainExtension extension) := by
  unfold PlainExtension
  infer_instance

/-- A sign that is the same in small letters is not there if it is not there in small letters. -/
theorem not_mem_of_not_mem_lower {letters : List Char} {c : Char} (hc : c.toLower = c)
    (h : c ∉ Text.lower letters) : c ∉ letters := by
  intro hmem
  apply h
  rw [← hc]
  exact List.mem_map_of_mem hmem

variable {path extension : String}

/-- A plain extension is read off the end of a path. -/
theorem extension?_eq_some_iff (hplain : PlainExtension extension) :
    extension? path = some extension ↔ HasExtension path extension := by
  rw [extension?, Option.map_eq_some_iff]
  constructor
  · rintro ⟨⟨stem, letters⟩, hdot, rfl⟩
    have hletters : Text.lower letters = (String.ofList (letters.map Char.toLower)).toList := by
      rw [String.toList_ofList, Text.lower]
    obtain ⟨hname, -⟩ := Text.splitLast_eq_some_iff.mp hdot
    split at hname
    · next directory name hslash =>
        obtain ⟨hpath, -⟩ := Text.splitLast_eq_some_iff.mp hslash
        exact ⟨directory ++ '/' :: stem, letters, by simp [hpath, hname], hletters⟩
    · exact ⟨stem, letters, hname, hletters⟩
  · rintro ⟨front, letters, hpath, hletters⟩
    have hdot : '.' ∉ letters := not_mem_of_not_mem_lower rfl (hletters ▸ hplain.2.1)
    have hslash : '/' ∉ letters := not_mem_of_not_mem_lower rfl (hletters ▸ hplain.2.2.1)
    have hextension : String.ofList (letters.map Char.toLower) = extension := by
      rw [← Text.lower, hletters, String.ofList_toList]
    split
    · next directory name hsplit =>
        obtain ⟨hdirectory, hname⟩ := Text.splitLast_eq_some_iff.mp hsplit
        obtain ⟨stem, hstem⟩ : ∃ stem, name = stem ++ '.' :: letters := by
          rcases List.append_eq_append_iff.mp (hpath.symm.trans hdirectory) with
            ⟨between, -, hend⟩ | ⟨between, -, hend⟩
          · have hmem : '/' ∈ '.' :: letters := hend ▸ List.mem_append_right _ List.mem_cons_self
            simp [hslash] at hmem
          · cases between with
            | nil => cases hend
            | cons c between => exact ⟨between, (List.cons.inj hend).2⟩
        exact ⟨(stem, letters), Text.splitLast_eq_some_iff.mpr ⟨hstem, hdot⟩, hextension⟩
    · exact ⟨(front, letters), Text.splitLast_eq_some_iff.mpr ⟨hpath, hdot⟩, hextension⟩

/-- The canonical spelling of a path with a plain extension does not end in a slash. -/
theorem HasExtension.not_endsWith (h : HasExtension path extension)
    (hplain : PlainExtension extension) :
    Text.endsWith ['/'] (normalize path).toList = false := by
  obtain ⟨front, letters, hpath, hletters⟩ := h
  have hslash : '/' ∉ letters := not_mem_of_not_mem_lower rfl (hletters ▸ hplain.2.2.1)
  have hback : '\\' ∉ letters := not_mem_of_not_mem_lower rfl (hletters ▸ hplain.2.2.2)
  have hkeep : (normalize path).toList =
      (normalize (String.ofList (front ++ ['.']))).toList ++ letters := by
    have hsplit : path = String.ofList ((front ++ ['.']) ++ letters) := by
      rw [← String.ofList_toList (s := path), hpath]
      simp
    rw [hsplit, normalize_append hback hslash, String.toList_ofList]
  obtain ⟨start, last, rfl⟩ : ∃ start last, letters = start ++ [last] := by
    rcases List.eq_nil_or_concat letters with rfl | ⟨start, last, rfl⟩
    · exact absurd (String.toList_injective hletters.symm) hplain.1
    · exact ⟨start, last, List.concat_eq_append⟩
  have hlast : last ≠ '/' := fun heq => hslash (by simp [heq])
  rw [hkeep, Text.endsWith]
  simpa [List.isPrefixOf] using hlast.symm

end PackagePath
end ExtensionLint

import ExtensionLint.Proofs.Filling
import ExtensionLint.Proofs.TextSearch
import ExtensionLint.Proofs.VectorOpenings

/-!
Vector images with a comment in front. A comment without the text `<svg` makes no difference, whatever
else is in it. In any other comment the first such text is taken for the root element: the geometry is
that of a tag which the comment hides, and the real root element is not looked at.
-/

namespace ExtensionLint

namespace Svg

def comment (inside : String) : String := "<!--" ++ inside ++ "-->"

/-- A text that starts with a root element. -/
def rooted (rest : String) : String := "<svg" ++ rest

def geometry (tag : List Char) : ImageInfo := ⟨(size tag).1, (size tag).2, ImageInfo.svgMime⟩

/-- The text of the first tag that a comment hides, up to the end of the tag or of the comment. -/
def hiddenTag? (inside : String) : Option (List Char) :=
  (Text.cut rootOpening inside.toList).map fun (_, after) =>
    (rootOpening ++ after ++ "--".toList).takeWhile (· != '>')

section Root

variable {inside rest : String}

theorem toList_comment_rooted (inside rest : String) : (comment inside ++ rooted rest).toList =
    "<!-".toList ++
      '-' :: (inside.toList ++ '-' :: ("-".toList ++ '>' :: (rooted rest).toList)) := by
  simp [comment]

theorem toList_rooted (rest : String) : (rooted rest).toList = rootOpening ++ rest.toList := by
  rw [rooted, String.toList_append]
  rfl

theorem cut_rooted (rest : String) :
    Text.cut rootOpening (rooted rest).toList = some ([], rest.toList) := by
  have hopening : Text.cut rootOpening rootOpening = some ([], []) := by decide
  rw [toList_rooted]
  exact Text.cut_append_of_some hopening _

/-- The search for the root element goes through the comment first. -/
theorem cut_comment (inside rest : String) :
    (Text.cut rootOpening (comment inside ++ rooted rest).toList).map Prod.snd =
      ((Text.cut rootOpening inside.toList).map fun (_, after) =>
        after ++ '-' :: '-' :: '>' :: (rooted rest).toList).or (some rest.toList) := by
  have hne : rootOpening ≠ [] := by decide
  have hdash : '-' ∉ rootOpening := by decide
  rw [toList_comment_rooted, Text.cut_append_cons_of_none hne hdash (by decide), Option.map_map]
  cases hinside : Text.cut rootOpening inside.toList with
  | some found =>
      rw [Text.cut_append_of_some hinside]
      rfl
  | none =>
      rw [Text.cut_append_cons_of_none hne hdash hinside,
        Text.cut_append_cons_of_none hne (by decide) (by decide), cut_rooted]
      rfl

end Root

/-- What all of a vector image gives, from the text after the opening of its root element. -/
def answer (rest : List Char) : Except DecodeError (Option ImageInfo) :=
  match Text.splitFirst '>' (rootOpening ++ rest) with
  | none => .error (.corrupt .unterminatedRoot)
  | some (tag, _) => .ok (some (geometry tag))

theorem probe_of_cut {bytes : Bytes} {rest : List Char}
    (h : (Text.cut rootOpening (Utf8.toLenientText bytes)).map Prod.snd = some rest) :
    probe bytes true = answer rest := by
  obtain ⟨⟨before, after⟩, hcut, rfl⟩ := Option.map_eq_some_iff.mp h
  cases hend : Text.splitFirst '>' (rootOpening ++ after) with
  | none =>
      simp only [probe, hcut, answer, hend]
      rfl
  | some found => simp only [probe, hcut, answer, hend, geometry]

/-- A tag ends at the first closing bracket, and there is one at the end of a comment. -/
theorem answer_append (inside rest : List Char) :
    answer (inside ++ '-' :: '-' :: '>' :: rest) =
      .ok (some (geometry ((rootOpening ++ inside ++ "--".toList).takeWhile (· != '>')))) := by
  obtain ⟨after, hsplit⟩ :=
    Text.exists_splitFirst_append '>' (rootOpening ++ inside ++ "--".toList) rest
  rw [answer]
  simp only [List.append_assoc] at hsplit ⊢
  have hshape : '-' :: '-' :: '>' :: rest = "--".toList ++ '>' :: rest := by simp
  rw [hshape, hsplit]

end Svg

namespace ImageDecoder

open Svg

theorem probeHeader_ofText (reader : Raster.HeaderReader) {opening : String}
    (hopening : opening ∈ openings) {more : String} {rest : List Char}
    (hcut : (Text.cut rootOpening (opening ++ more).toList).map Prod.snd = some rest) :
    probeHeader reader (Utf8.ofText (opening ++ more)) true = answer rest := by
  have hlikely := isLikely_ofText_append hopening (Utf8.ofText more)
  rw [← Utf8.ofText_append] at hlikely
  rw [probeHeader_of_isLikely reader hlikely]
  exact probe_of_cut (by rwa [Utf8.toLenientText_ofText])

section Comment

variable (reader : Raster.HeaderReader) {inside : String}

theorem comment_append_rooted (inside rest : String) :
    comment inside ++ rooted rest = "<!--" ++ (inside ++ "-->" ++ rooted rest) := by
  rw [comment, String.append_assoc, String.append_assoc, String.append_assoc]

theorem probeHeader_rooted (rest : String) :
    probeHeader reader (Utf8.ofText (rooted rest)) true = answer rest.toList := by
  have hcut := congrArg (Option.map Prod.snd) (cut_rooted rest)
  exact probeHeader_ofText reader (by decide) hcut

theorem probeHeader_plainComment (hnone : ¬rootOpening <:+: inside.toList) (rest : String) :
    probeHeader reader (Utf8.ofText (comment inside ++ rooted rest)) true =
      probeHeader reader (Utf8.ofText (rooted rest)) true := by
  have hcut := cut_comment inside rest
  rw [Text.cut_eq_none_iff.mpr hnone, comment_append_rooted] at hcut
  rw [comment_append_rooted, probeHeader_ofText reader (by decide) hcut, probeHeader_rooted]

theorem probeHeader_hiddenTag {tag : List Char} (htag : hiddenTag? inside = some tag)
    (rest : String) :
    probeHeader reader (Utf8.ofText (comment inside ++ rooted rest)) true =
      .ok (some (geometry tag)) := by
  obtain ⟨⟨before, after⟩, hfound, rfl⟩ := Option.map_eq_some_iff.mp htag
  have hcut := cut_comment inside rest
  rw [hfound, comment_append_rooted] at hcut
  rw [comment_append_rooted, probeHeader_ofText reader (by decide) hcut]
  exact answer_append after _

end Comment

/-- The comments that make no difference to any image are those without the text `<svg`. With any
other comment, the answer is the geometry of the tag that starts there, whatever the root element
is. -/
theorem probeHeader_comment (reader : Raster.HeaderReader) (inside : String) :
    ((∀ rest, probeHeader reader (Utf8.ofText (comment inside ++ rooted rest)) true =
        probeHeader reader (Utf8.ofText (rooted rest)) true) ↔
      ¬rootOpening <:+: inside.toList) ∧
    ∀ tag, hiddenTag? inside = some tag → ∀ rest,
      probeHeader reader (Utf8.ofText (comment inside ++ rooted rest)) true =
        .ok (some (geometry tag)) := by
  refine ⟨⟨fun hsame => ?_, fun hnone => probeHeader_plainComment reader hnone⟩,
    fun tag htag => probeHeader_hiddenTag reader htag⟩
  rw [← Text.cut_eq_none_iff]
  cases hcut : Text.cut rootOpening inside.toList with
  | none => rfl
  | some found =>
      have htag : hiddenTag? inside = some _ := congrArg (Option.map _) hcut
      -- A root element that does not end is an error by itself, and no comment makes up for it.
      have hopen := hsame ""
      have hunterminated : answer "".toList = .error (.corrupt .unterminatedRoot) := rfl
      rw [probeHeader_hiddenTag reader htag, probeHeader_rooted, hunterminated] at hopen
      cases hopen

/-- A comment that hides a tag of one pixel by two takes the place of a root element of four by
three. -/
theorem probeHeader_comment_hiding :
    let inside := " <svg width='1' height='2'> "
    let root := rooted " width='4' height='3'>"
    ¬"--".toList <:+: inside.toList ∧
    header.probe (Utf8.ofText (comment inside ++ root)) true = .ok (some ⟨1, 2, ImageInfo.svgMime⟩) ∧
    header.probe (Utf8.ofText root) true = .ok (some ⟨4, 3, ImageInfo.svgMime⟩) := by
  decide +kernel

end ImageDecoder

end ExtensionLint

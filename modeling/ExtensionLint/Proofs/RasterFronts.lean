import ExtensionLint.Proofs.ChunkedReading
import Mathlib.Data.List.Infix

/-!
Fronts of raster images. Every read of a header that succeeds on the front of a file succeeds alike on
the whole file, since it only asks for bytes that are there; so do reads made of such reads. The one
exception is the directory of an icon file, which ends wherever the bytes do, so that a front may show
fewer images than the file has.
-/

namespace ExtensionLint.Raster

variable {α β : Type} {part whole : Bytes}

/-- Holds of reads that find in a file what they find in a front of it. -/
def Stable (read : Bytes → Result α) : Prop :=
  ∀ ⦃part whole result⦄, part <+: whole → read part = .ok result → read whole = .ok result

/-- Holds of reads that find in a file what they find in a front of it, and leave as much more as the
file has. -/
def Advances (read : Bytes → Result (α × Bytes)) : Prop :=
  ∀ ⦃part whole a rest⦄, part <+: whole → read part = .ok (a, rest) →
    ∃ later, read whole = .ok (a, later) ∧ rest <+: later

theorem exists_of_bind_eq_ok {read : Result α} {next : α → Result β} {b : β} (h : (read >>= next) = .ok b) :
    ∃ a, read = .ok a ∧ next a = .ok b := by
  cases read with
  | error fault => cases h
  | ok a => exact ⟨a, rfl, h⟩

section Reads

variable {read : Bytes → Result (α × Bytes)}

theorem stable_const (result : Result α) : Stable fun _ => result := fun _ _ _ _ h => h

theorem Stable.drop {read : Bytes → Result α} (h : Stable read) (count : Nat) :
    Stable fun bytes => read (bytes.drop count) :=
  fun _ _ _ hbegin => h (hbegin.drop count)

theorem Advances.drop (h : Advances read) (count : Nat) :
    Advances fun bytes => read (bytes.drop count) :=
  fun _ _ _ _ hbegin => h (hbegin.drop count)

theorem Advances.bind {next : α × Bytes → Result β} (h : Advances read)
    (hnext : ∀ a, Stable fun rest => next (a, rest)) : Stable fun bytes => read bytes >>= next := by
  intro part whole result hbegin hresult
  obtain ⟨⟨a, rest⟩, hread, hrest⟩ := exists_of_bind_eq_ok hresult
  obtain ⟨later, hwhole, hlater⟩ := h hbegin hread
  simp only [hwhole]
  exact hnext a hlater hrest

theorem Advances.peek {next : α × Bytes → Bytes → Result β} (h : Advances read)
    (hunused : ∀ a rest later, next (a, rest) = next (a, later))
    (hnext : ∀ found, Stable (next found)) :
    Stable fun bytes => read bytes >>= fun found => next found bytes := by
  intro part whole result hbegin hresult
  obtain ⟨⟨a, rest⟩, hread, hrest⟩ := exists_of_bind_eq_ok hresult
  obtain ⟨later, hwhole, -⟩ := h hbegin hread
  simp only [hwhole]
  rw [hunused a rest later] at hrest
  exact hnext _ hbegin hrest

theorem advances_takeBytes (count : Nat) : Advances (takeBytes count) := by
  intro part whole taken rest hbegin htaken
  simp only [takeBytes] at htaken ⊢
  split at htaken
  · next hcount =>
      cases htaken
      have hsame : whole.take count = part.take count := by
        refine ((hbegin.take count).eq_of_length_le ?_).symm
        rw [hcount]
        exact List.length_take_le _ _
      rw [hsame, if_pos hcount]
      exact ⟨_, rfl, hbegin.drop count⟩
  · cases htaken

theorem advances_takeNumber (order : ByteOrder) (count : Nat) :
    Advances (takeNumber order count) := by
  intro part whole value rest hbegin hvalue
  obtain ⟨⟨taken, after⟩, htaken, heq⟩ := exists_of_bind_eq_ok hvalue
  cases heq
  obtain ⟨later, hwhole, hlater⟩ := advances_takeBytes count hbegin htaken
  refine ⟨later, ?_, hlater⟩
  rw [takeNumber, hwhole]
  rfl

theorem stable_takePair (order : ByteOrder) (count : Nat) : Stable (takePair order count) :=
  (advances_takeNumber order count).bind fun first =>
    (advances_takeNumber order count).bind fun second => stable_const (.ok (first, second))

end Reads

section Sizes

theorem Stable.map {read : Bytes → Result α} (h : Stable read) (change : α → β) :
    Stable fun bytes => read bytes >>= fun a => .ok (change a) := by
  intro part whole result hbegin hresult
  obtain ⟨a, hread, hchange⟩ := exists_of_bind_eq_ok hresult
  simp only [h hbegin hread]
  exact hchange

theorem stable_jpegSize (depth : Nat) : Stable (jpegSize depth) := by
  intro part whole result hbegin hresult
  fun_induction jpegSize depth part generalizing whole with
  | case1 => cases hresult
  | case2 => cases hresult
  | case3 => cases hresult
  | case4 depth lead marker rest value hlead =>
      rename_i hframe
      obtain ⟨_, rfl, hmarker⟩ := List.cons_prefix_iff.mp hbegin
      obtain ⟨later, rfl, hrest⟩ := List.cons_prefix_iff.mp hmarker
      rw [jpegSize, if_neg hlead, if_pos hframe]
      exact ((stable_takePair .big 2).drop 3).map Prod.swap hrest hresult
  | case5 => cases hresult
  | case6 => cases hresult
  | case7 depth lead marker rest value hlead hframe hend inner length after hlength =>
      rename_i ih
      obtain ⟨_, rfl, hmarker⟩ := List.cons_prefix_iff.mp hbegin
      obtain ⟨later, rfl, hrest⟩ := List.cons_prefix_iff.mp hmarker
      obtain ⟨_, hsame, -⟩ := advances_takeNumber .big 2 hrest hlength
      rw [jpegSize, if_neg hlead, if_neg hframe, if_neg hend, hsame]
      exact ih (hrest.drop length) hresult

theorem stable_webpSize : Stable webpSize := by
  refine ((advances_takeNumber .big 1).drop 15).peek (fun _ _ _ => rfl) fun (kind, _) => ?_
  simp only
  split_ifs
  · exact (stable_takePair .little 2).drop 26
  · exact ((advances_takeNumber .little 4).drop 21).bind fun bits =>
      stable_const (.ok (bits % 0x4000 + 1, bits / 0x4000 % 0x4000 + 1))
  · exact ((stable_takePair .little 3).drop 24).map _
  · exact stable_const _

theorem stable_tiffEntries (order : ByteOrder) (count : Nat) (width height : Option Nat) :
    Stable (tiffEntries order count width height) := by
  induction count generalizing width height with
  | zero => exact stable_const _
  | succ count ih =>
      refine (advances_takeNumber order 2).bind fun tag => ?_
      refine (advances_takeNumber order 2).bind fun number => ?_
      refine (advances_takeNumber order 4).bind fun _ => ?_
      cases EntryType.ofNumber? number with
      | none => exact stable_const _
      | some type =>
          refine (advances_takeBytes 4).bind fun held => ?_
          simp only
          generalize (if tag = 0x100 then type.value? order held else width) = width
          generalize (if tag = 0x101 then type.value? order held else height) = height
          cases width with
          | none => exact ih none height
          | some width =>
              cases height with
              | none => exact ih (some width) none
              | some height => exact stable_const (.ok (width, height))

end Sizes

section Formats

/-- Signs that stand within a front of a file stand there in the file. -/
theorem hasAt_of_front (hbegin : part <+: whole) {position : Nat} {expected : Bytes}
    (hlength : position + expected.length ≤ part.length) :
    hasAt position expected whole = hasAt position expected part := by
  have hdrop := hbegin.drop position
  have hfits : expected.length ≤ (part.drop position).length := by
    rw [List.length_drop]
    omega
  rw [hasAt, hasAt, Bool.eq_iff_iff, List.isPrefixOf_iff_prefix, List.isPrefixOf_iff_prefix]
  exact ⟨fun h => List.prefix_of_prefix_length_le h hdrop hfits, fun h => h.trans hdrop⟩

theorem formatOf?_of_front (hbegin : part <+: whole) (hlength : signatureLength ≤ part.length) :
    formatOf? whole = formatOf? part := by
  have hsame : ∀ position expected, position + expected.length ≤ signatureLength →
      hasAt position expected whole = hasAt position expected part :=
    fun _ _ hfits => hasAt_of_front hbegin (hfits.trans hlength)
  simp only [formatOf?]
  rw [hsame 0 [0xFF, 0xD8, 0xFF] (by decide), hsame 0 [0x89, 0x50, 0x4E, 0x47] (by decide),
    hsame 0 (letters "GIF8") (by decide), hsame 0 [0x49, 0x49, 0x2A, 0x00] (by decide),
    hsame 0 [0x4D, 0x4D, 0x00, 0x2A] (by decide), hsame 0 (letters "RIFF") (by decide),
    hsame 8 (letters "WEBP") (by decide), hsame 4 (letters "ftyp") (by decide),
    hsame 0 (letters "BM") (by decide), hsame 0 [0x00, 0x00, 0x01, 0x00] (by decide)]

/-- The bytes that files of a known format start with. -/
def signatureStarts : Bytes := [0xFF, 0x89, 0x47, 0x49, 0x4D, 0x52, 0x42, 0x00]

theorem exists_of_formatOf? {bytes : Bytes} {format : Format} (h : formatOf? bytes = some format) :
    ∃ b rest, bytes = b :: rest ∧ b ∈ signatureStarts := by
  cases bytes with
  | nil => cases h
  | cons b rest =>
      refine ⟨b, rest, rfl, by_contra fun hb => ?_⟩
      have hmiss : ∀ expected : Bytes, expected.head?.any signatureStarts.contains = true →
          hasAt 0 expected (b :: rest) = false := by
        intro expected hexpected
        cases expected with
        | nil => cases hexpected
        | cons first signs =>
            have hfirst : first ∈ signatureStarts := by simpa using hexpected
            have hne : first ≠ b := fun heq => hb (heq ▸ hfirst)
            simp [hasAt, List.isPrefixOf, hne]
      simp only [formatOf?] at h
      rw [hmiss [0xFF, 0xD8, 0xFF] (by decide), hmiss [0x89, 0x50, 0x4E, 0x47] (by decide),
        hmiss (letters "GIF8") (by decide), hmiss [0x49, 0x49, 0x2A, 0x00] (by decide),
        hmiss [0x4D, 0x4D, 0x00, 0x2A] (by decide), hmiss (letters "RIFF") (by decide),
        hmiss (letters "BM") (by decide), hmiss [0x00, 0x00, 0x01, 0x00] (by decide)] at h
      simp at h

theorem stable_tiffDirectory (order : ByteOrder) : Stable fun bytes =>
    takeNumber order 4 (bytes.drop 4) >>= fun offset =>
      if offset.1 = 0 then .error .noDirectory
      else takeNumber order 2 (bytes.drop offset.1) >>= fun count =>
        tiffEntries order count.1 none none count.2 := by
  refine ((advances_takeNumber order 4).drop 4).peek (fun _ _ _ => rfl) fun offset => ?_
  split_ifs
  · exact stable_const _
  · exact ((advances_takeNumber order 2).drop offset.1).bind fun count =>
      stable_tiffEntries order count none none

/-- A TIFF file has its byte order at the front, and all else is read in that order. -/
theorem tiffSize_of_front (hbegin : part <+: whole) (hlength : signatureLength ≤ part.length)
    {size : Nat × Nat} (h : tiffSize part = .ok size) : tiffSize whole = .ok size := by
  have horder : hasAt 0 (letters "II") whole = hasAt 0 (letters "II") part :=
    hasAt_of_front hbegin (le_trans (by decide) hlength)
  rw [tiffSize, horder]
  exact stable_tiffDirectory _ hbegin h

theorem size_of_front (hbegin : part <+: whole) (hlength : signatureLength ≤ part.length)
    {format : Format} (hformat : format ≠ .ico) {found : Nat × Nat}
    (h : size part format = .ok found) : size whole format = .ok found := by
  cases format with
  | jpeg => exact (stable_jpegSize 0).drop 2 hbegin h
  | png => exact (stable_takePair .big 4).drop 16 hbegin h
  | gif => exact (stable_takePair .little 2).drop 6 hbegin h
  | tiff => exact tiffSize_of_front hbegin hlength h
  | webp => exact stable_webpSize hbegin h
  | bmp => exact (stable_takePair .little 4).drop 18 hbegin h
  | ico => exact absurd rfl hformat

theorem recognize_of_front (hbegin : part <+: whole)
    (hlength : signatureLength ≤ part.length) :
    Raster.recognize whole = Raster.recognize part := by
  rw [Raster.recognize, Raster.recognize,
    if_neg (Nat.not_lt.mpr (hlength.trans hbegin.length_le)), if_neg (Nat.not_lt.mpr hlength),
    formatOf?_of_front hbegin hlength]

theorem recognize_of_short (hshort : part.length < signatureLength) :
    Raster.recognize part = .fault .cutShort := if_pos hshort

theorem formatOf?_of_recognize {format : Format} (h : Raster.recognize part = .known format) :
    formatOf? part = some format := by
  rw [Raster.recognize] at h
  split at h
  · cases h
  · split at h
    · cases h
    · next hformat =>
        cases h
        exact hformat

end Formats

/-- What is told about the front of a file that is no icon holds for the file. -/
theorem HeaderReader.standard_foretells (hbegin : part <+: whole)
    (hicon : formatOf? whole ≠ some .ico) : HeaderReader.standard.Foretells part whole := by
  rcases Nat.lt_or_ge part.length signatureLength with hshort | hlength
  · have hfault := recognize_of_short hshort
    exact {
      known := fun h => by cases hfault.symm.trans h
      other := fun h => by cases hfault.symm.trans h
      unsupported := fun h => by cases hfault.symm.trans h
      size := fun h => by cases hfault.symm.trans h }
  · have hsame := recognize_of_front hbegin hlength
    exact {
      known := fun h => hsame.trans h
      other := fun h => hsame.trans h
      unsupported := fun h => .inl (hsame.trans h)
      size := fun h hsize => by
        have hwhole := (formatOf?_of_front hbegin hlength).trans (formatOf?_of_recognize h)
        refine size_of_front hbegin hlength ?_ hsize
        rintro rfl
        exact hicon hwhole }

-- A front of an icon file may show its first image only, and then the size is not that of the file.
example :
    let whole : Bytes := [0, 0, 1, 0, 2, 0, 16, 16, 0, 0, 0, 0, 0, 0, 0, 0, 0, 0, 0, 0, 0, 0, 32, 32]
    size (whole.take 12) .ico = .ok (16, 16) ∧ size whole .ico = .ok (32, 32) := by
  cbv

end ExtensionLint.Raster

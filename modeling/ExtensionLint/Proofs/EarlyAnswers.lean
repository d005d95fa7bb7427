import ExtensionLint.Proofs.RasterFronts
import ExtensionLint.Proofs.VectorOpenings

/-!
Answers on part of an image. An answer that is given before all bytes are there is that of all of
them, unless the part is too short to show that the image is a vector one: once twelve bytes show no
known format, a part that ends in blanks, in a mark or inside an opening is refused, whatever comes
after it. How a stream is cut into pieces shows in the result in just this case.
-/

namespace ExtensionLint

/-- Answers that tell of a vector image. -/
def ImageDecoder.tellsVector : Except DecodeError (Option ImageInfo) → Bool
  | .ok (some info) => info.isSvg
  | .error (.corrupt .noRoot) => true
  | .error (.corrupt .unterminatedRoot) => true
  | _ => false

open ImageDecoder (tellsVector)

theorem Svg.tellsVector_probe (bytes : Bytes) : tellsVector (probe bytes true) = true := by
  cases hroot : Text.cut rootOpening (Utf8.toLenientText bytes) with
  | none =>
      simp only [probe, hroot]
      rfl
  | some found =>
      cases hend : Text.splitFirst '>' (rootOpening ++ found.2) with
      | none =>
          simp only [probe, hroot, hend]
          rfl
      | some ended =>
          simp only [probe, hroot, hend, tellsVector, ImageInfo.isSvg, decide_true]

theorem Raster.HeaderReader.tellsVector_probe (reader : HeaderReader) (bytes : Bytes) :
    tellsVector (reader.probe bytes false) = false := by
  have hmime : ∀ format : Format, format.mime ≠ ImageInfo.svgMime := fun format => by
    cases format <;> decide
  cases hkind : reader.recognize bytes with
  | unsupported => simp only [probe, hkind, tellsVector]
  | other => simp only [probe, hkind, tellsVector]
  | fault fault =>
      simp only [probe, hkind]
      rfl
  | known format =>
      cases hsize : reader.size format bytes with
      | error fault =>
          simp only [probe, hkind, hsize]
          rfl
      | ok size =>
          simp only [probe, hkind, hsize]
          split_ifs
          · rfl
          · rfl
          · exact decide_eq_false (hmime format)

/-- No front of a vector image starts like an image of a known format. -/
theorem Svg.formatOf?_eq_none {part whole : Bytes} (hbegin : part <+: whole)
    (h : isLikely whole = true) : Raster.formatOf? part = none := by
  have hsign : ∀ b ∈ Raster.signatureStarts, ∃ piece, (Utf8.start b).1 = [piece] ∧
      ¬(piece.shown = Char.ofNat 0xFEFF ∨ Text.isBlank piece.shown = true ∨ piece.shown = '<') := by
    simp only [Raster.signatureStarts, List.forall_mem_cons]
    refine ⟨?_, ?_, ?_, ?_, ?_, ?_, ?_, ?_, by simp⟩ <;> exact ⟨_, rfl, by decide⟩
  cases hformat : Raster.formatOf? part with
  | none => rfl
  | some format =>
      obtain ⟨b, front, rfl, hb⟩ := Raster.exists_of_formatOf? hformat
      obtain ⟨rest, rfl⟩ := hbegin
      obtain ⟨piece, hpiece, hother⟩ := hsign b hb
      refine absurd (first_of_isLikely h ?_) hother
      simp only [headLength, List.cons_append, List.take_succ_cons, Utf8.toLenientText, Utf8.decode,
        Utf8.decodeFrom, Utf8.step, hpiece, List.map_cons, List.cons_append, List.head?_cons]

namespace ImageDecoder

variable {reader : Raster.HeaderReader} {part whole : Bytes}

/-- An answer on a front of the bytes is that of all of them, unless they start like a vector image
and the front does not show it. -/
theorem probeHeader_eq_iff (hbegin : part <+: whole)
    (hreader : Svg.isLikely whole = false → reader.Foretells part whole)
    (hanswer : probeHeader reader part false ≠ .ok none) :
    probeHeader reader part false = probeHeader reader whole true ↔
      (Svg.isLikely whole = true → Svg.isLikely part = true) := by
  obtain ⟨rest, rfl⟩ := hbegin
  have hpart : part ≠ [] := by
    rintro rfl
    exact hanswer rfl
  cases hwhole : Svg.isLikely (part ++ rest) with
  | true =>
      rw [probeHeader_of_isLikely reader hwhole]
      cases hlikely : Svg.isLikely part with
      | true =>
          rw [probeHeader_of_isLikely reader hlikely] at hanswer ⊢
          exact iff_of_true ((Svg.probe_append part rest).resolve_left hanswer) fun _ => rfl
      | false =>
          rw [probeHeader_of_not_isLikely reader hpart hlikely]
          refine iff_of_false (fun hsame => ?_) (by simp)
          have hvector := Svg.tellsVector_probe (part ++ rest)
          rw [← hsame, reader.tellsVector_probe] at hvector
          cases hvector
  | false =>
      have hlikely : Svg.isLikely part = false :=
        Bool.eq_false_iff.mpr fun h =>
          Bool.eq_false_iff.mp hwhole (Svg.isLikely_of_front (List.prefix_append part rest) h)
      rw [probeHeader_of_not_isLikely reader hpart hlikely] at hanswer ⊢
      rw [probeHeader_of_not_isLikely reader (by simp [hpart]) hwhole]
      exact iff_of_true ((hreader hwhole).probe.resolve_left hanswer) (by simp)

/-- A front of a vector image that does not show it is refused as soon as it is long enough to show
any known format. -/
theorem header_probe_of_hidden (hbegin : part <+: whole) (hwhole : Svg.isLikely whole = true)
    (hhidden : Svg.isLikely part = false) :
    header.probe part false =
      if part.length < Raster.signatureLength then .ok none else .error .unsupported := by
  have hformat := Svg.formatOf?_eq_none hbegin hwhole
  show probeHeader .standard part false = _
  by_cases hpart : part = []
  · rw [hpart]
    rfl
  · rw [probeHeader_of_not_isLikely _ hpart hhidden]
    split_ifs with hshort
    · have hfault := Raster.recognize_of_short hshort
      simp only [Raster.HeaderReader.probe, Raster.HeaderReader.standard, hfault]
      rfl
    · have hunsupported : Raster.recognize part = .unsupported := by
        rw [Raster.recognize, if_neg hshort, hformat]
      simp only [Raster.HeaderReader.probe, Raster.HeaderReader.standard, hunsupported]

/-- Reads on in a stream until the decoder answers, with the bytes that were seen without an answer
and with what each read gives. A read that gives nothing is the end of the stream and no piece of
it. -/
def readPieces (decoder : ImageDecoder) (seen : Bytes) : List Bytes → Except DecodeError ImageInfo
  | [] => decoder.conclude seen
  | piece :: pieces => match decoder.probe (seen ++ piece) false with
    | .error e => .error e
    | .ok (some info) => .ok info
    | .ok none => readPieces decoder (seen ++ piece) pieces

/-- Bytes in pieces of one size, the last of which may be shorter. -/
def chunks (bytes : Bytes) : List Bytes :=
  if bytes.isEmpty then [] else bytes.take chunkSize :: chunks (bytes.drop chunkSize)
  termination_by bytes.length
  decreasing_by
    have hbytes : bytes ≠ [] := by simpa using ‹¬bytes.isEmpty = true›
    have hpos := List.length_pos_iff.mpr hbytes
    simp only [chunkSize, List.length_drop]
    omega

theorem chunks_drop {bytes : Bytes} {seen : Nat} (h : seen < bytes.length) :
    chunks (bytes.drop seen) =
      (bytes.drop seen).take chunkSize :: chunks (bytes.drop (seen + chunkSize)) := by
  rw [chunks, if_neg (by simpa using h), List.drop_drop]

/-- Reading chunk by chunk is reading a stream in pieces of that size. -/
theorem readFrom_eq_readPieces (decoder : ImageDecoder) (bytes : Bytes) (seen : Nat) :
    decoder.readFrom bytes seen =
      decoder.readPieces (bytes.take seen) (chunks (bytes.drop seen)) := by
  fun_induction decoder.readFrom bytes seen with
  | case1 seen hlt e hprobe =>
      rw [List.take_add] at hprobe
      simp only [chunks_drop hlt, readPieces, hprobe]
  | case2 seen hlt info hprobe =>
      rw [List.take_add] at hprobe
      simp only [chunks_drop hlt, readPieces, hprobe]
  | case3 seen hlt hprobe ih =>
      rw [List.take_add] at hprobe ih
      simp only [chunks_drop hlt, readPieces, hprobe, ih]
  | case4 seen hend =>
      have hle := Nat.le_of_not_lt hend
      rw [List.take_of_length_le hle, List.drop_of_length_le hle, chunks]
      rfl

theorem read_eq_readPieces (decoder : ImageDecoder) (bytes : Bytes) :
    decoder.read bytes = decoder.readPieces [] (chunks bytes) := by
  rw [read, readFrom_eq_readPieces, List.take_zero, List.drop_zero]

section Pieces

variable {decoder : ImageDecoder} {Good : Bytes → Prop} {seen piece : Bytes} {pieces : List Bytes}

theorem readPieces_of_open (hopen : decoder.probe (seen ++ piece) false = .ok none) :
    decoder.readPieces seen (piece :: pieces) = decoder.readPieces (seen ++ piece) pieces := by
  rw [readPieces, hopen]

theorem map_some_readPieces (hanswer : decoder.probe (seen ++ piece) false ≠ .ok none) :
    (decoder.readPieces seen (piece :: pieces)).map some = decoder.probe (seen ++ piece) false := by
  rw [readPieces]
  split
  · next hprobe => rw [hprobe]; rfl
  · next hprobe => rw [hprobe]; rfl
  · next hprobe => exact absurd hprobe hanswer

theorem map_some_injective :
    Function.Injective (Except.map some : Except DecodeError ImageInfo → _) := by
  rintro (e | info) (e' | info') h <;> cases h <;> rfl

theorem forall_fronts_cons {P : List Bytes → Prop} :
    (∀ front, front <+: piece :: pieces → front ≠ [] → P front) ↔
      ∀ front, front <+: pieces → P (piece :: front) := by
  constructor
  · intro h front hfront
    exact h (piece :: front) (List.cons_prefix_cons.mpr ⟨rfl, hfront⟩) (List.cons_ne_nil _ _)
  · intro h front hfront hne
    obtain rfl | ⟨later, rfl, hlater⟩ := List.prefix_cons_iff.mp hfront
    · exact absurd rfl hne
    · exact h later hlater

/-- Reading in pieces leads to what all of the bytes give just when no answer on the way is a wrong
one, for a decoder whose answers on a front are right just when the front is good, and stay so. -/
theorem readPieces_eq_conclude_iff
    (hlonger : ∀ {part later}, part <+: later → Good part → Good later)
    (hgood : ∀ {part}, part <+: whole → decoder.probe part false ≠ .ok none →
      (decoder.probe part false = decoder.probe whole true ↔ Good part))
    (hwhole : decoder.probe whole true ≠ .ok none) (hpieces : seen ++ pieces.flatten = whole) :
    decoder.readPieces seen pieces = decoder.conclude whole ↔
      ∀ front, front <+: pieces → front ≠ [] →
        decoder.probe (seen ++ front.flatten) false ≠ .ok none → Good (seen ++ front.flatten) := by
  induction pieces generalizing seen with
  | nil =>
      rw [List.flatten_nil, List.append_nil] at hpieces
      refine iff_of_true (by rw [readPieces, hpieces]) fun front hfront hne => ?_
      exact absurd (List.prefix_nil.mp hfront) hne
  | cons piece pieces ih =>
      rw [List.flatten_cons, ← List.append_assoc] at hpieces
      rw [forall_fronts_cons]
      simp only [List.flatten_cons, ← List.append_assoc]
      by_cases hopen : decoder.probe (seen ++ piece) false = .ok none
      · rw [readPieces_of_open hopen, ih hpieces]
        refine forall₂_congr fun front _ => ⟨fun h hanswer => h ?_ hanswer, fun h _ => h⟩
        rintro rfl
        rw [List.flatten_nil, List.append_nil] at hanswer
        exact hanswer hopen
      · rw [← map_some_injective.eq_iff, map_some_conclude hwhole, map_some_readPieces hopen,
          hgood ⟨pieces.flatten, hpieces⟩ hopen]
        constructor
        · exact fun h front _ _ => hlonger (List.prefix_append _ _) h
        · intro h
          have hfirst := h [] List.nil_prefix
          rw [List.flatten_nil, List.append_nil] at hfirst
          exact hfirst hopen

end Pieces

theorem read_eq_conclude
    (hreader : Svg.isLikely whole = false → ∀ part, part <+: whole → reader.Foretells part whole) :
    (headerWith reader).read whole = (headerWith reader).conclude whole := by
  have hfront : ∀ count, 0 < count →
      (headerWith reader).probe (whole.take (count * chunkSize)) false = .ok none ∨
      (headerWith reader).probe (whole.take (count * chunkSize)) false
        = (headerWith reader).probe whole true := by
    intro count hcount
    refine probeHeader_take ?_ fun hlikely => hreader hlikely _ (List.take_prefix _ _)
    simp only [Svg.headLength, chunkSize]
    omega
  have hread := readFrom_eq_conclude hfront 0
  rw [Nat.zero_mul] at hread
  rw [read, hread]

/-- Answers on part of the bytes and what all of them give are the same, in whatever pieces the
bytes come, unless the bytes start like a vector image and a part that is answered does not. -/
theorem probeHeader_early (reader : Raster.HeaderReader) (whole : Bytes)
    (hreader : Svg.isLikely whole = false → ∀ part, part <+: whole → reader.Foretells part whole) :
    (∀ part, part <+: whole → probeHeader reader part false ≠ .ok none →
      (probeHeader reader part false = probeHeader reader whole true ↔
        (Svg.isLikely whole = true → Svg.isLikely part = true))) ∧
    ∀ pieces : List Bytes, pieces.flatten = whole →
      ((headerWith reader).readPieces [] pieces = (headerWith reader).read whole ↔
        ∀ front, front <+: pieces → probeHeader reader front.flatten false ≠ .ok none →
          Svg.isLikely whole = true → Svg.isLikely front.flatten = true) := by
  have hfinal : ∀ {part}, part <+: whole → probeHeader reader part false ≠ .ok none →
      (probeHeader reader part false = probeHeader reader whole true ↔
        (Svg.isLikely whole = true → Svg.isLikely part = true)) := fun hbegin hanswer =>
    probeHeader_eq_iff hbegin (fun hlikely => hreader hlikely _ hbegin) hanswer
  refine ⟨fun part => hfinal, fun pieces hpieces => ?_⟩
  have hlonger : ∀ {part later}, part <+: later →
      (Svg.isLikely whole = true → Svg.isLikely part = true) →
      Svg.isLikely whole = true → Svg.isLikely later = true :=
    fun hbegin hpart hwhole => Svg.isLikely_of_front hbegin (hpart hwhole)
  rw [read_eq_conclude hreader, readPieces_eq_conclude_iff hlonger hfinal
    (probeHeader_complete_ne_none reader whole) hpieces]
  refine forall₂_congr fun front hfront => ⟨fun h hanswer => ?_, fun h _ => h⟩
  refine h ?_ hanswer
  rintro rfl
  exact hanswer rfl

/-- A PNG file of forty-eight pixels by thirty-two. -/
def smallPng : Bytes :=
  [0x89, 0x50, 0x4E, 0x47, 0x0D, 0x0A, 0x1A, 0x0A, 0, 0, 0, 13] ++ Raster.letters "IHDR"
    ++ [0, 0, 0, 48, 0, 0, 0, 32, 8, 6, 0, 0, 0, 0, 0, 0, 0]

theorem probeHeader_early_smallPng :
    (∀ part, part <+: smallPng → Raster.HeaderReader.standard.Foretells part smallPng) ∧
    Svg.isLikely smallPng = false ∧
    (∀ part, part <+: smallPng → header.probe part false ≠ .ok none →
      header.probe part false = header.probe smallPng true) ∧
    ∀ pieces : List Bytes, pieces.flatten = smallPng →
      header.readPieces [] pieces = .ok ⟨48, 32, "image/png"⟩ := by
  have hforetells : ∀ part, part <+: smallPng →
      Raster.HeaderReader.standard.Foretells part smallPng :=
    fun _ hbegin => Raster.HeaderReader.standard_foretells hbegin (by decide)
  have hlikely : Svg.isLikely smallPng = false := by decide
  have hread : header.read smallPng = .ok ⟨48, 32, "image/png"⟩ := by decide +kernel
  obtain ⟨hfinal, hpieces⟩ := probeHeader_early .standard smallPng fun _ => hforetells
  refine ⟨hforetells, hlikely, fun part hbegin hanswer => ?_, fun pieces hflatten => ?_⟩
  · exact (hfinal part hbegin hanswer).mpr (by simp [hlikely])
  · rw [← hread]
    exact (hpieces pieces hflatten).mpr (by simp [hlikely])

/-- Twelve blanks in front of a root element are refused before the root element is read. -/
theorem probeHeader_early_blanks :
    let blanks := Utf8.ofText "            "
    let root := Utf8.ofText "<svg width='4' height='3'>"
    header.probe blanks false = .error .unsupported ∧
    header.probe (blanks ++ root) true = .ok (some ⟨4, 3, ImageInfo.svgMime⟩) ∧
    header.readPieces [] [blanks, root] = .error .unsupported ∧
    header.read (blanks ++ root) = .ok ⟨4, 3, ImageInfo.svgMime⟩ := by
  decide +kernel

end ImageDecoder

end ExtensionLint

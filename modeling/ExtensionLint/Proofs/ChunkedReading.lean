import ExtensionLint.Image.Header
import Mathlib.Data.List.Basic
/-!
Reading an image chunk by chunk cannot be seen in the answer. A decoder that answers on a front of
the bytes must have the answer that all of them give. For a vector image this holds whatever the
bytes are: what follows a front of bytes can only change the end of its text, where a character may
be cut short, and the mark that stands there is no part of a tag. For a raster image it is what the
reader of headers has to keep.
-/

namespace ExtensionLint

namespace Utf8

/-- The pieces that bytes complete, and the sequence that they leave open. -/
def advance (state : Option Pending) : Bytes → List Piece × Option Pending
  | [] => ([], state)
  | b :: rest =>
      let (pieces, next) := step state b
      let (more, last) := advance next rest
      (pieces ++ more, last)

theorem decodeFrom_append (state : Option Pending) (front rest : Bytes) :
    decodeFrom state (front ++ rest)
      = (advance state front).1 ++ decodeFrom (advance state front).2 rest := by
  induction front generalizing state with
  | nil => rfl
  | cons b front ih => simp only [List.cons_append, decodeFrom, advance, ih, List.append_assoc]

/-- The mark in the place of bytes that are no character. -/
def mark : Char := Char.ofNat 0xFFFD

theorem eq_mark_of_mem_decodeFrom_nil (state : Option Pending) {c : Char}
    (h : c ∈ (decodeFrom state []).map Piece.shown) : c = mark := by
  cases state with
  | none => cases h
  | some pending => exact List.mem_singleton.mp h

/-- A character in the text of a front of bytes stays where it is, and so does the text before it.
Only the mark may give way to a character once the bytes go on. -/
theorem toLenientText_append {front : Bytes} {before after : List Char} {c : Char}
    (hc : c ≠ mark) (h : toLenientText front = before ++ c :: after) (rest : Bytes) :
    ∃ later, toLenientText (front ++ rest) = before ++ c :: later := by
  have hfront := decodeFrom_append none front []
  rw [List.append_nil] at hfront
  simp only [toLenientText, decode, hfront, List.map_append] at h
  simp only [toLenientText, decode, decodeFrom_append, List.map_append]
  obtain ⟨middle, -, hopen⟩ | ⟨middle, hdone, hmiddle⟩ := List.append_eq_append_iff.mp h
  · refine absurd (eq_mark_of_mem_decodeFrom_nil (advance none front).2 ?_) hc
    rw [hopen]
    exact List.mem_append_right _ List.mem_cons_self
  · cases middle with
    | nil =>
        refine absurd (eq_mark_of_mem_decodeFrom_nil (advance none front).2 ?_) hc
        rw [← List.nil_append (List.map _ _), ← hmiddle]
        exact List.mem_cons_self
    | cons d middle =>
        obtain ⟨rfl, -⟩ := List.cons_eq_cons.mp hmiddle
        rw [hdone, List.append_assoc]
        exact ⟨_, rfl⟩

/-- Signs in the text of a front of some bytes stay where they are, unless the last of them is the
mark, which may stand for a character that is cut short. -/
theorem toLenientText_of_front {part whole : Bytes} (hbegin : part <+: whole)
    {shown : List Char} (hlast : shown.getLast? ≠ some mark) (h : shown <+: toLenientText part) :
    shown <+: toLenientText whole := by
  obtain ⟨rest, rfl⟩ := hbegin
  obtain ⟨after, hafter⟩ := h
  rcases List.eq_nil_or_concat shown with rfl | ⟨before, c, rfl⟩
  · exact List.nil_prefix
  · rw [List.concat_eq_append, List.append_assoc] at hafter
    obtain ⟨later, hlater⟩ := toLenientText_append (by simpa using hlast) hafter.symm rest
    exact ⟨later, by rw [hlater]; simp⟩

end Utf8

namespace Svg

theorem isLikely_take {count : Nat} (hcount : headLength ≤ count) (bytes : Bytes) :
    isLikely (bytes.take count) = isLikely bytes := by
  simp only [isLikely, List.take_take, Nat.min_eq_left hcount]

/-- The tag that opens a root element goes on from the opening. -/
theorem exists_of_splitFirst {rest tag after : List Char}
    (h : Text.splitFirst '>' (rootOpening ++ rest) = some (tag, after)) :
    ∃ inner, tag = rootOpening ++ inner ∧ rest = inner ++ '>' :: after := by
  have hrest := Text.eq_append_of_cut h
  rw [List.append_assoc] at hrest
  obtain ⟨inner, htag, hinner⟩ | ⟨inner, hopening, hinner⟩ := List.append_eq_append_iff.mp hrest
  · exact ⟨inner, htag, hinner⟩
  · cases inner with
    | nil => exact ⟨[], by rw [hopening, List.append_nil, List.append_nil], hinner.symm⟩
    | cons c inner =>
        obtain ⟨rfl, -⟩ := List.cons_eq_cons.mp hinner
        have : '>' ∈ rootOpening := hopening ▸ List.mem_append_right _ List.mem_cons_self
        exact absurd this (by decide)

/-- A front of a vector image leaves the answer open or gives that of the whole. -/
theorem probe_append (front rest : Bytes) :
    probe front false = .ok none ∨ probe front false = probe (front ++ rest) true := by
  cases hroot : Text.cut rootOpening (Utf8.toLenientText front) with
  | none => exact .inl (by rw [probe, hroot]; rfl)
  | some found =>
      obtain ⟨before, element⟩ := found
      cases hend : Text.splitFirst '>' (rootOpening ++ element) with
      | none => exact .inl (by simp only [probe, hroot, hend]; rfl)
      | some ended =>
          obtain ⟨tag, after⟩ := ended
          obtain ⟨inner, rfl, rfl⟩ := exists_of_splitFirst hend
          have hfront : Utf8.toLenientText front
              = before ++ rootOpening ++ inner ++ '>' :: after := by
            rw [Text.eq_append_of_cut hroot, List.append_assoc _ inner]
          obtain ⟨later, hwhole⟩ := Utf8.toLenientText_append (by decide) hfront rest
          have hroot' : Text.cut rootOpening (Utf8.toLenientText (front ++ rest))
              = some (before, inner ++ '>' :: later) := by
            rw [hwhole, List.append_assoc _ inner]
            exact Text.cut_append hroot _
          have hend' : Text.splitFirst '>' (rootOpening ++ (inner ++ '>' :: later))
              = some (rootOpening ++ inner, later) := by
            rw [Text.splitFirst]
            simpa using Text.cut_append hend later
          exact .inr (by simp only [probe, hroot, hend, hroot', hend'])

end Svg

namespace Raster.HeaderReader

variable {reader : HeaderReader} {part whole : Bytes}

/-- What a reader says of part of some bytes holds for the whole: a format, a size, and that there
will be no media type. -/
structure Foretells (reader : HeaderReader) (part whole : Bytes) : Prop where
  known : ∀ {format}, reader.recognize part = .known format →
    reader.recognize whole = .known format
  other : reader.recognize part = .other → reader.recognize whole = .other
  unsupported : reader.recognize part = .unsupported →
    reader.recognize whole = .unsupported ∨ reader.recognize whole = .other
  size : ∀ {format size}, reader.recognize part = .known format →
    reader.size format part = .ok size → reader.size format whole = .ok size

theorem Foretells.refl (reader : HeaderReader) (bytes : Bytes) : reader.Foretells bytes bytes :=
  ⟨id, id, .inl, fun _ => id⟩

theorem Foretells.probe (h : reader.Foretells part whole) :
    reader.probe part false = .ok none ∨ reader.probe part false = reader.probe whole true := by
  cases hpart : reader.recognize part with
  | unsupported =>
      right
      obtain hwhole | hwhole := h.unsupported hpart <;>
        simp only [HeaderReader.probe, hpart, hwhole]
  | other => exact .inr (by simp only [HeaderReader.probe, hpart, h.other hpart])
  | fault fault => exact .inl (by simp only [HeaderReader.probe, hpart]; rfl)
  | known format =>
      cases hsize : reader.size format part with
      | error fault => exact .inl (by simp only [HeaderReader.probe, hpart, hsize]; rfl)
      | ok size =>
          right
          simp only [HeaderReader.probe, hpart, h.known hpart, hsize, h.size hpart hsize]

theorem answerFault_complete_ne_none (fault : ImageFault) : answerFault true fault ≠ .ok none :=
  fun h => by cases h

theorem probe_complete_ne_none (reader : HeaderReader) (bytes : Bytes) :
    reader.probe bytes true ≠ .ok none := by
  rw [HeaderReader.probe]
  split
  · simp
  · simp
  · exact answerFault_complete_ne_none _
  · split
    · exact answerFault_complete_ne_none _
    · split
      · simp
      · split <;> simp

end Raster.HeaderReader

theorem Svg.probe_complete_ne_none (bytes : Bytes) : probe bytes true ≠ .ok none := by
  simp only [probe]
  split
  · simp
  · split <;> simp

namespace ImageDecoder

/-- Reading on after any number of chunks leads to what all of the bytes give, for a decoder that on
a front of them leaves the answer open or gives that of the whole. -/
theorem readFrom_eq_conclude {decoder : ImageDecoder} {bytes : Bytes}
    (hfront : ∀ count, 0 < count →
      decoder.probe (bytes.take (count * chunkSize)) false = .ok none ∨
      decoder.probe (bytes.take (count * chunkSize)) false = decoder.probe bytes true)
    (count : Nat) : decoder.readFrom bytes (count * chunkSize) = decoder.conclude bytes := by
  have hnext := hfront (count + 1) (Nat.succ_pos count)
  generalize hseen : count * chunkSize = seen
  induction seen using readFrom.induct decoder bytes generalizing count with
  | case1 seen hlt e hprobe =>
      rw [Nat.succ_mul, hseen, hprobe] at hnext
      rw [readFrom, if_pos hlt, hprobe, conclude, ← hnext.resolve_left (by simp)]
  | case2 seen hlt info hprobe =>
      rw [Nat.succ_mul, hseen, hprobe] at hnext
      rw [readFrom, if_pos hlt, hprobe, conclude, ← hnext.resolve_left (by simp)]
  | case3 seen hlt hprobe ih =>
      rw [readFrom, if_pos hlt, hprobe]
      exact ih (count + 1) (hfront _ (Nat.succ_pos _)) (by rw [Nat.succ_mul, hseen])
  | case4 seen hend => rw [readFrom, if_neg hend]

theorem map_some_conclude {decoder : ImageDecoder} {bytes : Bytes}
    (h : decoder.probe bytes true ≠ .ok none) :
    (decoder.conclude bytes).map some = decoder.probe bytes true := by
  rw [conclude]
  split
  · next hprobe => rw [hprobe]; rfl
  · next hprobe => rw [hprobe]; rfl
  · next hprobe => exact absurd hprobe h

variable {reader : Raster.HeaderReader}

theorem probeHeader_of_isLikely (reader : Raster.HeaderReader) {bytes : Bytes} {complete : Bool}
    (hlikely : Svg.isLikely bytes = true) :
    probeHeader reader bytes complete = Svg.probe bytes complete := by
  cases bytes with
  | nil => exact absurd hlikely (by decide)
  | cons b bytes => rw [probeHeader, List.isEmpty_cons, if_neg Bool.false_ne_true, if_pos hlikely]

theorem probeHeader_of_not_isLikely (reader : Raster.HeaderReader) {bytes : Bytes}
    {complete : Bool} (hbytes : bytes ≠ []) (hlikely : Svg.isLikely bytes = false) :
    probeHeader reader bytes complete = reader.probe bytes complete := by
  rw [probeHeader, List.isEmpty_eq_false_iff.mpr hbytes, if_neg Bool.false_ne_true, hlikely,
    if_neg Bool.false_ne_true]

theorem probeHeader_complete_ne_none (reader : Raster.HeaderReader) (bytes : Bytes) :
    probeHeader reader bytes true ≠ .ok none := by
  rw [probeHeader]
  split
  · simp
  · split
    · exact Svg.probe_complete_ne_none bytes
    · exact reader.probe_complete_ne_none bytes

/-- A front of the bytes that is long enough to tell a vector image leaves the answer open or gives
that of the whole. -/
theorem probeHeader_take {bytes : Bytes} {count : Nat} (hcount : Svg.headLength ≤ count)
    (hreader : Svg.isLikely bytes = false → reader.Foretells (bytes.take count) bytes) :
    probeHeader reader (bytes.take count) false = .ok none ∨
    probeHeader reader (bytes.take count) false = probeHeader reader bytes true := by
  have hlikely := Svg.isLikely_take hcount bytes
  cases hbytes : bytes.isEmpty with
  | true =>
      left
      rw [List.isEmpty_iff.mp hbytes, List.take_nil]
      rfl
  | false =>
      have hpart : (bytes.take count).isEmpty = false := by
        have hne : bytes ≠ [] := List.isEmpty_eq_false_iff.mp hbytes
        have hpos : count ≠ 0 := Nat.ne_of_gt (Nat.lt_of_lt_of_le (by decide) hcount)
        simp [hne, hpos]
      cases hsvg : Svg.isLikely bytes with
      | true =>
          simpa [probeHeader, hbytes, hpart, hlikely, hsvg]
            using Svg.probe_append (bytes.take count) (bytes.drop count)
      | false =>
          simpa [probeHeader, hbytes, hpart, hlikely, hsvg] using (hreader hsvg).probe

/-- Reading an image chunk by chunk gives what one look at all of its bytes gives, whatever the
reader of raster headers, as long as what it says of whole chunks holds for the whole. -/
theorem read_headerWith (reader : Raster.HeaderReader) (bytes : Bytes)
    (hreader : Svg.isLikely bytes = false → ∀ count, 0 < count →
      count * chunkSize ≤ bytes.length →
      reader.Foretells (bytes.take (count * chunkSize)) bytes) :
    ((headerWith reader).read bytes).map some = (headerWith reader).probe bytes true := by
  have hfront : ∀ count, 0 < count →
      (headerWith reader).probe (bytes.take (count * chunkSize)) false = .ok none ∨
      (headerWith reader).probe (bytes.take (count * chunkSize)) false
        = (headerWith reader).probe bytes true := by
    intro count hcount
    have hhead : Svg.headLength ≤ count * chunkSize := by
      simp only [Svg.headLength, chunkSize]
      omega
    refine probeHeader_take hhead fun hsvg => ?_
    rcases Nat.le_total (count * chunkSize) bytes.length with hle | hle
    · exact hreader hsvg count hcount hle
    · rw [List.take_of_length_le hle]
      exact .refl reader bytes
  have hread := readFrom_eq_conclude hfront 0
  rw [Nat.zero_mul] at hread
  rw [read, hread]
  exact map_some_conclude (probeHeader_complete_ne_none reader bytes)

/-- A JPEG file with so much in front of its frame that the first chunk does not show the size. -/
def lateFrame : Bytes :=
  [0xFF, 0xD8, 0xFF, 0xE1, 0x13, 0x88] ++ List.replicate 4998 0
    ++ [0xFF, 0xC0, 0, 17, 8, 0, 48, 0, 64]

theorem read_headerWith_lateFrame :
    (∀ count, 0 < count → count * chunkSize ≤ lateFrame.length →
      Raster.HeaderReader.standard.Foretells (lateFrame.take (count * chunkSize)) lateFrame) ∧
    (header.read lateFrame).map some = header.probe lateFrame true ∧
    header.read lateFrame = .ok ⟨64, 48, "image/jpeg"⟩ := by
  have hforetells : ∀ count, 0 < count → count * chunkSize ≤ lateFrame.length →
      Raster.HeaderReader.standard.Foretells (lateFrame.take (count * chunkSize)) lateFrame := by
    intro count hpos hle
    have hlength : lateFrame.length = 5013 := by decide +kernel
    obtain rfl : count = 1 := by
      simp only [hlength, chunkSize] at hle
      omega
    have hknown : Raster.HeaderReader.standard.recognize (lateFrame.take (1 * chunkSize))
        = .known .jpeg := by decide +kernel
    have hsize : Raster.HeaderReader.standard.size .jpeg (lateFrame.take (1 * chunkSize))
        = .error .cutShort := by decide +kernel
    have hwhole : Raster.HeaderReader.standard.recognize lateFrame = .known .jpeg := by
      decide +kernel
    exact {
      known := fun h => hwhole.trans (hknown.symm.trans h)
      other := fun h => by cases hknown.symm.trans h
      unsupported := fun h => by cases hknown.symm.trans h
      size := fun h hpart => by
        cases hknown.symm.trans h
        cases hsize.symm.trans hpart }
  have hread := read_headerWith .standard lateFrame fun _ => hforetells
  refine ⟨hforetells, hread, ?_⟩
  decide +kernel

end ImageDecoder
end ExtensionLint

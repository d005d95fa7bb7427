/-!
UTF-8. Bytes are decoded by a transducer that holds at most one unfinished sequence. A byte that
cannot continue the sequence ends it as malformed and is then read afresh, so a malformed run is as
long as the part of it that could still have become a character. Strict reading reports the first
malformed run; lenient reading puts U+FFFD in the place of each.
-/

namespace ExtensionLint

/-- File contents. -/
abbrev Bytes := List UInt8

namespace Utf8

/-- A sequence whose last bytes are still to come. -/
structure Pending where
  missing : Nat
  least : UInt8
  most : UInt8
  /-- The bits of the character read so far. -/
  bits : Nat
  taken : Nat
  deriving DecidableEq, Repr

/-- One decoded stretch of bytes. -/
inductive Piece where
  /-- A character, with the number of bytes it took. -/
  | scalar (c : Char) (length : Nat)
  /-- Bytes that cannot be part of a character. -/
  | malformed (length : Nat)
  /-- A sequence that the end of the bytes cuts short. -/
  | cutShort (length : Nat)
  deriving DecidableEq, Repr

/-- Reads a byte at which no sequence is open. -/
def start (b : UInt8) : List Piece × Option Pending :=
  let n := b.toNat
  if n < 0x80 then ([.scalar (Char.ofNat n) 1], none)
  else if 0xC2 ≤ n && n ≤ 0xDF then ([], some ⟨1, 0x80, 0xBF, n % 0x20, 1⟩)
  else if n == 0xE0 then ([], some ⟨2, 0xA0, 0xBF, 0, 1⟩)
  else if n == 0xED then ([], some ⟨2, 0x80, 0x9F, n % 0x10, 1⟩)
  else if 0xE1 ≤ n && n ≤ 0xEF then ([], some ⟨2, 0x80, 0xBF, n % 0x10, 1⟩)
  else if n == 0xF0 then ([], some ⟨3, 0x90, 0xBF, 0, 1⟩)
  else if n == 0xF4 then ([], some ⟨3, 0x80, 0x8F, 4, 1⟩)
  else if 0xF1 ≤ n && n ≤ 0xF3 then ([], some ⟨3, 0x80, 0xBF, n % 8, 1⟩)
  else ([.malformed 1], none)

def step (state : Option Pending) (b : UInt8) : List Piece × Option Pending :=
  match state with
  | none => start b
  | some p =>
      if p.least ≤ b && b ≤ p.most then
        let bits := p.bits * 64 + b.toNat % 64
        if p.missing ≤ 1 then ([.scalar (Char.ofNat bits) (p.taken + 1)], none)
        else ([], some ⟨p.missing - 1, 0x80, 0xBF, bits, p.taken + 1⟩)
      else
        let (pieces, next) := start b
        (.malformed p.taken :: pieces, next)

def decodeFrom (state : Option Pending) : Bytes → List Piece
  | [] => match state with
    | none => []
    | some p => [.cutShort p.taken]
  | b :: rest =>
      let (pieces, next) := step state b
      pieces ++ decodeFrom next rest

def decode (bytes : Bytes) : List Piece := decodeFrom none bytes

/-- Why bytes are not text. -/
inductive Malformation where
  /-- A run of bytes that no character contains. -/
  | invalid (length index : Nat)
  /-- The end of the bytes inside a character. -/
  | incomplete (index : Nat)
  deriving DecidableEq, Repr

def Malformation.message : Malformation → String
  | .invalid length index =>
      "invalid utf-8 sequence of " ++ toString length ++ " bytes from index " ++ toString index
  | .incomplete index => "incomplete utf-8 byte sequence from index " ++ toString index

/-- Collects the characters of pieces that start at a byte index, up to the first malformation. -/
def charactersFrom : Nat → List Piece → Except Malformation (List Char)
  | _, [] => .ok []
  | index, .scalar c length :: rest => (charactersFrom (index + length) rest).map (c :: ·)
  | index, .malformed length :: _ => .error (.invalid length index)
  | index, .cutShort _ :: _ => .error (.incomplete index)

/-- Reads bytes as text, or reports the first malformation. -/
def toText (bytes : Bytes) : Except Malformation (List Char) := charactersFrom 0 (decode bytes)

/-- The character that stands for a piece when malformed bytes are tolerated. -/
def Piece.shown : Piece → Char
  | .scalar c _ => c
  | .malformed _ => Char.ofNat 0xFFFD
  | .cutShort _ => Char.ofNat 0xFFFD

/-- Reads bytes as text with U+FFFD in place of each malformed run. -/
def toLenientText (bytes : Bytes) : List Char := (decode bytes).map Piece.shown

def ofText (s : String) : Bytes := s.toUTF8.data.toList

def byteOrderMark : Bytes := [0xEF, 0xBB, 0xBF]

def stripMark (bytes : Bytes) : Bytes := (byteOrderMark.isPrefixOf? bytes).getD bytes

end Utf8
end ExtensionLint

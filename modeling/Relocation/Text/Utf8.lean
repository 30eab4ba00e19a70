/-!
# Bytes as text

Reads bytes as UTF-8, keeping apart what is well formed and what is not. A broken sequence is cut
where it stops being the beginning of a character, and stands for one replacement character.
-/

namespace Relocation.Text.Utf8

/-- A piece of bytes read as text: a character, or bytes that form none. -/
inductive Piece where
  | char (c : Char)
  | broken (bytes : List UInt8)
  deriving DecidableEq, Repr

/-- How many bytes continue a character that begins with the given byte, and between which
bounds the first of them lies. -/
def lead (b : UInt8) : Option (Nat × UInt8 × UInt8) :=
  if 0xc2 ≤ b && b ≤ 0xdf then some (1, 0x80, 0xbf)
  else if b = 0xe0 then some (2, 0xa0, 0xbf)
  else if b = 0xed then some (2, 0x80, 0x9f)
  else if 0xe1 ≤ b && b ≤ 0xef then some (2, 0x80, 0xbf)
  else if b = 0xf0 then some (3, 0x90, 0xbf)
  else if b = 0xf4 then some (3, 0x80, 0x8f)
  else if 0xf1 ≤ b && b ≤ 0xf3 then some (3, 0x80, 0xbf)
  else none

/-- The longest run of at most `count` bytes that continue a character, the first of them
between the given bounds. -/
def continuation : Nat → UInt8 → UInt8 → List UInt8 → List UInt8
  | 0, _, _, _ => []
  | _, _, _, [] => []
  | count + 1, lo, hi, b :: bs =>
    if lo ≤ b && b ≤ hi then b :: continuation count 0x80 0xbf bs else []

/-- The code point of a character's bytes: the payload of the first, six bits from each other. -/
def codePoint (payload : Nat) (tail : List UInt8) : Nat :=
  tail.foldl (fun n b ↦ n * 64 + b.toNat % 64) payload

/-- Reads bytes as pieces, at most as many as the first argument says. -/
def piecesUpTo : Nat → List UInt8 → List Piece
  | 0, _ => []
  | _, [] => []
  | n + 1, b :: bs =>
    if b < 0x80 then .char (Char.ofNat b.toNat) :: piecesUpTo n bs
    else
      match lead b with
      | none => .broken [b] :: piecesUpTo n bs
      | some (count, lo, hi) =>
        let tail := continuation count lo hi bs
        let rest := bs.drop tail.length
        if tail.length = count then
          let payload := b.toNat % (if count = 1 then 32 else if count = 2 then 16 else 8)
          .char (Char.ofNat (codePoint payload tail)) :: piecesUpTo n rest
        else .broken (b :: tail) :: piecesUpTo n rest

/-- Reads bytes as pieces. -/
def pieces (bytes : List UInt8) : List Piece := piecesUpTo bytes.length bytes

/-- The text of bytes that are well formed throughout. -/
def decode? (bytes : List UInt8) : Option String :=
  ((pieces bytes).mapM fun (p : Piece) ↦ match p with
    | .char c => some c
    | .broken _ => none).map String.ofList

/-- The text of bytes, with a replacement character for each broken sequence. -/
def decodeLossy (bytes : List UInt8) : String :=
  String.ofList ((pieces bytes).map fun (p : Piece) ↦ match p with
    | .char c => c
    | .broken _ => '\ufffd')

/-- The bytes of a text. -/
def encode (s : String) : List UInt8 := s.toUTF8.data.toList

end Relocation.Text.Utf8

import Stencil.Text.Quoted

/-!
# Messages in blocks

Digests are computed over blocks of sixty-four bytes.  A message is followed by a one bit, by as
many zero bits as are needed, and by its length in bits.
-/

namespace Stencil.Digest

def byteOf (n place : Nat) : UInt8 :=
  (n / Nat.pow 256 place % 256).toUInt8

def littleEndian (width n : Nat) : List UInt8 :=
  (List.range width).map (byteOf n)

def bigEndian (width n : Nat) : List UInt8 :=
  (littleEndian width n).reverse

/-- The number that bytes write, from the highest on. -/
def ofBigEndian (bytes : List UInt8) : Nat :=
  bytes.foldl (fun n byte => n * 256 + byte.toNat) 0

/-- The number that bytes write, from the lowest on. -/
def ofLittleEndian (bytes : List UInt8) : Nat :=
  ofBigEndian bytes.reverse

/-- The message and what follows it; `lengthBytes` writes the length in bits. -/
def padded (lengthBytes : Nat → List UInt8) (message : List UInt8) : List UInt8 :=
  let zeros := (119 - message.length % 64) % 64
  message ++ 0x80 :: List.replicate zeros 0 ++ lengthBytes (8 * message.length)

def chunks {α : Type} (size : Nat) (items : List α) : List (List α) :=
  (List.range ((items.length + size - 1) / size)).map fun i =>
    (items.drop (i * size)).take size

def rotateLeft (x : UInt32) (places : Nat) : UInt32 :=
  x <<< places.toUInt32 ||| x >>> (32 - places).toUInt32

def rotateRight (x : UInt32) (places : Nat) : UInt32 :=
  rotateLeft x (32 - places)

def textBytes (text : List Char) : List UInt8 :=
  (String.ofList text).toUTF8.toList

def hexText (bytes : List UInt8) : List Char :=
  bytes.flatMap fun byte => Text.hexDigits 2 byte.toNat

end Stencil.Digest

import Stencil.Digest.Padding

/-!
# The SHA-256 digest

Eight words are stirred sixty-four times for every block of the message, each time with a word of
the block or of what is made from it.
-/

namespace Stencil.Digest.Sha256

def constants : List UInt32 :=
  [
   0x428a2f98, 0x71374491, 0xb5c0fbcf, 0xe9b5dba5, 0x3956c25b, 0x59f111f1, 0x923f82a4, 0xab1c5ed5,
   0xd807aa98, 0x12835b01, 0x243185be, 0x550c7dc3, 0x72be5d74, 0x80deb1fe, 0x9bdc06a7, 0xc19bf174,
   0xe49b69c1, 0xefbe4786, 0x0fc19dc6, 0x240ca1cc, 0x2de92c6f, 0x4a7484aa, 0x5cb0a9dc, 0x76f988da,
   0x983e5152, 0xa831c66d, 0xb00327c8, 0xbf597fc7, 0xc6e00bf3, 0xd5a79147, 0x06ca6351, 0x14292967,
   0x27b70a85, 0x2e1b2138, 0x4d2c6dfc, 0x53380d13, 0x650a7354, 0x766a0abb, 0x81c2c92e, 0x92722c85,
   0xa2bfe8a1, 0xa81a664b, 0xc24b8b70, 0xc76c51a3, 0xd192e819, 0xd6990624, 0xf40e3585, 0x106aa070,
   0x19a4c116, 0x1e376c08, 0x2748774c, 0x34b0bcb5, 0x391c0cb3, 0x4ed8aa4a, 0x5b9cca4f, 0x682e6ff3,
   0x748f82ee, 0x78a5636f, 0x84c87814, 0x8cc70208, 0x90befffa, 0xa4506ceb, 0xbef9a3f7, 0xc67178f2]

def start : List UInt32 :=
  [
   0x6a09e667, 0xbb67ae85, 0x3c6ef372, 0xa54ff53a, 0x510e527f, 0x9b05688c, 0x1f83d9ab, 0x5be0cd19]

def spread (x : UInt32) (first second third : Nat) : UInt32 :=
  rotateRight x first ^^^ rotateRight x second ^^^ rotateRight x third

/-- Spread a word over itself and let its last part fall off. -/
def spreadOff (x : UInt32) (first second : Nat) (third : UInt32) : UInt32 :=
  rotateRight x first ^^^ rotateRight x second ^^^ x >>> third

/-- The next word of a schedule, made of the sixteen before it, which are given in order. -/
def nextWord (window : List UInt32) : UInt32 :=
  spreadOff (window.getD 14 0) 17 19 10 + window.getD 9 0 +
    spreadOff (window.getD 1 0) 7 18 3 + window.getD 0 0

/-- The words for all stirs, from a window of sixteen. -/
def schedule : Nat → List UInt32 → List UInt32
  | 0, _ => []
  | count + 1, window =>
    window.headD 0 :: schedule count (window.drop 1 ++ [nextWord window])

/-- One stir with its constant and its word. -/
def stirred (state : List UInt32) (entry : UInt32 × UInt32) : List UInt32 :=
  match state with
  | [a, b, c, d, e, f, g, h] =>
    let chosen := (e &&& f) ^^^ (~~~e &&& g)
    let majority := (a &&& b) ^^^ (a &&& c) ^^^ (b &&& c)
    let first := h + spread e 6 11 25 + chosen + entry.1 + entry.2
    let second := spread a 2 13 22 + majority
    [first + second, a, b, c, d + first, e, f, g]
  | _ => state

def afterBlock (state : List UInt32) (block : List UInt8) : List UInt32 :=
  let words := (chunks 4 block).map fun bytes => (ofBigEndian bytes).toUInt32
  let stirredState := (constants.zip (schedule 64 words)).foldl stirred state
  List.zipWith (· + ·) state stirredState

def digest (message : List UInt8) : List UInt8 :=
  let last := (chunks 64 (padded (bigEndian 8) message)).foldl afterBlock start
  last.flatMap fun word => bigEndian 4 word.toNat

def hexOfText (text : List Char) : List Char :=
  hexText (digest (textBytes text))

end Stencil.Digest.Sha256

import Stencil.Digest.Padding

/-!
# The MD5 digest

Four words are stirred sixty-four times for every block of the message.
-/

namespace Stencil.Digest.Md5

def constants : List UInt32 :=
  [
   0xd76aa478, 0xe8c7b756, 0x242070db, 0xc1bdceee, 0xf57c0faf, 0x4787c62a, 0xa8304613, 0xfd469501,
   0x698098d8, 0x8b44f7af, 0xffff5bb1, 0x895cd7be, 0x6b901122, 0xfd987193, 0xa679438e, 0x49b40821,
   0xf61e2562, 0xc040b340, 0x265e5a51, 0xe9b6c7aa, 0xd62f105d, 0x02441453, 0xd8a1e681, 0xe7d3fbc8,
   0x21e1cde6, 0xc33707d6, 0xf4d50d87, 0x455a14ed, 0xa9e3e905, 0xfcefa3f8, 0x676f02d9, 0x8d2a4c8a,
   0xfffa3942, 0x8771f681, 0x6d9d6122, 0xfde5380c, 0xa4beea44, 0x4bdecfa9, 0xf6bb4b60, 0xbebfbc70,
   0x289b7ec6, 0xeaa127fa, 0xd4ef3085, 0x04881d05, 0xd9d4d039, 0xe6db99e5, 0x1fa27cf8, 0xc4ac5665,
   0xf4292244, 0x432aff97, 0xab9423a7, 0xfc93a039, 0x655b59c3, 0x8f0ccc92, 0xffeff47d, 0x85845dd1,
   0x6fa87e4f, 0xfe2ce6e0, 0xa3014314, 0x4e0811a1, 0xf7537e82, 0xbd3af235, 0x2ad7d2bb, 0xeb86d391]

/-- How far a word is rotated, for the four stirs of a round in turn. -/
def rotations : List (List Nat) :=
  [[7, 12, 17, 22], [5, 9, 14, 20], [4, 11, 16, 23], [6, 10, 15, 21]]

structure State where
  a : UInt32
  b : UInt32
  c : UInt32
  d : UInt32

def start : State := ⟨0x67452301, 0xefcdab89, 0x98badcfe, 0x10325476⟩

/-- How three words are mixed in a round, and which word of the block is taken for a stir. -/
def mix (round stir : Nat) (b c d : UInt32) : UInt32 × Nat :=
  match round with
  | 0 => ((b &&& c) ||| (~~~b &&& d), stir)
  | 1 => ((d &&& b) ||| (~~~d &&& c), (5 * stir + 1) % 16)
  | 2 => (b ^^^ c ^^^ d, (3 * stir + 5) % 16)
  | _ => (c ^^^ (b ||| ~~~d), 7 * stir % 16)

/-- One stir, with its constant. -/
def stirred (words : List UInt32) (state : State) (entry : UInt32 × Nat) : State :=
  let (constant, stir) := entry
  let round := stir / 16
  let (mixed, place) := mix round stir state.b state.c state.d
  let turned := rotateLeft (mixed + state.a + constant + words.getD place 0)
    ((rotations.getD round []).getD (stir % 4) 0)
  ⟨state.d, state.b + turned, state.b, state.c⟩

def afterBlock (state : State) (block : List UInt8) : State :=
  let words := (chunks 4 block).map fun bytes => (ofLittleEndian bytes).toUInt32
  let stirredState := constants.zipIdx.foldl (stirred words) state
  ⟨state.a + stirredState.a, state.b + stirredState.b, state.c + stirredState.c,
    state.d + stirredState.d⟩

def digest (message : List UInt8) : List UInt8 :=
  let last := (chunks 64 (padded (littleEndian 8) message)).foldl afterBlock start
  [last.a, last.b, last.c, last.d].flatMap fun word => littleEndian 4 word.toNat

def hexOfText (text : List Char) : List Char :=
  hexText (digest (textBytes text))

end Stencil.Digest.Md5

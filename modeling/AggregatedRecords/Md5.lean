import AggregatedRecords.Bytes
/-!
# MD5 — the digest, and its running state

A message is filled up to whole blocks of 64 octets (`Md5.padding`), each block
is compressed into four chained words, and the digest is these words written
out with their low octet first.

`Md5.digest` says this of a message that is there at once. `Md5.State` takes
the octets one after the other, keeps those that fill no block yet, and may be
asked for the digest at any point.
-/

namespace AggregatedRecords

namespace Md5

/-! ## The compression of a block -/

/-- The four words chained from block to block. -/
structure Words where
  a : UInt32
  b : UInt32
  c : UInt32
  d : UInt32
deriving Repr, DecidableEq

/-- The words before the first block. -/
def Words.initial : Words := ⟨0x67452301, 0xefcdab89, 0x98badcfe, 0x10325476⟩

/-- The word sums of two fours of words. -/
def Words.add (x y : Words) : Words := ⟨x.a + y.a, x.b + y.b, x.c + y.c, x.d + y.d⟩

/-- One of the 64 operations on a block: the index of the word it reads, the
constant it adds, the distance it rotates by, and how it mixes three words. -/
structure Operation where
  index : Nat
  constant : UInt32
  distance : UInt32
  mix : UInt32 → UInt32 → UInt32 → UInt32

/-- The integer parts of `2 ^ 32 * |sin i|` for `i` from 1 to 64. -/
def sines : List UInt32 :=
  [0xd76aa478, 0xe8c7b756, 0x242070db, 0xc1bdceee, 0xf57c0faf, 0x4787c62a,
   0xa8304613, 0xfd469501, 0x698098d8, 0x8b44f7af, 0xffff5bb1, 0x895cd7be,
   0x6b901122, 0xfd987193, 0xa679438e, 0x49b40821, 0xf61e2562, 0xc040b340,
   0x265e5a51, 0xe9b6c7aa, 0xd62f105d, 0x02441453, 0xd8a1e681, 0xe7d3fbc8,
   0x21e1cde6, 0xc33707d6, 0xf4d50d87, 0x455a14ed, 0xa9e3e905, 0xfcefa3f8,
   0x676f02d9, 0x8d2a4c8a, 0xfffa3942, 0x8771f681, 0x6d9d6122, 0xfde5380c,
   0xa4beea44, 0x4bdecfa9, 0xf6bb4b60, 0xbebfbc70, 0x289b7ec6, 0xeaa127fa,
   0xd4ef3085, 0x04881d05, 0xd9d4d039, 0xe6db99e5, 0x1fa27cf8, 0xc4ac5665,
   0xf4292244, 0x432aff97, 0xab9423a7, 0xfc93a039, 0x655b59c3, 0x8f0ccc92,
   0xffeff47d, 0x85845dd1, 0x6fa87e4f, 0xfe2ce6e0, 0xa3014314, 0x4e0811a1,
   0xf7537e82, 0xbd3af235, 0x2ad7d2bb, 0xeb86d391]

/-- The operation at a position with its constant. Each quarter has its own
mix, its own order of the words, and four distances that repeat. -/
def operation (constant : UInt32) (i : Nat) : Operation :=
  let distance (distances : List UInt32) := distances.getD (i % 4) 0
  if i < 16 then
    ⟨i, constant, distance [7, 12, 17, 22], fun b c d => (b &&& c) ||| (~~~b &&& d)⟩
  else if i < 32 then
    ⟨(5 * i + 1) % 16, constant, distance [5, 9, 14, 20], fun b c d => (d &&& b) ||| (~~~d &&& c)⟩
  else if i < 48 then
    ⟨(3 * i + 5) % 16, constant, distance [4, 11, 16, 23], fun b c d => b ^^^ c ^^^ d⟩
  else
    ⟨7 * i % 16, constant, distance [6, 10, 15, 21], fun b c d => c ^^^ (b ||| ~~~d)⟩

/-- The 64 operations in order. -/
def operations : List Operation := sines.zipIdx.map fun (constant, i) => operation constant i

/-- A word rotated to the left. -/
def rotate (x distance : UInt32) : UInt32 := (x <<< distance) ||| (x >>> (32 - distance))

/-- The words after one operation on a block. -/
def Operation.apply (block : Array UInt32) (w : Words) (op : Operation) : Words :=
  let sum := w.a + op.mix w.b w.c w.d + op.constant + block.getD op.index 0
  ⟨w.d, w.b + rotate sum op.distance, w.b, w.c⟩

/-- The word of four octets, the low one first. -/
def wordOf (octets : Bytes) : UInt32 :=
  octets.foldr (fun x word => (word <<< 8) ||| x.toUInt32) 0

/-- The chained words after a block of 64 octets. -/
def compress (w : Words) (block : Bytes) : Words :=
  let words := ((groupsOf 4 block).map wordOf).toArray
  w.add (operations.foldl (Operation.apply words) w)

/-! ## The digest of a message -/

/-- The `n` low octets of a number, the lowest first. -/
def littleEndian : (n : Nat) → Nat → Bytes
  | 0, _ => []
  | n + 1, value => UInt8.ofNat value :: littleEndian n (value / 256)

/-- What fills a message of a given length up to whole blocks: one bit, zeros,
and the number of bits as eight octets. -/
def padding (length : Nat) : Bytes :=
  0x80 :: (List.replicate ((119 - length % 64) % 64) 0 ++ littleEndian 8 (length * 8))

/-- The octets of four words. -/
def Words.octets (w : Words) : Bytes :=
  [w.a, w.b, w.c, w.d].flatMap fun x => littleEndian 4 x.toNat

/-- The digest of a message: its blocks compressed one after the other. -/
def digest (message : Bytes) : Bytes :=
  ((groupsOf 64 (message ++ padding message.length)).foldl compress .initial).octets

/-! ## The running state -/

/-- The state after some octets: the words of the blocks filled so far, the
octets after them in reverse, and the number of all octets. -/
structure State where
  words : Words
  pending : Bytes
  length : Nat
deriving Repr, DecidableEq

namespace State

/-- The state before the first octet. -/
def empty : State := ⟨.initial, [], 0⟩

/-- The state after one more octet, which may fill a block. -/
def push (s : State) (x : UInt8) : State :=
  if s.length % 64 = 63 then ⟨compress s.words (x :: s.pending).reverse, [], s.length + 1⟩
  else ⟨s.words, x :: s.pending, s.length + 1⟩

/-- The state after more octets. -/
def append (s : State) (chunk : Bytes) : State := chunk.foldl push s

/-- The digest of the octets so far. -/
def digest (s : State) : Bytes := (s.append (padding s.length)).words.octets

/-- Octets may come in one chunk or in two. -/
theorem append_append (s : State) (x y : Bytes) :
    (s.append x).append y = s.append (x ++ y) := by
  simp [append]

end State

end Md5

end AggregatedRecords

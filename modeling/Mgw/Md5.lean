import Mgw.BlockStream
import Mgw.ListArea
import Mathlib.Algebra.Ring.Nat

/-!
# MD5 as it is computed

`md5.c`: the transformation of a block, and the calls that take a message part by part. The
counters are numbers below `2 ^ 32`.
-/

namespace Mgw.Md5

set_option autoImplicit false

open ListArea (put)

/-- `a`, `b`, `c` and `d`. -/
structure Words where
  a : UInt32
  b : UInt32
  c : UInt32
  d : UInt32
  deriving DecidableEq

structure MD5_CTX where
  lo : Nat
  hi : Nat
  words : Words
  buffer : List UInt8
  deriving DecidableEq

section Block

def F (x y z : UInt32) : UInt32 := z ^^^ (x &&& (y ^^^ z))

def G (x y z : UInt32) : UInt32 := y ^^^ (z &&& (x ^^^ y))

def H (x y z : UInt32) : UInt32 := x ^^^ y ^^^ z

def I (x y z : UInt32) : UInt32 := y ^^^ (x ||| ~~~z)

def SET (ptr : List UInt8) (n : Nat) : UInt32 :=
  (ptr.getD (n * 4) 0).toUInt32 ||| (ptr.getD (n * 4 + 1) 0).toUInt32 <<< 8 |||
    (ptr.getD (n * 4 + 2) 0).toUInt32 <<< 16 ||| (ptr.getD (n * 4 + 3) 0).toUInt32 <<< 24

/-- `STEP`, behind which the four words change places as the next one names them. -/
def STEP (f : UInt32 → UInt32 → UInt32 → UInt32) (x t s : UInt32) (w : Words) : Words :=
  let sum := w.a + (f w.b w.c w.d + x + t)
  { a := w.d, b := (sum <<< s ||| sum >>> (32 - s)) + w.b, c := w.b, d := w.c }

/-- The steps of a round, each with its word, its constant and its shift. -/
def round (f : UInt32 → UInt32 → UInt32 → UInt32) (ptr : List UInt8)
    (steps : List (Nat × UInt32 × UInt32)) (w : Words) : Words :=
  steps.foldl (fun w (n, t, s) => STEP f (SET ptr n) t s w) w

def round1 : List (Nat × UInt32 × UInt32) :=
  [(0, 0xd76aa478, 7), (1, 0xe8c7b756, 12), (2, 0x242070db, 17), (3, 0xc1bdceee, 22),
    (4, 0xf57c0faf, 7), (5, 0x4787c62a, 12), (6, 0xa8304613, 17), (7, 0xfd469501, 22),
    (8, 0x698098d8, 7), (9, 0x8b44f7af, 12), (10, 0xffff5bb1, 17), (11, 0x895cd7be, 22),
    (12, 0x6b901122, 7), (13, 0xfd987193, 12), (14, 0xa679438e, 17), (15, 0x49b40821, 22)]

def round2 : List (Nat × UInt32 × UInt32) :=
  [(1, 0xf61e2562, 5), (6, 0xc040b340, 9), (11, 0x265e5a51, 14), (0, 0xe9b6c7aa, 20),
    (5, 0xd62f105d, 5), (10, 0x02441453, 9), (15, 0xd8a1e681, 14), (4, 0xe7d3fbc8, 20),
    (9, 0x21e1cde6, 5), (14, 0xc33707d6, 9), (3, 0xf4d50d87, 14), (8, 0x455a14ed, 20),
    (13, 0xa9e3e905, 5), (2, 0xfcefa3f8, 9), (7, 0x676f02d9, 14), (12, 0x8d2a4c8a, 20)]

def round3 : List (Nat × UInt32 × UInt32) :=
  [(5, 0xfffa3942, 4), (8, 0x8771f681, 11), (11, 0x6d9d6122, 16), (14, 0xfde5380c, 23),
    (1, 0xa4beea44, 4), (4, 0x4bdecfa9, 11), (7, 0xf6bb4b60, 16), (10, 0xbebfbc70, 23),
    (13, 0x289b7ec6, 4), (0, 0xeaa127fa, 11), (3, 0xd4ef3085, 16), (6, 0x04881d05, 23),
    (9, 0xd9d4d039, 4), (12, 0xe6db99e5, 11), (15, 0x1fa27cf8, 16), (2, 0xc4ac5665, 23)]

def round4 : List (Nat × UInt32 × UInt32) :=
  [(0, 0xf4292244, 6), (7, 0x432aff97, 10), (14, 0xab9423a7, 15), (5, 0xfc93a039, 21),
    (12, 0x655b59c3, 6), (3, 0x8f0ccc92, 10), (10, 0xffeff47d, 15), (1, 0x85845dd1, 21),
    (8, 0x6fa87e4f, 6), (15, 0xfe2ce6e0, 10), (6, 0xa3014314, 15), (13, 0x4e0811a1, 21),
    (4, 0xf7537e82, 6), (11, 0xbd3af235, 10), (2, 0x2ad7d2bb, 15), (9, 0xeb86d391, 21)]

/-- The loop body of `body`. -/
def transform (saved : Words) (ptr : List UInt8) : Words :=
  let w := round F ptr round1 saved
  let w := round G ptr round2 w
  let w := round H ptr round3 w
  let w := round I ptr round4 w
  { a := w.a + saved.a, b := w.b + saved.b, c := w.c + saved.c, d := w.d + saved.d }

/-- The data are one block or more. -/
def body (ctx : MD5_CTX) (data : List UInt8) (size : Nat) : MD5_CTX × List UInt8 :=
  let (words, ptr) := BlockStream.blocks 64 transform (size / 64) ctx.words data
  ({ ctx with words := words }, ptr)

end Block

section Calls

/-- What the buffer holds before anything is written to it does not matter. -/
def MD5_Init (buffer : Vector UInt8 64) : MD5_CTX where
  lo := 0
  hi := 0
  words := { a := 0x67452301, b := 0xefcdab89, c := 0x98badcfe, d := 0x10325476 }
  buffer := buffer.toList

/-- The end of `MD5_Update`, behind the bytes that fill the buffer up. -/
def updateBlocks (ctx : MD5_CTX) (data : List UInt8) : MD5_CTX :=
  if 64 ≤ data.length then
    let (ctx, rest) := body ctx data (data.length / 64 * 64)
    { ctx with buffer := put ctx.buffer 0 rest }
  else { ctx with buffer := put ctx.buffer 0 data }

/-- `MD5_Update` behind the counters, with so many bytes used in the buffer. -/
def updateBuffer (ctx : MD5_CTX) (used : Nat) (data : List UInt8) : MD5_CTX :=
  if used = 0 then updateBlocks ctx data
  else
    let free := 64 - used
    if data.length < free then { ctx with buffer := put ctx.buffer used data }
    else
      let filled := put ctx.buffer used (data.take free)
      updateBlocks (body { ctx with buffer := filled } filled 64).1 (data.drop free)

def MD5_Update (ctx : MD5_CTX) (data : List UInt8) : MD5_CTX :=
  let saved_lo := ctx.lo
  let lo := (saved_lo + data.length) % 2 ^ 64 % 2 ^ 29
  let hi := if lo < saved_lo then ctx.hi + 1 else ctx.hi
  updateBuffer { ctx with lo := lo, hi := (hi + data.length / 2 ^ 29) % 2 ^ 32 } (saved_lo % 64) data

/-- The bytes of a word, the lowest first. -/
def wordBytes (word : Nat) : List UInt8 :=
  [UInt8.ofNat word, UInt8.ofNat (word / 2 ^ 8), UInt8.ofNat (word / 2 ^ 16),
    UInt8.ofNat (word / 2 ^ 24)]

def resultOf (w : Words) : List UInt8 :=
  wordBytes w.a.toNat ++ wordBytes w.b.toNat ++ wordBytes w.c.toNat ++ wordBytes w.d.toNat

/-- `MD5_Final` before the counters are written: the mark, and the zeros up to their place. -/
def padBuffer (ctx : MD5_CTX) : MD5_CTX :=
  let used := ctx.lo % 64
  let marked := put ctx.buffer used [0x80]
  let used := used + 1
  let free := 64 - used
  if free < 8 then
    let zeroed := put marked used (List.replicate free 0)
    let ctx := (body { ctx with buffer := zeroed } zeroed 64).1
    { ctx with buffer := put ctx.buffer 0 (List.replicate (64 - 8) 0) }
  else { ctx with buffer := put marked used (List.replicate (free - 8) 0) }

def MD5_Final (ctx : MD5_CTX) : List UInt8 :=
  let ctx := padBuffer ctx
  let lo := ctx.lo * 2 ^ 3 % 2 ^ 32
  let last := put (put ctx.buffer 56 (wordBytes lo)) 60 (wordBytes ctx.hi)
  resultOf (body ctx last 64).1.words

end Calls

end Mgw.Md5

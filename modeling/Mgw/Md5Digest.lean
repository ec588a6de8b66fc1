import Mgw.Md5
import Mathlib.Tactic.Common

/-!
# MD5 as RFC 1321 has it

The digest of a message as a whole, and that the calls compute it however the message is cut
into parts and whatever its length.
-/

namespace Mgw.Md5

set_option autoImplicit false

open BlockStream (absorb)
open ListArea (put)

/-- The bytes of a number, the lowest first. -/
def leBytes : Nat → Nat → List UInt8
  | 0, _ => []
  | width + 1, value => UInt8.ofNat value :: leBytes width (value / 256)

def leValue : List UInt8 → Nat
  | [] => 0
  | byte :: bytes => byte.toNat + 256 * leValue bytes

/-- The functions of the four rounds. -/
def auxiliary (round : Nat) (x y z : UInt32) : UInt32 :=
  match round with
  | 0 => (x &&& y) ||| (~~~x &&& z)
  | 1 => (x &&& z) ||| (y &&& ~~~z)
  | 2 => x ^^^ y ^^^ z
  | _ => y ^^^ (x ||| ~~~z)

/-- The word of the block that a step takes. -/
def wordIndex (step : Nat) : Nat :=
  match step / 16 with
  | 0 => step % 16
  | 1 => (5 * step + 1) % 16
  | 2 => (3 * step + 5) % 16
  | _ => 7 * step % 16

def rotation (step : Nat) : UInt32 :=
  let shifts : List UInt32 :=
    match step / 16 with
    | 0 => [7, 12, 17, 22]
    | 1 => [5, 9, 14, 20]
    | 2 => [4, 11, 16, 23]
    | _ => [6, 10, 15, 21]
  shifts.getD (step % 4) 0

/-- The integer part of 4294967296 times `abs(sin(step + 1))`. -/
def sines : List UInt32 :=
  [0xd76aa478, 0xe8c7b756, 0x242070db, 0xc1bdceee, 0xf57c0faf, 0x4787c62a, 0xa8304613, 0xfd469501,
    0x698098d8, 0x8b44f7af, 0xffff5bb1, 0x895cd7be, 0x6b901122, 0xfd987193, 0xa679438e, 0x49b40821,
    0xf61e2562, 0xc040b340, 0x265e5a51, 0xe9b6c7aa, 0xd62f105d, 0x02441453, 0xd8a1e681, 0xe7d3fbc8,
    0x21e1cde6, 0xc33707d6, 0xf4d50d87, 0x455a14ed, 0xa9e3e905, 0xfcefa3f8, 0x676f02d9, 0x8d2a4c8a,
    0xfffa3942, 0x8771f681, 0x6d9d6122, 0xfde5380c, 0xa4beea44, 0x4bdecfa9, 0xf6bb4b60, 0xbebfbc70,
    0x289b7ec6, 0xeaa127fa, 0xd4ef3085, 0x04881d05, 0xd9d4d039, 0xe6db99e5, 0x1fa27cf8, 0xc4ac5665,
    0xf4292244, 0x432aff97, 0xab9423a7, 0xfc93a039, 0x655b59c3, 0x8f0ccc92, 0xffeff47d, 0x85845dd1,
    0x6fa87e4f, 0xfe2ce6e0, 0xa3014314, 0x4e0811a1, 0xf7537e82, 0xbd3af235, 0x2ad7d2bb, 0xeb86d391]

def rotateLeft (value count : UInt32) : UInt32 := value <<< count ||| value >>> (32 - count)

/-- `a = b + ((a + f(b, c, d) + X[k] + T[i]) <<< s)`. -/
def operation (word : Nat → UInt32) (w : Words) (step : Nat) : Words :=
  let sum := w.a + auxiliary (step / 16) w.b w.c w.d + word (wordIndex step) + sines.getD step 0
  { a := w.d, b := w.b + rotateLeft sum (rotation step), c := w.b, d := w.c }

def compress (saved : Words) (block : List UInt8) : Words :=
  let word index := UInt32.ofNat (leValue ((block.drop (4 * index)).take 4))
  let w := (List.range 64).foldl (operation word) saved
  { a := saved.a + w.a, b := saved.b + w.b, c := saved.c + w.c, d := saved.d + w.d }

def initial : Words := { a := 0x67452301, b := 0xefcdab89, c := 0x98badcfe, d := 0x10325476 }

/-- A one bit, zeros up to 56 bytes of a block, and the length in bits. -/
def padded (message : List UInt8) : List UInt8 :=
  message ++ 0x80 :: List.replicate ((119 - message.length % 64) % 64) 0 ++
    leBytes 8 (8 * message.length)

def digest (message : List UInt8) : List UInt8 :=
  let w := (absorb 64 compress initial (padded message)).1
  [w.a, w.b, w.c, w.d].flatMap fun word => leBytes 4 word.toNat

section Block

/-- One bit of a choice, and of the form that does without an inverted operand. -/
theorem choose_bits (x y z : Bool) : z.xor (x && y.xor z) = ((x && y) || (!x && z)) := by
  cases x <;> cases y <;> cases z <;> rfl

theorem F_eq (x y z : UInt32) : F x y z = (x &&& y) ||| (~~~x &&& z) := by
  apply UInt32.toBitVec_inj.mp
  apply BitVec.eq_of_getLsbD_eq
  intro index inside
  simp [F, inside, choose_bits]

theorem G_eq (x y z : UInt32) : G x y z = (x &&& z) ||| (y &&& ~~~z) := by
  have turned : G x y z = F z x y := rfl
  rw [turned, F_eq, UInt32.and_comm z x, UInt32.and_comm (~~~z) y]

theorem or_shifted {low : Nat} (high : Nat) {width : Nat} (bound : low < 2 ^ width) :
    low ||| high <<< width = low + high * 2 ^ width := by
  rw [Nat.or_comm, ← Nat.shiftLeft_add_eq_or_of_lt bound, Nat.shiftLeft_eq, Nat.add_comm]

theorem set_value (b0 b1 b2 b3 : UInt8) :
    b0.toUInt32 ||| b1.toUInt32 <<< 8 ||| b2.toUInt32 <<< 16 ||| b3.toUInt32 <<< 24 =
      UInt32.ofNat (leValue [b0, b1, b2, b3]) := by
  apply UInt32.toNat_inj.mp
  have h0 := b0.toNat_lt
  have h1 := b1.toNat_lt
  have h2 := b2.toNat_lt
  have h3 := b3.toNat_lt
  have unwrapped : ∀ (byte : UInt8) (width : Nat), width ≤ 24 →
      byte.toNat <<< width % 4294967296 = byte.toNat <<< width := by
    intro byte width small
    apply Nat.mod_eq_of_lt
    rw [Nat.shiftLeft_eq]
    calc byte.toNat * 2 ^ width ≤ byte.toNat * 2 ^ 24 :=
          Nat.mul_le_mul_left _ (Nat.pow_le_pow_right (by decide) small)
      _ < 4294967296 := by
          have bound := byte.toNat_lt
          omega
  simp only [UInt32.toNat_or, UInt32.toNat_shiftLeft, UInt8.toNat_toUInt32, UInt32.toNat_ofNat',
    leValue]
  simp [unwrapped]
  rw [or_shifted b1.toNat h0, or_shifted b2.toNat (by omega), or_shifted b3.toNat (by omega)]
  omega

theorem SET_eq {ptr : List UInt8} {n : Nat} (inside : 4 * n + 4 ≤ ptr.length) :
    SET ptr n = UInt32.ofNat (leValue ((ptr.drop (4 * n)).take 4)) := by
  have enough : 4 ≤ (ptr.drop (4 * n)).length := by
    rw [List.length_drop]
    omega
  have get : ∀ index, ptr.getD (n * 4 + index) 0 = (ptr.drop (4 * n)).getD index 0 := by
    intro index
    simp [List.getD_eq_getElem?_getD, List.getElem?_drop, Nat.mul_comm]
  have bytes : (ptr.drop (4 * n)).take 4 =
      [ptr.getD (n * 4 + 0) 0, ptr.getD (n * 4 + 1) 0, ptr.getD (n * 4 + 2) 0,
        ptr.getD (n * 4 + 3) 0] := by
    rw [get, get, get, get]
    match ptr.drop (4 * n), enough with
    | b0 :: b1 :: b2 :: b3 :: rest, _ => rfl
  rw [bytes, ← set_value]
  rfl

theorem word_index_lt (step : Nat) : wordIndex step < 16 := by
  unfold wordIndex
  split <;> exact Nat.mod_lt _ (by decide)

/-- A step of the macro is an operation of the digest. -/
theorem STEP_eq {f : UInt32 → UInt32 → UInt32 → UInt32} {ptr : List UInt8} {step : Nat}
    (same : auxiliary (step / 16) = f) (whole : ptr.length = 64) (w : Words) :
    STEP f (SET ptr (wordIndex step)) (sines.getD step 0) (rotation step) w =
      operation (fun index => UInt32.ofNat (leValue ((ptr.drop (4 * index)).take 4))) w step := by
  have inside : 4 * wordIndex step + 4 ≤ ptr.length := by
    have bound := word_index_lt step
    omega
  rw [SET_eq inside]
  simp only [STEP, operation, rotateLeft, same, UInt32.add_assoc, UInt32.add_comm w.b]

/-- A round with the words, constants and shifts of sixteen operations. -/
theorem round_eq {f : UInt32 → UInt32 → UInt32 → UInt32} {ptr : List UInt8} (first : Nat)
    {steps : List (Nat × UInt32 × UInt32)}
    (plan : steps = (List.range' first 16).map fun step =>
      (wordIndex step, sines.getD step 0, rotation step))
    (aligned : first % 16 = 0) (same : auxiliary (first / 16) = f) (whole : ptr.length = 64)
    (w : Words) :
    round f ptr steps w = (List.range' first 16).foldl
      (operation fun index => UInt32.ofNat (leValue ((ptr.drop (4 * index)).take 4))) w := by
  rw [round, plan, List.foldl_map]
  apply List.foldl_ext
  intro w step among
  have round : step / 16 = first / 16 := by
    simp only [List.mem_range'_1] at among
    omega
  exact STEP_eq (by rw [round, same]) whole w

theorem transform_eq {ptr : List UInt8} (whole : ptr.length = 64) (saved : Words) :
    transform saved ptr = compress saved ptr := by
  have steps : List.range 64 =
      List.range' 0 16 ++ List.range' 16 16 ++ List.range' 32 16 ++ List.range' 48 16 := by
    decide
  have first : auxiliary 0 = F := by
    funext x y z
    exact (F_eq x y z).symm
  have second : auxiliary 1 = G := by
    funext x y z
    exact (G_eq x y z).symm
  have third : auxiliary 2 = H := rfl
  have fourth : auxiliary 3 = I := rfl
  simp only [transform, compress]
  rw [round_eq 0 (by decide) rfl first whole, round_eq 16 (by decide) rfl second whole,
    round_eq 32 (by decide) rfl third whole, round_eq 48 (by decide) rfl fourth whole, steps,
    List.foldl_append, List.foldl_append, List.foldl_append]
  simp only [UInt32.add_comm]

end Block

section Parts

variable {ctx : MD5_CTX} {message : List UInt8}

/-- What is known of a context to which this message was given. -/
structure Follows (message : List UInt8) (ctx : MD5_CTX) : Prop where
  words : ctx.words = (absorb 64 transform initial message).1
  room : ctx.buffer.length = 64
  rest : ctx.buffer.take (message.length % 64) = (absorb 64 transform initial message).2
  lo : ctx.lo = message.length % 2 ^ 29
  hi : ctx.hi = message.length / 2 ^ 29 % 2 ^ 32

theorem init_follows (buffer : Vector UInt8 64) : Follows [] (MD5_Init buffer) where
  words := by simp [MD5_Init, initial]
  room := by simp [MD5_Init]
  rest := by simp
  lo := rfl
  hi := rfl

/-- The words and what is left of the data in a buffer. -/
structure Taken (start : Words) (data : List UInt8) (ctx : MD5_CTX) : Prop where
  words : ctx.words = (absorb 64 transform start data).1
  room : ctx.buffer.length = 64
  rest : ctx.buffer.take (data.length % 64) = (absorb 64 transform start data).2

theorem rest_length (start : Words) (data : List UInt8) :
    (absorb 64 transform start data).2.length = data.length % 64 :=
  BlockStream.absorb_rest_length start data

theorem body_blocks (ctx : MD5_CTX) (data : List UInt8) :
    body ctx data (data.length / 64 * 64) =
      ({ ctx with words := (absorb 64 transform ctx.words data).1 },
        (absorb 64 transform ctx.words data).2) := by
  rw [body, Nat.mul_div_cancel _ (by decide), absorb]

theorem absorb_whole {block : List UInt8} (whole : block.length = 64) (start : Words)
    (data : List UInt8) :
    absorb 64 transform start (block ++ data) = absorb 64 transform (transform start block) data :=
  BlockStream.absorb_block (by decide) whole start data

theorem body_block (ctx : MD5_CTX) {block : List UInt8} (whole : block.length = 64) :
    (body ctx block 64).1 = { ctx with words := transform ctx.words block } := by
  have blocks := body_blocks ctx block
  have absorbed := absorb_whole whole ctx.words []
  rw [List.append_nil, BlockStream.absorb_nil] at absorbed
  rw [whole, absorbed] at blocks
  rw [show 64 = 64 / 64 * 64 by decide, blocks]

theorem update_blocks_taken (ctx : MD5_CTX) (data : List UInt8) (room : ctx.buffer.length = 64) :
    Taken ctx.words data (updateBlocks ctx data) ∧ (updateBlocks ctx data).lo = ctx.lo ∧
      (updateBlocks ctx data).hi = ctx.hi := by
  have size := rest_length ctx.words data
  have bound := Nat.mod_lt data.length (show 0 < 64 by decide)
  unfold updateBlocks
  by_cases many : 64 ≤ data.length
  · rw [if_pos many, body_blocks]
    refine ⟨⟨rfl, ?_, ?_⟩, rfl, rfl⟩
    · rw [ListArea.put_length (by simp only [room]; omega), room]
    · rw [← size, ListArea.take_put_zero]
  · rw [if_neg many]
    have short : absorb 64 transform ctx.words data = (ctx.words, data) :=
      BlockStream.absorb_short (by omega) ctx.words
    refine ⟨⟨by rw [short], ?_, ?_⟩, rfl, rfl⟩
    · rw [ListArea.put_length (by omega), room]
    · rw [short, Nat.mod_eq_of_lt (by omega), ListArea.take_put_zero]

theorem update_buffer_taken (ctx : MD5_CTX) (rest data : List UInt8)
    (room : ctx.buffer.length = 64) (held : ctx.buffer.take rest.length = rest)
    (short : rest.length < 64) :
    Taken ctx.words (rest ++ data) (updateBuffer ctx rest.length data) ∧
      (updateBuffer ctx rest.length data).lo = ctx.lo ∧
      (updateBuffer ctx rest.length data).hi = ctx.hi := by
  unfold updateBuffer
  by_cases empty : rest.length = 0
  · rw [if_pos empty, List.eq_nil_of_length_eq_zero empty]
    exact update_blocks_taken ctx data room
  rw [if_neg empty]
  by_cases fits : data.length < 64 - rest.length
  · have few : (rest ++ data).length < 64 := by
      rw [List.length_append]
      omega
    have left : absorb 64 transform ctx.words (rest ++ data) = (ctx.words, rest ++ data) :=
      BlockStream.absorb_short few ctx.words
    rw [if_pos fits]
    refine ⟨⟨by rw [left], ?_, ?_⟩, rfl, rfl⟩
    · rw [ListArea.put_length (by omega), room]
    · rw [left, Nat.mod_eq_of_lt few, List.length_append, ListArea.take_put (by omega), held]
  · -- the bytes that are free make the block whole
    rw [if_neg fits]
    have front : (data.take (64 - rest.length)).length = 64 - rest.length := by
      rw [List.length_take]
      omega
    have filled : put ctx.buffer rest.length (data.take (64 - rest.length)) =
        rest ++ data.take (64 - rest.length) := by
      have inside : rest.length ≤ ctx.buffer.length := by omega
      have all := @ListArea.take_put _ ctx.buffer (data.take (64 - rest.length)) _ inside
      rw [held, List.take_of_length_le] at all
      · exact all
      · rw [ListArea.put_length (by omega)]
        omega
    have whole : (rest ++ data.take (64 - rest.length)).length = 64 := by
      rw [List.length_append, front]
      omega
    have split : rest ++ data =
        (rest ++ data.take (64 - rest.length)) ++ data.drop (64 - rest.length) := by
      rw [List.append_assoc, List.take_append_drop]
    have length : (rest ++ data).length % 64 = (data.drop (64 - rest.length)).length % 64 := by
      rw [split, List.length_append, whole]
      omega
    simp only [filled, body_block _ whole]
    have taken := update_blocks_taken
      { ctx with
        buffer := rest ++ data.take (64 - rest.length)
        words := transform ctx.words (rest ++ data.take (64 - rest.length)) }
      (data.drop (64 - rest.length)) whole
    refine ⟨⟨?_, taken.1.room, ?_⟩, taken.2⟩
    · rw [taken.1.words, split, absorb_whole whole]
    · rw [length, taken.1.rest, split, absorb_whole whole]

/-- The counters go on by the length of the data. -/
theorem counters_add (length size : Nat) :
    (length % 2 ^ 29 + size) % 2 ^ 64 % 2 ^ 29 = (length + size) % 2 ^ 29 ∧
      ((if (length % 2 ^ 29 + size) % 2 ^ 64 % 2 ^ 29 < length % 2 ^ 29
          then length / 2 ^ 29 % 2 ^ 32 + 1 else length / 2 ^ 29 % 2 ^ 32) + size / 2 ^ 29) % 2 ^ 32 =
        (length + size) / 2 ^ 29 % 2 ^ 32 := by
  constructor
  · omega
  · split <;> omega

theorem absorb_message (message data : List UInt8) :
    absorb 64 transform initial (message ++ data) =
      absorb 64 transform (absorb 64 transform initial message).1
        ((absorb 64 transform initial message).2 ++ data) :=
  BlockStream.absorb_append (by decide) initial message data

theorem update_follows (follows : Follows message ctx) (data : List UInt8) :
    Follows (message ++ data) (MD5_Update ctx data) := by
  have size := rest_length initial message
  have bound := Nat.mod_lt message.length (show 0 < 64 by decide)
  have used : ctx.lo % 64 = (absorb 64 transform initial message).2.length := by
    rw [follows.lo, size]
    omega
  have counters := counters_add message.length data.length
  rw [← List.length_append, ← follows.lo, ← follows.hi] at counters
  obtain ⟨taken, lo, hi⟩ := update_buffer_taken
    { ctx with
      lo := (ctx.lo + data.length) % 2 ^ 64 % 2 ^ 29
      hi := ((if (ctx.lo + data.length) % 2 ^ 64 % 2 ^ 29 < ctx.lo then ctx.hi + 1 else ctx.hi) +
        data.length / 2 ^ 29) % 2 ^ 32 }
    (absorb 64 transform initial message).2 data follows.room (by rw [size, follows.rest])
    (by omega)
  have length : ((absorb 64 transform initial message).2 ++ data).length % 64 =
      (message ++ data).length % 64 := by
    rw [List.length_append, List.length_append, size]
    omega
  simp only [MD5_Update, used]
  exact {
    words := by rw [taken.words, absorb_message, follows.words]
    room := taken.room
    rest := by rw [← length, taken.rest, absorb_message, follows.words]
    lo := lo.trans counters.1
    hi := hi.trans counters.2 }

theorem updates_follow (parts : List (List UInt8)) (follows : Follows message ctx) :
    Follows (message ++ parts.flatten) (parts.foldl MD5_Update ctx) := by
  induction parts generalizing message ctx with
  | nil => simpa using follows
  | cons part parts ih =>
    rw [List.flatten_cons, ← List.append_assoc, List.foldl_cons]
    exact ih (update_follows follows part)

end Parts

section Final

theorem word_bytes (word : Nat) : wordBytes word = leBytes 4 word := by
  simp [wordBytes, leBytes, Nat.div_div_eq_div_mul]

theorem le_bytes_length (width value : Nat) : (leBytes width value).length = width := by
  induction width generalizing value with
  | zero => rfl
  | succ width ih => rw [leBytes, List.length_cons, ih]

theorem le_bytes_add (left right value : Nat) :
    leBytes (left + right) value = leBytes left value ++ leBytes right (value / 256 ^ left) := by
  induction left generalizing value with
  | zero => simp [leBytes]
  | succ left ih =>
    rw [Nat.succ_add, leBytes, leBytes, ih, List.cons_append, Nat.div_div_eq_div_mul, Nat.pow_succ']

theorem le_bytes_mod (width value : Nat) : leBytes width (value % 256 ^ width) = leBytes width value := by
  induction width generalizing value with
  | zero => rfl
  | succ width ih =>
    have low : UInt8.ofNat (value % 256 ^ (width + 1)) = UInt8.ofNat value := by
      apply UInt8.toNat_inj.mp
      simp only [UInt8.toNat_ofNat']
      rw [Nat.mod_mod_of_dvd]
      exact ⟨256 ^ width, Nat.pow_succ'⟩
    have high : value % 256 ^ (width + 1) / 256 = value / 256 % 256 ^ width := by
      rw [Nat.pow_succ', Nat.mod_mul_right_div_self]
    rw [leBytes, leBytes, low, high, ih]

theorem result_bytes (w : Words) :
    resultOf w = [w.a, w.b, w.c, w.d].flatMap fun word => leBytes 4 word.toNat := by
  simp [resultOf, word_bytes]

/-- The counters are the length in bits. -/
theorem length_bytes (length : Nat) :
    wordBytes (length % 2 ^ 29 * 2 ^ 3 % 2 ^ 32) ++ wordBytes (length / 2 ^ 29 % 2 ^ 32) =
      leBytes 8 (8 * length) := by
  have low : length % 2 ^ 29 * 2 ^ 3 % 2 ^ 32 = 8 * length % 256 ^ 4 := by omega
  have high : length / 2 ^ 29 % 2 ^ 32 = 8 * length / 256 ^ 4 % 256 ^ 4 := by omega
  rw [word_bytes, word_bytes, low, high, le_bytes_mod, le_bytes_mod, ← le_bytes_add]

/-- The buffer with something put behind what it holds. -/
theorem held_put {buffer held source : List UInt8} {used : Nat} (room : buffer.length = 64)
    (known : buffer.take used = held) (fits : used + source.length ≤ 64) :
    (put buffer used source).length = 64 ∧
      (put buffer used source).take (used + source.length) = held ++ source := by
  constructor
  · rw [ListArea.put_length (by omega), room]
  · rw [ListArea.take_put (by omega), known]

/-- The block that the counters end. -/
theorem last_block {buffer front low high : List UInt8} (room : buffer.length = 64)
    (known : buffer.take 56 = front) (lowBytes : low.length = 4) (highBytes : high.length = 4) :
    put (put buffer 56 low) 60 high = front ++ (low ++ high) := by
  obtain ⟨lowRoom, lowHeld⟩ := held_put room known (show 56 + low.length ≤ 64 by omega)
  rw [lowBytes] at lowHeld
  obtain ⟨highRoom, highHeld⟩ := held_put lowRoom lowHeld (show 60 + high.length ≤ 64 by omega)
  rw [List.take_of_length_le (by omega), List.append_assoc] at highHeld
  exact highHeld

variable {ctx : MD5_CTX} {message : List UInt8}

/-- What is before the counters, and what the words make of it with them. -/
theorem pad_buffer (follows : Follows message ctx) :
    (padBuffer ctx).lo = ctx.lo ∧ (padBuffer ctx).hi = ctx.hi ∧
      (padBuffer ctx).buffer.length = 64 ∧
      ∀ counters : List UInt8, counters.length = 8 →
        (absorb 64 transform initial
          (message ++ 0x80 :: List.replicate ((119 - message.length % 64) % 64) 0 ++ counters)).1 =
        transform (padBuffer ctx).words ((padBuffer ctx).buffer.take 56 ++ counters) := by
  have size := rest_length initial message
  have bound := Nat.mod_lt message.length (show 0 < 64 by decide)
  have used : ctx.lo % 64 = message.length % 64 := by
    rw [follows.lo]
    omega
  obtain ⟨room, marked⟩ := held_put follows.room follows.rest
    (show message.length % 64 + [(0x80 : UInt8)].length ≤ 64 by simp only [List.length_singleton]; omega)
  rw [List.length_singleton] at marked
  simp only [padBuffer, used]
  by_cases late : 64 - (message.length % 64 + 1) < 8
  · -- the mark ends a block, and the counters another one
    obtain ⟨zeroedRoom, zeroed⟩ := held_put room marked
      (show message.length % 64 + 1 + (List.replicate (64 - (message.length % 64 + 1)) 0).length ≤
        64 by rw [List.length_replicate]; omega)
    rw [List.take_of_length_le (by rw [List.length_replicate]; omega)] at zeroed
    rw [zeroed] at zeroedRoom
    have zeros : List.replicate ((119 - message.length % 64) % 64) (0 : UInt8) =
        List.replicate (64 - (message.length % 64 + 1)) 0 ++ List.replicate 56 0 := by
      rw [List.replicate_append_replicate]
      congr 1
      omega
    rw [if_pos late]
    simp only [zeroed, body_block _ zeroedRoom]
    obtain ⟨lastRoom, last⟩ := held_put zeroedRoom (List.take_zero)
      (show 0 + (List.replicate (64 - 8) (0 : UInt8)).length ≤ 64 by decide)
    refine ⟨trivial, trivial, lastRoom, fun counters eight => ?_⟩
    have last56 : (put ((absorb 64 transform initial message).2 ++ [0x80] ++
        List.replicate (64 - (message.length % 64 + 1)) 0) 0 (List.replicate (64 - 8) 0)).take 56 =
        List.replicate 56 0 := last
    have whole : (List.replicate 56 (0 : UInt8) ++ counters).length = 64 := by
      rw [List.length_append, List.length_replicate, eight]
    have blocks : (absorb 64 transform initial message).2 ++
          (0x80 :: (List.replicate (64 - (message.length % 64 + 1)) 0 ++ List.replicate 56 0) ++
            counters) =
        ((absorb 64 transform initial message).2 ++ [0x80] ++
          List.replicate (64 - (message.length % 64 + 1)) 0) ++
          ((List.replicate 56 0 ++ counters) ++ []) := by
      simp
    rw [last56, zeros, List.append_assoc, absorb_message, blocks, absorb_whole zeroedRoom,
      absorb_whole whole, BlockStream.absorb_nil, follows.words]
  · rw [if_neg late]
    obtain ⟨lastRoom, last⟩ := held_put room marked
      (show message.length % 64 + 1 +
        (List.replicate (64 - (message.length % 64 + 1) - 8) (0 : UInt8)).length ≤ 64 by
        rw [List.length_replicate]; omega)
    have place : message.length % 64 + 1 +
        (List.replicate (64 - (message.length % 64 + 1) - 8) (0 : UInt8)).length = 56 := by
      rw [List.length_replicate]
      omega
    have zeros : (119 - message.length % 64) % 64 = 64 - (message.length % 64 + 1) - 8 := by omega
    rw [place] at last
    refine ⟨rfl, rfl, lastRoom, fun counters eight => ?_⟩
    have whole : ((absorb 64 transform initial message).2 ++ [0x80] ++
        List.replicate (64 - (message.length % 64 + 1) - 8) 0 ++ counters).length = 64 := by
      simp only [List.length_append, List.length_replicate, List.length_singleton, size, eight]
      omega
    have block : (absorb 64 transform initial message).2 ++
          (0x80 :: List.replicate (64 - (message.length % 64 + 1) - 8) 0 ++ counters) =
        ((absorb 64 transform initial message).2 ++ [0x80] ++
          List.replicate (64 - (message.length % 64 + 1) - 8) 0 ++ counters) ++ [] := by
      simp
    rw [last, zeros, List.append_assoc, absorb_message, block, absorb_whole whole,
      BlockStream.absorb_nil, follows.words]

theorem final_digest (follows : Follows message ctx) : MD5_Final ctx = digest message := by
  obtain ⟨lo, hi, room, absorbed⟩ := pad_buffer follows
  have counters := absorbed (leBytes 8 (8 * message.length)) (le_bytes_length _ _)
  have last := last_block room rfl (le_bytes_length 4 (ctx.lo * 2 ^ 3 % 2 ^ 32))
    (le_bytes_length 4 ctx.hi)
  rw [← word_bytes, ← word_bytes, follows.lo, follows.hi, length_bytes] at last
  have whole : ((padBuffer ctx).buffer.take 56 ++ leBytes 8 (8 * message.length)).length = 64 := by
    rw [List.length_append, List.length_take, room, le_bytes_length]
    rfl
  have same : (absorb 64 compress initial (padded message)).1 =
      (absorb 64 transform initial (padded message)).1 := by
    rw [BlockStream.absorb_congr fun start block whole => (transform_eq whole start).symm]
  simp only [MD5_Final, lo, hi]
  rw [follows.lo, follows.hi, last, body_block _ whole, result_bytes, digest, same, padded, counters]

/-- However a message is cut into parts, and however long it is, its digest is computed. -/
theorem updates_compute_digest (buffer : Vector UInt8 64) (parts : List (List UInt8)) :
    MD5_Final (parts.foldl MD5_Update (MD5_Init buffer)) = digest parts.flatten :=
  final_digest (by simpa using updates_follow parts (init_follows buffer))

example : digest [97, 98, 99] =
    [144, 1, 80, 152, 60, 210, 79, 176, 214, 150, 63, 125, 40, 225, 127, 114] := by decide +kernel

end Final

end Mgw.Md5

import Mgw.AvcHeader

/-!
# The search for a start code in memory

The scan of `codec-common.c` on addresses: every read goes through the memory
that may be read, so that a read anywhere else leaves the scan without a result,
as does a loop that runs out of rounds. The word loop reads its words where the
first loop has left it.
-/

namespace Mgw.AvcStartCode

open AvcHeader (zeroByteBits zero_byte_bits)

set_option autoImplicit false

section Scan

/-- A byte, where it may be read. -/
abbrev Reads := Int → Option UInt8

variable (reads : Reads)

/-- `p[0] == byte` in a condition. -/
def isByte (p : Int) (byte : UInt8) : Option Bool := (reads p).map fun found => found = byte

/-- `&&`, which asks for its right side only when the left one holds. -/
def andThen (left right : Option Bool) : Option Bool :=
  left.bind fun holds => if holds then right else some false

/-- `p[0] == 0 && p[1] == 0 && p[2] == 1`. -/
def startCodeAt (p : Int) : Option Bool :=
  andThen (isByte reads p 0) (andThen (isByte reads (p + 1) 0) (isByte reads (p + 2) 1))

/-- What a loop comes to: it returns, or it goes out of its condition at some place. -/
inductive Outcome where
  | returns (code : Int)
  | leaves (p : Int)

/-- The loops that go byte by byte, as long as `p < stop`. -/
def byteLoop (stop : Int) : Nat → Int → Option Outcome
  | 0, _ => none
  | rounds + 1, p =>
      if p < stop then
        (startCodeAt reads p).bind fun found =>
          if found then some (.returns p) else byteLoop stop rounds (p + 1)
      else some (.leaves p)

/-- `*(const uint32_t*)p`. -/
def wordAt (p : Int) : Option (BitVec 32) := do
  let first ← reads p
  let second ← reads (p + 1)
  let third ← reads (p + 2)
  let fourth ← reads (p + 3)
  return BitVec.ofNat 32 (first.toNat + 256 * second.toNat + 65536 * third.toNat +
    16777216 * fourth.toNat)

/-- The comparisons of one round of the word loop. -/
def codeInWord (p : Int) : Option (Option Int) := do
  if ← isByte reads (p + 1) 0 then
    if ← andThen (isByte reads p 0) (isByte reads (p + 2) 1) then
      return some p
    if ← andThen (isByte reads (p + 2) 0) (isByte reads (p + 3) 1) then
      return some (p + 1)
  if ← isByte reads (p + 3) 0 then
    if ← andThen (isByte reads (p + 2) 0) (isByte reads (p + 4) 1) then
      return some (p + 2)
    if ← andThen (isByte reads (p + 4) 0) (isByte reads (p + 5) 1) then
      return some (p + 3)
  return none

/-- `for (...; p < stop; p += 4)`. -/
def wordLoop (stop : Int) : Nat → Int → Option Outcome
  | 0, _ => none
  | rounds + 1, p =>
      if p < stop then
        (wordAt reads p).bind fun x =>
          if zeroByteBits x ≠ 0#32 then
            (codeInWord reads p).bind fun found =>
              match found with
              | some code => some (.returns code)
              | none => wordLoop stop rounds (p + 4)
          else wordLoop stop rounds (p + 4)
      else some (.leaves p)

/-- What follows a loop, unless that loop returns. -/
def Outcome.goOn (next : Int → Option Outcome) : Outcome → Option Outcome
  | .returns code => some (.returns code)
  | .leaves p => next p

/-- What is returned: behind the third loop `end + 3`, which is the `end` of the call. -/
def Outcome.address (finish : Int) : Outcome → Int
  | .returns code => code
  | .leaves _ => finish

def ffAvcFindStartcodeInternal (p finish : Int) : Option Int :=
  let a := p + 4 - p % 4
  let rounds := (finish - p).toNat + 1
  let aligned := byteLoop reads (min a (finish - 3)) rounds p
  let worded := aligned.bind (Outcome.goOn (wordLoop reads (finish - 6) rounds))
  let last := worded.bind (Outcome.goOn (byteLoop reads (finish - 3) rounds))
  last.map (Outcome.address finish)

def mgwAvcFindStartcode (p finish : Int) : Option Int := do
  let out ← ffAvcFindStartcodeInternal reads p finish
  if p < out ∧ out < finish then
    if ← isByte reads (out - 1) 0 then
      return out - 1
  return out

end Scan

section Reads

/-- Only the bytes of `[p, finish)` may be read. -/
def within (memory : Int → UInt8) (p finish : Int) : Reads :=
  fun q => if p ≤ q ∧ q < finish then some (memory q) else none

variable {memory : Int → UInt8} {p finish : Int}

theorem read_within {q : Int} (above : p ≤ q) (below : q < finish) :
    within memory p finish q = some (memory q) :=
  if_pos ⟨above, below⟩

theorem is_byte_within {q : Int} (above : p ≤ q) (below : q < finish) (byte : UInt8) :
    isByte (within memory p finish) q byte = some (decide (memory q = byte)) := by
  unfold isByte
  rw [read_within above below]
  rfl

theorem and_then_some (left right : Bool) :
    andThen (some left) (some right) = some (left && right) := by
  cases left <;> rfl

/-- A start code begins at `q`. -/
def CodeAt (memory : Int → UInt8) (q : Int) : Prop :=
  memory q = 0 ∧ memory (q + 1) = 0 ∧ memory (q + 2) = 1

instance (memory : Int → UInt8) (q : Int) : Decidable (CodeAt memory q) :=
  inferInstanceAs (Decidable (_ ∧ _))

theorem start_code_within {q : Int} (above : p ≤ q) (below : q < finish - 3) :
    startCodeAt (within memory p finish) q = some (decide (CodeAt memory q)) := by
  unfold startCodeAt
  rw [is_byte_within above (by omega), is_byte_within (by omega) (by omega),
    is_byte_within (by omega) (by omega), and_then_some, and_then_some]
  apply congrArg some
  rw [Bool.eq_iff_iff, decide_eq_true_iff]
  simp [CodeAt]

/-- The four bytes from `q` on as a number. -/
def wordValue (memory : Int → UInt8) (q : Int) : BitVec 32 :=
  BitVec.ofNat 32 ((memory q).toNat + 256 * (memory (q + 1)).toNat +
    65536 * (memory (q + 2)).toNat + 16777216 * (memory (q + 3)).toNat)

theorem word_within {q : Int} (above : p ≤ q) (below : q < finish - 6) :
    wordAt (within memory p finish) q = some (wordValue memory q) := by
  unfold wordAt
  rw [read_within above (by omega), read_within (by omega) (by omega),
    read_within (by omega) (by omega), read_within (by omega) (by omega)]
  rfl

/-- A start code at one of the first four places has a zero byte in the word there. -/
theorem code_has_zero_byte {q : Int} {lane : Nat} (bound : lane < 4)
    (code : CodeAt memory (q + lane)) :
    zeroByteBits (wordValue memory q) ≠ 0#32 := by
  have first := (memory q).toNat_lt
  have second := (memory (q + 1)).toNat_lt
  have third := (memory (q + 2)).toNat_lt
  have fourth := (memory (q + 3)).toNat_lt
  have number := congrArg UInt8.toNat code.1
  change _ = 0 at number
  apply zero_byte_bits bound
  rw [wordValue, BitVec.toNat_ofNat]
  interval_cases lane
  · rw [Int.ofNat_zero, Int.add_zero] at number
    omega
  · change (memory (q + 1)).toNat = 0 at number
    omega
  · change (memory (q + 2)).toNat = 0 at number
    omega
  · change (memory (q + 3)).toNat = 0 at number
    omega

/-- The comparisons are those for the four places of the word, in their order. -/
theorem code_in_word_within {q : Int} (above : p ≤ q) (below : q < finish - 6) :
    codeInWord (within memory p finish) q = some (
      if CodeAt memory q then some q
      else if CodeAt memory (q + 1) then some (q + 1)
      else if CodeAt memory (q + 2) then some (q + 2)
      else if CodeAt memory (q + 3) then some (q + 3)
      else none) := by
  have inside : ∀ i, 0 ≤ i → i < 6 → ∀ byte,
      isByte (within memory p finish) (q + i) byte = some (decide (memory (q + i) = byte)) := by
    intro i low high
    exact is_byte_within (by omega) (by omega)
  have first := inside 0 (by omega) (by omega)
  rw [Int.add_zero] at first
  unfold codeInWord
  simp only [first, inside 1 (by omega) (by omega), inside 2 (by omega) (by omega),
    inside 3 (by omega) (by omega), inside 4 (by omega) (by omega), inside 5 (by omega) (by omega),
    and_then_some, Option.bind_eq_bind, Option.bind_some]
  by_cases second : memory (q + 1) = 0 <;> by_cases fourth : memory (q + 3) = 0 <;>
    simp [CodeAt, second, fourth, add_assoc, apply_ite some]

end Reads

section Search

variable {memory : Int → UInt8} {p finish : Int}

/-- What a loop that began at `q` comes to when it stops at `stop`: the first start
code, or a place up to which there is none. -/
def Scanned (memory : Int → UInt8) (finish stop q : Int) : Outcome → Prop
  | .returns code => q ≤ code ∧ code < finish - 3 ∧ CodeAt memory code ∧
      ∀ r, q ≤ r → r < code → ¬CodeAt memory r
  | .leaves place => q ≤ place ∧ stop ≤ place ∧ ∀ r, q ≤ r → r < place → ¬CodeAt memory r

/-- A loop that goes on where another stands. -/
theorem scanned_from {stop q place stop' : Int} {found : Outcome} (ordered : q ≤ place)
    (nothing : ∀ r, q ≤ r → r < place → ¬CodeAt memory r)
    (after : Scanned memory finish stop place found) (stops : stop' ≤ stop) :
    Scanned memory finish stop' q found := by
  have skipped : ∀ {reached}, (∀ r, place ≤ r → r < reached → ¬CodeAt memory r) →
      ∀ r, q ≤ r → r < reached → ¬CodeAt memory r := by
    intro reached beyond r above below
    by_cases early : r < place
    · exact nothing r above early
    · exact beyond r (by omega) below
  cases found with
  | returns code =>
      obtain ⟨behind, inside, here, clear⟩ := after
      exact ⟨by omega, inside, here, skipped clear⟩
  | leaves reached =>
      obtain ⟨behind, stopped, clear⟩ := after
      exact ⟨by omega, by omega, skipped clear⟩

theorem leaves_scanned {stop q : Int} (stopped : stop ≤ q) :
    Scanned memory finish stop q (.leaves q) :=
  ⟨Int.le_refl q, stopped, fun r above below => absurd above (by omega)⟩

theorem byte_loop_scanned {stop : Int} (limit : stop ≤ finish - 3) (rounds : Nat) (q : Int)
    (above : p ≤ q) (started : 0 < rounds) (enough : stop - q < rounds) :
    ∃ found, byteLoop (within memory p finish) stop rounds q = some found ∧
      Scanned memory finish stop q found := by
  induction rounds generalizing q with
  | zero => contradiction
  | succ rounds ih =>
      unfold byteLoop
      by_cases inside : q < stop
      · rw [if_pos inside, start_code_within above (by omega), Option.bind_some]
        by_cases here : CodeAt memory q
        · rw [decide_eq_true here, if_pos rfl]
          exact ⟨_, rfl, Int.le_refl q, by omega, here, fun r above below => absurd above (by omega)⟩
        · rw [decide_eq_false here, if_neg Bool.false_ne_true]
          obtain ⟨found, result, scanned⟩ := ih (q + 1) (by omega) (by omega) (by omega)
          refine ⟨found, result, scanned_from (by omega) ?_ scanned (Int.le_refl stop)⟩
          intro r above below
          rwa [show r = q by omega]
      · rw [if_neg inside]
        exact ⟨_, rfl, leaves_scanned (by omega)⟩

/-- What the comparisons of a round at `q` have to find. -/
def WordScanned (memory : Int → UInt8) (finish q : Int) : Option Int → Prop
  | some code => Scanned memory finish q q (.returns code)
  | none => ∀ r, q ≤ r → r < q + 4 → ¬CodeAt memory r

theorem quiet_word {q : Int} (quiet : zeroByteBits (wordValue memory q) = 0#32) :
    WordScanned memory finish q none := by
  intro r low high code
  obtain ⟨lane, place⟩ := Int.eq_ofNat_of_zero_le (show 0 ≤ r - q by omega)
  refine @code_has_zero_byte memory q lane (by omega) ?_ quiet
  rwa [show q + lane = r by omega]

theorem word_scanned {q : Int} (above : p ≤ q) (below : q < finish - 6) :
    ∃ found, codeInWord (within memory p finish) q = some found ∧
      WordScanned memory finish q found := by
  refine ⟨_, code_in_word_within above below, ?_⟩
  split_ifs with first second third fourth
  · exact ⟨by omega, by omega, first, fun r low high => absurd low (by omega)⟩
  · refine ⟨by omega, by omega, second, ?_⟩
    intro r low high
    rwa [show r = q by omega]
  · refine ⟨by omega, by omega, third, ?_⟩
    intro r low high
    obtain rfl | rfl : r = q ∨ r = q + 1 := by omega
    · exact first
    · exact second
  · refine ⟨by omega, by omega, fourth, ?_⟩
    intro r low high
    obtain rfl | rfl | rfl : r = q ∨ r = q + 1 ∨ r = q + 2 := by omega
    · exact first
    · exact second
    · exact third
  · intro r low high
    obtain rfl | rfl | rfl | rfl : r = q ∨ r = q + 1 ∨ r = q + 2 ∨ r = q + 3 := by omega
    · exact first
    · exact second
    · exact third
    · exact fourth

theorem word_loop_scanned (rounds : Nat) (q : Int) (above : p ≤ q) (started : 0 < rounds)
    (enough : finish - 6 - q < rounds) :
    ∃ found, wordLoop (within memory p finish) (finish - 6) rounds q = some found ∧
      Scanned memory finish (finish - 6) q found := by
  induction rounds generalizing q with
  | zero => contradiction
  | succ rounds ih =>
      have further : q < finish - 6 → WordScanned memory finish q none →
          ∃ found, wordLoop (within memory p finish) (finish - 6) rounds (q + 4) = some found ∧
            Scanned memory finish (finish - 6) q found := by
        intro inside nothing
        obtain ⟨found, result, scanned⟩ := ih (q + 4) (by omega) (by omega) (by omega)
        exact ⟨found, result, scanned_from (by omega) nothing scanned (Int.le_refl _)⟩
      unfold wordLoop
      by_cases inside : q < finish - 6
      · rw [if_pos inside, word_within above inside, Option.bind_some]
        by_cases quiet : zeroByteBits (wordValue memory q) = 0#32
        · rw [if_neg (not_not_intro quiet)]
          exact further inside (quiet_word quiet)
        · rw [if_pos quiet]
          obtain ⟨found, result, scanned⟩ := word_scanned above inside
          rw [result, Option.bind_some]
          cases found with
          | some code => exact ⟨_, rfl, scanned⟩
          | none => exact further inside scanned
      · rw [if_neg inside]
        exact ⟨_, rfl, leaves_scanned (by omega)⟩

/-- The first place before `finish - 3` where a start code begins, else `finish`. -/
def FirstCode (memory : Int → UInt8) (p finish q : Int) : Prop :=
  (p ≤ q ∧ q < finish - 3 ∧ CodeAt memory q ∧ ∀ r, p ≤ r → r < q → ¬CodeAt memory r) ∨
    (q = finish ∧ ∀ r, p ≤ r → r < finish - 3 → ¬CodeAt memory r)

theorem scanned_bind {stop stop' q : Int} {loop : Option Outcome} {next : Int → Option Outcome}
    (before : ∃ found, loop = some found ∧ Scanned memory finish stop q found)
    (after : ∀ place, q ≤ place →
      ∃ found, next place = some found ∧ Scanned memory finish stop' place found) :
    ∃ found, loop.bind (Outcome.goOn next) = some found ∧ Scanned memory finish stop' q found := by
  obtain ⟨first, result, scanned⟩ := before
  rw [result, Option.bind_some]
  cases first with
  | returns code => exact ⟨_, rfl, scanned⟩
  | leaves place =>
      obtain ⟨ordered, -, nothing⟩ := scanned
      obtain ⟨found, result', scanned'⟩ := after place ordered
      exact ⟨found, result', scanned_from ordered nothing scanned' (Int.le_refl _)⟩

/-- The three loops together. Each has more rounds than places to look at. The search
may begin behind the first byte that may be read. -/
theorem ff_avc_find_startcode (memory : Int → UInt8) {p start : Int} (finish : Int)
    (behind : p ≤ start) :
    ∃ q, ffAvcFindStartcodeInternal (within memory p finish) start finish = some q ∧
      FirstCode memory start finish q := by
  have aligned := @byte_loop_scanned memory p finish (min (start + 4 - start % 4) (finish - 3))
    (by omega) ((finish - start).toNat + 1) start behind (by omega) (by omega)
  have worded := scanned_bind aligned fun place above => @word_loop_scanned memory p finish
    ((finish - start).toNat + 1) place (by omega) (by omega) (by omega)
  obtain ⟨found, result, scanned⟩ := scanned_bind worded fun place above =>
    @byte_loop_scanned memory p finish (finish - 3) (Int.le_refl _) ((finish - start).toNat + 1)
      place (by omega) (by omega) (by omega)
  refine ⟨found.address finish, ?_, ?_⟩
  · unfold ffAvcFindStartcodeInternal
    dsimp only
    rw [result]
    rfl
  · cases found with
    | returns code => exact Or.inl scanned
    | leaves place =>
        obtain ⟨-, stopped, nothing⟩ := scanned
        exact Or.inr ⟨rfl, fun r above below => nothing r above (by omega)⟩

/-- The byte in front of a start code is looked at only behind the first place. -/
theorem mgw_avc_find_startcode {start q : Int} (behind : p ≤ start)
    (found : ffAvcFindStartcodeInternal (within memory p finish) start finish = some q) :
    mgwAvcFindStartcode (within memory p finish) start finish =
      some (if start < q ∧ q < finish ∧ memory (q - 1) = 0 then q - 1 else q) := by
  unfold mgwAvcFindStartcode
  rw [found, Option.bind_eq_bind, Option.bind_some]
  by_cases inner : start < q ∧ q < finish
  · rw [if_pos inner, is_byte_within (by omega) (by omega)]
    by_cases zero : memory (q - 1) = 0
    · rw [decide_eq_true zero, if_pos ⟨inner.1, inner.2, zero⟩]
      rfl
    · rw [decide_eq_false zero, if_neg fun all => zero all.2.2]
      rfl
  · rw [if_neg inner, if_neg fun all => inner ⟨all.1, all.2.1⟩]
    rfl

/-- The scan finds what the plain search finds, on every range and wherever its
words lie, and it reads no byte outside the range. -/
theorem find_startcode_within (memory : Int → UInt8) (p finish : Int) :
    ∃ q, FirstCode memory p finish q ∧
      ffAvcFindStartcodeInternal (within memory p finish) p finish = some q ∧
      mgwAvcFindStartcode (within memory p finish) p finish =
        some (if p < q ∧ q < finish ∧ memory (q - 1) = 0 then q - 1 else q) := by
  obtain ⟨q, found, first⟩ := ff_avc_find_startcode memory finish (Int.le_refl p)
  exact ⟨q, first, found, mgw_avc_find_startcode (Int.le_refl p) found⟩

end Search

section Data

theorem first_code_unique {memory : Int → UInt8} {p finish q r : Int}
    (first : FirstCode memory p finish q) (other : FirstCode memory p finish r) : q = r := by
  rcases first with ⟨above, inside, code, clear⟩ | ⟨atEnd, clear⟩ <;>
    rcases other with ⟨above', inside', code', clear'⟩ | ⟨atEnd', clear'⟩
  · by_contra different
    obtain before | behind := Int.lt_or_gt_of_ne different
    · exact clear' q above before code
    · exact clear r above' behind code'
  · exact absurd code (clear' q above inside)
  · exact absurd code' (clear r above' inside')
  · rw [atEnd, atEnd']

/-- The bytes of a packet that lies at `address`. -/
def packetAt (data : List UInt8) (address : Nat) (q : Int) : UInt8 :=
  AvcHeader.byteAt data (q - address).toNat

variable {data : List UInt8}

theorem code_at_packet (address offset : Nat) :
    CodeAt (packetAt data address) (address + offset : Nat) ↔
      AvcHeader.startCodeAt data offset = true := by
  have places : ∀ i : Nat, packetAt data address ((address + offset : Nat) + i) =
      AvcHeader.byteAt data (offset + i) := by
    intro i
    unfold packetAt
    rw [show (((address + offset : Nat) : Int) + i - address).toNat = offset + i by omega]
  rw [AvcHeader.start_code_at_iff, ← places 1, ← places 2]
  have first := places 0
  rw [Int.ofNat_zero, Int.add_zero] at first
  rw [Nat.add_zero] at first
  rw [← first]
  rfl

theorem next_code_first (address p : Nat) :
    FirstCode (packetAt data address) (address + p : Nat) (address + data.length : Nat)
      (address + AvcHeader.nextCode data p : Nat) := by
  -- every address of the range is that of an offset
  have absent : ∀ stop, (∀ offset, p ≤ offset → offset < stop →
        (!AvcHeader.startCodeAt data offset) = true) →
      ∀ r : Int, (address + p : Nat) ≤ r → r < (address + stop : Nat) →
        ¬CodeAt (packetAt data address) r := by
    intro stop nothing r above below
    obtain ⟨offset, rfl⟩ : ∃ offset : Nat, r = (address + offset : Nat) :=
      ⟨(r - address).toNat, by omega⟩
    rw [code_at_packet, Bool.not_eq_true, ← Bool.not_eq_true']
    exact nothing offset (by omega) (by omega)
  unfold AvcHeader.nextCode
  cases found : (List.range' p (data.length - 3 - p)).find? (AvcHeader.startCodeAt data) with
  | none =>
      rw [List.find?_range'_eq_none] at found
      refine Or.inr ⟨rfl, ?_⟩
      intro r above below
      exact absent (data.length - 3) (fun offset low high => found offset low (by omega)) r above
        (by omega)
  | some code =>
      obtain ⟨here, member, before⟩ := List.find?_range'_eq_some.mp found
      have bounds := List.mem_range'_1.mp member
      rw [Option.getD_some]
      exact Or.inl ⟨by omega, by omega, (code_at_packet address code).mpr here,
        absent code before⟩

/-- On a packet this is the search over offsets, wherever the packet lies. It may
begin behind the first byte that may be read. -/
theorem find_startcode_packet (address : Nat) {low p : Nat} (behind : low ≤ p) :
    mgwAvcFindStartcode
        (within (packetAt data address) (address + low : Nat) (address + data.length : Nat))
        (address + p : Nat) (address + data.length : Nat) =
      some ((address + AvcHeader.mgwAvcFindStartcode data address p : Nat) : Int) := by
  have above : ((address + low : Nat) : Int) ≤ (address + p : Nat) := by omega
  obtain ⟨q, found, first⟩ :=
    ff_avc_find_startcode (packetAt data address) (address + data.length : Nat) above
  rw [first_code_unique first (next_code_first address p)] at found
  rw [mgw_avc_find_startcode above found, AvcHeader.find_startcode]
  unfold AvcHeader.unitEnd packetAt
  dsimp only
  generalize AvcHeader.nextCode data p = code
  rw [show ((address + code : Nat) - 1 - address : Int).toNat = code - 1 by omega]
  by_cases back : p < code ∧ code < data.length ∧ AvcHeader.byteAt data (code - 1) = 0
  · rw [if_pos back, if_pos ⟨by omega, by omega, back.2.2⟩]
    apply congrArg some
    omega
  · rw [if_neg back, if_neg]
    intro other
    exact back ⟨by omega, by omega, other.2.2⟩

end Data

end Mgw.AvcStartCode

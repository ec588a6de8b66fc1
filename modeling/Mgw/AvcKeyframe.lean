import Mgw.AvcStartCode

/-!
# The test for a key frame

`mgw_avc_keyframe` of `codec-common.c` on addresses, with the memory that may be
read as in the search for start codes. It skips the zero bytes of a start code and
its one, looks at the type behind it and goes on with the next start code, until
the type is that of a coded picture.
-/

namespace Mgw.AvcKeyframe

open AvcStartCode
open AvcHeader (byteAt startCodeAt nextCode behindZeros unitEnd unitsFrom nalUnits unitType)

set_option autoImplicit false

section Scan

variable (reads : Reads) (finish : Int)

/-- `while (nal_start < end && !*(nal_start++));`. -/
def skipZeros : Nat → Int → Option Int
  | 0, _ => none
  | rounds + 1, nal_start =>
      if nal_start < finish then
        (isByte reads nal_start 0).bind fun zero =>
          if zero then skipZeros rounds (nal_start + 1) else some (nal_start + 1)
      else some nal_start

/-- The loop of `mgw_avc_keyframe`; `none` also when the rounds run out. -/
def keyframeLoop : Nat → Int → Option Bool
  | 0, _ => none
  | rounds + 1, place =>
      (skipZeros reads finish ((finish - place).toNat + 1) place).bind fun nal_start =>
        if nal_start = finish then some false
        else
          (reads nal_start).bind fun first =>
            let type := first &&& 0x1f
            if type = 0x5 ∨ type = 0x1 then some (decide (type = 0x5))
            else
              (mgwAvcFindStartcode reads nal_start finish).bind fun nal_end =>
                keyframeLoop rounds nal_end

def mgwAvcKeyframe (data size : Int) : Option Bool :=
  (mgwAvcFindStartcode reads data (data + size)).bind fun nal_start =>
    keyframeLoop reads (data + size) (size.toNat + 1) nal_start

end Scan

/-- The types of coded pictures. -/
def codesPicture (type : UInt8) : Bool := type = 0x5 || type = 0x1

/-- The start codes from `p` on that do not end the data. -/
def codesFrom (data : List UInt8) (p : Nat) : List Nat :=
  (List.range' p (data.length - 3 - p)).filter (startCodeAt data)

def typeBehind (data : List UInt8) (code : Nat) : UInt8 := byteAt data (code + 3) &&& 0x1f

section Units

variable {data : List UInt8}

theorem codes_from_step (p : Nat) :
    codesFrom data p =
      if p < data.length - 3 then
        if startCodeAt data p then p :: codesFrom data (p + 1) else codesFrom data (p + 1)
      else [] := by
  unfold codesFrom
  by_cases inside : p < data.length - 3
  · obtain ⟨count, countDef⟩ : ∃ count, data.length - 3 - p = count + 1 :=
      ⟨data.length - 3 - p - 1, by omega⟩
    rw [if_pos inside, countDef, List.range'_succ, List.filter_cons,
      show data.length - 3 - (p + 1) = count by omega]
  · rw [if_neg inside, show data.length - 3 - p = 0 by omega]
    rfl

theorem codes_from_skip {p : Nat} (count : Nat)
    (nothing : ∀ q, p ≤ q → q < p + count → startCodeAt data q = false) :
    codesFrom data p = codesFrom data (p + count) := by
  induction count with
  | zero => rfl
  | succ count ih =>
      rw [ih fun q low high => nothing q low (by omega), codes_from_step,
        nothing (p + count) (by omega) (by omega), if_neg Bool.false_ne_true]
      by_cases inside : p + count < data.length - 3
      · rw [if_pos inside, Nat.add_assoc]
      · rw [if_neg inside, codes_from_step, if_neg (by omega)]

theorem not_code {q : Nat} (other : byteAt data q ≠ 0 ∨ byteAt data (q + 1) ≠ 0) :
    startCodeAt data q = false := by
  rw [Bool.eq_false_iff, ne_eq, AvcHeader.start_code_at_iff]
  intro code
  exact other.elim (fun first => first code.1) fun second => second code.2.1

theorem before_next_code {p q : Nat} (above : p ≤ q) (below : q < nextCode data p)
    (inside : q < data.length - 3) : startCodeAt data q = false := by
  unfold nextCode at below
  cases result : (List.range' p (data.length - 3 - p)).find? (startCodeAt data) with
  | none =>
      have absent := List.find?_range'_eq_none.mp result q above (by omega)
      simpa using absent
  | some first =>
      rw [result, Option.getD_some] at below
      have absent := (List.find?_range'_eq_some.mp result).2.2 q above below
      simpa using absent

theorem codes_from_none {p : Nat} (none : nextCode data p = data.length) :
    codesFrom data p = [] := by
  unfold codesFrom
  rw [List.filter_eq_nil_iff]
  intro q member
  have bounds := List.mem_range'_1.mp member
  rw [before_next_code bounds.1 (by omega) (by omega)]
  exact Bool.false_ne_true

/-- The next start code begins at least three bytes behind one. -/
theorem codes_from_next {p : Nat} (some : nextCode data p ≠ data.length) :
    codesFrom data p = nextCode data p :: codesFrom data (nextCode data p + 3) := by
  obtain ⟨above, inside, code⟩ := (@AvcHeader.next_code_cases data p).resolve_left some
  have bytes := (AvcHeader.start_code_at_iff _).mp code
  have one : byteAt data (nextCode data p + 2) ≠ 0 := by
    rw [bytes.2.2]
    decide
  have before := @codes_from_skip data p (nextCode data p - p) fun q low high =>
    before_next_code low (by omega) (by omega)
  have behind := @codes_from_skip data (nextCode data p + 1) 2 fun q low high => by
    obtain rfl | rfl : q = nextCode data p + 1 ∨ q = nextCode data p + 2 := by omega
    · exact not_code (Or.inr one)
    · exact not_code (Or.inl one)
  rw [before, Nat.add_sub_cancel' above, codes_from_step, if_pos (by omega), if_pos code, behind]

/-- A unit begins behind the start code that ends the one before it. -/
theorem behind_unit_end {start : Nat} (code : nextCode data start ≠ data.length) :
    behindZeros data (unitEnd data start) = nextCode data start + 3 := by
  obtain ⟨above, inside, found⟩ := (@AvcHeader.next_code_cases data start).resolve_left code
  obtain ⟨first, second, third⟩ := (AvcHeader.start_code_at_iff _).mp found
  have one : byteAt data (nextCode data start + 2) ≠ 0 := by
    rw [third]
    decide
  have skipped : ∀ rounds, AvcHeader.skipZeros data (rounds + 3) (nextCode data start) =
      nextCode data start + 3 := by
    intro rounds
    rw [AvcHeader.skipZeros, if_pos first, AvcHeader.skipZeros, if_pos second,
      AvcHeader.skipZeros, if_neg one]
  unfold behindZeros unitEnd
  dsimp only
  split_ifs with back
  · obtain ⟨rounds, roundsDef⟩ : ∃ rounds,
        data.length - (nextCode data start - 1) = rounds + 3 + 1 :=
      ⟨data.length - (nextCode data start - 1) - 4, by omega⟩
    rw [roundsDef, AvcHeader.skipZeros, if_pos back.2.2,
      show nextCode data start - 1 + 1 = nextCode data start by omega, skipped]
  · obtain ⟨rounds, roundsDef⟩ : ∃ rounds, data.length - nextCode data start = rounds + 3 :=
      ⟨data.length - nextCode data start - 3, by omega⟩
    rw [roundsDef, skipped]

theorem behind_end : behindZeros data data.length = data.length := by
  unfold behindZeros
  rw [Nat.sub_self]
  rfl

/-- The units are those behind the start codes, none of which is missed. -/
theorem units_behind_codes (rounds start : Nat) (inside : start ≤ data.length)
    (enough : data.length - start < rounds) :
    (unitsFrom data rounds (unitEnd data start)).map unitType =
      (codesFrom data start).map (typeBehind data) := by
  induction rounds generalizing start with
  | zero => omega
  | succ rounds ih =>
      unfold unitsFrom
      by_cases none : nextCode data start = data.length
      · have place : unitEnd data start = data.length := by
          unfold unitEnd
          rw [none]
          exact if_neg fun back => absurd back.2.1 (Nat.lt_irrefl _)
        rw [place, behind_end, if_pos rfl, codes_from_none none]
        rfl
      · obtain ⟨above, before, -⟩ := (@AvcHeader.next_code_cases data start).resolve_left none
        rw [behind_unit_end none, if_neg (by omega), codes_from_next none, List.map_cons,
          List.map_cons, AvcHeader.bytes_from_type before, ih _ (by omega) (by omega)]
        rfl

end Units

section Scan

variable {data : List UInt8} {address : Nat}

/-- The bytes of the packet and no others may be read. -/
def packetReads (data : List UInt8) (address : Nat) : Reads :=
  within (packetAt data address) address (address + data.length : Nat)

theorem packet_read {p : Nat} (inside : p < data.length) :
    packetReads data address (address + p : Nat) = some (byteAt data p) := by
  unfold packetReads
  rw [read_within (by omega) (by omega)]
  unfold packetAt
  rw [show (((address + p : Nat) : Int) - address).toNat = p by omega]

theorem find_startcode_read (p : Nat) :
    mgwAvcFindStartcode (packetReads data address) (address + p : Nat)
      (address + data.length : Nat) = some ((address + unitEnd data p : Nat) : Int) := by
  have found := @find_startcode_packet data address 0 p (Nat.zero_le p)
  rw [Nat.add_zero, AvcHeader.find_startcode] at found
  exact found

theorem skip_zeros_read (count p : Nat) (places : p + count = data.length) :
    skipZeros (packetReads data address) (address + data.length : Nat) (count + 1)
        (address + p : Nat) =
      some ((address + AvcHeader.skipZeros data count p : Nat) : Int) := by
  induction count generalizing p with
  | zero =>
      rw [skipZeros, if_neg (by omega)]
      rfl
  | succ count ih =>
      rw [skipZeros, if_pos (by omega), isByte, packet_read (by omega), Option.map_some,
        Option.bind_some, AvcHeader.skipZeros]
      by_cases zero : byteAt data p = 0
      · have next := ih (p + 1) (by omega)
        rw [if_pos (decide_eq_true zero), if_pos zero, ← next]
        rfl
      · rw [if_neg (by simpa using zero), if_neg zero]
        rfl

theorem behind_zeros_read {place : Nat} (inside : place ≤ data.length) :
    skipZeros (packetReads data address) (address + data.length : Nat)
        (((address + data.length : Nat) - (address + place : Nat) : Int).toNat + 1)
        (address + place : Nat) =
      some ((address + behindZeros data place : Nat) : Int) := by
  rw [show ((address + data.length : Nat) - (address + place : Nat) : Int).toNat =
    data.length - place by omega]
  exact skip_zeros_read _ _ (by omega)

/-- The type of the first coded picture is that of a key frame. -/
def keyFirst (types : List UInt8) : Bool := types.find? codesPicture = some 0x5

theorem key_first_cons (type : UInt8) (types : List UInt8) :
    keyFirst (type :: types) =
      if type = 0x5 ∨ type = 0x1 then decide (type = 0x5) else keyFirst types := by
  unfold keyFirst
  rw [List.find?_cons]
  by_cases picture : type = 0x5 ∨ type = 0x1
  · have codes : codesPicture type = true := by simpa [codesPicture] using picture
    rw [if_pos picture, codes]
    simp only [Option.some.injEq]
  · have codes : codesPicture type = false := by simpa [codesPicture] using picture
    rw [if_neg picture, codes]

/-- In enough rounds the loop decides by the first coded picture among the units. -/
theorem keyframe_loop_read (rounds place : Nat) (inside : place ≤ data.length)
    (enough : data.length - place < rounds) :
    keyframeLoop (packetReads data address) (address + data.length : Nat) rounds
        (address + place : Nat) =
      some (keyFirst ((unitsFrom data rounds place).map unitType)) := by
  induction rounds generalizing place with
  | zero => omega
  | succ rounds ih =>
      have start := AvcHeader.behind_zeros_bounds inside
      rw [keyframeLoop, behind_zeros_read inside, Option.bind_some]
      unfold unitsFrom
      by_cases done : behindZeros data place = data.length
      · rw [if_pos (by rw [done]), if_pos done]
        rfl
      · have before : behindZeros data place < data.length := by omega
        have moved : place < behindZeros data place := by
          rcases Nat.eq_or_lt_of_le inside with atEnd | earlier
          · omega
          · exact start.2.1 earlier
        have bounds := @AvcHeader.unit_end_bounds data _ (Nat.le_of_lt before)
        rw [if_neg (by omega), if_neg done, packet_read before, Option.bind_some, List.map_cons,
          AvcHeader.bytes_from_type before, key_first_cons, find_startcode_read, Option.bind_some,
          ih _ bounds.2 (by omega)]
        dsimp only
        split_ifs
        · rfl
        · rfl

/-- The call ends and reads nothing outside the string, and it tells whether the
first coded picture of the string, if there is one, is a key frame. Every start
code begins a unit. -/
theorem keyframe_by_first_picture (data : List UInt8) (address : Nat) :
    ∃ result, mgwAvcKeyframe (packetReads data address) address data.length = some result ∧
      (result = true ↔
        ((nalUnits data).map unitType).find? codesPicture = some 0x5) ∧
      (nalUnits data).map unitType = (codesFrom data 0).map (typeBehind data) := by
  have finish : (address : Int) + data.length = (address + data.length : Nat) := by omega
  have begins := @find_startcode_read data address 0
  rw [Nat.add_zero] at begins
  have bounds := @AvcHeader.unit_end_bounds data 0 (Nat.zero_le _)
  refine ⟨keyFirst ((nalUnits data).map unitType), ?_, ?_, ?_⟩
  · unfold mgwAvcKeyframe
    rw [finish, begins, Option.bind_some, Int.toNat_natCast]
    exact keyframe_loop_read _ _ bounds.2 (by omega)
  · unfold keyFirst
    rw [decide_eq_true_iff]
  · exact units_behind_codes _ _ (Nat.zero_le _) (by omega)

end Scan

end Mgw.AvcKeyframe

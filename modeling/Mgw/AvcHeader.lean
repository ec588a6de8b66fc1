import Mathlib.Tactic.IntervalCases
import Mgw.AvcRecord
import Mgw.FlvMux

/-!
# The AVC sequence header

`mgw_parse_avc_header` of `codec-common.c` with the search for start codes. The
packet is a string of bytes at some address; pointers into it are offsets. The
search reads words from the first offset on whose address is a multiple of four.
-/

namespace Mgw.AvcHeader

open FlvMux

set_option autoImplicit false

section Scan

variable (data : List UInt8)

def byteAt (offset : Nat) : UInt8 := data.getD offset 0

/-- `p[0] == 0 && p[1] == 0 && p[2] == 1`. -/
def startCodeAt (p : Nat) : Bool :=
  byteAt data p = 0 && byteAt data (p + 1) = 0 && byteAt data (p + 2) = 1

/-- `*(const uint32_t*)p`. -/
def wordAt (p : Nat) : BitVec 32 :=
  BitVec.ofNat 32 ((byteAt data p).toNat + 256 * (byteAt data (p + 1)).toNat +
    65536 * (byteAt data (p + 2)).toNat + 16777216 * (byteAt data (p + 3)).toNat)

/-- `(x - 0x01010101) & (~x) & 0x80808080`. -/
def zeroByteBits (x : BitVec 32) : BitVec 32 := (x - 0x01010101#32) &&& ~~~x &&& 0x80808080#32

/-- The loops that go byte by byte: the start code that they return, or where
they have got to. -/
def byteLoop : Nat → Nat → Except Nat Nat
  | 0, p => .ok p
  | rounds + 1, p => if startCodeAt data p then .error p else byteLoop rounds (p + 1)

/-- What the word loop finds in one word. -/
def codeInWord (p : Nat) : Option Nat :=
  if byteAt data (p + 1) = 0 ∧ byteAt data p = 0 ∧ byteAt data (p + 2) = 1 then some p
  else if byteAt data (p + 1) = 0 ∧ byteAt data (p + 2) = 0 ∧ byteAt data (p + 3) = 1 then
    some (p + 1)
  else if byteAt data (p + 3) = 0 ∧ byteAt data (p + 2) = 0 ∧ byteAt data (p + 4) = 1 then
    some (p + 2)
  else if byteAt data (p + 3) = 0 ∧ byteAt data (p + 4) = 0 ∧ byteAt data (p + 5) = 1 then
    some (p + 3)
  else none

def wordLoop : Nat → Nat → Except Nat Nat
  | 0, p => .ok p
  | rounds + 1, p =>
      if p + 6 < data.length then
        if zeroByteBits (wordAt data p) ≠ 0#32 then
          match codeInWord data p with
          | some code => .error code
          | none => wordLoop rounds (p + 4)
        else wordLoop rounds (p + 4)
      else .ok p

/-- `address` is that of the first byte. The three loops go on from each other. -/
def ffAvcFindStartcodeInternal (address p : Nat) : Nat :=
  let a := p + 4 - (address + p) % 4
  let found : Except Nat Nat := do
    let aligned ← byteLoop data (min a (data.length - 3) - p) p
    let worded ← wordLoop data data.length aligned
    byteLoop data (data.length - 3 - worded) worded
  match found with
  | .error code => code
  | .ok _ => data.length

def mgwAvcFindStartcode (address p : Nat) : Nat :=
  let out := ffAvcFindStartcodeInternal data address p
  if p < out ∧ out < data.length ∧ byteAt data (out - 1) = 0 then out - 1 else out

/-- `while (nal_start < end && !*(nal_start++));`, in as many rounds as there are bytes. -/
def skipZeros : Nat → Nat → Nat
  | 0, nal_start => nal_start
  | rounds + 1, nal_start =>
      if byteAt data nal_start = 0 then skipZeros rounds (nal_start + 1) else nal_start + 1

def behindZeros (nal_start : Nat) : Nat := skipZeros data (data.length - nal_start) nal_start

/-- The parameter sets found so far, each with its offset and its size. -/
structure ParameterSets where
  sps : Option (Nat × Nat)
  pps : Option (Nat × Nat)

/-- The loop of `get_avc_sps_pps`; `none` when the rounds run out. -/
def scanLoop (address : Nat) : Nat → Nat → ParameterSets → Option ParameterSets
  | 0, _, _ => none
  | rounds + 1, nal_start, sets =>
      let start := behindZeros data nal_start
      if start = data.length then some sets
      else
        let nal_end := mgwAvcFindStartcode data address start
        let type := byteAt data start &&& 0x1f
        scanLoop address rounds nal_end
          (if type = 0x7 then { sets with sps := some (start, nal_end - start) }
          else if type = 0x8 then { sets with pps := some (start, nal_end - start) }
          else sets)

def getAvcSpsPps (address : Nat) : Option ParameterSets :=
  scanLoop data address (data.length + 1) (mgwAvcFindStartcode data address 0)
    { sps := none, pps := none }

/-- `size` bytes from an offset on. -/
def bytesFrom (offset size : Nat) : List UInt8 := (data.drop offset).take size

/-- The return value, and `*header` where it is set. -/
structure HeaderResult where
  ret : Nat
  header : Option (List UInt8)

def writeHeader (sps pps : List UInt8) : Serializer :=
  let head := (((Serializer.init.sW8 0x01).sWrite ((sps.drop 1).take 3)).sW8 0xff).sW8 0xe1
  let withSps := (head.sWb16 (sps.length % 65536)).sWrite sps
  ((withSps.sW8 0x01).sWb16 (pps.length % 65536)).sWrite pps

def mgwParseAvcHeader (address : Nat) : Option HeaderResult :=
  (getAvcSpsPps data address).map fun sets =>
    match sets.sps, sets.pps with
    | some (sps, sps_size), some (pps, pps_size) =>
        if sps_size < 4 then { ret := 0, header := none }
        else
          let s := writeHeader (bytesFrom data sps sps_size) (bytesFrom data pps pps_size)
          { ret := s.serializerGetPos, header := some s.bytes }
    | _, _ => { ret := 0, header := none }

end Scan

section ZeroBytes

theorem bits_of_lane {x : BitVec 32} (bit : Nat) (mask : (0x80808080#32).getLsbD bit = true)
    (sub : (x - 0x01010101#32).getLsbD bit = true) (clear : x.getLsbD bit = false) :
    zeroByteBits x ≠ 0#32 := by
  intro none
  have small : bit < 32 := BitVec.lt_of_getLsbD mask
  have lane := congrArg (fun word => word.getLsbD bit) none
  simp only [zeroByteBits, BitVec.getLsbD_and, BitVec.getLsbD_not, sub, clear, mask, small,
    decide_true, Bool.not_false, Bool.and_true, BitVec.getLsbD_zero] at lane
  contradiction

theorem lsb_eq (x : BitVec 32) (bit : Nat) :
    x.getLsbD bit = decide (x.toNat / 2 ^ bit % 2 = 1) := by
  rw [← BitVec.testBit_toNat, Nat.testBit_eq_decide_div_mod_eq]

/-- A zero byte borrows, whatever the bytes below it do, and its complement has all bits. -/
theorem zero_byte_bits {x : BitVec 32} {lane : Nat} (bound : lane < 4)
    (zero : x.toNat / 256 ^ lane % 256 = 0) : zeroByteBits x ≠ 0#32 := by
  have size := x.isLt
  apply bits_of_lane (8 * lane + 7)
  · interval_cases lane <;> decide
  · rw [lsb_eq, BitVec.toNat_sub, decide_eq_true_eq, BitVec.toNat_ofNat]
    interval_cases lane <;> omega
  · rw [lsb_eq, decide_eq_false_iff_not]
    interval_cases lane <;> omega

theorem word_zero_byte {data : List UInt8} {p lane : Nat} (bound : lane < 4)
    (zero : byteAt data (p + lane) = 0) : zeroByteBits (wordAt data p) ≠ 0#32 := by
  have first := (byteAt data p).toNat_lt
  have second := (byteAt data (p + 1)).toNat_lt
  have third := (byteAt data (p + 2)).toNat_lt
  have fourth := (byteAt data (p + 3)).toNat_lt
  have number := congrArg UInt8.toNat zero
  change _ = 0 at number
  apply zero_byte_bits bound
  unfold wordAt
  rw [BitVec.toNat_ofNat]
  interval_cases lane
  · rw [Nat.add_zero] at number
    omega
  · omega
  · omega
  · omega

end ZeroBytes

section Search

variable {data : List UInt8}

/-- The first start code from `p` on that does not end the data, else the end. -/
def nextCode (data : List UInt8) (p : Nat) : Nat :=
  ((List.range' p (data.length - 3 - p)).find? (startCodeAt data)).getD data.length

theorem byte_loop_find (rounds p : Nat) :
    byteLoop data rounds p =
      match (List.range' p rounds).find? (startCodeAt data) with
      | some code => .error code
      | none => .ok (p + rounds) := by
  induction rounds generalizing p with
  | zero => rfl
  | succ rounds ih =>
      unfold byteLoop
      rw [List.range'_succ, List.find?_cons]
      cases startCodeAt data p with
      | true => rfl
      | false =>
          rw [if_neg Bool.false_ne_true, ih]
          dsimp only
          rw [Nat.add_right_comm, Nat.add_assoc]

theorem start_code_at_iff (p : Nat) :
    startCodeAt data p = true ↔
      byteAt data p = 0 ∧ byteAt data (p + 1) = 0 ∧ byteAt data (p + 2) = 1 := by
  unfold startCodeAt
  simp only [Bool.and_eq_true, decide_eq_true_eq, and_assoc]

/-- The comparisons are those for the four places of the word, in their order. -/
theorem code_in_word (p : Nat) :
    codeInWord data p = (List.range' p 4).find? (startCodeAt data) := by
  have first := @start_code_at_iff data p
  have second := @start_code_at_iff data (p + 1)
  have third := @start_code_at_iff data (p + 2)
  have fourth := @start_code_at_iff data (p + 3)
  change _ = [p, p + 1, p + 2, p + 3].find? (startCodeAt data)
  unfold codeInWord
  rw [if_congr (and_left_comm.trans first.symm) rfl rfl, if_congr second.symm rfl rfl,
    if_congr (and_left_comm.trans third.symm) rfl rfl, if_congr fourth.symm rfl rfl]
  simp only [List.find?_cons, List.find?_nil]
  cases startCodeAt data p <;> cases startCodeAt data (p + 1) <;>
    cases startCodeAt data (p + 2) <;> cases startCodeAt data (p + 3) <;> rfl

theorem no_code_in_word {p : Nat} (none : zeroByteBits (wordAt data p) = 0#32) :
    (List.range' p 4).find? (startCodeAt data) = .none := by
  rw [List.find?_eq_none]
  intro q member code
  obtain ⟨lane, bound, rfl⟩ := List.mem_range'.mp member
  rw [Nat.one_mul] at code
  exact word_zero_byte bound ((start_code_at_iff _).mp code).1 none

/-- What a loop that began at `p` has found, or that there is nothing up to where it stands. -/
def Scanned (data : List UInt8) (p : Nat) : Except Nat Nat → Prop
  | .error code => ∃ count, count ≤ data.length - 3 - p ∧
      (List.range' p count).find? (startCodeAt data) = some code
  | .ok stands => p ≤ stands ∧ (List.range' p (stands - p)).find? (startCodeAt data) = none

/-- A search without a result up to `between` is one from there on. -/
theorem find_from {p between : Nat} (ordered : p ≤ between)
    (nothing : (List.range' p (between - p)).find? (startCodeAt data) = none) (count : Nat) :
    (List.range' p (between - p + count)).find? (startCodeAt data) =
      (List.range' between count).find? (startCodeAt data) := by
  rw [← List.range'_append_1, List.find?_append, nothing, Option.none_or,
    Nat.add_sub_cancel' ordered]

/-- A loop that goes on where another stands. -/
theorem scanned_trans {p between : Nat} {found : Except Nat Nat}
    (before : Scanned data p (.ok between)) (after : Scanned data between found) :
    Scanned data p found := by
  obtain ⟨ordered, nothing⟩ := before
  cases found with
  | error code =>
      obtain ⟨count, bound, here⟩ := after
      have member := List.mem_range'_1.mp (List.mem_of_find?_eq_some here)
      refine ⟨between - p + count, by omega, ?_⟩
      rw [find_from ordered nothing]
      exact here
  | ok stands =>
      obtain ⟨ordered', nothing'⟩ := after
      refine ⟨Nat.le_trans ordered ordered', ?_⟩
      rw [show stands - p = between - p + (stands - between) by omega, find_from ordered nothing]
      exact nothing'

theorem byte_loop_scanned {rounds p : Nat} (bound : rounds ≤ data.length - 3 - p) :
    Scanned data p (byteLoop data rounds p) := by
  rw [byte_loop_find]
  cases found : (List.range' p rounds).find? (startCodeAt data) with
  | some code => exact ⟨rounds, bound, found⟩
  | none =>
      refine ⟨Nat.le_add_right _ _, ?_⟩
      rw [Nat.add_sub_cancel_left]
      exact found

theorem word_loop_scanned (rounds p : Nat) : Scanned data p (wordLoop data rounds p) := by
  have stays : Scanned data p (.ok p) := by
    refine ⟨Nat.le_refl _, ?_⟩
    rw [Nat.sub_self]
    rfl
  induction rounds generalizing p with
  | zero => exact stays
  | succ rounds ih =>
      have further : (List.range' p 4).find? (startCodeAt data) = none →
          Scanned data p (wordLoop data rounds (p + 4)) := by
        intro nothing
        apply scanned_trans ⟨Nat.le_add_right p 4, by rwa [Nat.add_sub_cancel_left]⟩
        apply ih
        refine ⟨Nat.le_refl _, ?_⟩
        rw [Nat.sub_self]
        rfl
      unfold wordLoop
      split_ifs with inside zero
      · rw [code_in_word]
        cases found : (List.range' p 4).find? (startCodeAt data) with
        | some code => exact ⟨4, by omega, found⟩
        | none => exact further found
      · exact further (no_code_in_word (by simpa using zero))
      · exact stays

theorem scanned_bind {p : Nat} {first : Except Nat Nat} {second : Nat → Except Nat Nat}
    (before : Scanned data p first) (after : ∀ q, Scanned data q (second q)) :
    Scanned data p (first >>= second) := by
  cases first with
  | error code => exact before
  | ok between => exact scanned_trans before (after between)

theorem bind_stands {first : Except Nat Nat} {second : Nat → Except Nat Nat} {stands : Nat}
    (result : first >>= second = .ok stands) : ∃ between, second between = .ok stands := by
  cases first with
  | error code => contradiction
  | ok between => exact ⟨between, result⟩

theorem byte_loop_ok {rounds p stands : Nat} (result : byteLoop data rounds p = .ok stands) :
    stands = p + rounds := by
  rw [byte_loop_find] at result
  split at result
  · contradiction
  · exact (Except.ok.inj result).symm

/-- The three loops find the first start code, wherever the words lie. -/
theorem ff_avc_find_startcode (address p : Nat) :
    ffAvcFindStartcodeInternal data address p = nextCode data p := by
  let last := fun worded => byteLoop data (data.length - 3 - worded) worded
  let aligned := byteLoop data (min (p + 4 - (address + p) % 4) (data.length - 3) - p) p
  have whole : Scanned data p (aligned >>= fun start => wordLoop data data.length start >>= last) := by
    apply scanned_bind
    · exact byte_loop_scanned (by omega)
    · intro start
      apply scanned_bind (word_loop_scanned _ start)
      intro worded
      exact byte_loop_scanned (Nat.le_refl _)
  change (match aligned >>= fun start => wordLoop data data.length start >>= last with
    | .error code => code
    | .ok _ => data.length) = _
  unfold nextCode
  cases result : aligned >>= fun start => wordLoop data data.length start >>= last with
  | error code =>
      rw [result] at whole
      obtain ⟨count, bound, found⟩ := whole
      obtain ⟨rest, parts⟩ := Nat.exists_eq_add_of_le bound
      rw [parts, ← List.range'_append_1, List.find?_append, found]
      rfl
  | ok stands =>
      rw [result] at whole
      obtain ⟨ordered, nothing⟩ := whole
      have reached : data.length - 3 ≤ stands := by
        obtain ⟨start, more⟩ := bind_stands result
        obtain ⟨worded, done⟩ := bind_stands more
        have ends := byte_loop_ok done
        omega
      have within : (List.range' p (data.length - 3 - p)).find? (startCodeAt data) = none := by
        rw [List.find?_eq_none] at nothing ⊢
        intro q member
        apply nothing
        rw [List.mem_range'_1] at member ⊢
        omega
      rw [within]
      rfl

end Search

section Units

variable (data : List UInt8)

/-- Where the unit that begins at `start` ends: at the next start code, with the
zero byte in front of it if there is one. -/
def unitEnd (start : Nat) : Nat :=
  let code := nextCode data start
  if start < code ∧ code < data.length ∧ byteAt data (code - 1) = 0 then code - 1 else code

/-- The units behind a place; each begins behind the first byte that is not zero. -/
def unitsFrom : Nat → Nat → List (List UInt8)
  | 0, _ => []
  | rounds + 1, place =>
      let start := behindZeros data place
      if start = data.length then []
      else bytesFrom data start (unitEnd data start - start) :: unitsFrom rounds (unitEnd data start)

def nalUnits : List (List UInt8) := unitsFrom data (data.length + 1) (unitEnd data 0)

def unitType (unit : List UInt8) : UInt8 := unit.headD 0 &&& 0x1f

def lastOfType (type : UInt8) (units : List (List UInt8)) : Option (List UInt8) :=
  (units.filter fun unit => unitType unit = type).getLast?

end Units

section Units

variable {data : List UInt8}

theorem find_startcode (address p : Nat) : mgwAvcFindStartcode data address p = unitEnd data p := by
  unfold mgwAvcFindStartcode unitEnd
  rw [ff_avc_find_startcode]

theorem next_code_cases (p : Nat) :
    nextCode data p = data.length ∨
      (p ≤ nextCode data p ∧ nextCode data p + 3 < data.length ∧
        startCodeAt data (nextCode data p) = true) := by
  unfold nextCode
  cases found : (List.range' p (data.length - 3 - p)).find? (startCodeAt data) with
  | none => exact Or.inl rfl
  | some code =>
      have member := List.mem_range'_1.mp (List.mem_of_find?_eq_some found)
      refine Or.inr ⟨member.1, ?_, List.find?_some found⟩
      rw [Option.getD_some]
      omega

theorem unit_end_bounds {start : Nat} (inside : start ≤ data.length) :
    start ≤ unitEnd data start ∧ unitEnd data start ≤ data.length := by
  have code := @next_code_cases data start
  unfold unitEnd
  dsimp only
  split_ifs <;> omega

/-- An empty unit has the type of the zero byte behind it. -/
theorem unit_end_zero {start : Nat} (inside : start < data.length)
    (empty : unitEnd data start = start) : byteAt data start = 0 := by
  have code := @next_code_cases data start
  unfold unitEnd at empty
  dsimp only at empty
  split_ifs at empty with back
  · rw [← empty]
    exact back.2.2
  · rcases code with atEnd | ⟨-, -, here⟩
    · omega
    · rw [empty] at here
      exact ((start_code_at_iff start).mp here).1

theorem skip_zeros_bounds (rounds place : Nat) :
    place ≤ skipZeros data rounds place ∧ skipZeros data rounds place ≤ place + rounds ∧
      (rounds ≠ 0 → place < skipZeros data rounds place) := by
  induction rounds generalizing place with
  | zero => simp [skipZeros]
  | succ rounds ih =>
      have later := ih (place + 1)
      unfold skipZeros
      split_ifs <;> omega

theorem behind_zeros_bounds {place : Nat} (inside : place ≤ data.length) :
    behindZeros data place ≤ data.length ∧
      (place < data.length → place < behindZeros data place) ∧ place ≤ behindZeros data place := by
  have bounds := @skip_zeros_bounds data (data.length - place) place
  unfold behindZeros
  refine ⟨by omega, fun before => bounds.2.2 (by omega), bounds.1⟩

theorem bytes_from_length {start size : Nat} (inside : start + size ≤ data.length) :
    (bytesFrom data start size).length = size := by
  unfold bytesFrom
  rw [List.length_take, List.length_drop]
  omega

theorem bytes_from_type {start : Nat} (inside : start < data.length) :
    unitType (bytesFrom data start (unitEnd data start - start)) = byteAt data start &&& 0x1f := by
  have bounds := @unit_end_bounds data _ (Nat.le_of_lt inside)
  unfold unitType
  rcases Nat.eq_or_lt_of_le bounds.1 with empty | longer
  · rw [unit_end_zero inside empty.symm, ← empty, Nat.sub_self]
    rfl
  · obtain ⟨size, sizeDef⟩ : ∃ size, unitEnd data start - start = size + 1 :=
      ⟨unitEnd data start - start - 1, by omega⟩
    rw [sizeDef]
    unfold bytesFrom byteAt
    rw [List.drop_eq_getElem_cons inside, List.take_succ_cons, List.headD_cons,
      List.getD_eq_getElem?_getD, List.getElem?_eq_getElem inside, Option.getD_some]

theorem last_of_type_cons (type : UInt8) (unit : List UInt8) (units : List (List UInt8)) :
    lastOfType type (unit :: units) =
      (lastOfType type units).or (if unitType unit = type then some unit else none) := by
  unfold lastOfType
  by_cases same : unitType unit = type
  · rw [List.filter_cons_of_pos (by simpa using same), List.getLast?_cons, if_pos same]
    cases (units.filter fun unit => unitType unit = type).getLast? <;> rfl
  · rw [List.filter_cons_of_neg (by simpa using same), if_neg same, Option.or_none]

/-- Offset and size of a unit of the data that is the given one. -/
def Stands (data : List UInt8) (found : Option (Nat × Nat)) (unit : Option (List UInt8)) : Prop :=
  match found, unit with
  | none, none => True
  | some (offset, size), some bytes =>
      offset + size ≤ data.length ∧ bytesFrom data offset size = bytes
  | _, _ => False

theorem stands_none {found : Option (Nat × Nat)} (stands : Stands data found none) :
    found = none := by
  cases found with
  | none => rfl
  | some place => exact stands.elim

theorem stands_some {found : Option (Nat × Nat)} {bytes : List UInt8}
    (stands : Stands data found (some bytes)) :
    ∃ offset size, found = some (offset, size) ∧ offset + size ≤ data.length ∧
      bytesFrom data offset size = bytes := by
  cases found with
  | none => exact stands.elim
  | some place => exact ⟨place.1, place.2, rfl, stands⟩

/-- In enough rounds the loop comes to its end, with the last unit of each type. -/
theorem scan_loop_ends (address : Nat) {rounds place : Nat} (inside : place ≤ data.length)
    (enough : data.length - place < rounds) {sets : ParameterSets}
    {sps pps : Option (List UInt8)} (spsStands : Stands data sets.sps sps)
    (ppsStands : Stands data sets.pps pps) :
    ∃ final, scanLoop data address rounds place sets = some final ∧
      Stands data final.sps ((lastOfType 7 (unitsFrom data rounds place)).or sps) ∧
      Stands data final.pps ((lastOfType 8 (unitsFrom data rounds place)).or pps) := by
  induction rounds generalizing place sets sps pps with
  | zero => omega
  | succ rounds ih =>
      have start := behind_zeros_bounds inside
      unfold scanLoop unitsFrom
      dsimp only
      by_cases done : behindZeros data place = data.length
      · rw [if_pos done, if_pos done]
        exact ⟨sets, rfl, spsStands, ppsStands⟩
      · rw [if_neg done, if_neg done]
        have before : behindZeros data place < data.length := by omega
        have moved : place < behindZeros data place := by
          rcases Nat.eq_or_lt_of_le inside with atEnd | earlier
          · omega
          · exact start.2.1 earlier
        have bounds := @unit_end_bounds data _ (Nat.le_of_lt before)
        have type := bytes_from_type before
        obtain ⟨unit, unitDef⟩ : ∃ unit, unit = bytesFrom data (behindZeros data place)
          (unitEnd data (behindZeros data place) - behindZeros data place) := ⟨_, rfl⟩
        have stands : Stands data (some (behindZeros data place,
            unitEnd data (behindZeros data place) - behindZeros data place)) (some unit) :=
          ⟨by omega, unitDef.symm⟩
        rw [find_startcode, ← unitDef, last_of_type_cons, last_of_type_cons, Option.or_assoc,
          Option.or_assoc, unitDef, type, ← unitDef]
        apply ih bounds.2 (by omega)
        · by_cases seven : byteAt data (behindZeros data place) &&& 0x1f = 0x7
          · rw [if_pos seven, if_pos seven, Option.some_or]
            exact stands
          · rw [if_neg seven, if_neg seven, Option.none_or]
            split_ifs <;> exact spsStands
        · by_cases eight : byteAt data (behindZeros data place) &&& 0x1f = 0x8
          · rw [if_pos eight, if_neg (by rw [eight]; decide), if_pos eight, Option.some_or]
            exact stands
          · rw [if_neg eight, if_neg eight, Option.none_or]
            split_ifs <;> exact ppsStands

theorem last_of_type_none (type : UInt8) (units : List (List UInt8)) :
    lastOfType type units = none ↔ ∀ unit ∈ units, unitType unit ≠ type := by
  unfold lastOfType
  rw [List.getLast?_eq_none_iff, List.filter_eq_nil_iff]
  simp only [decide_eq_true_eq, ne_eq]

/-- The loop of `get_avc_sps_pps` ends with the last unit of type 7 and that of type 8. -/
theorem parameter_sets_found (data : List UInt8) (address : Nat) :
    ∃ sets, getAvcSpsPps data address = some sets ∧
      Stands data sets.sps (lastOfType 7 (nalUnits data)) ∧
      Stands data sets.pps (lastOfType 8 (nalUnits data)) := by
  have ends := @scan_loop_ends data address (data.length + 1) (unitEnd data 0)
    (unit_end_bounds (Nat.zero_le _)).2 (by omega) { sps := none, pps := none } none none trivial trivial
  rw [Option.or_none, Option.or_none] at ends
  unfold getAvcSpsPps
  rw [find_startcode]
  exact ends

end Units

section Header

open AvcRecord BigEndian

/-- What the record of an SPS and a PPS says. -/
structure Describes (record : Record) (sps pps : List UInt8) : Prop where
  profile : sps[1]? = some record.AVCProfileIndication
  compatibility : sps[2]? = some record.profile_compatibility
  level : sps[3]? = some record.AVCLevelIndication
  lengthSize : record.lengthSizeMinusOne = 3
  sps : record.sequenceParameterSets = [sps]
  pps : record.pictureParameterSets = [pps]

/-- A unit of one of the types is missing, or the last SPS is too short. -/
def NoRecord (data : List UInt8) : Prop :=
  (∀ unit ∈ nalUnits data, unitType unit ≠ 7) ∨ (∀ unit ∈ nalUnits data, unitType unit ≠ 8) ∨
    ∃ sps, lastOfType 7 (nalUnits data) = some sps ∧ sps.length < 4

/-- The call ends; it returns 0 where there is no record, and otherwise a record of
the last SPS and the last PPS. -/
def Faithful (data : List UInt8) (address : Nat) : Prop :=
  ∃ result, mgwParseAvcHeader data address = some result ∧
    (result.ret = 0 ↔ NoRecord data) ∧
    (result.ret ≠ 0 → ∃ header record sps pps, result.header = some header ∧
      header.length = result.ret ∧ lastOfType 7 (nalUnits data) = some sps ∧
      lastOfType 8 (nalUnits data) = some pps ∧ parse header = some record ∧
      Describes record sps pps)

/-- Where there is a record, the profile is one without a tail and the lengths have 16 bits. -/
def RecordFits (data : List UInt8) : Prop :=
  ∀ sps pps, lastOfType 7 (nalUnits data) = some sps → lastOfType 8 (nalUnits data) = some pps →
    4 ≤ sps.length →
      hasExtension (sps.getD 1 0) = false ∧ sps.length < 65536 ∧ pps.length < 65536

/-- The record without a tail. -/
def plainRecord (sps pps : List UInt8) : Record where
  AVCProfileIndication := sps.getD 1 0
  profile_compatibility := sps.getD 2 0
  AVCLevelIndication := sps.getD 3 0
  lengthSizeMinusOne := 3
  sequenceParameterSets := [sps]
  pictureParameterSets := [pps]
  extension := none

theorem written_length (count : Nat) : beBytes 2 (count % 65536) = beBytes 2 count := by
  apply be_bytes_congr
  omega

theorem write_header_bytes {sps : List UInt8} (long : 4 ≤ sps.length) (pps : List UInt8) :
    (writeHeader sps pps).bytes = encode (plainRecord sps pps) := by
  obtain ⟨first, profile, compatibility, level, rest, rfl⟩ :
      ∃ first profile compatibility level rest,
        sps = first :: profile :: compatibility :: level :: rest := by
    match sps, long with
    | first :: profile :: compatibility :: level :: rest, _ =>
        exact ⟨first, profile, compatibility, level, rest, rfl⟩
  unfold writeHeader
  simp only [s_write_bytes, s_wb16_bytes, s_w8_bytes, written_length]
  simp [Serializer.init, encode, plainRecord, encodeUnits, encodeUnit, encodeTail, beBytes]

theorem plain_record_describes {sps : List UInt8} (long : 4 ≤ sps.length) (pps : List UInt8) :
    Describes (plainRecord sps pps) sps pps where
  profile := by simp [plainRecord, List.getElem?_eq_getElem (show 1 < sps.length by omega)]
  compatibility := by simp [plainRecord, List.getElem?_eq_getElem (show 2 < sps.length by omega)]
  level := by simp [plainRecord, List.getElem?_eq_getElem (show 3 < sps.length by omega)]
  lengthSize := rfl
  sps := rfl
  pps := rfl

/-- The result, in terms of the units. -/
theorem header_result (data : List UInt8) (address : Nat) :
    mgwParseAvcHeader data address = some
      (match lastOfType 7 (nalUnits data), lastOfType 8 (nalUnits data) with
      | some sps, some pps =>
          if sps.length < 4 then { ret := 0, header := none }
          else
            { ret := (writeHeader sps pps).bytes.length
              header := some (writeHeader sps pps).bytes }
      | _, _ => { ret := 0, header := none }) := by
  obtain ⟨sets, found, spsStands, ppsStands⟩ := parameter_sets_found data address
  unfold mgwParseAvcHeader
  rw [found, Option.map_some]
  cases seven : lastOfType 7 (nalUnits data) with
  | none =>
      rw [seven] at spsStands
      rw [stands_none spsStands]
  | some sps =>
      rw [seven] at spsStands
      obtain ⟨spsOffset, spsSize, spsFound, spsInside, spsBytes⟩ := stands_some spsStands
      rw [spsFound]
      cases eight : lastOfType 8 (nalUnits data) with
      | none =>
          rw [eight] at ppsStands
          rw [stands_none ppsStands]
      | some pps =>
          rw [eight] at ppsStands
          obtain ⟨ppsOffset, ppsSize, ppsFound, ppsInside, ppsBytes⟩ := stands_some ppsStands
          have size := bytes_from_length spsInside
          rw [spsBytes] at size
          dsimp only
          rw [ppsFound, size]
          dsimp only
          rw [spsBytes, ppsBytes]
          rfl

theorem no_record_iff {data sps pps : List UInt8} (seven : lastOfType 7 (nalUnits data) = some sps)
    (eight : lastOfType 8 (nalUnits data) = some pps) : NoRecord data ↔ sps.length < 4 := by
  unfold NoRecord
  rw [← last_of_type_none, ← last_of_type_none, seven, eight]
  simp

/-- The header of an SPS that is long enough is a record of the two sets if and only if
the profile has no tail and both lengths fit. -/
theorem record_iff {sps : List UInt8} (long : 4 ≤ sps.length) (pps : List UInt8) :
    (∃ record, parse (writeHeader sps pps).bytes = some record ∧ Describes record sps pps) ↔
      hasExtension (sps.getD 1 0) = false ∧ sps.length < 65536 ∧ pps.length < 65536 := by
  rw [write_header_bytes long]
  constructor
  · rintro ⟨record, parsed, describes⟩
    obtain ⟨wellFormed, same⟩ := encode_of_parse parsed
    have profile : sps.getD 1 0 = record.AVCProfileIndication := by
      rw [List.getD_eq_getElem?_getD, describes.profile, Option.getD_some]
    have spsFits := wellFormed.sps sps (by rw [describes.sps]; exact List.mem_singleton_self sps)
    have ppsFits := wellFormed.pps pps (by rw [describes.pps]; exact List.mem_singleton_self pps)
    refine ⟨?_, spsFits, ppsFits⟩
    -- a tail would make the record longer than what has been written
    have lengths := congrArg List.length same
    cases extension : record.extension with
    | none => rw [profile, ← wellFormed.tail, extension, Option.isSome_none]
    | some extended =>
        simp [encode, plainRecord, describes.sps, describes.pps, extension, encodeTail,
          encodeExtension] at lengths
  · rintro ⟨profile, spsFits, ppsFits⟩
    refine ⟨plainRecord sps pps, parse_encode ?_, plain_record_describes long pps⟩
    exact
      { lengthSize := by simp [plainRecord]
        spsCount := by simp [plainRecord]
        ppsCount := by simp [plainRecord]
        sps := by simpa [plainRecord] using spsFits
        pps := by simpa [plainRecord] using ppsFits
        tail := profile.symm
        extension := by simp [plainRecord] }

theorem write_header_length {sps : List UInt8} (long : 4 ≤ sps.length) (pps : List UInt8) :
    (writeHeader sps pps).bytes.length ≠ 0 := by
  rw [write_header_bytes long]
  simp [encode]

/-- Without one of the sets, or with an SPS that is too short, 0 is returned and nothing
is to be written. -/
theorem no_record_faithful {data : List UInt8} {address : Nat}
    (result : mgwParseAvcHeader data address = some { ret := 0, header := none })
    (missing : NoRecord data) : Faithful data address :=
  ⟨_, result, iff_of_true rfl missing, fun impossible => absurd rfl impossible⟩

/-- Where a header is written, it is faithful if and only if it is a record of the two sets. -/
theorem written_faithful_iff {data sps pps : List UInt8} {address : Nat}
    (result : mgwParseAvcHeader data address = some
      { ret := (writeHeader sps pps).bytes.length
        header := some (writeHeader sps pps).bytes })
    (seven : lastOfType 7 (nalUnits data) = some sps)
    (eight : lastOfType 8 (nalUnits data) = some pps) (long : 4 ≤ sps.length) :
    Faithful data address ↔
      ∃ record, parse (writeHeader sps pps).bytes = some record ∧ Describes record sps pps := by
  have positive := write_header_length long pps
  unfold Faithful
  rw [result, seven, eight]
  constructor
  · intro faithful
    obtain ⟨found, same, -, described⟩ := faithful
    rw [← Option.some.inj same] at described
    obtain ⟨header, record, sps', pps', written, -, equalSps, equalPps, parsed, describes⟩ :=
      described positive
    rw [← Option.some.inj written] at parsed
    rw [← Option.some.inj equalSps, ← Option.some.inj equalPps] at describes
    exact ⟨record, parsed, describes⟩
  · intro recorded
    obtain ⟨record, parsed, describes⟩ := recorded
    refine ⟨_, rfl, iff_of_false positive ?_, ?_⟩
    · intro none
      exact Nat.not_lt_of_le long ((no_record_iff seven eight).mp none)
    · intro _
      exact ⟨_, record, sps, pps, rfl, rfl, rfl, rfl, parsed, describes⟩

/-- For every packet, wherever it lies: the header is faithful if and only if the
record that there is fits. -/
theorem avc_header_faithful_iff (data : List UInt8) (address : Nat) :
    Faithful data address ↔ RecordFits data := by
  have result := header_result data address
  unfold RecordFits
  cases seven : lastOfType 7 (nalUnits data) with
  | none =>
      rw [seven] at result
      apply iff_of_true
      · exact no_record_faithful result (Or.inl ((last_of_type_none 7 _).mp seven))
      · intro sps pps impossible
        contradiction
  | some sps =>
      cases eight : lastOfType 8 (nalUnits data) with
      | none =>
          rw [seven, eight] at result
          apply iff_of_true
          · exact no_record_faithful result (Or.inr (Or.inl ((last_of_type_none 8 _).mp eight)))
          · intro sps pps _ impossible
            contradiction
      | some pps =>
          rw [seven, eight] at result
          dsimp only at result
          by_cases short : sps.length < 4
          · rw [if_pos short] at result
            apply iff_of_true
            · exact no_record_faithful result ((no_record_iff seven eight).mpr short)
            · intro sps' pps' same _ long
              rw [← Option.some.inj same] at long
              omega
          · have long : 4 ≤ sps.length := Nat.le_of_not_lt short
            rw [if_neg short] at result
            rw [written_faithful_iff result seven eight long, record_iff long pps]
            constructor
            · intro fits sps' pps' sameSps samePps _
              rw [← Option.some.inj sameSps, ← Option.some.inj samePps]
              exact fits
            · exact fun fits => fits sps pps rfl rfl long

/-- A key frame of the high profile, 100, up to its parameter sets. -/
def highProfile : List UInt8 := [0, 0, 0, 1, 0x67, 100, 0, 31, 0xac, 0, 0, 0, 1, 0x68, 0xee, 0x3c, 0x80]

def highProfileHeader : List UInt8 :=
  [1, 100, 0, 31, 0xff, 0xe1, 0, 5, 0x67, 100, 0, 31, 0xac, 1, 0, 4, 0x68, 0xee, 0x3c, 0x80]

/-- No tail is written: the record ends where its chroma format should stand. -/
theorem high_profile_without_tail :
    (mgwParseAvcHeader highProfile 0).bind HeaderResult.header = some highProfileHeader ∧
      parse highProfileHeader = none ∧ ¬Faithful highProfile 0 := by
  have written : (mgwParseAvcHeader highProfile 0).bind HeaderResult.header =
      some highProfileHeader := by decide
  have returned : (mgwParseAvcHeader highProfile 0).map HeaderResult.ret = some 20 := by decide
  have unread : parse highProfileHeader = none := by decide
  refine ⟨written, unread, ?_⟩
  rintro ⟨result, found, -, described⟩
  rw [found] at written returned
  change result.header = some highProfileHeader at written
  have positive : result.ret ≠ 0 := by
    rw [Option.some.inj returned]
    decide
  obtain ⟨header, record, sps, pps, same, -, -, -, parsed, -⟩ := described positive
  rw [Option.some.inj (same.symm.trans written), unread] at parsed
  exact Option.some_ne_none record parsed.symm

end Header

end Mgw.AvcHeader

import Mgw.AvcScan

/-!
# Which packets are converted whole

Both paths put one length in front of all that follows. The payload is the list
of units if only one unit is to be sent.
-/

namespace Mgw.AvcPacket

open ByteArea WordArithmetic AnnexB

set_option autoImplicit false

def isKeyUnit (unit : CodedUnit) : Bool := unit.nal.unitType = 0x5

/-- The units from the first one of type 5 on. -/
def fromKeyUnit (units : List CodedUnit) : List CodedUnit :=
  units.dropWhile fun unit => !isKeyUnit unit

/-- The units that are to be sent of a packet. -/
def unitsToSend (keyframe : Bool) (units : List CodedUnit) : List CodedUnit :=
  if keyframe then fromKeyUnit units else units

/-- The packet in the memory of the sender is that byte stream. -/
structure Delivered (memory : Bytes) (packet : EncoderPacket) (units : List CodedUnit) : Prop where
  video : packet.type = .video
  header : MGW_AVCC_HEADER_SIZE ≤ packet.data
  fits : packet.size ≤ MGW_MAX_PACKET_SIZE
  some : units ≠ []
  bytes : takeBytes (advance memory packet.data) packet.size = annexB units
  key : packet.keyframe = true → ∃ unit ∈ units, isKeyUnit unit = true

/-- The payload handed over is the list of these units. -/
def ConvertsTo (handed : Option (List UInt8)) (units : List CodedUnit) : Prop :=
  ∃ payload, handed = some payload ∧ lengthPrefixed payload = some (nalBytes units)

section Payload

variable {memory : Bytes} {packet : EncoderPacket} {units : List CodedUnit} {address size : Nat}

/-- The length in front of the bytes it replaces the start code of. -/
theorem handed_over_prefixed (bytes : List UInt8) (holds : Holds memory (address + 4) bytes) :
    takeBytes (advance (putBe32 memory address bytes.length) address) (4 + bytes.length) =
      be32 bytes.length ++ bytes := by
  rw [take_bytes_add]
  congr 1
  · have word : takeBytes (fun index => (be32 bytes.length).getD index 0) 4 = be32 bytes.length :=
      rfl
    rw [← word]
    apply take_bytes_congr
    intro index bound
    rw [advance_apply, putBe32]
    exact copy_in_inside _ _ _ _ _ bound
  · rw [← holds, take_bytes_length, advance_advance]
    apply take_bytes_congr
    intro index bound
    rw [advance_apply, putBe32]
    exact copy_in_outside _ _ _ _ _ (Or.inr (Nat.le_add_right _ _))

/-- One unit made of several is not the list of them. -/
theorem single_converts_iff {unit : CodedUnit} {after : List CodedUnit}
    (bound : (unit.nal.bytes ++ annexB after).length < 4294967296) {handed : Option (List UInt8)}
    (result : handed = some (be32 (unit.nal.bytes ++ annexB after).length ++
      (unit.nal.bytes ++ annexB after))) :
    ConvertsTo handed (unit :: after) ↔ after = [] := by
  constructor
  · rintro ⟨payload, same, read⟩
    rw [result] at same
    rw [← Option.some.inj same, length_prefixed_single bound] at read
    have counts := congrArg List.length (Option.some.inj read)
    rw [nalBytes, List.length_map, List.length_cons, List.length_cons] at counts
    exact List.eq_nil_of_length_eq_zero (by simpa using counts.symm)
  · intro alone
    refine ⟨_, result, ?_⟩
    rw [length_prefixed_single bound, alone, annex_b_nil, List.append_nil]
    rfl

/-- A payload of another length is not the list of units. -/
theorem length_not_converts {payload : List UInt8}
    (other : payload.length < 5 ∨ 2 * (annexB units).length < payload.length) (some : units ≠ []) :
    ¬ConvertsTo (Option.some payload) units := by
  rintro ⟨read, same, converted⟩
  rw [← Option.some.inj same] at converted
  have length := read_units_length converted
  have upper := nal_bytes_le units
  obtain ⟨unit, rest, shape⟩ := List.exists_cons_of_ne_nil some
  have positive := unit.nal.length_pos
  rw [shape] at length upper other
  simp only [nalBytes, List.map_cons, List.sum_cons] at length upper
  omega

end Payload

section Plain

variable {memory : Bytes} {packet : EncoderPacket} {units : List CodedUnit}

theorem delivered_holds (delivered : Delivered memory packet units) :
    packet.size = (annexB units).length ∧ Holds memory packet.data (annexB units) := by
  have size := congrArg List.length delivered.bytes
  rw [take_bytes_length] at size
  refine ⟨size, ?_⟩
  rw [Holds, ← size]
  exact delivered.bytes

/-- `send_packet` replaces the first start code by the length of all that follows. -/
theorem send_packet_payload {unit : CodedUnit} {after : List CodedUnit}
    (delivered : Delivered memory packet (unit :: after)) :
    sendPacket memory packet = some (be32 (unit.nal.bytes ++ annexB after).length ++
      (unit.nal.bytes ++ annexB after)) := by
  obtain ⟨size, holds⟩ := delivered_holds delivered
  have header := delivered.header
  have fits := delivered.fits
  simp only [MGW_AVCC_HEADER_SIZE, MGW_MAX_PACKET_SIZE] at header fits
  rw [annex_b_cons, CodedUnit.bytes, List.append_assoc] at holds size
  obtain ⟨code, rest⟩ := holds_append holds
  have read := start_code_read code
  rw [List.length_append] at size
  rw [sendPacket, delivered.video]
  cases long : unit.long with
  | false =>
      rw [long] at read rest size
      have first : packet.data - 1 + 4 = packet.data + (startCode false).length := by
        simp only [startCode, Bool.false_eq_true, if_false, List.length_cons, List.length_nil]
        omega
      have length : subSize packet.size 3 = (unit.nal.bytes ++ annexB after).length := by
        simp only [startCode, Bool.false_eq_true, if_false, List.length_cons, List.length_nil] at size
        rw [sub_size_of_le (by omega) (by simp only [sizeRange]; omega)]
        omega
      have whole : addSize packet.size 1 = 4 + (unit.nal.bytes ++ annexB after).length := by
        simp only [startCode, Bool.false_eq_true, if_false, List.length_cons, List.length_nil] at size
        simp only [addSize, sizeRange]
        omega
      rw [← first] at rest
      simp only [read, startCode, Bool.false_eq_true, if_false, List.length_cons, List.length_nil,
        Nat.zero_add, Nat.reduceAdd]
      rw [handedOver, length, whole, handed_over_prefixed _ rest]
  | true =>
      rw [long] at read rest size
      have length : subSize packet.size 4 = (unit.nal.bytes ++ annexB after).length := by
        simp only [startCode, if_true, List.length_cons, List.length_nil] at size
        rw [sub_size_of_le (by omega) (by simp only [sizeRange]; omega)]
        omega
      have whole : packet.size = 4 + (unit.nal.bytes ++ annexB after).length := size
      simp only [read, startCode, if_true, List.length_cons, List.length_nil, Nat.zero_add,
        Nat.reduceAdd]
      rw [handedOver, length, whole, handed_over_prefixed _ rest]

end Plain

section KeySearch

variable {memory : Bytes} {data size : Nat}

/-- The search finds the first unit of type 5 of those that lie ahead. -/
theorem loop_finds {before after : List CodedUnit} {unit : CodedUnit} (rounds p : Nat)
    (holds : Holds memory (p + 1) (annexB (before ++ unit :: after)))
    (enough : (annexB (before ++ unit :: after)).length ≤ rounds)
    (others : ∀ other ∈ before, other.nal.unitType ≠ 0x5) (key : unit.nal.unitType = 0x5) :
    getNalLoop memory data size 0x5 rounds p none =
      (subSize size (p + 1 + (annexB before).length + (startCode unit.long).length - data),
        some (p + 1 + (annexB before).length + (startCode unit.long).length)) := by
  have parts : annexB (before ++ unit :: after) =
      annexB before ++ (unit.bytes ++ annexB after) := List.flatMap_append
  rw [parts] at holds enough
  obtain ⟨first, rest⟩ := holds_append holds
  obtain ⟨found, -⟩ := holds_append rest
  have length := coded_unit_length unit
  have positive := unit.nal.length_pos
  rw [List.length_append, List.length_append] at enough
  obtain ⟨remaining, -, lower, result⟩ :=
    @units_skipped memory data size before rounds p first (by omega) others
  obtain ⟨more, moreDef⟩ : ∃ more, remaining = more + 1 := ⟨remaining - 1, by omega⟩
  rw [Nat.add_right_comm] at found
  rw [result, moreDef, unit_found more found key, Nat.add_right_comm p]

/-- The last three bytes of a long start code are a short one. -/
theorem shorter_code {unit : CodedUnit} (holds : Holds memory data unit.bytes)
    (long : unit.long = true) :
    Holds memory (data + 1) (CodedUnit.bytes ⟨false, unit.nal⟩) := by
  rw [CodedUnit.bytes, long] at holds
  exact (@holds_append memory data [0] _ holds).2

/-- Behind the beginning of a unit with a short start code no other one begins. -/
theorem no_code_behind {nal : NalUnit} (holds : Holds memory data (CodedUnit.bytes ⟨false, nal⟩))
    {index : Nat} (bound : index < 2 + nal.bytes.length) :
    mgwAvcGetStartcodeLen memory (data + 1 + index) = none := by
  obtain ⟨code, inside⟩ := holds_append holds
  have third : memory (data + 2) = 1 := holds_byte code rfl
  have notZero : memory (data + 2) ≠ 0 := by
    rw [third]
    decide
  rcases index with _ | _ | index
  · rw [mgwAvcGetStartcodeLen, if_pos (Or.inr notZero)]
  · rw [mgwAvcGetStartcodeLen, if_pos (Or.inl notZero)]
  · have within : index < nal.bytes.length := by omega
    have same : data + 1 + (index + 2) = data + (startCode false).length + index := by
      change _ = data + 3 + index
      omega
    rw [same]
    exact no_code_inside inside within

/-- Behind a first unit that the search passes over. -/
theorem first_unit_passed {first : CodedUnit} {rest : List CodedUnit}
    (holds : Holds memory data (annexB (first :: rest)))
    (passed : first.long = false ∨ first.nal.unitType ≠ 0x5) :
    ∃ rounds, (annexB rest).length ≤ rounds ∧
      rounds ≤ (annexB (first :: rest)).length ∧
      getNalLoop memory data size 0x5 (annexB (first :: rest)).length data none =
        getNalLoop memory data size 0x5 rounds (data + first.bytes.length - 1) none := by
  rw [annex_b_cons] at holds
  obtain ⟨unit, -⟩ := holds_append holds
  have length := coded_unit_length first
  have positive := first.nal.length_pos
  rw [annex_b_cons, List.length_append, length]
  cases long : first.long with
  | false =>
      have code : (startCode false).length = 3 := rfl
      rw [CodedUnit.bytes, long] at unit
      refine ⟨1 + (annexB rest).length, by omega, by omega, ?_⟩
      have count : (startCode false).length + first.nal.bytes.length + (annexB rest).length =
          (2 + first.nal.bytes.length) + (1 + (annexB rest).length) := by omega
      rw [count, scan_skip _ _ _ fun _ bound => @no_code_behind memory data first.nal unit _ bound]
      congr 1
      omega
  | true =>
      have code : (startCode true).length = 4 := rfl
      have other := passed.resolve_left (by rw [long]; decide)
      refine ⟨4 + (annexB rest).length, by omega, by omega, ?_⟩
      have count : (startCode true).length + first.nal.bytes.length + (annexB rest).length =
          first.nal.bytes.length + (4 + (annexB rest).length) := by omega
      have shorter : (CodedUnit.bytes ⟨false, first.nal⟩).length = 3 + first.nal.bytes.length :=
        coded_unit_length _
      rw [count, @unit_skipped memory data size data ⟨false, first.nal⟩
        (4 + (annexB rest).length) (shorter_code unit long) other, shorter]
      congr 1
      omega

theorem get_keyframe_eq (positive : size ≠ 0) :
    mgwAvcGetKeyframe memory data size = getNalLoop memory data size 0x5 size data none := by
  rw [mgwAvcGetKeyframe, mgwAvcGetNal, if_neg positive]
  simp only [Nat.lt_irrefl, if_false]

/-- A first unit that is a key frame is found behind a long start code. -/
theorem first_key_found {unit : CodedUnit} {after : List CodedUnit}
    (holds : Holds memory data (annexB (unit :: after))) (long : unit.long = true)
    (key : unit.nal.unitType = 0x5) :
    getNalLoop memory data size 0x5 (annexB (unit :: after)).length data none =
      (subSize size (data + (startCode unit.long).length - data),
        some (data + (startCode unit.long).length)) := by
  rw [annex_b_cons] at holds
  obtain ⟨first, -⟩ := holds_append holds
  have positive := unit.nal.length_pos
  have length := coded_unit_length unit
  obtain ⟨more, moreDef⟩ : ∃ more, (annexB (unit :: after)).length = more + 1 := by
    refine ⟨(annexB (unit :: after)).length - 1, ?_⟩
    rw [annex_b_cons, List.length_append]
    omega
  rw [moreDef, @unit_found memory data size data ⟨false, unit.nal⟩ more (shorter_code first long) key,
    long]
  rfl

/-- A key frame behind a first unit that is passed over. -/
theorem later_key_found {first unit : CodedUnit} {before after : List CodedUnit}
    (holds : Holds memory data (annexB (first :: before ++ unit :: after)))
    (passed : first.long = false ∨ first.nal.unitType ≠ 0x5)
    (others : ∀ other ∈ before, other.nal.unitType ≠ 0x5) (key : unit.nal.unitType = 0x5) :
    getNalLoop memory data size 0x5 (annexB (first :: before ++ unit :: after)).length data none =
      (subSize size (data + (annexB (first :: before)).length +
          (startCode unit.long).length - data),
        some (data + (annexB (first :: before)).length + (startCode unit.long).length)) := by
  rw [List.cons_append] at holds ⊢
  obtain ⟨rounds, enough, -, behind⟩ := @first_unit_passed memory data size first
    (before ++ unit :: after) holds passed
  rw [annex_b_cons] at holds
  obtain ⟨-, rest⟩ := holds_append holds
  have length := coded_unit_length first
  have positive := first.nal.length_pos
  have next : data + first.bytes.length - 1 + 1 = data + first.bytes.length := by omega
  rw [← next] at rest
  rw [behind, loop_finds rounds _ rest enough others key, next, annex_b_cons first,
    List.length_append, ← Nat.add_assoc data]

/-- Where the search ends at a unit, the result is that unit with all that follows. -/
theorem keyframe_of_loop {before after : List CodedUnit} {unit : CodedUnit}
    (fits : (annexB (before ++ unit :: after)).length < sizeRange)
    (found : getNalLoop memory data (annexB (before ++ unit :: after)).length 0x5
        (annexB (before ++ unit :: after)).length data none =
      (subSize (annexB (before ++ unit :: after)).length
          (data + (annexB before).length + (startCode unit.long).length - data),
        some (data + (annexB before).length + (startCode unit.long).length))) :
    mgwAvcGetKeyframe memory data (annexB (before ++ unit :: after)).length =
      ((unit.nal.bytes ++ annexB after).length,
        some (data + (annexB before).length + (startCode unit.long).length)) := by
  have total := annex_b_split_length before unit after
  have positive := unit.nal.length_pos
  rw [List.length_append] at total
  rw [get_keyframe_eq (by omega), found, total,
    sub_size_of_le (by omega) (by rw [total] at fits; omega), List.length_append]
  congr 1
  omega

/-- The key frame is found, unless it is the first unit behind a short start code. -/
theorem keyframe_found {before after : List CodedUnit} {unit : CodedUnit}
    (holds : Holds memory data (annexB (before ++ unit :: after)))
    (fits : (annexB (before ++ unit :: after)).length < sizeRange)
    (others : ∀ other ∈ before, other.nal.unitType ≠ 0x5) (key : unit.nal.unitType = 0x5)
    (seen : before = [] → unit.long = true) :
    mgwAvcGetKeyframe memory data (annexB (before ++ unit :: after)).length =
      ((unit.nal.bytes ++ annexB after).length,
        some (data + (annexB before).length + (startCode unit.long).length)) := by
  apply keyframe_of_loop fits
  cases before with
  | nil => exact first_key_found holds (seen rfl) key
  | cons first earlier =>
      exact later_key_found holds (Or.inr (others first List.mem_cons_self))
        (fun other member => others other (List.mem_cons_of_mem _ member)) key

end KeySearch

section KeyFrame

variable {memory : Bytes} {packet : EncoderPacket} {units : List CodedUnit}

theorem send_key_frame_found {size data : Nat}
    (found : mgwAvcGetKeyframe memory packet.data packet.size = (size, some data))
    (positive : size ≠ 0) :
    sendKeyFrame memory packet =
      some (takeBytes (advance (putBe32 memory (data - 4) size) (data - 4)) (addSize size 4)) := by
  rw [sendKeyFrame, found]
  cases size with
  | zero => exact absurd rfl positive
  | succ size => rfl

/-- `send_key_frame` puts one length in front of all that follows from the key frame on. -/
theorem send_key_payload {after : List CodedUnit} {unit : CodedUnit} {data : Nat}
    (found : mgwAvcGetKeyframe memory packet.data packet.size =
      ((unit.nal.bytes ++ annexB after).length, some data))
    (behind : 4 ≤ data) (fits : packet.size ≤ MGW_MAX_PACKET_SIZE)
    (inside : (unit.nal.bytes ++ annexB after).length ≤ packet.size)
    (holds : Holds memory data (unit.nal.bytes ++ annexB after)) :
    sendKeyFrame memory packet = some (be32 (unit.nal.bytes ++ annexB after).length ++
      (unit.nal.bytes ++ annexB after)) := by
  have positive := unit.nal.length_pos
  have whole : addSize (unit.nal.bytes ++ annexB after).length 4 =
      4 + (unit.nal.bytes ++ annexB after).length := by
    simp only [MGW_MAX_PACKET_SIZE] at fits
    simp only [addSize, sizeRange]
    omega
  have front : data - 4 + 4 = data := by omega
  rw [send_key_frame_found found (by rw [List.length_append]; omega), whole,
    handed_over_prefixed _ (by rwa [front])]

/-- The units split at the first one of type 5. -/
theorem from_key_unit_split (some : ∃ unit ∈ units, isKeyUnit unit = true) :
    ∃ before unit after, units = before ++ unit :: after ∧ fromKeyUnit units = unit :: after ∧
      unit.nal.unitType = 0x5 ∧ ∀ other ∈ before, other.nal.unitType ≠ 0x5 := by
  induction units with
  | nil =>
      obtain ⟨_, impossible, -⟩ := some
      contradiction
  | cons first rest ih =>
      by_cases key : first.nal.unitType = 0x5
      · refine ⟨[], first, rest, rfl, ?_, key, fun _ impossible => by contradiction⟩
        simp [fromKeyUnit, isKeyUnit, key]
      · have later : ∃ unit ∈ rest, isKeyUnit unit = true := by
          obtain ⟨unit, member, isKey⟩ := some
          rcases List.mem_cons.mp member with same | behind
          · rw [same] at isKey
            exact absurd (of_decide_eq_true isKey) key
          · exact ⟨unit, behind, isKey⟩
        obtain ⟨before, unit, after, parts, from_key, type, others⟩ := ih later
        refine ⟨first :: before, unit, after, by rw [parts, List.cons_append], ?_, type, ?_⟩
        · rw [← from_key]
          simp [fromKeyUnit, isKeyUnit, key]
        · intro other member
          rcases List.mem_cons.mp member with same | behind
          · rwa [same]
          · exact others other behind

/-- The unit that was found is sent with all that follows it. -/
theorem send_key_found {before after : List CodedUnit} {unit : CodedUnit}
    (delivered : Delivered memory packet (before ++ unit :: after))
    (found : mgwAvcGetKeyframe memory packet.data (annexB (before ++ unit :: after)).length =
      ((unit.nal.bytes ++ annexB after).length,
        some (packet.data + (annexB before).length + (startCode unit.long).length))) :
    sendKeyFrame memory packet = some (be32 (unit.nal.bytes ++ annexB after).length ++
      (unit.nal.bytes ++ annexB after)) := by
  obtain ⟨size, holds⟩ := delivered_holds delivered
  have header := delivered.header
  simp only [MGW_AVCC_HEADER_SIZE] at header
  rw [← size] at found
  rw [annex_b_split] at holds
  have nal := (holds_append (holds_append holds).2).2
  rw [annex_b_split_length] at size
  exact send_key_payload found (by omega) delivered.fits (by omega) nal

/-- Another key frame is sent in place of the first unit. -/
theorem later_key_sent {first unit : CodedUnit} {before after : List CodedUnit}
    (delivered : Delivered memory packet (first :: before ++ unit :: after))
    (short : first.long = false) (others : ∀ other ∈ before, other.nal.unitType ≠ 0x5)
    (key : unit.nal.unitType = 0x5) :
    ¬ConvertsTo (sendKeyFrame memory packet) (first :: before ++ unit :: after) := by
  obtain ⟨size, holds⟩ := delivered_holds delivered
  have fits := delivered.fits
  have total := annex_b_split_length (first :: before) unit after
  simp only [MGW_MAX_PACKET_SIZE] at fits
  have found := keyframe_of_loop (by simp only [sizeRange]; omega)
    (later_key_found holds (Or.inl short) others key)
  have sent := send_key_found delivered found
  rintro ⟨payload, same, read⟩
  rw [sent] at same
  rw [← Option.some.inj same, length_prefixed_single (by omega)] at read
  have counts := congrArg List.length (Option.some.inj read)
  rw [nalBytes, List.length_map] at counts
  simp at counts

/-- Where no other key frame follows, nothing is sent, or a size that wraps below zero. -/
theorem no_key_sent {first : CodedUnit} {rest : List CodedUnit}
    (delivered : Delivered memory packet (first :: rest)) (short : first.long = false)
    (others : ∀ unit ∈ rest, unit.nal.unitType ≠ 0x5) :
    ¬ConvertsTo (sendKeyFrame memory packet) (first :: rest) := by
  obtain ⟨size, holds⟩ := delivered_holds delivered
  have fits := delivered.fits
  simp only [MGW_MAX_PACKET_SIZE] at fits
  have length := coded_unit_length first
  have positive := first.nal.length_pos
  have total : packet.size = first.bytes.length + (annexB rest).length := by
    rw [size, annex_b_cons, List.length_append]
  obtain ⟨rounds, enough, few, passed⟩ :=
    @first_unit_passed memory packet.data packet.size first rest holds (Or.inl short)
  rw [annex_b_cons] at holds
  obtain ⟨-, behind⟩ := holds_append holds
  have next : packet.data + first.bytes.length - 1 + 1 = packet.data + first.bytes.length := by omega
  rw [← next] at behind
  obtain ⟨remaining, upper, -, skipped⟩ :=
    @units_skipped memory packet.data packet.size rest rounds _ behind enough others
  rw [← size, ← get_keyframe_eq (by omega), skipped] at passed
  rcases @search_bounds memory packet.data packet.size remaining
    (packet.data + first.bytes.length - 1 + (annexB rest).length) with
    nothing | ⟨beyond, low, high, result⟩
  · rw [nothing] at passed
    rintro ⟨payload, same, -⟩
    rw [sendKeyFrame, passed] at same
    contradiction
  · rw [result] at passed
    have wrapped : subSize packet.size (beyond - packet.data) =
        sizeRange - (beyond - packet.data - packet.size) := by
      simp only [subSize, sizeRange]
      omega
    rw [send_key_frame_found passed (by rw [wrapped]; simp only [sizeRange]; omega)]
    apply length_not_converts _ delivered.some
    rw [take_bytes_length, ← size, wrapped]
    simp only [addSize, sizeRange]
    omega

/-- A key frame that comes first behind a short start code is not found: another
one is sent in its place, or memory behind the packet, or nothing. -/
theorem first_key_missed {first : CodedUnit} {rest : List CodedUnit}
    (delivered : Delivered memory packet (first :: rest)) (short : first.long = false) :
    ¬ConvertsTo (sendKeyFrame memory packet) (first :: rest) := by
  by_cases later : ∃ unit ∈ rest, isKeyUnit unit = true
  · obtain ⟨before, unit, after, parts, -, key, others⟩ := from_key_unit_split later
    rw [parts] at delivered ⊢
    exact later_key_sent delivered short others key
  · apply no_key_sent delivered short
    intro unit member key
    exact later ⟨unit, member, decide_eq_true key⟩

end KeyFrame

/-- One unit is to be sent, and it is not a key frame at the beginning of the
packet behind a start code of three bytes. -/
def OneUnit (keyframe : Bool) (units : List CodedUnit) : Prop :=
  (unitsToSend keyframe units).length = 1 ∧
    (keyframe = true → ∀ first ∈ units.head?, isKeyUnit first = true → first.long = true)

section Conversion

variable {memory : Bytes} {packet : EncoderPacket} {units : List CodedUnit}

theorem plain_converts_iff (delivered : Delivered memory packet units) :
    ConvertsTo (sendPacket memory packet) units ↔ units.length = 1 := by
  obtain ⟨unit, after, shape⟩ := List.exists_cons_of_ne_nil delivered.some
  rw [shape] at delivered ⊢
  have fits := delivered.fits
  obtain ⟨size, -⟩ := delivered_holds delivered
  simp only [MGW_MAX_PACKET_SIZE] at fits
  rw [annex_b_cons, CodedUnit.bytes, List.append_assoc, List.length_append] at size
  rw [single_converts_iff (by omega) (send_packet_payload delivered), List.length_cons]
  constructor
  · intro alone
    rw [alone]
    rfl
  · intro one
    exact List.eq_nil_of_length_eq_zero (by omega)

/-- The first unit has a long start code if it is the key frame that is found. -/
theorem starts_long {before after : List CodedUnit} {unit : CodedUnit}
    (others : ∀ other ∈ before, other.nal.unitType ≠ 0x5) (seen : before = [] → unit.long = true) :
    ∀ first ∈ (before ++ unit :: after).head?, isKeyUnit first = true → first.long = true := by
  intro first isFirst isKey
  cases before with
  | nil =>
      rw [← Option.some.inj isFirst]
      exact seen rfl
  | cons head earlier =>
      rw [← Option.some.inj isFirst] at isKey
      exact absurd (of_decide_eq_true isKey) (others head List.mem_cons_self)

theorem key_converts_iff (delivered : Delivered memory packet units)
    (keyframe : packet.keyframe = true) :
    ConvertsTo (sendKeyFrame memory packet) (fromKeyUnit units) ↔
      (fromKeyUnit units).length = 1 ∧
        ∀ first ∈ units.head?, isKeyUnit first = true → first.long = true := by
  obtain ⟨before, unit, after, parts, fromKey, key, others⟩ :=
    from_key_unit_split (delivered.key keyframe)
  by_cases missed : before = [] ∧ unit.long = false
  · rw [missed.1, List.nil_append] at parts
    rw [fromKey, parts]
    rw [parts] at delivered
    constructor
    · intro converts
      exact absurd converts (first_key_missed delivered missed.2)
    · rintro ⟨-, long⟩
      have impossible := long unit rfl (decide_eq_true key)
      rw [missed.2] at impossible
      contradiction
  · have seen : before = [] → unit.long = true := fun first => by
      simpa [first] using missed
    rw [fromKey, parts]
    rw [parts] at delivered
    obtain ⟨size, holds⟩ := delivered_holds delivered
    have fits := delivered.fits
    have total := annex_b_split_length before unit after
    simp only [MGW_MAX_PACKET_SIZE] at fits
    have found := keyframe_found holds (by simp only [sizeRange]; omega) others key seen
    rw [single_converts_iff (by omega) (send_key_found delivered found), List.length_cons]
    constructor
    · intro alone
      rw [alone]
      exact ⟨rfl, starts_long others seen⟩
    · rintro ⟨one, -⟩
      exact List.eq_nil_of_length_eq_zero (by omega)

/-- The payload is the list of the units to send exactly for packets of one such unit. -/
theorem packet_converted_iff_one_unit (delivered : Delivered memory packet units) :
    ConvertsTo (sendMedia memory packet) (unitsToSend packet.keyframe units) ↔
      OneUnit packet.keyframe units := by
  rw [sendMedia, delivered.video, OneUnit, unitsToSend]
  cases keyframe : packet.keyframe with
  | true =>
      simp only [Bool.true_and, decide_true, if_true, forall_const]
      exact key_converts_iff delivered keyframe
  | false =>
      simp only [Bool.false_and, Bool.false_eq_true, if_false, false_implies, and_true]
      exact plain_converts_iff delivered

end Conversion

/-- A unit of two bytes. -/
def shortNal (header last : UInt8) (closed : last ≠ 0) : NalUnit where
  bytes := [header, last]
  nonempty := List.cons_ne_nil _ _
  closed := closed
  clean := fun _ _ _ _ third => by simp at third

/-- The memory of a sender whose packet begins behind the four spare bytes. -/
def senderMemory (units : List CodedUnit) : Bytes := fun address =>
  (annexB units).getD (address - MGW_AVCC_HEADER_SIZE) 0

def videoPacket (keyframe : Bool) (units : List CodedUnit) : EncoderPacket where
  type := .video
  keyframe := keyframe
  data := MGW_AVCC_HEADER_SIZE
  size := (annexB units).length

/-- An access unit delimiter in front of a key frame. -/
def delimitedKeyFrame : List CodedUnit :=
  [⟨true, shortNal 0x09 0xf0 (by decide)⟩, ⟨false, shortNal 0x65 0x88 (by decide)⟩]

theorem delimited_key_frame_converted :
    ConvertsTo (sendMedia (senderMemory delimitedKeyFrame) (videoPacket true delimitedKeyFrame))
      (unitsToSend true delimitedKeyFrame) :=
  (packet_converted_iff_one_unit
    { video := rfl
      header := Nat.le_refl _
      fits := by decide
      some := List.cons_ne_nil _ _
      bytes := by decide
      key := fun _ => ⟨_, List.mem_cons_of_mem _ List.mem_cons_self, rfl⟩ }).mpr
    ⟨rfl, fun _ _ isFirst _ => by rw [← Option.some.inj isFirst]⟩

/-- Two slices of one picture. -/
def twoSlices : List CodedUnit :=
  [⟨true, shortNal 0x41 0x9a (by decide)⟩, ⟨false, shortNal 0x41 0x9b (by decide)⟩]

/-- Two slices of a key frame. -/
def twoKeySlices : List CodedUnit :=
  [⟨true, shortNal 0x65 0x88 (by decide)⟩, ⟨false, shortNal 0x65 0x89 (by decide)⟩]

/-- The start code of the second slice stays in the payload. -/
theorem second_slice_keeps_start_code :
    ¬ConvertsTo (sendMedia (senderMemory twoSlices) (videoPacket false twoSlices)) twoSlices ∧
      ¬ConvertsTo (sendMedia (senderMemory twoKeySlices) (videoPacket true twoKeySlices))
        (fromKeyUnit twoKeySlices) := by
  constructor
  · rintro ⟨payload, handed, read⟩
    have same : sendMedia (senderMemory twoSlices) (videoPacket false twoSlices) =
        some [0, 0, 0, 7, 0x41, 0x9a, 0, 0, 1, 0x41, 0x9b] := by decide
    rw [same] at handed
    rw [← Option.some.inj handed] at read
    exact absurd read (by decide)
  · rintro ⟨payload, handed, read⟩
    have same : sendMedia (senderMemory twoKeySlices) (videoPacket true twoKeySlices) =
        some [0, 0, 0, 7, 0x65, 0x88, 0, 0, 1, 0x65, 0x89] := by decide
    rw [same] at handed
    rw [← Option.some.inj handed] at read
    exact absurd read (by decide)

end Mgw.AvcPacket

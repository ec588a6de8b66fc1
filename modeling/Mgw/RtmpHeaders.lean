import Mgw.RtmpPacket
import Mathlib.Tactic.SplitIfs

/-!
# The headers of RTMP chunks

What is read of a header is what was written, whatever is left out of it.
-/

namespace Mgw.RtmpPacket

open BigEndian

set_option autoImplicit false

/-- The channels that a basic header can name. -/
def ChannelFits (nChannel : Nat) : Prop := 2 ≤ nChannel ∧ nChannel ≤ 65599

section Reads

theorem read_n_append {n : Nat} {bytes : List UInt8} (size : bytes.length = n) (rest : List UInt8) :
    ReadN n (bytes ++ rest) = .ok (bytes, rest) := by
  rw [ReadN, read_fixed_append size]

theorem header_of_byte (headerType : HeaderType) {low : Nat} (small : low < 64) :
    HeaderType.ofByte (UInt8.ofNat (headerType.code * 64 + low)) = headerType ∧
      (UInt8.ofNat (headerType.code * 64 + low)).toNat % 64 = low := by
  have codes : headerType.code ≤ 3 := by cases headerType <;> decide
  have value : (UInt8.ofNat (headerType.code * 64 + low)).toNat = headerType.code * 64 + low := by
    rw [UInt8.toNat_ofNat']
    omega
  have high : (headerType.code * 64 + low) / 64 = headerType.code := by omega
  constructor
  · rw [HeaderType.ofByte, value, high]
    cases headerType <;> rfl
  · omega

theorem byte_value {value : Nat} (small : value < 256) : (UInt8.ofNat value).toNat = value := by
  rw [UInt8.toNat_ofNat']
  omega

theorem read_one (byte : UInt8) (rest : List UInt8) : ReadN 1 (byte :: rest) = .ok ([byte], rest) :=
  @read_n_append 1 [byte] rfl rest

theorem read_two (first second : UInt8) (rest : List UInt8) :
    ReadN 2 (first :: second :: rest) = .ok ([first, second], rest) :=
  @read_n_append 2 [first, second] rfl rest

theorem read_basic_cons (byte : UInt8) (rest : List UInt8) :
    readBasicHeader (byte :: rest) =
      if byte.toNat % 64 = 0 then
        (ReadN 1 rest).map fun (second, rest) =>
          (HeaderType.ofByte byte, (second.headD 0).toNat + 64, rest)
      else if byte.toNat % 64 = 1 then
        (ReadN 2 rest).map fun (second, rest) =>
          (HeaderType.ofByte byte, beValue second.reverse + 64, rest)
      else .ok (HeaderType.ofByte byte, byte.toNat % 64, rest) := by
  rw [readBasicHeader, read_one]
  change (if byte.toNat % 64 = 0 then _ else if byte.toNat % 64 = 1 then _ else _) = _
  split_ifs
  · cases ReadN 1 rest <;> rfl
  · cases ReadN 2 rest <;> rfl
  · rfl

/-- A basic header in each of its three forms. -/
theorem read_basic_header {nChannel : Nat} (fits : ChannelFits nChannel) (headerType : HeaderType)
    (rest : List UInt8) :
    readBasicHeader (basicHeader headerType nChannel ++ rest) = .ok (headerType, nChannel, rest) := by
  obtain ⟨least, most⟩ := fits
  unfold basicHeader
  dsimp only
  split_ifs with long middle
  · obtain ⟨same, low⟩ := header_of_byte headerType (show 1 < 64 by decide)
    have number : beValue
        [UInt8.ofNat ((nChannel - 64) % 256), UInt8.ofNat ((nChannel - 64) / 256)].reverse + 64 =
          nChannel := by
      change (0 * 256 + (UInt8.ofNat ((nChannel - 64) / 256)).toNat) * 256 +
        (UInt8.ofNat ((nChannel - 64) % 256)).toNat + 64 = nChannel
      rw [byte_value (by omega), byte_value (by omega)]
      omega
    rw [List.cons_append, List.cons_append, List.cons_append, List.nil_append, read_basic_cons,
      low, if_neg (by decide), if_pos rfl, read_two]
    change Except.ok (_, _, rest) = _
    rw [same, number]
  · obtain ⟨same, low⟩ := header_of_byte headerType (show 0 < 64 by decide)
    rw [Nat.add_zero] at same low
    rw [List.cons_append, List.cons_append, List.nil_append, read_basic_cons, low, if_pos rfl,
      read_one]
    change Except.ok (_, (UInt8.ofNat ((nChannel - 64) % 256)).toNat + 64, rest) = _
    rw [same, byte_value (by omega), show (nChannel - 64) % 256 + 64 = nChannel by omega]
  · obtain ⟨same, low⟩ := header_of_byte headerType (show nChannel < 64 by omega)
    rw [List.cons_append, List.nil_append, read_basic_cons, low, if_neg (by omega),
      if_neg (by omega), same]

end Reads

section Fields

/-- What a header with these fields makes of the packet that it goes on from. -/
def withFields (headerType : HeaderType) (t : UInt32) (packet base : RTMPPacket) : RTMPPacket :=
  match headerType with
  | .large =>
      { base with
        m_nTimeStamp := t
        m_nBodySize := packet.m_nBodySize
        m_nBytesRead := 0
        m_packetType := packet.m_packetType
        m_nInfoField2 := packet.m_nInfoField2 }
  | .medium =>
      { base with
        m_nTimeStamp := t
        m_nBodySize := packet.m_nBodySize
        m_nBytesRead := 0
        m_packetType := packet.m_packetType }
  | .small => { base with m_nTimeStamp := t }
  | .minimum => base

/-- Whether the time is too long for its three bytes. -/
def Extended (headerType : HeaderType) (t : UInt32) : Prop := headerType ≠ .minimum ∧ 0xffffff ≤ t

instance (headerType : HeaderType) (t : UInt32) : Decidable (Extended headerType t) :=
  inferInstanceAs (Decidable (headerType ≠ .minimum ∧ 0xffffff ≤ t))

/-- The time in its three bytes, or the mark that it is behind the header. -/
def shortTime (t : UInt32) : UInt32 := if 0xffffff ≤ t then 0xffffff else t

theorem short_time_value (t : UInt32) :
    (if 0xffffff < t then 0xffffff else t.toNat) = (shortTime t).toNat := by
  unfold shortTime
  split_ifs with above most most
  · rfl
  · exact absurd (UInt32.le_of_lt above) most
  · rw [UInt32.lt_iff_toNat_lt] at above
    rw [UInt32.le_iff_toNat_le] at most
    exact Nat.le_antisymm (Nat.not_lt.mp above) most
  · rfl

theorem short_time_small (t : UInt32) : (shortTime t).toNat < 256 ^ 3 := by
  unfold shortTime
  split_ifs with most
  · decide
  · rw [UInt32.le_iff_toNat_le] at most
    exact Nat.lt_of_lt_of_le (Nat.not_le.mp most) (by decide)

theorem short_time_mark (t : UInt32) : shortTime t = 0xffffff ↔ 0xffffff ≤ t := by
  unfold shortTime
  split_ifs with most
  · exact ⟨fun _ => most, fun _ => rfl⟩
  · constructor
    · rintro rfl
      exact absurd (UInt32.le_refl _) most
    · intro other
      contradiction

theorem read_time (t : UInt32) : UInt32.ofNat (beValue (beBytes 3 (shortTime t).toNat)) = shortTime t := by
  rw [be_value_of_lt (short_time_small t), UInt32.ofNat_toNat]

theorem read_long_time (t : UInt32) : UInt32.ofNat (beValue (beBytes 4 t.toNat)) = t := by
  rw [be_value_of_lt (show t.toNat < 256 ^ 4 from t.toNat_lt), UInt32.ofNat_toNat]

theorem decode_encode_le (value : UInt32) : DecodeInt32LE (EncodeInt32LE value) = value := by
  unfold DecodeInt32LE EncodeInt32LE
  rw [List.reverse_reverse]
  exact read_long_time value

theorem encode_le_length (value : UInt32) : (EncodeInt32LE value).length = 4 := by
  rw [EncodeInt32LE, List.length_reverse, be_bytes_length]

/-- The bytes of the long time, where there is one. -/
def longTime (t : UInt32) : List UInt8 := if 0xffffff ≤ t then beBytes 4 t.toNat else []

/-- The long time is read where it was written. -/
theorem read_extended (t : UInt32) (packet : RTMPPacket) (time : packet.m_nTimeStamp = shortTime t)
    (rest : List UInt8) :
    readExtended packet (longTime t ++ rest) =
      .ok ({ packet with m_nTimeStamp := t }, decide (0xffffff ≤ t), rest) := by
  rw [readExtended, time]
  by_cases most : 0xffffff ≤ t
  · rw [if_pos ((short_time_mark t).mpr most), longTime, if_pos most,
      read_n_append (be_bytes_length 4 t.toNat), decide_eq_true most]
    change Except.ok ({ packet with m_nTimeStamp := UInt32.ofNat (beValue (beBytes 4 t.toNat)) },
      true, rest) = _
    rw [read_long_time]
  · have short : shortTime t = t := if_neg most
    rw [if_neg (mt (short_time_mark t).mp most), longTime, if_neg most, decide_eq_false most,
      List.nil_append, ← short, ← time]
    rfl

/-- Three bytes, one by one. -/
theorem three_bytes {bytes : List UInt8} (length : bytes.length = 3) :
    ∃ first second third, bytes = [first, second, third] := by
  obtain ⟨first, second, third, same⟩ := List.length_eq_three.mp length
  exact ⟨first, second, third, same⟩

section Layouts

variable {stamp size : List UInt8} (stampLength : stamp.length = 3)
  (sizeLength : size.length = 3) (base : RTMPPacket) (rest : List UInt8)

include stampLength

theorem read_small_fields :
    readFields .small base (stamp ++ rest) =
      readExtended { base with m_nTimeStamp := UInt32.ofNat (beValue stamp) } rest := by
  obtain ⟨first, second, third, rfl⟩ := three_bytes stampLength
  rw [readFields, show HeaderType.small.packetSize - 1 = 3 from rfl,
    read_n_append (show [first, second, third].length = 3 from rfl)]
  rfl

include sizeLength

theorem read_medium_fields (packetType : UInt8) :
    readFields .medium base (stamp ++ (size ++ [packetType]) ++ rest) =
      readExtended
        { base with
          m_nTimeStamp := UInt32.ofNat (beValue stamp)
          m_nBodySize := beValue size
          m_nBytesRead := 0
          m_packetType := packetType } rest := by
  obtain ⟨first, second, third, rfl⟩ := three_bytes stampLength
  obtain ⟨fourth, fifth, sixth, rfl⟩ := three_bytes sizeLength
  rw [readFields, show HeaderType.medium.packetSize - 1 = 7 from rfl, read_n_append
    (show ([first, second, third] ++ ([fourth, fifth, sixth] ++ [packetType])).length = 7 from rfl)]
  rfl

theorem read_large_fields (packetType : UInt8) {info : List UInt8} (infoLength : info.length = 4) :
    readFields .large base (stamp ++ (size ++ packetType :: info) ++ rest) =
      readExtended
        { base with
          m_nTimeStamp := UInt32.ofNat (beValue stamp)
          m_nBodySize := beValue size
          m_nBytesRead := 0
          m_packetType := packetType
          m_nInfoField2 := DecodeInt32LE info } rest := by
  obtain ⟨first, second, third, rfl⟩ := three_bytes stampLength
  obtain ⟨fourth, fifth, sixth, rfl⟩ := three_bytes sizeLength
  have header : ([first, second, third] ++ ([fourth, fifth, sixth] ++ packetType :: info)).length =
      11 := by
    simp [infoLength]
  rw [readFields, show HeaderType.large.packetSize - 1 = 11 from rfl, read_n_append header]
  rfl

end Layouts

theorem message_header_eq (headerType : HeaderType) (t : UInt32) (packet : RTMPPacket) :
    messageHeader headerType t packet =
      match headerType with
      | .large =>
          beBytes 3 (shortTime t).toNat ++ (beBytes 3 packet.m_nBodySize ++
            packet.m_packetType :: EncodeInt32LE packet.m_nInfoField2) ++ longTime t
      | .medium =>
          beBytes 3 (shortTime t).toNat ++ (beBytes 3 packet.m_nBodySize ++ [packet.m_packetType]) ++
            longTime t
      | .small => beBytes 3 (shortTime t).toNat ++ longTime t
      | .minimum => [] := by
  unfold messageHeader longTime
  rw [short_time_value]
  cases headerType <;> simp [HeaderType.packetSize]

theorem extended_iff {headerType : HeaderType} (full : headerType ≠ .minimum) (t : UInt32) :
    decide (0xffffff ≤ t) = decide (Extended headerType t) :=
  decide_eq_decide.mpr ⟨fun most => ⟨full, most⟩, fun extended => extended.2⟩

/-- The fields of a header are read as they were written. -/
theorem read_fields (headerType : HeaderType) (t : UInt32) {packet : RTMPPacket}
    (small : packet.m_nBodySize < 256 ^ 3) (base : RTMPPacket) (rest : List UInt8) :
    readFields headerType base (messageHeader headerType t packet ++ rest) =
      .ok (withFields headerType t packet base, decide (Extended headerType t), rest) := by
  have stamp : (beBytes 3 (shortTime t).toNat).length = 3 := be_bytes_length _ _
  have size : (beBytes 3 packet.m_nBodySize).length = 3 := be_bytes_length _ _
  rw [message_header_eq]
  cases headerType with
  | large =>
      dsimp only
      rw [List.append_assoc, read_large_fields stamp size _ _ _ (encode_le_length _), read_time,
        be_value_of_lt small, decode_encode_le, read_extended t _ rfl,
        extended_iff (show HeaderType.large ≠ .minimum by decide)]
      rfl
  | medium =>
      dsimp only
      rw [List.append_assoc, read_medium_fields stamp size, read_time, be_value_of_lt small,
        read_extended t _ rfl,
        extended_iff (show HeaderType.medium ≠ .minimum by decide)]
      rfl
  | small =>
      dsimp only
      rw [List.append_assoc, read_small_fields stamp, read_time, read_extended t _ rfl,
        extended_iff (show HeaderType.small ≠ .minimum by decide)]
      rfl
  | minimum => rfl

end Fields

end Mgw.RtmpPacket

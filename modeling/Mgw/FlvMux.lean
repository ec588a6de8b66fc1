import Mgw.AvcPacket
import Mgw.FlvTag

/-!
# The FLV tags of the RTMP output

`flv_packet_mux` of `flv-mux.c` with the writers of `serializer.c` over an array
that grows. What it writes for a packet is one tag of the FLV format.
-/

namespace Mgw.FlvMux

open AvcPacket BigEndian ByteArea FlvTag WordArithmetic

set_option autoImplicit false

/-- The array serializer with the bytes written so far. -/
structure Serializer where
  bytes : List UInt8

namespace Serializer

def init : Serializer where
  bytes := []

variable (s : Serializer)

def sWrite (data : List UInt8) : Serializer where
  bytes := s.bytes ++ data

def sW8 (u8 : Nat) : Serializer := s.sWrite [UInt8.ofNat u8]

def sWb16 (u16 : Nat) : Serializer := (s.sW8 (u16 % 65536 / 256)).sW8 (u16 % 65536)

def sWb24 (u24 : Nat) : Serializer := (s.sWb16 (u24 / 256)).sW8 u24

def sWb32 (u32 : Nat) : Serializer := (s.sWb16 (u32 / 65536)).sWb16 u32

def serializerGetPos : Nat := s.bytes.length

end Serializer

/-- The fields of `encoder_packet` that the muxer reads; `none` is a null pointer. -/
structure FlvPacket where
  type : EncoderType
  keyframe : Bool
  data : Option Bytes
  size : Nat
  pts : Int

def FlvPacket.payload (packet : FlvPacket) : List UInt8 :=
  match packet.data with
  | none => []
  | some data => takeBytes data packet.size

/-- The conversion of `pts` to the `int32_t` variable. -/
def timeMs (pts : Int) : Int := int32 (pts % 4294967296).toNat

/-- An `int32_t` passed on as `uint32_t`. -/
def asUnsigned (time_ms : Int) : Nat := (time_ms % 4294967296).toNat

/-- `(time_ms >> 24) & 0x7F`, with the sign shifted in. -/
def extendedByte (time_ms : Int) : Nat := (time_ms / 16777216 % 128).toNat

/-- The type, the size, the timestamp and the stream id. -/
def tagHead (s : Serializer) (tagType dataSize : Nat) (time_ms : Int) : Serializer :=
  ((((s.sW8 tagType).sWb24 dataSize).sWb24 (asUnsigned time_ms)).sW8
    (extendedByte time_ms)).sWb24 0

/-- The size of the tag without its starting byte. -/
def tagSize (s : Serializer) : Serializer :=
  s.sWb32 (sub32 (u32 s.serializerGetPos) 1)

def flvVideo (s : Serializer) (packet : FlvPacket) (is_header : Bool) : Serializer :=
  if packet.data = none ∨ packet.size = 0 then s
  else
    let head := tagHead s 9 (u32 (u32 packet.size + 5)) (timeMs packet.pts)
    let coded := ((head.sW8 (if packet.keyframe then 0x17 else 0x27)).sW8
      (if is_header then 0 else 1)).sWb24 0
    tagSize (coded.sWrite packet.payload)

def flvAudio (s : Serializer) (packet : FlvPacket) (is_header : Bool) : Serializer :=
  if packet.data = none ∨ packet.size = 0 then s
  else
    let extra_byte := if is_header then 0 else 2
    let head := tagHead s 8 (u32 (u32 packet.size + extra_byte)) (timeMs packet.pts)
    let coded := if is_header then head else (head.sW8 0xaf).sW8 1
    tagSize (coded.sWrite packet.payload)

def flvPacketMux (packet : FlvPacket) (is_header : Bool) : List UInt8 :=
  match packet.type with
  | .video => (flvVideo Serializer.init packet is_header).bytes
  | .audio => (flvAudio Serializer.init packet is_header).bytes

section Writers

variable (s : Serializer)

theorem s_w8_bytes (value : Nat) : (s.sW8 value).bytes = s.bytes ++ beBytes 1 value := rfl

theorem s_wb16_bytes (value : Nat) : (s.sWb16 value).bytes = s.bytes ++ beBytes 2 value := by
  have high : UInt8.ofNat (value % 65536 / 256) = UInt8.ofNat (value / 256) :=
    of_nat_congr (by omega)
  have low : UInt8.ofNat (value % 65536) = UInt8.ofNat value := of_nat_congr (by omega)
  change (s.bytes ++ [UInt8.ofNat (value % 65536 / 256)]) ++ [UInt8.ofNat (value % 65536)] = _
  rw [high, low, List.append_assoc]
  rfl

theorem s_wb24_bytes (value : Nat) : (s.sWb24 value).bytes = s.bytes ++ beBytes 3 value := by
  unfold Serializer.sWb24
  rw [s_w8_bytes, s_wb16_bytes, List.append_assoc]
  rfl

theorem s_wb32_bytes (value : Nat) : (s.sWb32 value).bytes = s.bytes ++ beBytes 4 value := by
  unfold Serializer.sWb32
  rw [s_wb16_bytes, s_wb16_bytes, List.append_assoc, be_bytes_add 2 2]
  rfl

theorem s_write_bytes (data : List UInt8) : (s.sWrite data).bytes = s.bytes ++ data := rfl

/-- The timestamp bytes are those of `pts` modulo `2 ^ 31`. -/
theorem time_low (pts : Int) :
    beBytes 3 (asUnsigned (timeMs pts)) = beBytes 3 ((pts % 2147483648).toNat % 256 ^ 3) := by
  apply be_bytes_congr
  simp only [asUnsigned, timeMs, int32, u32, wordSize]
  split_ifs <;> omega

theorem time_high (pts : Int) :
    extendedByte (timeMs pts) = (pts % 2147483648).toNat / 256 ^ 3 := by
  simp only [extendedByte, timeMs, int32, u32, wordSize]
  split_ifs <;> omega

end Writers

/-- The codes in front of the payload, and the payload. -/
def tagBody (packet : FlvPacket) (is_header : Bool) : List UInt8 :=
  match packet.type with
  | .video =>
      (if packet.keyframe then 0x17 else 0x27) :: (if is_header then 0 else 1) :: 0 :: 0 :: 0 ::
        packet.payload
  | .audio => if is_header then packet.payload else 0xaf :: 1 :: packet.payload

/-- `RTMP_PACKET_TYPE_VIDEO` and `RTMP_PACKET_TYPE_AUDIO`. -/
def rtmpPacketType : EncoderType → Nat
  | .video => 9
  | .audio => 8

/-- The tag of the FLV format that stands for a packet. -/
def tagOf (packet : FlvPacket) (is_header : Bool) : Tag where
  tagType := rtmpPacketType packet.type
  dataSize := (tagBody packet is_header).length
  timestamp := (packet.pts % 2147483648).toNat
  streamId := 0
  body := tagBody packet is_header
  previousTagSize := 11 + (tagBody packet is_header).length - 1

/-- A packet with data, of a size that fits the tag with the video codes. -/
structure FlvPacket.Muxable (packet : FlvPacket) : Prop where
  data : packet.data.isSome = true
  nonempty : 0 < packet.size
  fits : packet.size + 5 < 16777216

section Mux

variable {packet : FlvPacket}

theorem payload_length (data : packet.data.isSome = true) :
    packet.payload.length = packet.size := by
  unfold FlvPacket.payload
  cases present : packet.data with
  | none => simp [present] at data
  | some bytes => exact take_bytes_length bytes packet.size

theorem tag_of_fits (muxable : packet.Muxable) (is_header : Bool) :
    (tagOf packet is_header).Fits := by
  have size := payload_length muxable.data
  have bound := muxable.fits
  have length : (tagBody packet is_header).length ≤ packet.size + 5 := by
    unfold tagBody
    cases packet.type with
    | video => simp [size]
    | audio => cases is_header <;> simp [size]
  constructor
  · unfold tagOf
    cases packet.type <;> simp [rtmpPacketType]
  · change (tagBody packet is_header).length < 16777216
    omega
  · change (packet.pts % 2147483648).toNat < 4294967296
    omega
  · exact Nat.zero_lt_succ _
  · rfl
  · change 11 + (tagBody packet is_header).length - 1 < 4294967296
    omega

theorem tag_head_bytes (s : Serializer) (tagType dataSize : Nat) (pts : Int) :
    (tagHead s tagType dataSize (timeMs pts)).bytes = s.bytes ++ (beBytes 1 tagType ++
      (beBytes 3 dataSize ++ (beBytes 3 ((pts % 2147483648).toNat % 256 ^ 3) ++
        (beBytes 1 ((pts % 2147483648).toNat / 256 ^ 3) ++ beBytes 3 0)))) := by
  unfold tagHead
  rw [s_wb24_bytes, s_w8_bytes, s_wb24_bytes, s_wb24_bytes, s_w8_bytes, time_low, time_high]
  simp only [List.append_assoc]

/-- A head, a body of the size it declares and the trailing size are one tag. -/
theorem tag_size_bytes {coded : Serializer} {tagType : Nat} {body : List UInt8} {pts : Int}
    (small : body.length < 16777216)
    (content : coded.bytes =
      (tagHead Serializer.init tagType body.length (timeMs pts)).bytes ++ body) :
    (tagSize coded).bytes = encodeTag
      { tagType := tagType
        dataSize := body.length
        timestamp := (pts % 2147483648).toNat
        streamId := 0
        body := body
        previousTagSize := 11 + body.length - 1 } := by
  have length : coded.bytes.length = 11 + body.length := by
    rw [content, tag_head_bytes]
    simp only [List.length_append, be_bytes_length, Serializer.init, List.length_nil]
  have word : u32 coded.bytes.length = 11 + body.length := by
    rw [length]
    apply u32_of_lt
    simp only [wordSize]
    omega
  have size : sub32 (u32 coded.serializerGetPos) 1 = 11 + body.length - 1 := by
    unfold Serializer.serializerGetPos
    rw [word]
    apply sub32_of_le_of_lt
    · omega
    · simp only [wordSize]
      omega
  unfold tagSize encodeTag
  rw [s_wb32_bytes, size, content, tag_head_bytes]
  simp only [Serializer.init, List.nil_append, List.append_assoc]

theorem muxable_present (muxable : packet.Muxable) :
    ¬(packet.data = none ∨ packet.size = 0) := by
  have data := muxable.data
  have nonempty := muxable.nonempty
  rintro (missing | empty)
  · rw [missing] at data
    contradiction
  · omega

theorem u32_size (muxable : packet.Muxable) : u32 packet.size = packet.size := by
  have bound := muxable.fits
  apply u32_of_lt
  simp only [wordSize]
  omega

/-- The packet is written as the tag that stands for it. -/
theorem flv_packet_mux_eq (muxable : packet.Muxable) (is_header : Bool) :
    flvPacketMux packet is_header = encodeTag (tagOf packet is_header) := by
  have present := muxable_present muxable
  have bound := muxable.fits
  have payload := payload_length muxable.data
  have small : (tagBody packet is_header).length < 16777216 :=
    (tag_of_fits muxable is_header).dataSize
  cases type : packet.type with
  | video =>
      have size : u32 (u32 packet.size + 5) = (tagBody packet is_header).length := by
        unfold tagBody
        rw [type, u32_size muxable]
        simp only [List.length_cons, payload]
        apply u32_of_lt
        simp only [wordSize]
        omega
      unfold flvPacketMux flvVideo tagOf
      simp only [type, if_neg present, size]
      apply tag_size_bytes small
      rw [s_write_bytes, s_wb24_bytes, s_w8_bytes, s_w8_bytes]
      simp only [List.append_assoc, tagBody, type]
      cases packet.keyframe <;> cases is_header <;> rfl
  | audio =>
      have size : u32 (u32 packet.size + if is_header = true then 0 else 2) =
          (tagBody packet is_header).length := by
        unfold tagBody
        rw [type, u32_size muxable]
        cases is_header
        · simp only [Bool.false_eq_true, if_false, List.length_cons, payload]
          apply u32_of_lt
          simp only [wordSize]
          omega
        · simp only [if_true, payload, Nat.add_zero]
          exact u32_size muxable
      unfold flvPacketMux flvAudio tagOf
      simp only [type, if_neg present, size]
      apply tag_size_bytes small
      rw [s_write_bytes]
      simp only [tagBody, type]
      cases is_header
      · simp only [Bool.false_eq_true, if_false, s_w8_bytes, List.append_assoc]
        rfl
      · rfl

end Mux

/-- What two packets with the same output have in common. The codes of an audio
packet are part of its body, and its key flag is not written. -/
def SameContent (left right : FlvPacket) (leftHeader rightHeader : Bool) : Prop :=
  left.type = right.type ∧ left.pts % 2147483648 = right.pts % 2147483648 ∧
    match left.type with
    | .video => left.keyframe = right.keyframe ∧ leftHeader = rightHeader ∧
        left.payload = right.payload
    | .audio => tagBody left leftHeader = tagBody right rightHeader

theorem rtmp_packet_type_injective {left right : EncoderType}
    (same : rtmpPacketType left = rtmpPacketType right) : left = right := by
  cases left <;> cases right
  · rfl
  · contradiction
  · contradiction
  · rfl

/-- The codes of a video packet can be told apart. -/
theorem video_body_iff {left right : FlvPacket} (leftVideo : left.type = .video)
    (rightVideo : right.type = .video) (leftHeader rightHeader : Bool) :
    tagBody left leftHeader = tagBody right rightHeader ↔
      left.keyframe = right.keyframe ∧ leftHeader = rightHeader ∧
        left.payload = right.payload := by
  unfold tagBody
  rw [leftVideo, rightVideo]
  cases left.keyframe <;> cases right.keyframe <;> cases leftHeader <;> cases rightHeader <;> simp

theorem same_tag_iff (left right : FlvPacket) (leftHeader rightHeader : Bool) :
    tagOf left leftHeader = tagOf right rightHeader ↔
      SameContent left right leftHeader rightHeader := by
  unfold SameContent
  constructor
  · intro same
    have type := rtmp_packet_type_injective (congrArg Tag.tagType same)
    have timestamp : (left.pts % 2147483648).toNat = (right.pts % 2147483648).toNat :=
      congrArg Tag.timestamp same
    have body : tagBody left leftHeader = tagBody right rightHeader := congrArg Tag.body same
    refine ⟨type, by omega, ?_⟩
    cases leftType : left.type with
    | video => exact (video_body_iff leftType (type ▸ leftType) leftHeader rightHeader).mp body
    | audio => exact body
  · rintro ⟨type, timestamp, content⟩
    have body : tagBody left leftHeader = tagBody right rightHeader := by
      cases leftType : left.type with
      | video =>
          rw [leftType] at content
          exact (video_body_iff leftType (type ▸ leftType) leftHeader rightHeader).mpr content
      | audio =>
          rw [leftType] at content
          exact content
    unfold tagOf
    rw [type, timestamp, body]

/-- Every packet is written as one tag, from which it is read back as far as it is written. -/
theorem flv_mux_round_trip (packet other : FlvPacket) (is_header otherHeader : Bool)
    (muxable : packet.Muxable) (otherMuxable : other.Muxable) :
    parseTag (flvPacketMux packet is_header) = some (tagOf packet is_header, []) ∧
      (flvPacketMux packet is_header = flvPacketMux other otherHeader ↔
        SameContent packet other is_header otherHeader) := by
  have fits := tag_of_fits muxable is_header
  have otherFits := tag_of_fits otherMuxable otherHeader
  rw [flv_packet_mux_eq muxable, flv_packet_mux_eq otherMuxable]
  constructor
  · have parsed := parse_tag_encode fits []
    rwa [List.append_nil] at parsed
  · rw [← same_tag_iff]
    constructor
    · exact encode_tag_injective fits otherFits
    · intro same
      rw [same]

def flvPacketOf (type : EncoderType) (keyframe : Bool) (payload : List UInt8) (pts : Int) :
    FlvPacket where
  type := type
  keyframe := keyframe
  data := some fun index => payload.getD index 0
  size := payload.length
  pts := pts

example : flvPacketMux (flvPacketOf .video true [0, 0, 0, 1, 0x65] (-1)) false =
    [9, 0, 0, 10, 0xff, 0xff, 0xff, 0x7f, 0, 0, 0, 0x17, 1, 0, 0, 0, 0, 0, 0, 1, 0x65,
      0, 0, 0, 20] := by decide

theorem flv_mux_round_trip_video :
    parseTag (flvPacketMux (flvPacketOf .video true [1, 2, 3] (-1)) false) =
        some (tagOf (flvPacketOf .video true [1, 2, 3] (-1)) false, []) ∧
      (flvPacketMux (flvPacketOf .video true [1, 2, 3] (-1)) false =
          flvPacketMux (flvPacketOf .audio true [1, 2, 3] 7) true ↔
        SameContent (flvPacketOf .video true [1, 2, 3] (-1))
          (flvPacketOf .audio true [1, 2, 3] 7) false true) :=
  flv_mux_round_trip (flvPacketOf .video true [1, 2, 3] (-1))
    (flvPacketOf .audio true [1, 2, 3] 7) false true ⟨rfl, by decide, by decide⟩
    ⟨rfl, by decide, by decide⟩

/-- The key flag of an audio packet is not written, and a header that starts with
the two codes reads as another packet. -/
theorem audio_outputs_coincide :
    flvPacketMux (flvPacketOf .audio true [5] 0) false =
        flvPacketMux (flvPacketOf .audio false [5] 0) false ∧
      flvPacketMux (flvPacketOf .audio false [0xaf, 1, 5] 0) true =
        flvPacketMux (flvPacketOf .audio false [5] 0) false := by
  constructor
  · decide
  · decide

end Mgw.FlvMux

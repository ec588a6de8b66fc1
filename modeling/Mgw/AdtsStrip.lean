import Mgw.Adts
import Mgw.AvcScan

/-!
# Leaving the ADTS header out

`mgw_aac_leave_adts` of `codec-common.c` and the audio branch of `send_packet` of
`rtmp-stream.c`, two copies of one parser. The first assigns to its own copies of
`dst` and `dst_size`: the caller sees only the size that is returned. A byte that
is not in the string cannot be read.
-/

namespace Mgw.AdtsStrip

open Adts ByteArea WordArithmetic

set_option autoImplicit false

/-- `((src[3] & 0x03) << 11) + (src[4] << 3) + ((src[5] & 0xe0) >> 5)`. -/
def packetLen (src : List UInt8) : Option Nat :=
  (src[3]?).bind fun third =>
    (src[4]?).bind fun fourth =>
      (src[5]?).map fun fifth => third.toNat % 4 * 2048 + fourth.toNat * 8 + fifth.toNat / 32

/-- The size that is returned. What the function makes of `dst` is not handed on. -/
def mgwAacLeaveAdts (src : List UInt8) (dst_size : Nat) : Option Nat :=
  (src[1]?).bind fun flags =>
    if flags.toNat % 2 = 0 then
      (packetLen src).map fun packet_len =>
        if src.length = packet_len then subSize src.length 9 else dst_size
    else some (subSize src.length 7)

/-- Where the packet begins in the string and how long it is. -/
structure PacketPart where
  data : Nat
  size : Nat

/-- The audio branch of `send_packet`. -/
def sendPacketAudio (data : List UInt8) : Option PacketPart :=
  (data[1]?).bind fun flags =>
    if flags.toNat % 2 = 0 then
      (packetLen data).map fun packet_len =>
        if data.length = packet_len then { data := 9, size := subSize data.length 9 }
        else { data := 0, size := data.length }
    else some { data := 7, size := subSize data.length 7 }

def PacketPart.bytes (part : PacketPart) (data : List UInt8) : List UInt8 :=
  (data.drop part.data).take part.size

/-- Both give the payload of an encoded frame. `dst` are the bytes behind the caller's `dst`. -/
def GivesPayload (frame : Frame) (dst : Bytes) (dst_size : Nat) : Prop :=
  ∃ ret part, mgwAacLeaveAdts frame.added.out dst_size = some ret ∧
    sendPacketAudio frame.added.out = some part ∧
    takeBytes dst ret = frame.payload ∧ part.bytes frame.added.out = frame.payload

/-- Both read only the string, take no more from its size than there is, and give the same. -/
def Agree (src : List UInt8) (dst : Bytes) (dst_size : Nat) : Prop :=
  ∃ ret part, mgwAacLeaveAdts src dst_size = some ret ∧ sendPacketAudio src = some part ∧
    ret ≤ src.length ∧ part.size ≤ src.length ∧ takeBytes dst ret = part.bytes src

/-- The size of the header: with a checksum there is one only where the length in it is that
of the string. -/
def headerSize (src : List UInt8) : Option Nat :=
  (src[1]?).bind fun flags =>
    if flags.toNat % 2 = 0 then
      (packetLen src).map fun packet_len => if src.length = packet_len then 9 else 0
    else some 7

/-- The string has its header, and `dst` had what is behind it before the call. -/
def AlreadyThere (src : List UInt8) (dst : Bytes) (dst_size : Nat) : Prop :=
  ∃ size, headerSize src = some size ∧ size ≤ src.length ∧
    takeBytes dst (if size = 0 then dst_size else src.length - size) = src.drop size

section Strip

variable {src : List UInt8} {dst : Bytes} {dst_size : Nat}

theorem leave_adts_size (src : List UInt8) (dst_size : Nat) :
    mgwAacLeaveAdts src dst_size =
      (headerSize src).map fun size => if size = 0 then dst_size else subSize src.length size := by
  unfold mgwAacLeaveAdts headerSize
  cases src[1]? with
  | none => rfl
  | some flags =>
      rw [Option.bind_some, Option.bind_some]
      by_cases checksum : flags.toNat % 2 = 0
      · rw [if_pos checksum, if_pos checksum, Option.map_map]
        congr 1
        funext packet_len
        rw [Function.comp_apply]
        by_cases whole : src.length = packet_len
        · rw [if_pos whole, if_pos whole, if_neg (by decide)]
        · rw [if_neg whole, if_neg whole, if_pos rfl]
      · rw [if_neg checksum, if_neg checksum]
        rfl

theorem send_packet_part (src : List UInt8) (bound : src.length < sizeRange) :
    sendPacketAudio src =
      (headerSize src).map fun size => { data := size, size := subSize src.length size } := by
  have whole : subSize src.length 0 = src.length := sub_size_of_le (Nat.zero_le _) bound
  unfold sendPacketAudio headerSize
  cases src[1]? with
  | none => rfl
  | some flags =>
      rw [Option.bind_some, Option.bind_some]
      by_cases checksum : flags.toNat % 2 = 0
      · rw [if_pos checksum, if_pos checksum, Option.map_map]
        congr 1
        funext packet_len
        rw [Function.comp_apply]
        by_cases same : src.length = packet_len
        · rw [if_pos same, if_pos same]
        · rw [if_neg same, if_neg same, whole]
      · rw [if_neg checksum, if_neg checksum]
        rfl

theorem header_size_le {size : Nat} (header : headerSize src = some size) : size ≤ 9 := by
  obtain ⟨flags, -, sized⟩ := Option.bind_eq_some_iff.mp header
  split_ifs at sized
  · obtain ⟨packet_len, -, same⟩ := Option.map_eq_some_iff.mp sized
    rw [← same]
    split_ifs
    · exact Nat.le_refl 9
    · exact Nat.zero_le 9
  · rw [← Option.some.inj sized]
    decide

/-- A header that is longer than the string makes the size wrap. -/
theorem sub_size_le_iff {length size : Nat} (bound : length < sizeRange) (small : size ≤ 9) :
    subSize length size ≤ length ↔ size ≤ length := by
  simp only [subSize, sizeRange] at bound ⊢
  omega

theorem take_drop (size : Nat) : (src.drop size).take (src.length - size) = src.drop size := by
  rw [← List.length_drop, List.take_length]

/-- The two agree if and only if the caller's `dst` has the bytes already. -/
theorem agree_iff (bound : src.length < sizeRange) :
    Agree src dst dst_size ↔ AlreadyThere src dst dst_size := by
  unfold Agree AlreadyThere
  rw [leave_adts_size, send_packet_part src bound]
  cases header : headerSize src with
  | none => simp
  | some size =>
      have small := header_size_le header
      rw [Option.map_some, Option.map_some]
      constructor
      · intro agree
        obtain ⟨ret, part, same, samePart, -, inside, equal⟩ := agree
        rw [← Option.some.inj samePart] at inside equal
        have enough := (sub_size_le_iff bound small).mp inside
        have exact_size : subSize src.length size = src.length - size :=
          sub_size_of_le enough bound
        rw [← Option.some.inj same, PacketPart.bytes, exact_size, take_drop] at equal
        exact ⟨size, rfl, enough, equal⟩
      · intro already
        obtain ⟨size', same, enough, there⟩ := already
        rw [← Option.some.inj same] at enough there
        have exact_size : subSize src.length size = src.length - size :=
          sub_size_of_le enough bound
        have lengths := congrArg List.length there
        rw [take_bytes_length, List.length_drop] at lengths
        refine ⟨_, _, rfl, rfl, ?_, (sub_size_le_iff bound small).mpr enough, ?_⟩
        · rw [exact_size, lengths]
          exact Nat.sub_le _ _
        · rw [exact_size, there]
          exact (take_drop size).symm

theorem added_header_size (frame : Frame) : headerSize frame.added.out = some AAC_HEADER_SIZE := by
  rw [added_out]
  rfl

/-- Behind the encoder the RTMP output has the payload, the caller of
`mgw_aac_leave_adts` only if it had it before. -/
theorem gives_payload_iff (frame : Frame) :
    GivesPayload frame dst dst_size ↔ takeBytes dst frame.payload.length = frame.payload := by
  have length : frame.added.out.length = frame.payload.length + AAC_HEADER_SIZE := added_length
  have bound : frame.added.out.length < sizeRange := by
    have room := frame.room
    simp only [AAC_SAMPLE_SIZE_MAX] at room
    simp only [sizeRange]
    omega
  have size : subSize frame.added.out.length AAC_HEADER_SIZE = frame.payload.length := by
    rw [sub_size_of_le (by omega) bound]
    omega
  have part : PacketPart.bytes ⟨AAC_HEADER_SIZE, frame.payload.length⟩ frame.added.out =
      frame.payload := by
    change (frame.payload).take frame.payload.length = _
    exact List.take_length
  unfold GivesPayload
  rw [leave_adts_size, send_packet_part _ bound, added_header_size, Option.map_some,
    Option.map_some, if_neg (by decide), size]
  constructor
  · intro gives
    obtain ⟨ret, _, same, -, delivered, -⟩ := gives
    rwa [← Option.some.inj same] at delivered
  · intro delivered
    exact ⟨_, _, rfl, rfl, delivered, part⟩

/-- For every frame and every string, whatever is behind `dst`: the payload is delivered, and
the two strippers agree, if and only if the bytes have been behind `dst` before. -/
theorem adts_stripped_iff (frame : Frame) (src : List UInt8) (dst : Bytes) (dst_size : Nat)
    (bound : src.length < sizeRange) :
    (GivesPayload frame dst dst_size ↔ takeBytes dst frame.payload.length = frame.payload) ∧
      (Agree src dst dst_size ↔ AlreadyThere src dst dst_size) :=
  ⟨gives_payload_iff frame, agree_iff bound⟩

/-- A short frame at 44.1 kHz. -/
def shortFrame : Frame :=
  { silentFrame 3 (by decide) with
    payload := [1, 2, 3]
    room := by decide }

/-- A caller that already points behind the header. -/
theorem adts_stripped_iff_behind :
    (GivesPayload shortFrame (fun index => [1, 2, 3].getD index 0) 3 ↔
        takeBytes (fun index => [1, 2, 3].getD index 0) shortFrame.payload.length =
          shortFrame.payload) ∧
      (Agree shortFrame.added.out (fun index => [1, 2, 3].getD index 0) 3 ↔
        AlreadyThere shortFrame.added.out (fun index => [1, 2, 3].getD index 0) 3) :=
  adts_stripped_iff shortFrame shortFrame.added.out _ 3 (by decide)

/-- Into an empty buffer nothing is delivered; a string shorter than the header makes both
sizes wrap, and one of a single byte is read behind its end. -/
theorem payload_not_delivered :
    ¬GivesPayload shortFrame (fun _ => 0) 3 ∧ ¬Agree shortFrame.added.out (fun _ => 0) 3 ∧
      mgwAacLeaveAdts [0xff, 0xf1, 0x50] 0 = some 18446744073709551612 ∧
      (sendPacketAudio [0xff, 0xf1, 0x50]).map PacketPart.size = some 18446744073709551612 ∧
      mgwAacLeaveAdts [0xff] 0 = none := by
  refine ⟨?_, ?_, by decide, by decide, by decide⟩
  · rw [gives_payload_iff]
    decide
  · rw [agree_iff (by decide)]
    intro already
    obtain ⟨size, same, -, there⟩ := already
    rw [added_header_size] at same
    rw [← Option.some.inj same] at there
    exact absurd there (by decide)

end Strip

section Memory

open AvcPacket

variable {memory : Bytes} {packet : EncoderPacket}

theorem handed_over_byte {index : Nat} {byte : UInt8}
    (read : (handedOver memory packet)[index]? = some byte) : memory (packet.data + index) = byte := by
  apply holds_byte _ read
  rw [Holds, handedOver, take_bytes_length]

/-- On a packet that lies in memory this is the step of the RTMP output. -/
theorem leave_adts_packet {part : PacketPart}
    (result : sendPacketAudio (handedOver memory packet) = some part) :
    leaveAdts memory packet = { packet with
      data := packet.data + part.data
      size := part.size } := by
  have length : (handedOver memory packet).length = packet.size := take_bytes_length _ _
  unfold sendPacketAudio at result
  rw [length] at result
  obtain ⟨flags, read, result⟩ := Option.bind_eq_some_iff.mp result
  unfold leaveAdts
  simp only [handed_over_byte read]
  split_ifs at result with checksum
  · obtain ⟨packet_len, parsed, same⟩ := Option.map_eq_some_iff.mp result
    obtain ⟨third, thirdRead, parsed⟩ := Option.bind_eq_some_iff.mp parsed
    obtain ⟨fourth, fourthRead, parsed⟩ := Option.bind_eq_some_iff.mp parsed
    obtain ⟨fifth, fifthRead, sum⟩ := Option.map_eq_some_iff.mp parsed
    simp only [if_pos checksum, handed_over_byte thirdRead, handed_over_byte fourthRead,
      handed_over_byte fifthRead, sum, ← same]
    split_ifs
    · rfl
    · rfl
  · rw [if_neg checksum, ← Option.some.inj result]

end Memory

end Mgw.AdtsStrip

import Mgw.AnnexB
import Mgw.ByteArea
import Mgw.WordArithmetic

/-!
# From Annex B to AVCC in the RTMP output

`send_key_frame` and `send_packet` of `rtmp-stream.c` with the functions of
`codec-common.c` they use. A packet is an address and a size in the memory of the
sender, whose bytes around the packet are arbitrary: `mgw_avc_get_nal` looks
beyond the packet, and the conversions write the four bytes in front of it.
-/

namespace Mgw.AvcPacket

open ByteArea WordArithmetic AnnexB

set_option autoImplicit false

def MGW_MAX_PACKET_SIZE : Nat := 512000
def MGW_AVCC_HEADER_SIZE : Nat := 4

inductive EncoderType where
  | audio | video
  deriving DecidableEq, Repr

structure EncoderPacket where
  type : EncoderType
  keyframe : Bool
  data : Nat
  size : Nat

/-- `none` is the result `-1`. -/
def mgwAvcGetStartcodeLen (memory : Bytes) (data : Nat) : Option Nat :=
  if memory data ≠ 0 ∨ memory (data + 1) ≠ 0 then none
  else if memory (data + 2) = 1 then some 3
  else if memory (data + 2) = 0 ∧ memory (data + 3) = 1 then some 4
  else none

/-- The rounds of the loop of `mgw_avc_get_nal`, with the size and the pointer it results in. -/
def getNalLoop (memory : Bytes) (data size : Nat) (get_type : UInt8) :
    Nat → Nat → Option Nat → Nat × Option Nat
  | 0, _, nal => (0, nal)
  | rounds + 1, p, nal =>
      match mgwAvcGetStartcodeLen memory (p + 1) with
      | none => getNalLoop memory data size get_type rounds (p + 1) nal
      | some start_code_len =>
          let next := p + 1 + start_code_len
          match nal with
          | some first => (subSize (next - start_code_len) first, nal)
          | none =>
              if get_type = memory next &&& 0x1f then
                if get_type = 0x5 then (subSize size (next - data), some next)
                else getNalLoop memory data size get_type rounds next (some next)
              else getNalLoop memory data size get_type rounds next none

def mgwAvcGetNal (memory : Bytes) (data size : Nat) (get_type : UInt8) (max_check : Nat) :
    Nat × Option Nat :=
  if size = 0 then (0, none)
  else
    let check_len := if max_check < size then max_check else size
    getNalLoop memory data size get_type check_len data none

def mgwAvcGetKeyframe (memory : Bytes) (data size : Nat) : Nat × Option Nat :=
  mgwAvcGetNal memory data size 0x5 size

def putBe32 (memory : Bytes) (output nVal : Nat) : Bytes :=
  copyIn memory output (fun index => (be32 nVal).getD index 0) 4

/-- What `send_packet_internal` finds in the packet. -/
def handedOver (memory : Bytes) (packet : EncoderPacket) : List UInt8 :=
  takeBytes (advance memory packet.data) packet.size

/-- The payload handed to `send_packet_internal`, if it is called. -/
def sendKeyFrame (memory : Bytes) (packet : EncoderPacket) : Option (List UInt8) :=
  match mgwAvcGetKeyframe memory packet.data packet.size with
  | (0, _) => none
  | (_, none) => none
  | (size, some data) =>
      some (handedOver (putBe32 memory (data - 4) size)
        { packet with data := data - 4, size := addSize size 4 })

/-- The ADTS header of an audio packet is left out. -/
def leaveAdts (memory : Bytes) (packet : EncoderPacket) : EncoderPacket :=
  let byte := fun index => (memory (packet.data + index)).toNat
  if (byte 1) % 2 = 0 then
    let packet_len := (byte 3 % 4) * 2048 + byte 4 * 8 + byte 5 / 32
    if packet.size = packet_len then
      { packet with data := packet.data + 9, size := subSize packet.size 9 }
    else packet
  else { packet with data := packet.data + 7, size := subSize packet.size 7 }

def sendPacket (memory : Bytes) (packet : EncoderPacket) : Option (List UInt8) :=
  match packet.type with
  | .audio => some (handedOver memory (leaveAdts memory packet))
  | .video =>
      match mgwAvcGetStartcodeLen memory packet.data with
      | none => none
      | some 3 =>
          some (handedOver (putBe32 memory (packet.data - 1) (subSize packet.size 3))
            { packet with data := packet.data - 1, size := addSize packet.size 1 })
      | some 4 => some (handedOver (putBe32 memory packet.data (subSize packet.size 4)) packet)
      | some _ => some (handedOver memory packet)

/-- The choice that `send_thread` makes for a packet. -/
def sendMedia (memory : Bytes) (packet : EncoderPacket) : Option (List UInt8) :=
  if packet.keyframe && packet.type = .video then sendKeyFrame memory packet
  else sendPacket memory packet

end Mgw.AvcPacket

import Mgw.BigEndian
import Mathlib.Logic.Function.Basic

/-!
# Packets on an RTMP connection

`RTMP_SendPacket` cuts a packet into chunks behind headers that leave out what the
channel had last, and `RTMP_ReadPacket` puts it together again, one chunk at a call. A
write goes through as a whole, and a read takes its bytes from what has come in.
-/

namespace Mgw.RtmpPacket

open BigEndian

set_option autoImplicit false

/-- `RTMP_PACKET_SIZE_LARGE` to `RTMP_PACKET_SIZE_MINIMUM`. -/
inductive HeaderType where
  | large
  | medium
  | small
  | minimum
  deriving DecidableEq

namespace HeaderType

def code : HeaderType → Nat
  | large => 0
  | medium => 1
  | small => 2
  | minimum => 3

/-- `(hbuf[0] & 0xc0) >> 6`. -/
def ofByte (byte : UInt8) : HeaderType :=
  match byte.toNat / 64 with
  | 0 => large
  | 1 => medium
  | 2 => small
  | _ => minimum

def packetSize : HeaderType → Nat
  | large => 12
  | medium => 8
  | small => 4
  | minimum => 1

end HeaderType

def RTMP_PACKET_TYPE_CHUNK_SIZE : UInt8 := 0x01

def RTMP_PACKET_TYPE_AUDIO : UInt8 := 0x08

def RTMP_PACKET_TYPE_VIDEO : UInt8 := 0x09

def RTMP_PACKET_TYPE_INFO : UInt8 := 0x12

def RTMP_DEFAULT_CHUNKSIZE : Nat := 128

/-- `m_body` is as long as it was allocated. -/
structure RTMPPacket where
  m_headerType : HeaderType
  m_packetType : UInt8
  m_hasAbsTimestamp : Bool
  m_nChannel : Nat
  m_nTimeStamp : UInt32
  m_nInfoField2 : UInt32
  m_nBodySize : Nat
  m_nBytesRead : Nat
  m_body : Option (List UInt8)

/-- `RTMPPacket packet = { 0 }`. -/
def RTMPPacket.zero : RTMPPacket where
  m_headerType := .large
  m_packetType := 0
  m_hasAbsTimestamp := false
  m_nChannel := 0
  m_nTimeStamp := 0
  m_nInfoField2 := 0
  m_nBodySize := 0
  m_nBytesRead := 0
  m_body := none

def EncodeInt32LE (nVal : UInt32) : List UInt8 := (beBytes 4 nVal.toNat).reverse

def DecodeInt32LE (data : List UInt8) : UInt32 := UInt32.ofNat (beValue data.reverse)

section Sending

/-- What a connection keeps for sending. -/
structure Sender where
  m_outChunkSize : Nat
  m_vecChannelsOut : Nat → Option RTMPPacket

/-- The header type with what is left out of the header, and the time it is counted from. -/
def compress (prevPacket : Option RTMPPacket) (packet : RTMPPacket) : HeaderType × UInt32 :=
  match prevPacket with
  | none => (packet.m_headerType, 0)
  | some prevPacket =>
      if packet.m_headerType = .large then (packet.m_headerType, 0)
      else
        let sized :=
          if prevPacket.m_nBodySize = packet.m_nBodySize ∧
              prevPacket.m_packetType = packet.m_packetType ∧ packet.m_headerType = .medium then
            HeaderType.small
          else packet.m_headerType
        let timed :=
          if prevPacket.m_nTimeStamp = packet.m_nTimeStamp ∧ sized = .small then
            HeaderType.minimum
          else sized
        (timed, prevPacket.m_nTimeStamp)

/-- The header type and the channel in one, two or three bytes. -/
def basicHeader (headerType : HeaderType) (nChannel : Nat) : List UInt8 :=
  let tmp := nChannel - 64
  if 319 < nChannel then
    [UInt8.ofNat (headerType.code * 64 + 1), UInt8.ofNat (tmp % 256), UInt8.ofNat (tmp / 256)]
  else if 63 < nChannel then
    [UInt8.ofNat (headerType.code * 64), UInt8.ofNat (tmp % 256)]
  else [UInt8.ofNat (headerType.code * 64 + nChannel)]

/-- The rest of the header, with the time since the last packet of the channel. -/
def messageHeader (headerType : HeaderType) (t : UInt32) (packet : RTMPPacket) : List UInt8 :=
  let nSize := headerType.packetSize
  (if 1 < nSize then beBytes 3 (if 0xffffff < t then 0xffffff else t.toNat) else []) ++
  (if 4 < nSize then beBytes 3 packet.m_nBodySize ++ [packet.m_packetType] else []) ++
  (if 8 < nSize then EncodeInt32LE packet.m_nInfoField2 else []) ++
  (if 1 < nSize ∧ 0xffffff ≤ t then beBytes 4 t.toNat else [])

/-- The loop over the chunks. It does not end where chunks are empty. -/
def writeChunks (nChunkSize : Nat) (next : List UInt8) :
    Nat → List UInt8 → List UInt8 → Option (List UInt8)
  | 0, _, _ => none
  | rounds + 1, header, buffer =>
      let wrote := header ++ buffer.take nChunkSize
      let rest := buffer.drop nChunkSize
      if rest = [] then some wrote else (writeChunks nChunkSize next rounds next rest).map (wrote ++ ·)

/-- `RTMP_SendPacket`, with what is written. There is no result where the packet has less
of a body than it says. -/
def sendPacket (r : Sender) (packet : RTMPPacket) : Option (Sender × List UInt8) :=
  let body := packet.m_body.getD []
  if body.length < packet.m_nBodySize then none
  else
    let (headerType, last) := compress (r.m_vecChannelsOut packet.m_nChannel) packet
    let t := packet.m_nTimeStamp - last
    let header := basicHeader headerType packet.m_nChannel ++ messageHeader headerType t packet
    let next := basicHeader .minimum packet.m_nChannel
    let sent := { packet with m_headerType := headerType }
    (writeChunks r.m_outChunkSize next (packet.m_nBodySize + 1) header
      (body.take packet.m_nBodySize)).map fun wrote =>
        ({ r with m_vecChannelsOut :=
            Function.update r.m_vecChannelsOut packet.m_nChannel (some sent) }, wrote)

/-- The packet in which `SendConnectPacket` announces the size of its chunks. -/
def chunkSizePacket (outChunkSize : Nat) : RTMPPacket where
  m_headerType := .large
  m_packetType := RTMP_PACKET_TYPE_CHUNK_SIZE
  m_hasAbsTimestamp := false
  m_nChannel := 2
  m_nTimeStamp := 0
  m_nInfoField2 := 0
  m_nBodySize := 4
  m_nBytesRead := 0
  m_body := some (beBytes 4 outChunkSize)

/-- The size is set before it is announced. -/
def sendChunkSize (r : Sender) (outChunkSize : Nat) : Option (Sender × List UInt8) :=
  sendPacket { r with m_outChunkSize := outChunkSize } (chunkSizePacket outChunkSize)

end Sending

section Receiving

/-- What a connection keeps for receiving. -/
structure Receiver where
  m_inChunkSize : Int
  m_vecChannelsIn : Nat → Option RTMPPacket
  m_channelTimestamp : Nat → UInt32

/-- A call that returns `FALSE`, or that writes outside of a body. -/
inductive ReadError where
  | failed
  | overrun
  deriving DecidableEq

def ReadN (n : Nat) (input : List UInt8) : Except ReadError (List UInt8 × List UInt8) :=
  match readFixed n input with
  | some result => .ok result
  | none => .error .failed

/-- The header type and the channel. -/
def readBasicHeader (input : List UInt8) : Except ReadError (HeaderType × Nat × List UInt8) := do
  let (first, afterFirst) ← ReadN 1 input
  let byte := first.headD 0
  let nChannel := byte.toNat % 64
  if nChannel = 0 then do
    let (second, rest) ← ReadN 1 afterFirst
    return (HeaderType.ofByte byte, (second.headD 0).toNat + 64, rest)
  else if nChannel = 1 then do
    let (second, rest) ← ReadN 2 afterFirst
    return (HeaderType.ofByte byte, beValue second.reverse + 64, rest)
  else return (HeaderType.ofByte byte, nChannel, afterFirst)

/-- A full header has an absolute time. Any other one goes on from the last packet of the
channel, if there was one. -/
def basePacket (r : Receiver) (packet : RTMPPacket) (headerType : HeaderType) (nChannel : Nat) :
    RTMPPacket :=
  let named := { packet with m_headerType := headerType, m_nChannel := nChannel }
  if headerType = .large then { named with m_hasAbsTimestamp := true }
  else (r.m_vecChannelsIn nChannel).getD named

/-- The fields of a header of three bytes or more. -/
def headerFields (nSize : Nat) (packet : RTMPPacket) (header : List UInt8) : RTMPPacket :=
  let timed := { packet with m_nTimeStamp := UInt32.ofNat (beValue (header.take 3)) }
  let sized :=
    if nSize < 6 then timed
    else
      { timed with
        m_nBodySize := beValue ((header.drop 3).take 3)
        m_nBytesRead := 0
        m_packetType := (header.drop 6).headD 0 }
  if nSize = 11 then { sized with m_nInfoField2 := DecodeInt32LE (header.drop 7) } else sized

/-- The time is behind the header where the mark is in its place. -/
def readExtended (packet : RTMPPacket) (input : List UInt8) :
    Except ReadError (RTMPPacket × Bool × List UInt8) :=
  if packet.m_nTimeStamp = (0xffffff : UInt32) then do
    let (extended, rest) ← ReadN 4 input
    return ({ packet with m_nTimeStamp := UInt32.ofNat (beValue extended) }, true, rest)
  else return (packet, false, input)

/-- The header behind its first bytes, and whether it has a long time. -/
def readFields (headerType : HeaderType) (packet : RTMPPacket) (input : List UInt8) :
    Except ReadError (RTMPPacket × Bool × List UInt8) := do
  let nSize := headerType.packetSize - 1
  let (header, afterHeader) ← ReadN nSize input
  if nSize < 3 then return (packet, false, afterHeader)
  else readExtended (headerFields nSize packet header) afterHeader

/-- A body is allocated where there is none yet. -/
def allocBody (headerType : HeaderType) (packet : RTMPPacket) : RTMPPacket :=
  if 0 < packet.m_nBodySize ∧ packet.m_body = none then
    { packet with
      m_body := some (List.replicate packet.m_nBodySize 0)
      m_nBytesRead := 0
      m_headerType := headerType }
  else packet

/-- Bytes are written into a buffer. -/
def writeAt (buffer : List UInt8) (offset : Nat) (bytes : List UInt8) : Option (List UInt8) :=
  if offset + bytes.length ≤ buffer.length then
    some (buffer.take offset ++ bytes ++ buffer.drop (offset + bytes.length))
  else none

/-- The next chunk of the body. -/
def readChunk (m_inChunkSize : Int) (packet : RTMPPacket) (input : List UInt8) :
    Except ReadError (RTMPPacket × List UInt8) := do
  let nToRead : Int := packet.m_nBodySize - packet.m_nBytesRead
  let nChunk := if nToRead < m_inChunkSize then nToRead else m_inChunkSize
  if nChunk < 0 then .error .failed
  else do
    let (chunk, rest) ← ReadN nChunk.toNat input
    let read := { packet with m_nBytesRead := packet.m_nBytesRead + nChunk.toNat }
    if nChunk = 0 then return (read, rest)
    else
      match packet.m_body.bind (writeAt · packet.m_nBytesRead chunk) with
      | none => .error .overrun
      | some body => return ({ read with m_body := some body }, rest)

def RTMPPacket.IsReady (packet : RTMPPacket) : Bool := packet.m_nBytesRead = packet.m_nBodySize

/-- The packet is kept for others on its channel, and its time is made absolute. -/
def keepPacket (r : Receiver) (packet : RTMPPacket) (extendedTimestamp : Bool) :
    Receiver × RTMPPacket :=
  let kept := if extendedTimestamp then { packet with m_nTimeStamp := 0xffffff } else packet
  if packet.IsReady then
    let time :=
      if packet.m_hasAbsTimestamp then packet.m_nTimeStamp
      else packet.m_nTimeStamp + r.m_channelTimestamp packet.m_nChannel
    ({ r with
        m_vecChannelsIn := Function.update r.m_vecChannelsIn packet.m_nChannel
          (some { kept with m_body := none, m_nBytesRead := 0, m_hasAbsTimestamp := false })
        m_channelTimestamp := Function.update r.m_channelTimestamp packet.m_nChannel time },
      { packet with m_nTimeStamp := time })
  else
    ({ r with
        m_vecChannelsIn := Function.update r.m_vecChannelsIn packet.m_nChannel (some kept) },
      { packet with m_body := none })

/-- `RTMP_ReadPacket`: the connection, the packet and what is left of the input. -/
def readPacket (r : Receiver) (packet : RTMPPacket) (input : List UInt8) :
    Except ReadError (Receiver × RTMPPacket × List UInt8) := do
  let (headerType, nChannel, afterBasic) ← readBasicHeader input
  let base := basePacket r packet headerType nChannel
  let (fields, extendedTimestamp, afterFields) ← readFields headerType base afterBasic
  let (read, rest) ← readChunk r.m_inChunkSize (allocBody headerType fields) afterFields
  let (kept, final) := keepPacket r read extendedTimestamp
  return (kept, final, rest)

def HandleChangeChunkSize (r : Receiver) (packet : RTMPPacket) : Receiver :=
  if 4 ≤ packet.m_nBodySize then
    { r with m_inChunkSize := (UInt32.ofNat (beValue ((packet.m_body.getD []).take 4))).toInt32.toInt }
  else r

/-- The branch of `RTMP_ClientPacket` that matters to the packets behind. -/
def clientPacket (r : Receiver) (packet : RTMPPacket) : Receiver :=
  if packet.m_packetType = RTMP_PACKET_TYPE_CHUNK_SIZE then HandleChangeChunkSize r packet else r

/-- Reading in a loop, as `RTMP_ConnectStream` and `RTMP_GetNextMediaPacket` do, with the
packets that go to `RTMP_ClientPacket` and are freed. It ends with a read that fails. -/
def receive : Nat → Receiver → RTMPPacket → List UInt8 → List RTMPPacket × Option ReadError
  | 0, _, _, _ => ([], none)
  | rounds + 1, r, packet, input =>
      match readPacket r packet input with
      | .error error => ([], some error)
      | .ok (after, read, rest) =>
          if read.IsReady = false ∨ read.m_nBodySize = 0 then receive rounds after read rest
          else
            let more := receive rounds (clientPacket after read) { read with m_body := none } rest
            (read :: more.1, more.2)

end Receiving

end Mgw.RtmpPacket

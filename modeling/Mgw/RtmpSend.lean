import Mgw.AvcPacket

/-!
# The sending thread of the RTMP output

The rounds of `send_thread` in `rtmp-stream.c`: for a packet that the ring
delivers the sequence headers are sent when they are due, and then the packet
itself. `send_packet_internal` rebases the timestamps; an offset of zero means
that it has not been set. What the source and the connection answer is a
parameter of the round.
-/

namespace Mgw.RtmpSend

open AvcPacket ByteArea WordArithmetic

set_option autoImplicit false

def FRAME_PRIORITY_LOW : Int := 1

structure RtmpStream where
  start_dts_offset : Nat
  sent_headers : Bool
  last_dts : Int
  disconnected : Bool

/-- The stream as it is when a connection has been made. -/
def RtmpStream.connected : RtmpStream where
  start_dts_offset := 0
  sent_headers := false
  last_dts := 0
  disconnected := false

/-- What is handed to the muxer and from there to `RTMP_Write`. -/
structure RtmpTag where
  type : EncoderType
  keyframe : Bool
  isHeader : Bool
  payload : List UInt8
  pts : Int
  deriving DecidableEq

/-- Whether pending input could be read, and whether `RTMP_Write` succeeded. -/
structure Link where
  received : Bool
  written : Bool

/-- The answers in one round: the encoder settings, the two headers (`none` where
the handler fails) and the connection at each of the writes. -/
structure Replies where
  settings : Bool
  audioHeader : Option (List UInt8)
  videoHeader : Option (List UInt8)
  audioLink : Link
  videoLink : Link
  mediaLink : Link

/-- A packet out of the ring, in the memory of the thread, with the answers of its round. -/
structure Round where
  memory : Bytes
  packet : EncoderPacket
  pts : Int
  priority : Int
  replies : Replies

/-- `packet->pts / 1000` as `uint64_t`. -/
def tickOf (pts : Int) : Nat := (pts.tdiv 1000 % 18446744073709551616).toNat

/-- The conversion of a `uint64_t` to `int64_t`. -/
def asInt64 (value : Nat) : Int :=
  if value < 9223372036854775808 then value else (value : Int) - 18446744073709551616

/-- The stream behind a call, its result and the tags that were written in it. -/
structure Sent where
  stream : RtmpStream
  ret : Bool
  tags : List RtmpTag

def sendPacketInternal (stream : RtmpStream) (tag : RtmpTag) (link : Link) : Sent :=
  let tick := tickOf tag.pts
  if stream.start_dts_offset = 0 ∧ tag.isHeader = false ∧ tag.type = .audio then
    { stream := stream, ret := true, tags := [] }
  else
    let based : RtmpStream :=
      if stream.start_dts_offset = 0 ∧ tag.isHeader = false then
        { stream with start_dts_offset := tick }
      else stream
    if link.received = false then { stream := based, ret := false, tags := [] }
    else
      let pts := asInt64 (subSize tick based.start_dts_offset)
      { stream := { based with last_dts := pts }
        ret := link.written
        tags := [{ tag with pts := pts }] }

def sendAudioHeader (stream : RtmpStream) (ts : Int) (replies : Replies) : Sent :=
  match replies.settings, replies.audioHeader with
  | true, some payload =>
      sendPacketInternal stream
        { type := .audio, keyframe := false, isHeader := true, payload := payload, pts := ts }
        replies.audioLink
  | _, _ => { stream := stream, ret := false, tags := [] }

def sendVideoHeader (stream : RtmpStream) (ts : Int) (replies : Replies) : Sent :=
  match replies.videoHeader with
  | some payload =>
      sendPacketInternal stream
        { type := .video, keyframe := true, isHeader := true, payload := payload, pts := ts }
        replies.videoLink
  | none => { stream := stream, ret := false, tags := [] }

def sendHeaders (stream : RtmpStream) (ts : Int) (replies : Replies) : Sent :=
  let audio := sendAudioHeader { stream with sent_headers := true } ts replies
  if audio.ret = false then audio
  else
    let video := sendVideoHeader audio.stream ts replies
    { video with tags := audio.tags ++ video.tags }

/-- The headers are due at the first packet, and again at a key frame of low priority. -/
def headersDue (stream : RtmpStream) (round : Round) : Bool :=
  !stream.sent_headers ||
    (round.priority = FRAME_PRIORITY_LOW && round.packet.keyframe && round.packet.type = .video)

/-- The key frame or packet, if its conversion finds what it looks for. -/
def sendMediaPacket (stream : RtmpStream) (round : Round) : Sent :=
  match sendMedia round.memory round.packet with
  | none => { stream := stream, ret := true, tags := [] }
  | some payload =>
      sendPacketInternal stream
        { type := round.packet.type
          keyframe := round.packet.keyframe
          isHeader := false
          payload := payload
          pts := round.pts }
        round.replies.mediaLink

/-- A round: the tags of the headers, and those of the packet. -/
structure RoundResult where
  stream : RtmpStream
  ret : Bool
  headers : List RtmpTag
  media : List RtmpTag

def sendRound (stream : RtmpStream) (round : Round) : RoundResult :=
  let headers : Sent :=
    if headersDue stream round then
      sendHeaders stream (if stream.sent_headers then round.pts else 0) round.replies
    else { stream := stream, ret := true, tags := [] }
  if headers.ret = false then
    { stream := headers.stream, ret := false, headers := headers.tags, media := [] }
  else
    let media := sendMediaPacket headers.stream round
    { stream := media.stream, ret := media.ret, headers := headers.tags, media := media.tags }

/-- A failure ends the thread, which then forgets that the headers were sent. -/
def sendThread (stream : RtmpStream) (round : Round) : RoundResult :=
  if stream.disconnected then { stream := stream, ret := false, headers := [], media := [] }
  else
    let result := sendRound stream round
    if result.ret then result
    else
      { result with
        stream := { result.stream with disconnected := true, sent_headers := false } }

end Mgw.RtmpSend

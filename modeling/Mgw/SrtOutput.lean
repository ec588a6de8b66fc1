import Mgw.ByteArea
import Mgw.WordArithmetic

/-!
# The SRT output stream

`srt_stream_proc_packet` of `srt-stream.c`, the callback that gets the buffers of
the MPEG-TS muxer: a loop that sends messages of the payload size, a tail that
sends the full TS packets that are left, and the saving of what is less than a
TS packet. The results of `mgw_libsrt_write` are a parameter. The loop does not
end for every payload size, so it has a fuel.
-/

namespace Mgw.SrtOutput

open ByteArea WordArithmetic

set_option autoImplicit false

def MPEGTS_FIX_SIZE : Nat := 188
def SRT_ERROR_THRESHOLD : Nat := 100
def SRT_MAX_PACKET_SIZE : Nat := 564000

structure SrtContext where
  payload_size : Int

def mgwLibsrtGetPayloadSize (srt_context : Option SrtContext) : Int :=
  match srt_context with
  | some context => context.payload_size
  | none => 0

structure SrtStream where
  srt_context : Option SrtContext
  send_error_cnt : Nat
  total_sent_bytes : Nat
  active : Bool
  stopping : Bool
  disconnected : Bool
  left_data : Bytes
  left_size : Nat

/-- One call of `mgw_libsrt_write`: `size` bytes from offset `seek` of the source buffer. -/
structure Message where
  send_data : Bytes
  seek : Int
  size : Int

def Message.bytes (message : Message) : List UInt8 :=
  takeBytes (advance message.send_data message.seek.toNat) message.size.toNat

def sentBytes (messages : List Message) : List UInt8 := messages.flatMap Message.bytes

/-- The variables of one call of `srt_stream_proc_packet`. -/
structure SendState where
  stream : SrtStream
  send_data : Bytes
  send_seek : Int
  left_size : Int
  ret : Int
  messages : List Message

/-- The errors after which the connection is given up at once. -/
def specialError (ret : Int) : Bool :=
  ret = -5009 || ret = -2001 || ret = -5004 || ret = -17 || (ret ≤ -90 && -113 ≤ ret)

namespace SrtStream

/-- What the stream counts of a write that is not a special error. -/
def countWrite (stream : SrtStream) (ret payload_size : Int) : SrtStream :=
  if ret < 0 then { stream with send_error_cnt := (stream.send_error_cnt + 1) % 256 }
  else { stream with
    total_sent_bytes := ((stream.total_sent_bytes + payload_size) % 18446744073709551616).toNat }

/-- The remaining data from last time goes in front of the buffer. -/
def gather (stream : SrtStream) (buf : Bytes) (buf_size : Nat) : SendState :=
  if stream.left_size ≠ 0 then
    let room := sub32 SRT_MAX_PACKET_SIZE stream.left_size
    let cp_size := if room < buf_size then room else buf_size
    let left_data := copyIn stream.left_data stream.left_size buf cp_size
    { stream := { stream with left_data := left_data, left_size := 0 }
      send_data := left_data
      send_seek := 0
      left_size := stream.left_size + cp_size
      ret := 0
      messages := [] }
  else
    { stream := stream
      send_data := buf
      send_seek := 0
      left_size := buf_size
      ret := 0
      messages := [] }

end SrtStream

namespace SendState

variable (results : Nat → Int) (payload_size : Int)

/-- The next `size` bytes are written; a special error goes to the label `error`. -/
def write (size : Int) (state : SendState) : Except SendState SendState :=
  let ret := results state.messages.length
  let written := { state with
    ret := ret
    messages := state.messages ++ [⟨state.send_data, state.send_seek, size⟩] }
  if specialError ret then .error written
  else
    .ok { written with
      stream := state.stream.countWrite ret payload_size
      send_seek := state.send_seek + size }

/-- The messages of the payload size; `none` if the fuel does not suffice. -/
def sendLoop : Nat → SendState → Option (Except SendState SendState)
  | 0, _ => none
  | fuel + 1, state =>
      if payload_size < state.left_size then
        match state.write results payload_size payload_size with
        | .error failed => some (.error failed)
        | .ok sent => sendLoop fuel { sent with left_size := sent.left_size - payload_size }
      else some (.ok state)

/-- What is less than a TS packet is kept for the next call. -/
def saveLeft (ts_left : Int) (state : SendState) : SendState :=
  if 0 < ts_left then
    { state with
      stream := { state.stream with
        left_data := copyIn state.stream.left_data 0
          (advance state.send_data state.send_seek.toNat) ts_left.toNat
        left_size := ts_left.toNat } }
  else state

/-- The full TS packets that are left are sent, the rest is saved. -/
def sendTail (state : SendState) : Except SendState SendState :=
  if 0 < state.left_size then
    let ts_left := state.left_size % MPEGTS_FIX_SIZE
    let full_ts_sizes := if ts_left ≠ 0 then state.left_size - ts_left else state.left_size
    if 0 < full_ts_sizes then
      (state.write results payload_size full_ts_sizes).map (saveLeft ts_left)
    else .ok (state.saveLeft ts_left)
  else .ok state

end SendState

/-- What a call returns, the stream behind it and the messages it has given to `mgw_libsrt_write`. -/
structure Outcome where
  ret : Int
  stream : SrtStream
  messages : List Message

/-- The label `error`. -/
def Outcome.failed (state : SendState) : Outcome where
  ret := state.ret
  stream := { state.stream with disconnected := true }
  messages := state.messages

def srtStreamProcPacket (fuel : Nat) (results : Nat → Int) (stream : SrtStream) (buf : Bytes)
    (buf_size : Nat) : Option Outcome :=
  if !stream.active || stream.stopping || stream.disconnected then some ⟨-1, stream, []⟩
  else if SRT_ERROR_THRESHOLD < stream.send_error_cnt then
    some ⟨0, { stream with send_error_cnt := 0, disconnected := true }, []⟩
  else
    let payload_size := mgwLibsrtGetPayloadSize stream.srt_context
    (SendState.sendLoop results payload_size fuel (stream.gather buf buf_size)).map fun looped =>
      match looped.bind (SendState.sendTail results payload_size) with
      | .error failed => Outcome.failed failed
      | .ok sent => ⟨buf_size, sent.stream, sent.messages⟩

/-- The counters and flags that `init_connect` sets before it opens the connection. -/
def initConnect (stream : SrtStream) : SrtStream :=
  { stream with
    disconnected := false
    total_sent_bytes := 0
    left_size := 0
    send_error_cnt := 0 }

end Mgw.SrtOutput

import Mgw.TransitionRuns

/-!
# The client of an RTMP server

`HandleInvoke` of `rtmp.c` with the calls that a connection waits for, and `try_connect`,
`rtmp_stream_stop` and the writes of `rtmp-stream.c` around it. The server sends what it
likes, and the connection may break at any packet. What `PublisherAuth` makes of an error
is part of the message.
-/

namespace Mgw.RtmpClient

set_option autoImplicit false

open TransitionRuns (tryRun)

/-- The names that are waited for in `m_methodCalls`. -/
inductive Method where
  | connect
  | createStream
  | publish
  | play
  | checkbw
  | setPlaylist
  deriving DecidableEq

/-- `RTMP_Stream`; there is no playpath where the pointer is null or freed. -/
structure Stream where
  id : Int
  playpath : Option (List UInt8)

/-- A packet with what matters of it. -/
inductive Sent where
  | chunkSize
  | connect (txn : Nat)
  | releaseStream (txn : Nat) (playpath : Option (List UInt8))
  | FCPublish (txn : Nat) (playpath : Option (List UInt8))
  | createStream (txn : Nat)
  | publish (txn : Nat) (id : Int) (playpath : Option (List UInt8))
  | checkbw (txn : Nat)
  | answer
  | media (id : Int)

/-- A packet goes out, or it does not and the connection stays, or that breaks. -/
inductive Delivery where
  | goes
  | stalls
  | breaks

def RTMP_MAX_STREAMS : Nat := 8

/-- The part of `RTMP` that a client goes by, with what becomes of the packets that are
sent next, and the packets that went out since the last attempt to connect. -/
structure Client where
  connected : Bool
  link : List Delivery
  m_numInvokes : Nat
  m_methodCalls : List (Method × Nat)
  streams : List Stream
  nStreams : Nat
  curStreamIdx : Nat
  m_bPlaying : Bool
  m_nBWCheckCounter : Nat
  /-- `RTMP_PUB_CLEAN` and `RTMP_PUB_CLATE`. -/
  clean : Bool
  clate : Bool
  sent : List Sent

namespace Client

/-- `RTMP_Init`. -/
def fresh : Client where
  connected := false
  link := []
  m_numInvokes := 0
  m_methodCalls := []
  streams := List.replicate RTMP_MAX_STREAMS { id := 0, playpath := none }
  nStreams := 0
  curStreamIdx := 0
  m_bPlaying := false
  m_nBWCheckCounter := 0
  clean := false
  clate := false
  sent := []

variable (r : Client)

/-- The streams that were added, changed. -/
def mapStreams (change : Stream → Stream) : List Stream :=
  (r.streams.take r.nStreams).map change ++ r.streams.drop r.nStreams

/-- `RTMP_Close`, without the packets that take leave of the streams. -/
def close : Client :=
  let closed := { r with
    connected := false
    link := []
    m_numInvokes := 0
    m_methodCalls := []
    streams := r.mapStreams fun stream => { stream with id := -1 }
    m_bPlaying := false
    m_nBWCheckCounter := 0 }
  if r.clean then
    { closed with
      streams := closed.mapStreams fun stream => { stream with playpath := none }
      curStreamIdx := 0
      nStreams := 0 }
  else closed

/-- `RTMP_SendPacket`, and whether it succeeds. A write that fails closes the connection. -/
def send (packet : Sent) : Client × Bool :=
  match r.connected, r.link with
  | true, .goes :: link => ({ r with link := link, sent := r.sent ++ [packet] }, true)
  | true, .stalls :: link => ({ r with link := link }, false)
  | _, _ => (r.close, false)

/-- A packet with the number of a call, which is kept where a result is waited for. -/
def invoke (queue : Option Method) (packet : Nat → Sent) : Client × Bool :=
  let txn := r.m_numInvokes + 1
  let (after, gone) := { r with m_numInvokes := txn }.send (packet txn)
  match gone, queue with
  | true, some name => ({ after with m_methodCalls := after.m_methodCalls ++ [(name, txn)] }, true)
  | gone, _ => (after, gone)

def playpath (streamIdx : Nat) : Option (List UInt8) := r.streams[streamIdx]?.bind Stream.playpath

def sendReleaseStream (streamIdx : Nat) : Client :=
  (r.invoke none fun txn => .releaseStream txn (r.playpath streamIdx)).1

def sendFCPublish (streamIdx : Nat) : Client :=
  (r.invoke none fun txn => .FCPublish txn (r.playpath streamIdx)).1

def sendCreateStream : Client := (r.invoke (some .createStream) .createStream).1

def sendPublish (streamIdx : Nat) : Client :=
  (r.invoke (some .publish) fun txn =>
    .publish txn (r.streams[streamIdx]?.elim 0 Stream.id) (r.playpath streamIdx)).1

def sendCheckBW : Client := (r.invoke none .checkbw).1

/-- `SendPong` and the other packets without a number of their own. -/
def sendAnswer : Client := (r.send .answer).1

/-- The loop over the streams, of which there may be none any more within it. -/
def eachStream (send : Client → Nat → Client) : Nat → Nat → Client → Client
  | 0, _, r => r
  | rounds + 1, i, r => if i < r.nStreams then eachStream send rounds (i + 1) (send r i) else r

end Client

/-- The outcomes of `RTMP_Connect` up to the packet that connects: no address, no socket, a
failure behind which the connection is closed, and a connection. -/
inductive Dial where
  | unreachable
  | noSocket
  | refused
  | up (link : List Delivery)

/-- The ends of `PublisherAuth`: it gives up for good or for now, or there is another try,
maybe with the last answer it has. -/
inductive Auth where
  | refused
  | unknown
  | retry (late : Bool) (dial : Dial)

/-- The codes in `onStatus`. -/
inductive Code where
  | failed
  | playStart
  | publishStart
  | playComplete
  | other

/-- What a server invokes. `exact` tells whether a number is a whole one. -/
inductive Invoke where
  | result (txn : Int) (id : Int)
  | onBWDone
  | onFCUnsubscribe
  | ping
  | onbwcheck
  | onbwdone
  | error (txn : Int) (exact : Bool) (auth : Auth)
  | close
  | onStatus (code : Code)
  | playlistReady
  | other

section Handling

variable (r : Client)

/-- `RTMP_Connect` with `SendConnectPacket`. -/
def rtmpConnect : Dial → Client
  | .unreachable => { r with sent := [] }
  | .noSocket => { r with connected := false, sent := [] }
  | .refused => { r with sent := [] }.close
  | .up link =>
      let (sized, gone) :=
        { r with connected := true, link := link, sent := [] }.send .chunkSize
      if gone = false then sized.close
      else
        let (asked, gone) := sized.invoke (some .connect) .connect
        if gone = false then asked.close else asked

/-- `AV_erase` of the first call with this name. -/
def eraseMethod (name : Method) : Client :=
  { r with m_methodCalls := r.m_methodCalls.eraseP fun call => call.1 = name }

/-- The call that a result is for, which is waited for no longer. -/
def takeCall (matching : Nat → Bool) : Option Method × Client :=
  ((r.m_methodCalls.find? fun call => matching call.2).map Prod.fst,
    { r with m_methodCalls := r.m_methodCalls.eraseP fun call => matching call.2 })

/-- The result of `connect`. -/
def connectResult : Client :=
  let released := Client.eachStream Client.sendReleaseStream r.nStreams 0 r
  let published := Client.eachStream Client.sendFCPublish released.nStreams 0 released
  Client.eachStream (fun r _ => r.sendCreateStream) published.nStreams 0 published

/-- The result of `createStream`. There is none where the stream is behind the array. -/
def createStreamResult (id : Int) : Option Client :=
  if r.curStreamIdx < r.streams.length then
    let named := { r with
      streams := r.streams.modify r.curStreamIdx fun stream => { stream with id := id } }
    let published := named.sendPublish r.curStreamIdx
    some { published with curStreamIdx := published.curStreamIdx + 1 }
  else none

def handleResult (txn id : Int) : Option Client :=
  match takeCall r fun num => num = txn with
  | (none, _) => some r
  | (some .connect, taken) => some (connectResult taken)
  | (some .createStream, taken) => createStreamResult taken id
  | (some .play, taken) => some { taken with m_bPlaying := true }
  | (some .publish, taken) => some { taken with m_bPlaying := true }
  | (some _, taken) => some taken

/-- An error of `connect`, with the next connection where there is one. -/
def connectError : Auth → Client
  | .refused => { r with clean := true }
  | .unknown => r
  | .retry late dial =>
      let closed := { r with clate := r.clate || late }.close
      rtmpConnect { closed with clean := closed.clean || closed.clate } dial

def handleError (txn : Int) (exact : Bool) (auth : Auth) : Client :=
  match takeCall r fun num => exact && decide ((num : Int) = txn) with
  | (none, _) => r
  | (some .connect, taken) => connectError taken auth
  | (some _, taken) => taken

def handleStatus : Code → Client
  | .failed => r.close
  | .playStart => eraseMethod { r with m_bPlaying := true } .play
  | .publishStart => eraseMethod { r with m_bPlaying := true } .publish
  | .playComplete => r.close
  | .other => r

/-- `HandleInvoke`. -/
def handleInvoke : Invoke → Option Client
  | .result txn id => handleResult r txn id
  | .onBWDone => some (if r.m_nBWCheckCounter = 0 then r.sendCheckBW else r)
  | .onFCUnsubscribe => some r.close
  | .ping => some r.sendAnswer
  | .onbwcheck => some { r with m_nBWCheckCounter := r.m_nBWCheckCounter + 1 }.sendAnswer
  | .onbwdone => some (eraseMethod r .checkbw)
  | .error txn exact auth => some (handleError r txn exact auth)
  | .close => some r.close
  | .onStatus code => some (handleStatus r code)
  | .playlistReady => some (eraseMethod r .setPlaylist)
  | .other => some r

end Handling

/-- What happens between a connection and its end. -/
inductive Traffic where
  /-- An invoke that `RTMP_ConnectStream` reads. -/
  | message (invoke : Invoke)
  /-- A packet of another type that `RTMP_ConnectStream` reads and answers. -/
  | control
  /-- A read that fails. -/
  | lost
  /-- `RTMP_Write`. -/
  | media

/-- A run of `connect_thread` and `send_thread`. -/
structure Attempt where
  /-- What `RTMP_ParsePlaypath` makes of the stream key. -/
  playpath : List UInt8
  dial : Dial
  traffic : List Traffic

section Attempts

variable (r : Client)

def rtmpAddStream (playpath : List UInt8) : Option Client :=
  if r.nStreams < r.streams.length then
    some { r with
      streams := r.streams.modify r.nStreams fun _ => { id := -1, playpath := some playpath }
      nStreams := r.nStreams + 1 }
  else none

def rtmpStreamStop : Client :=
  { r with
    streams := r.mapStreams fun stream => { stream with playpath := none }
    curStreamIdx := 0
    nStreams := 0 }

/-- The stream id that `RTMP_Write` takes. -/
def mediaId : Int := r.streams.head?.elim 0 Stream.id

/-- There is no result where a stream is written behind the array. Messages are read until
the stream is playing, and media are written from then on. -/
def step : Traffic → Option Client
  | .message invoke => if r.connected ∧ r.m_bPlaying = false then handleInvoke r invoke else some r
  | .control => some (if r.connected ∧ r.m_bPlaying = false then r.sendAnswer else r)
  | .lost => some r.close
  | .media => some (if r.m_bPlaying then (r.send (.media (mediaId r))).1 else r)

/-- `try_connect`, and what comes behind it. -/
def attempt (tried : Attempt) : Option Client :=
  (rtmpAddStream r tried.playpath).bind fun added =>
    tryRun step (rtmpConnect added tried.dial) tried.traffic

/-- An attempt whose thread closed the connection at its end, and the stop that
`output_reconnect` puts before the next one. -/
def endedAttempt (tried : Attempt) : Option Client :=
  (attempt r tried).map fun reached => rtmpStreamStop reached.close

/-- The attempts of an output so far. -/
def attempts (past : List Attempt) : Option Client := tryRun endedAttempt r past

end Attempts

end Mgw.RtmpClient

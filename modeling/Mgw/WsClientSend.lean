import Mgw.ByteArea
import Mgw.WsMessage

/-!
# Sending in the websocket client

The senders and callbacks of `ws-client.c` that share `snd_sem`, `snd_size` and
`snd_req`. The callbacks and the heartbeat run on the service thread; a thread in
`wsclient_send` interleaves with them between its steps. What has been received is
given as the handler finds it.
-/

namespace Mgw.WsClientSend

open ByteArea WordArithmetic WsMessage

set_option autoImplicit false

structure WsClient where
  access_token : List UInt8
  port : Nat
  ip_val : Nat
  message_no : Nat
  snd_buffer : Bytes
  snd_size : Nat
  snd_sem : Nat
  snd_req : Bool
  actived : Bool

/-- A handler: the client behind it, whether it waits for `snd_sem`, the message it
has queued, and what it has handed to `lws_write`. -/
structure Handled where
  client : WsClient
  waits : Bool
  queued : Option (List UInt8)
  written : Option (List UInt8)

def WsClient.quiet (client : WsClient) : Handled where
  client := client
  waits := false
  queued := none
  written := none

/-- `memcpy(payload + offset, bytes, size)`. -/
def WsClient.put (client : WsClient) (offset : Nat) (bytes : List UInt8) : WsClient :=
  let copied := copyIn client.snd_buffer offset (fun index => bytes.getD index 0) bytes.length
  { client with snd_buffer := copied }

/-- `client->message_no++`, where the message is numbered. -/
def WsClient.countMessage (client : WsClient) (type : SubmsgType) : WsClient :=
  if type.numbered then { client with message_no := u32 (client.message_no + 1) } else client

def sendMessage (client : WsClient) (body : List UInt8) (type : SubmsgType) : Handled :=
  let common := commonHead type client.message_no body.length
  let numbered := client.countMessage type
  if numbered.snd_sem = 0 then { numbered.quiet with waits := true }
  else
    let filled := (numbered.put 0 common).put COMMON_HEAD_SIZE body
    { filled.quiet with
      client := { filled with
        snd_sem := numbered.snd_sem - 1
        snd_size := COMMON_HEAD_SIZE + body.length
        snd_req := true }
      queued := some (common ++ body) }

/-- The length of the token is taken as `uint8_t`. -/
def WsClient.tokenUsable (client : WsClient) : Bool := client.access_token.length % 256 = 40

def requestAuthorization (client : WsClient) : Handled :=
  if client.tokenUsable then
    sendMessage client (authenReq client.access_token) .SUBMSG_TYPE_AUTHEN
  else client.quiet

def sendPing (client : WsClient) : Handled :=
  sendMessage client (pingBody client.port client.ip_val) .SUBMSG_TYPE_PING

def sendPong (client : WsClient) : Handled := sendMessage client [] .SUBMSG_TYPE_PONG

/-- `msg_resp_t`; the status of the response is its size. -/
structure MsgResp where
  body : Option (List UInt8)
  size : Nat

def leBytes : Nat → Nat → List UInt8
  | 0, _ => []
  | width + 1, value => UInt8.ofNat value :: leBytes width (value / 256)

/-- The copies of a response; its size is not noted. -/
def responseMessage (client : WsClient) (resp : MsgResp) (com_body : List UInt8) : Handled :=
  let resp_text := com_body ++ [0, 0, 0, 0] ++ leBytes 4 resp.size
  if client.snd_sem = 0 then { client.quiet with waits := true }
  else
    let copied := client.put 0 resp_text
    let filled := match resp.body with
      | none => copied
      | some body => copied.put COMMON_HEAD_SIZE (body.take resp.size)
    { filled.quiet with
      client := { filled with snd_sem := client.snd_sem - 1, snd_req := true }
      queued := some (takeBytes filled.snd_buffer resp_text.length) }

/-- What `receive_message` finds. A text message that is not a repetition comes with
the answer of the application; `com_body` is its head. -/
inductive Received where
  | nop
  | ping
  | pong (authen : Bool) (ip port : Nat)
  | authen (authen_type : Nat)
  | text (repeated : Bool) (resp : MsgResp) (ack_req : Bool) (com_body : List UInt8)

def Handled.then (handled : Handled) (change : WsClient → WsClient) : Handled :=
  if handled.waits then handled else { handled with client := change handled.client }

def receiveMessage (client : WsClient) : Received → Handled
  | .nop => client.quiet
  | .ping => sendPong client
  | .pong authen ip port =>
      (if authen then client.quiet else requestAuthorization client).then fun client =>
        { client with ip_val := ip, port := port }
  | .authen authen_type =>
      if authen_type = AUTHEN_TYPE_UNAUTHOR then requestAuthorization client else client.quiet
  | .text repeated resp ack_req com_body =>
      if repeated then client.quiet
      else if ack_req then responseMessage client resp com_body
      else client.quiet

/-- The reasons of `lws_callback`. -/
inductive Reason where
  | LWS_CALLBACK_CLIENT_CONNECTION_ERROR
  | LWS_CALLBACK_CLIENT_ESTABLISHED
  | LWS_CALLBACK_CLIENT_RECEIVE (received : Received)
  | LWS_CALLBACK_CLIENT_WRITEABLE
  | LWS_CALLBACK_CLIENT_CLOSED

def lwsCallback (client : WsClient) : Reason → Handled
  | .LWS_CALLBACK_CLIENT_CONNECTION_ERROR => { client with actived := false }.quiet
  | .LWS_CALLBACK_CLIENT_ESTABLISHED =>
      (requestAuthorization client).then fun client => { client with actived := true }
  | .LWS_CALLBACK_CLIENT_RECEIVE received => receiveMessage client received
  | .LWS_CALLBACK_CLIENT_WRITEABLE =>
      if 0 < client.snd_size then
        { client.quiet with
          client := { client with
            snd_size := 0
            snd_sem := client.snd_sem + 1
            snd_req := false }
          written := some (takeBytes client.snd_buffer client.snd_size) }
      else client.quiet
  | .LWS_CALLBACK_CLIENT_CLOSED => { client with actived := false }.quiet

/-- The heartbeat of `loop_thread`, where `elapsed` is the answer of `time_elapse_ms`. -/
def loopHeartbeat (client : WsClient) (elapsed : Bool) : Handled :=
  if client.actived && !client.snd_req && elapsed then sendPing client else client.quiet

/-- A thread in `wsclient_send` that has taken the semaphore; `checked` when it has
found the client active. -/
structure Sender where
  buf : List UInt8
  checked : Bool

/-- The client, the threads in `wsclient_send`, whether the service thread waits for
the semaphore, and all that was ever queued and written. -/
structure Session where
  client : WsClient
  senders : List Sender
  waits : Bool
  queued : List (List UInt8)
  written : List (List UInt8)

/-- What happens next: a callback, the heartbeat, or a step of the thread at some
place in `senders`, which takes the semaphore, looks whether the client is active
and queues its message. -/
inductive Event where
  | callback (reason : Reason)
  | heartbeat (elapsed : Bool)
  | wsclientSend (buf : List UInt8)
  | senderChecks (place : Nat)
  | senderQueues (place : Nat)

namespace Session

/-- A handler on the service thread, unless that waits. -/
def serve (session : Session) (handler : WsClient → Handled) : Session :=
  if session.waits then session
  else
    let handled := handler session.client
    { session with
      client := handled.client
      waits := handled.waits
      queued := session.queued ++ handled.queued.toList
      written := session.written ++ handled.written.toList }

def queueSender (client : WsClient) (buf : List UInt8) : WsClient :=
  { client.put 0 buf with snd_size := buf.length, snd_req := true }

def next (session : Session) : Event → Session
  | .callback reason => session.serve fun client => lwsCallback client reason
  | .heartbeat elapsed => session.serve fun client => loopHeartbeat client elapsed
  | .wsclientSend buf =>
      if buf = [] ∨ session.client.snd_sem = 0 then session
      else
        { session with
          client := { session.client with snd_sem := session.client.snd_sem - 1 }
          senders := session.senders ++ [{ buf := buf, checked := false }] }
  | .senderChecks place =>
      match session.senders[place]? with
      | some { buf := buf, checked := false } =>
          if session.client.actived then
            { session with senders := session.senders.set place { buf := buf, checked := true } }
          else { session with senders := session.senders.eraseIdx place }
      | _ => session
  | .senderQueues place =>
      match session.senders[place]? with
      | some { buf := buf, checked := true } =>
          { session with
            client := queueSender session.client buf
            senders := session.senders.eraseIdx place
            queued := session.queued ++ [buf] }
      | _ => session

end Session

/-- The client that `wsclient_create` leaves. -/
def wsclientCreate (access_token : List UInt8) (port ip_val : Nat) : Session where
  client :=
    { access_token := access_token
      port := port
      ip_val := ip_val
      message_no := 0
      snd_buffer := fun _ => 0
      snd_size := 0
      snd_sem := 1
      snd_req := false
      actived := false }
  senders := []
  waits := false
  queued := []
  written := []

end Mgw.WsClientSend

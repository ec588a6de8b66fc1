import Mgw.WsMessage
import Mgw.WsRepeated

/-!
# Receiving in the websocket client

`lws_callback` and `receive_message` on a frame that has come in. The source never
looks at the length of the frame; a byte that is read outside of it gives no result
here. The pointer handed to the application is taken out of the frame.
-/

namespace Mgw.WsReceive

open BigEndian WsMessage WsRepeated

set_option autoImplicit false

/-- The bytes of a field, if all are in the frame. -/
def bytesAt (frame : List UInt8) (offset count : Nat) : Option (List UInt8) :=
  (readFixed count (frame.drop offset)).map Prod.fst

/-- A C string up to its end. -/
def cString : List UInt8 → Option (List UInt8)
  | [] => none
  | byte :: rest => if byte = 0 then some [] else (cString rest).map (byte :: ·)

/-- `strcmp` with a string in the frame: whether they are equal. -/
def strcmp : List UInt8 → List UInt8 → Option Bool
  | _, [] => none
  | [], byte :: _ => some (byte = 0)
  | stored :: more, byte :: rest => if byte = stored then strcmp more rest else some false

def leValue (bytes : List UInt8) : Nat := beValue bytes.reverse

/-- The members of `text_recv_body_t`. -/
def MSG_HEADLEN_AT : Nat := 5
def TEXT_LEN_AT : Nat := 6
def MSG_NO_AT : Nat := 8
def MSG_ATTR_AT : Nat := 12
def LOCAL_ADDR_AT : Nat := 24
def CMD_TYPE_AT : Nat := 57
def BODY_AT : Nat := 72
def TEXT_COM_BODY_SIZE : Nat := 60
def TEXT_RECV_BODY_SIZE : Nat := 80

def submsgType (byte : UInt8) : Option SubmsgType :=
  if byte = 0 then some .SUBMSG_TYPE_NOP
  else if byte = 1 then some .SUBMSG_TYPE_PING
  else if byte = 2 then some .SUBMSG_TYPE_PONG
  else if byte = 3 then some .SUBMSG_TYPE_AUTHEN
  else if byte = 4 then some .SUBMSG_TYPE_TEXT
  else none

/-- What the application is given: the pointer as the frame has it, a size and a
command; and whether a response is sent. -/
structure TextCall where
  body : List UInt8
  size : Nat
  cmd_type : UInt8
  response : Option (List UInt8)
  deriving DecidableEq

inductive Handling where
  | ignored
  | pong
  | pongBody (authen : UInt8) (ip port : Nat)
  | unauthorized
  | peerAddress (address : List UInt8)
  | text (call : TextCall)
  deriving DecidableEq

/-- The comparison with the first record, which is made when that is used. -/
def sameAddress (record : Records) (address : List UInt8) : Option Bool :=
  if (record 0).used then (record 0).dest_addr.bind fun stored => strcmp stored address
  else some false

/-- `repeated_message` on the text message as it lies in the frame. -/
def repeatedText (record : Records) (cur_ts : Int) (frame : List UInt8) : Option Filtered := do
  let msg_no ← bytesAt frame MSG_NO_AT 4
  let same ← sameAddress record (frame.drop LOCAL_ADDR_AT)
  let number := UInt32.ofNat (beValue msg_no)
  match searchLoop record same RECORD_DEST_MAX 0 with
  | .found _ =>
      let stored := (record 0).dest_addr.getD []
      repeatedMessage record ⟨stored, number, cur_ts⟩
  | .free _ =>
      let copied ← cString (frame.drop LOCAL_ADDR_AT)
      repeatedMessage record ⟨copied, number, cur_ts⟩
  | .full => some { repeated := false, recorded := false, record := record }

def receiveText (frame : List UInt8) : Option Handling := do
  let body ← bytesAt frame BODY_AT 8
  let text_len ← bytesAt frame TEXT_LEN_AT 2
  let cmd_type ← frame[CMD_TYPE_AT]?
  let attr ← frame[MSG_ATTR_AT + 1]?
  let response ← if attr &&& 32 = 0 then some none else (bytesAt frame 0 TEXT_COM_BODY_SIZE).map some
  some (.text { body := body, size := leValue text_len, cmd_type := cmd_type, response := response })

def receiveMessage (record : Records) (cur_ts : Int) (frame : List UInt8) :
    Option SubmsgType → Option Handling
  | some .SUBMSG_TYPE_NOP => some .ignored
  | some .SUBMSG_TYPE_PING => some .pong
  | some .SUBMSG_TYPE_PONG => do
      let headlen ← frame[MSG_HEADLEN_AT]?
      let authen ← frame[headlen.toNat]?
      let ip ← bytesAt frame (headlen.toNat + 4) 4
      let port ← bytesAt frame (headlen.toNat + 2) 2
      some (.pongBody authen (beValue ip) (beValue port))
  | some .SUBMSG_TYPE_AUTHEN => do
      let headlen ← frame[MSG_HEADLEN_AT]?
      let authen_type ← frame[headlen.toNat]?
      if authen_type.toNat = AUTHEN_TYPE_UNAUTHOR then some .unauthorized
      else if authen_type.toNat = AUTHEN_TYPE_RES then
        (cString (frame.drop (headlen.toNat + 4))).map .peerAddress
      else some .ignored
  | some .SUBMSG_TYPE_TEXT => do
      let filtered ← repeatedText record cur_ts frame
      if filtered.repeated then some .ignored else receiveText frame
  | none => some .ignored

/-- `LWS_CALLBACK_CLIENT_RECEIVE`. -/
def lwsCallbackReceive (record : Records) (cur_ts : Int) (frame : List UInt8) : Option Handling := do
  let magic ← bytesAt frame 0 4
  if beValue magic = MAGIC_CODE then do
    let msg_type ← frame[MSG_ATTR_AT]?
    receiveMessage record cur_ts frame (submsgType msg_type)
  else some .ignored

end Mgw.WsReceive

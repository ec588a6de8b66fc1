import Mgw.BigEndian
import Mgw.WordArithmetic

/-!
# The messages of the websocket client

The common head that `send_message` puts before a body, and the bodies of the
messages it sends, byte by byte as in `message-def.h` on a little-endian machine.
-/

namespace Mgw.WsMessage

open BigEndian WordArithmetic

set_option autoImplicit false

def MAGIC_CODE : Nat := 0x66886688
def MESSAGE_VER : Nat := 1
def COMMON_HEAD_SIZE : Nat := 24

inductive SubmsgType where
  | SUBMSG_TYPE_NOP | SUBMSG_TYPE_PING | SUBMSG_TYPE_PONG | SUBMSG_TYPE_AUTHEN | SUBMSG_TYPE_TEXT
  deriving DecidableEq, Repr

def SubmsgType.value : SubmsgType → Nat
  | .SUBMSG_TYPE_NOP => 0
  | .SUBMSG_TYPE_PING => 1
  | .SUBMSG_TYPE_PONG => 2
  | .SUBMSG_TYPE_AUTHEN => 3
  | .SUBMSG_TYPE_TEXT => 4

def AUTHEN_TYPE_REQ : Nat := 1
def AUTHEN_TYPE_RES : Nat := 2
def AUTHEN_TYPE_UNAUTHOR : Nat := 4

/-- Pings and pongs carry no number. -/
def SubmsgType.numbered (type : SubmsgType) : Bool :=
  type ≠ .SUBMSG_TYPE_PONG && type ≠ .SUBMSG_TYPE_PING

/-- The bits of `msg_attr`: the type in the first byte, `ack_req` in the second. -/
def msgAttr (type : SubmsgType) : List UInt8 :=
  [UInt8.ofNat type.value, if type = .SUBMSG_TYPE_PONG then 0 else 32, 0, 0]

def commonHead (type : SubmsgType) (message_no size : Nat) : List UInt8 :=
  beBytes 4 MAGIC_CODE ++ [UInt8.ofNat MESSAGE_VER, UInt8.ofNat COMMON_HEAD_SIZE] ++
    beBytes 2 size ++ beBytes 4 (if type.numbered then message_no else 0) ++ msgAttr type ++
      [0, 0, 0, 0] ++ [0, 0, 0, 0]

theorem common_head_length (type : SubmsgType) (message_no size : Nat) :
    (commonHead type message_no size).length = COMMON_HEAD_SIZE := by
  unfold commonHead msgAttr
  simp [COMMON_HEAD_SIZE]

/-- The digit of a hexadecimal character, all ones for any other. -/
def charToHex (c : UInt8) : UInt8 :=
  if 48 ≤ c ∧ c ≤ 57 then c - 48
  else if 65 ≤ c ∧ c ≤ 90 then c - 65 + 10
  else if 97 ≤ c ∧ c ≤ 122 then c - 97 + 10
  else 255

/-- Two characters make a byte. -/
def tokenBytes : List UInt8 → List UInt8
  | high :: low :: rest => (charToHex high <<< 4 ||| charToHex low) :: tokenBytes rest
  | _ => []

def authenReq (access_token : List UInt8) : List UInt8 :=
  [UInt8.ofNat AUTHEN_TYPE_REQ, 0, 0, 0] ++ tokenBytes (access_token.take 40)

def pingBody (port ip : Nat) : List UInt8 := [0, 0] ++ beBytes 2 port ++ beBytes 4 ip

end Mgw.WsMessage

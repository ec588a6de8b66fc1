import Mathlib.Logic.Function.Basic
import Mgw.WordArithmetic

/-!
# The duplicate filter of the websocket client

`repeated_message` of `ws-client.c` on the table of records. An address is the C
string that the sender's field holds; an empty one is recorded as a null pointer.
What C leaves undefined, a null pointer compared or an index below zero, has no
result.
-/

namespace Mgw.WsRepeated

open WordArithmetic

set_option autoImplicit false

def RECORD_NODE_MAX : Nat := 30
def RECORD_DEST_MAX : Nat := 64
def REPEATED_GAP_MAX : Int := 30

structure RecordInfo where
  last_msg_no : UInt32
  last_ts : Nat

structure MessageRecord where
  used : Bool
  last_recv_ts : Nat
  last_recv_total : Nat
  dest_addr : Option (List UInt8)
  rec_info : Nat → RecordInfo

/-- The table by index. -/
abbrev Records := Nat → MessageRecord

/-- A text message: the sender's address, the number and the clock when it comes. -/
structure TextMessage where
  local_addr : List UInt8
  msg_no : UInt32
  cur_ts : Int

/-- `dstr_copy` into an unused string. -/
def dstrCopy (address : List UInt8) : Option (List UInt8) :=
  if address = [] then none else some address

/-- `msg_no % RECORD_NODE_MAX` of the number as `int`. -/
def slotOf (msg_no : UInt32) : Int := (int32 msg_no.toNat).tmod RECORD_NODE_MAX

/-- The conversion of a `long` to `int`. -/
def toInt (value : Int) : Int := int32 (value % 4294967296).toNat

/-- `abs`, which leaves the least `int` as it is. -/
def absInt (value : Int) : Int := if value = -2147483648 then value else |value|

/-- The time difference that is looked at, with the entry of the record at that place. -/
def gapSmall (last_recv_ts : Nat) (cur_ts : Int) : Bool :=
  absInt (toInt (last_recv_ts - cur_ts)) < REPEATED_GAP_MAX

/-- Where the loop ends. -/
inductive Search where
  | free (index : Nat)
  | found (index : Nat)
  | full
  deriving DecidableEq, Repr

/-- The loop, in which `same` is the comparison with the address of the first record. -/
def searchLoop (record : Records) (same : Bool) : Nat → Nat → Search
  | 0, _ => .full
  | rounds + 1, i =>
      if (record i).used = false then .free i
      else if same then .found i
      else searchLoop record same rounds (i + 1)

section Search

variable {record : Records} {same : Bool}

theorem search_unused (unused : (record 0).used = false) :
    searchLoop record same RECORD_DEST_MAX 0 = .free 0 := by
  unfold RECORD_DEST_MAX searchLoop
  rw [if_pos unused]

theorem search_known (used : (record 0).used = true) :
    searchLoop record true RECORD_DEST_MAX 0 = .found 0 := by
  unfold RECORD_DEST_MAX searchLoop
  rw [if_neg (by simp [used]), if_pos rfl]

end Search

/-- The result, whether the message was recorded, and the table behind the call. -/
structure Filtered where
  repeated : Bool
  recorded : Bool
  record : Records

def MessageRecord.note (record : MessageRecord) (pos : Nat) (text : TextMessage) : MessageRecord :=
  let info : RecordInfo := { last_msg_no := text.msg_no, last_ts := (text.cur_ts % 4294967296).toNat }
  { record with rec_info := Function.update record.rec_info pos info }

def repeatedMessage (record : Records) (text : TextMessage) : Option Filtered :=
  let pos := slotOf text.msg_no
  if (record 0).used && (record 0).dest_addr = none then none
  else
    let same : Bool := (record 0).dest_addr = some text.local_addr
    match searchLoop record same RECORD_DEST_MAX 0 with
    | .found i =>
        if pos < 0 then none
        else if ((record i).rec_info pos.toNat).last_msg_no = text.msg_no ∧
            gapSmall (record pos.toNat).last_recv_ts text.cur_ts then
          some { repeated := true, recorded := false, record := record }
        else
          some
            { repeated := false
              recorded := true
              record := Function.update record i ((record i).note pos.toNat text) }
    | .free i =>
        if pos < 0 then none
        else
          let noted := (record i).note pos.toNat text
          some
            { repeated := false
              recorded := true
              record := Function.update record i
                { noted with
                  dest_addr := dstrCopy text.local_addr
                  last_recv_total := u32 (noted.last_recv_total + 1)
                  used := true } }
    | .full => some { repeated := false, recorded := false, record := record }

/-- The table that `wsclient_create` leaves. -/
def emptyRecords : Records := fun _ =>
  { used := false
    last_recv_ts := 0
    last_recv_total := 0
    dest_addr := none
    rec_info := fun _ => { last_msg_no := 0, last_ts := 0 } }

end Mgw.WsRepeated

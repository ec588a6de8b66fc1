import Mgw.WsReceiveFilter

/-!
# Which frames are parsed within their bounds

A frame is parsed well when no byte outside of it is read, the application is given
the payload and nothing else, and a frame that is too short is ignored. The source
tests no length, so this holds for the frames whose lengths happen to fit, and for
text messages only where there is no payload to be given.
-/

namespace Mgw.WsReceiveBounds

open BigEndian WsMessage WsRepeated WsReceive WsReceiveFilter

set_option autoImplicit false

def headlen (frame : List UInt8) : Nat := (byteOf frame MSG_HEADLEN_AT).toNat

/-- The length in network byte order, as `send_message` writes it. -/
def textLen (frame : List UInt8) : Nat :=
  beValue [byteOf frame TEXT_LEN_AT, byteOf frame (TEXT_LEN_AT + 1)]

/-- A frame with its headers and all of the lengths it declares. -/
structure Complete (frame : List UInt8) : Prop where
  head : COMMON_HEAD_SIZE ≤ frame.length
  declared : headlen frame + textLen frame ≤ frame.length
  text : submsgType (byteOf frame MSG_ATTR_AT) = some .SUBMSG_TYPE_TEXT →
    TEXT_RECV_BODY_SIZE + textLen frame ≤ frame.length

/-- The bytes behind the headers of a text message. -/
def payload (frame : List UInt8) : List UInt8 :=
  (frame.drop TEXT_RECV_BODY_SIZE).take (textLen frame)

/-- The bytes of the frame that the application is given: a pointer out of the frame
is none into it, so they are known only where none are asked for. -/
def TextCall.given (call : TextCall) : Option (List UInt8) :=
  if call.size = 0 then some [] else none

/-- Only bytes of the frame are read, the application is given the payload, and a
frame that is too short is ignored. -/
def Safe (frame : List UInt8) (result : Option Handling) : Prop :=
  ∃ handling, result = some handling ∧
    (∀ call, handling = .text call → TextCall.given call = some (payload frame)) ∧
      (¬Complete frame → handling = .ignored)

/-- An authorization message is long enough for what is read of it. -/
def AuthenFits (frame : List UInt8) : Prop :=
  headlen frame < frame.length ∧
    ((byteOf frame (headlen frame)).toNat = AUTHEN_TYPE_UNAUTHOR → Complete frame) ∧
    ((byteOf frame (headlen frame)).toNat = AUTHEN_TYPE_RES →
      0 ∈ frame.drop (headlen frame + 4) ∧ Complete frame)

/-- A text message that is no repetition is long enough and without a payload. -/
def TextFits (record : Records) (cur_ts : Int) (frame : List UInt8) : Prop :=
  FilterReads record frame ∧ (¬Repeats record cur_ts frame →
    TEXT_RECV_BODY_SIZE ≤ frame.length ∧ headlen frame ≤ frame.length ∧ textLen frame = 0)

/-- What a frame of a type has to be. -/
def TypeFits (record : Records) (cur_ts : Int) (frame : List UInt8) : Option SubmsgType → Prop
  | some .SUBMSG_TYPE_NOP => True
  | some .SUBMSG_TYPE_PING => Complete frame
  | some .SUBMSG_TYPE_PONG => headlen frame + 8 ≤ frame.length ∧ Complete frame
  | some .SUBMSG_TYPE_AUTHEN => AuthenFits frame
  | some .SUBMSG_TYPE_TEXT => TextFits record cur_ts frame
  | none => True

def FrameFits (record : Records) (cur_ts : Int) (frame : List UInt8) : Prop :=
  4 ≤ frame.length ∧ (beValue (frame.take 4) = MAGIC_CODE →
    13 ≤ frame.length ∧ TypeFits record cur_ts frame (submsgType (byteOf frame MSG_ATTR_AT)))

section Safety

variable {frame : List UInt8} {result : Option Handling} {handling : Handling}

theorem safe_ignored (same : result = some .ignored) : Safe frame result := by
  refine ⟨.ignored, same, ?_, fun _ => rfl⟩
  intro call impossible
  exact Handling.noConfusion impossible

theorem not_safe_none (same : result = none) : ¬Safe frame result := by
  rintro ⟨handling, impossible, -⟩
  rw [same] at impossible
  contradiction

/-- What is acted on, and is no text message, has to be complete. -/
theorem safe_handled_iff (same : result = some handling) (acted : handling ≠ .ignored)
    (noText : ∀ call, handling ≠ .text call) : Safe frame result ↔ Complete frame := by
  constructor
  · rintro ⟨other, found, -, short⟩
    by_contra incomplete
    rw [same] at found
    exact acted ((Option.some.inj found).trans (short incomplete))
  · intro complete
    refine ⟨handling, same, ?_, fun incomplete => absurd complete incomplete⟩
    intro call isText
    exact absurd isText (noText call)

end Safety

section Types

variable {record : Records} {cur_ts : Int} {frame : List UInt8}

theorem head_read (attr : 13 ≤ frame.length) :
    frame[MSG_HEADLEN_AT]? = some (byteOf frame MSG_HEADLEN_AT) := by
  apply byte_read
  unfold MSG_HEADLEN_AT
  omega

theorem pong_read (attr : 13 ≤ frame.length) (inside : headlen frame + 8 ≤ frame.length) :
    ∃ authen ip port, receiveMessage record cur_ts frame (some .SUBMSG_TYPE_PONG) =
      some (.pongBody authen ip port) := by
  have authen : frame[headlen frame]? = some (byteOf frame (headlen frame)) :=
    byte_read (by omega)
  have ip : bytesAt frame (headlen frame + 4) 4 = some _ := bytes_read (by omega)
  have port : bytesAt frame (headlen frame + 2) 2 = some _ := bytes_read (by omega)
  unfold headlen at authen ip port
  unfold receiveMessage
  simp only [head_read attr, authen, ip, port, Option.bind_eq_bind, Option.bind_some]
  exact ⟨_, _, _, rfl⟩

theorem pong_outside (attr : 13 ≤ frame.length) (outside : frame.length < headlen frame + 8) :
    receiveMessage record cur_ts frame (some .SUBMSG_TYPE_PONG) = none := by
  have ip : bytesAt frame (headlen frame + 4) 4 = none := bytes_missing (by decide) (by omega)
  unfold headlen at ip
  unfold receiveMessage
  simp only [head_read attr, ip, Option.bind_eq_bind, Option.bind_some, Option.bind_none]
  cases frame[(byteOf frame MSG_HEADLEN_AT).toNat]? with
  | none => rfl
  | some authen => rfl

theorem pong_safe_iff (attr : 13 ≤ frame.length) :
    Safe frame (receiveMessage record cur_ts frame (some .SUBMSG_TYPE_PONG)) ↔
      headlen frame + 8 ≤ frame.length ∧ Complete frame := by
  by_cases inside : headlen frame + 8 ≤ frame.length
  · obtain ⟨authen, ip, port, read⟩ := pong_read attr inside
    rw [and_iff_right inside]
    exact safe_handled_iff read Handling.noConfusion fun _ => Handling.noConfusion
  · constructor
    · intro safe
      exact absurd safe (not_safe_none (pong_outside attr (Nat.lt_of_not_le inside)))
    · intro fits
      exact absurd fits.1 inside

/-- The address of a peer is a string that ends in the frame. -/
theorem peer_address_safe_iff (text : List UInt8) :
    Safe frame ((cString text).map .peerAddress) ↔ 0 ∈ text ∧ Complete frame := by
  rw [← c_string_iff]
  cases found : cString text with
  | none =>
      constructor
      · intro safe
        exact absurd safe (not_safe_none rfl)
      · intro fits
        exact absurd fits.1 (by decide)
  | some address =>
      rw [Option.map_some, Option.isSome_some, and_iff_right rfl]
      exact safe_handled_iff rfl Handling.noConfusion fun _ => Handling.noConfusion

theorem authen_safe_iff (attr : 13 ≤ frame.length) :
    Safe frame (receiveMessage record cur_ts frame (some .SUBMSG_TYPE_AUTHEN)) ↔
      AuthenFits frame := by
  unfold AuthenFits receiveMessage
  simp only [head_read attr, Option.bind_eq_bind, Option.bind_some]
  change Safe frame ((frame[headlen frame]?).bind _) ↔ _
  by_cases inside : headlen frame < frame.length
  · rw [byte_read inside, Option.bind_some, and_iff_right inside]
    change Safe frame (if _ then _ else if _ then
      (cString (frame.drop (headlen frame + 4))).map .peerAddress else _) ↔ _
    split_ifs with refused answered
    · have notRes : (byteOf frame (headlen frame)).toNat ≠ AUTHEN_TYPE_RES := by
        rw [refused]
        decide
      rw [safe_handled_iff rfl Handling.noConfusion fun _ => Handling.noConfusion]
      constructor
      · intro complete
        exact ⟨fun _ => complete, fun res => absurd res notRes⟩
      · intro fits
        exact fits.1 refused
    · rw [and_iff_right fun same => absurd same refused, peer_address_safe_iff,
        forall_prop_of_true answered]
    · apply iff_of_true (safe_ignored rfl)
      exact ⟨fun same => absurd same refused, fun same => absurd same answered⟩
  · rw [byte_missing (Nat.le_of_not_lt inside)]
    constructor
    · intro safe
      exact absurd safe (not_safe_none rfl)
    · intro fits
      exact absurd fits.1 inside

/-- A text message of full size is handed on with its two bytes of length taken the
other way round. -/
theorem text_read (full : TEXT_RECV_BODY_SIZE ≤ frame.length) :
    ∃ call, receiveText frame = some (.text call) ∧
      call.size = leValue [byteOf frame TEXT_LEN_AT, byteOf frame (TEXT_LEN_AT + 1)] := by
  simp only [TEXT_RECV_BODY_SIZE] at full
  have body : bytesAt frame BODY_AT 8 = some _ := bytes_read (by simp only [BODY_AT]; omega)
  have len : bytesAt frame TEXT_LEN_AT 2 = some _ := bytes_read (by simp only [TEXT_LEN_AT]; omega)
  have cmd : frame[CMD_TYPE_AT]? = some _ := byte_read (by simp only [CMD_TYPE_AT]; omega)
  have attr : frame[MSG_ATTR_AT + 1]? = some _ := byte_read (by simp only [MSG_ATTR_AT]; omega)
  have com : bytesAt frame 0 TEXT_COM_BODY_SIZE = some _ :=
    bytes_read (by simp only [TEXT_COM_BODY_SIZE]; omega)
  rw [two_bytes (by simp only [TEXT_LEN_AT]; omega)] at len
  unfold receiveText
  simp only [body, len, cmd, attr, com, Option.bind_eq_bind, Option.bind_some, Option.map_some]
  split_ifs
  · exact ⟨_, rfl, rfl⟩
  · exact ⟨_, rfl, rfl⟩

theorem text_outside (short : frame.length < TEXT_RECV_BODY_SIZE) : receiveText frame = none := by
  simp only [TEXT_RECV_BODY_SIZE] at short
  have body : bytesAt frame BODY_AT 8 = none :=
    bytes_missing (by decide) (by simp only [BODY_AT]; omega)
  unfold receiveText
  rw [body]
  rfl

theorem given_iff {call : TextCall} (size : call.size =
    leValue [byteOf frame TEXT_LEN_AT, byteOf frame (TEXT_LEN_AT + 1)]) :
    TextCall.given call = some (payload frame) ↔ textLen frame = 0 := by
  unfold TextCall.given
  rw [size]
  constructor
  · intro given
    split_ifs at given with zero
    · exact (le_value_zero _ _).mp zero
  · intro zero
    rw [if_pos ((le_value_zero _ _).mpr zero)]
    unfold payload
    rw [zero, List.take_zero]

theorem receive_text_safe_iff :
    Safe frame (receiveText frame) ↔ TEXT_RECV_BODY_SIZE ≤ frame.length ∧
      headlen frame ≤ frame.length ∧ textLen frame = 0 := by
  by_cases full : TEXT_RECV_BODY_SIZE ≤ frame.length
  · obtain ⟨call, read, size⟩ := text_read full
    rw [and_iff_right full]
    constructor
    · rintro ⟨handling, found, given, short⟩
      rw [read] at found
      have isText := (Option.some.inj found).symm
      have complete : Complete frame := by
        by_contra incomplete
        exact Handling.noConfusion (isText.symm.trans (short incomplete))
      have zero := (given_iff size).mp (given call isText)
      refine ⟨?_, zero⟩
      have declared := complete.declared
      omega
    · rintro ⟨inside, zero⟩
      have complete : Complete frame := by
        constructor
        · exact Nat.le_trans (by decide) full
        · rw [zero]
          exact inside
        · intro _
          rw [zero]
          exact full
      refine ⟨.text call, read, ?_, fun incomplete => absurd complete incomplete⟩
      intro other same
      rw [← Handling.text.inj same]
      exact (given_iff size).mpr zero
  · constructor
    · intro safe
      exact absurd safe (not_safe_none (text_outside (Nat.lt_of_not_le full)))
    · intro fits
      exact absurd fits.1 full

theorem text_safe_iff :
    Safe frame (receiveMessage record cur_ts frame (some .SUBMSG_TYPE_TEXT)) ↔
      TextFits record cur_ts frame := by
  unfold TextFits receiveMessage
  cases found : repeatedText record cur_ts frame with
  | none =>
      constructor
      · intro safe
        exact absurd safe (not_safe_none rfl)
      · rintro ⟨reads, -⟩
        obtain ⟨filtered, answer, -⟩ := filter_answers reads
        rw [found] at answer
        contradiction
  | some filtered =>
      have reads := filter_reads found
      obtain ⟨other, answer, repeats⟩ := filter_answers reads
      rw [found] at answer
      rw [← Option.some.inj answer] at repeats
      rw [and_iff_right reads, ← repeats]
      simp only [Option.bind_eq_bind, Option.bind_some]
      cases again : filtered.repeated with
      | true => exact iff_of_true (safe_ignored rfl) fun fresh => absurd rfl fresh
      | false =>
          rw [if_neg (by simp), receive_text_safe_iff, forall_prop_of_true (by simp)]

theorem type_safe_iff (attr : 13 ≤ frame.length) (type : Option SubmsgType) :
    Safe frame (receiveMessage record cur_ts frame type) ↔
      TypeFits record cur_ts frame type := by
  cases type with
  | none => exact iff_of_true (safe_ignored rfl) trivial
  | some type =>
      cases type with
      | SUBMSG_TYPE_NOP => exact iff_of_true (safe_ignored rfl) trivial
      | SUBMSG_TYPE_PING =>
          exact safe_handled_iff rfl Handling.noConfusion fun _ => Handling.noConfusion
      | SUBMSG_TYPE_PONG => exact pong_safe_iff attr
      | SUBMSG_TYPE_AUTHEN => exact authen_safe_iff attr
      | SUBMSG_TYPE_TEXT => exact text_safe_iff

end Types

/-- A frame is parsed within its bounds exactly when its lengths happen to fit what is
read, it is complete where it is acted on, and a new text message has no payload. -/
theorem frame_safe_iff (record : Records) (cur_ts : Int) (frame : List UInt8) :
    Safe frame (lwsCallbackReceive record cur_ts frame) ↔ FrameFits record cur_ts frame := by
  unfold FrameFits lwsCallbackReceive
  by_cases four : 4 ≤ frame.length
  · have magic : bytesAt frame 0 4 = some (frame.take 4) := bytes_read (by omega)
    rw [and_iff_right four, magic]
    simp only [Option.bind_eq_bind, Option.bind_some]
    split_ifs with ours
    · rw [forall_prop_of_true ours]
      by_cases attr : 13 ≤ frame.length
      · have type : frame[MSG_ATTR_AT]? = some _ := byte_read (by simp only [MSG_ATTR_AT]; omega)
        rw [and_iff_right attr, type, Option.bind_some]
        exact type_safe_iff attr _
      · rw [byte_missing (by simp only [MSG_ATTR_AT]; omega)]
        constructor
        · intro safe
          exact absurd safe (not_safe_none rfl)
        · intro fits
          exact absurd fits.1 attr
    · exact iff_of_true (safe_ignored rfl) fun same => absurd same ours
  · have magic : bytesAt frame 0 4 = none := bytes_missing (by decide) (by omega)
    rw [magic]
    constructor
    · intro safe
      exact absurd safe (not_safe_none rfl)
    · intro fits
      exact absurd fits.1 four

/-- A text message with five bytes of payload. -/
def textFrame : List UInt8 :=
  [0x66, 0x88, 0x66, 0x88, 1, 24, 0, 5, 0, 0, 0, 1, 4, 0, 0, 0] ++ List.replicate 8 0 ++ [65] ++
    List.replicate 55 0 ++ [104, 101, 108, 108, 111]

/-- What the application is given of it. -/
def swappedCall : TextCall where
  body := List.replicate 8 0
  size := 1280
  cmd_type := 0
  response := none

/-- An empty frame is read, a short ping is answered, and of a text message the
application is given a pointer out of the frame and the swapped length. -/
theorem frame_read_outside :
    ¬Safe [] (lwsCallbackReceive emptyRecords 0 []) ∧
    (let ping : List UInt8 := [0x66, 0x88, 0x66, 0x88, 1, 24, 0, 0, 0, 0, 0, 0, 1]
    ping.length < COMMON_HEAD_SIZE ∧ lwsCallbackReceive emptyRecords 0 ping = some .pong) ∧
    (lwsCallbackReceive emptyRecords 0 textFrame = some (.text swappedCall) ∧
      payload textFrame = [104, 101, 108, 108, 111]) ∧
    ¬Safe textFrame (lwsCallbackReceive emptyRecords 0 textFrame) := by
  have read : lwsCallbackReceive emptyRecords 0 textFrame = some (.text swappedCall) := by decide
  refine ⟨not_safe_none (by decide), ⟨by decide, by decide⟩, ⟨read, by decide⟩, ?_⟩
  rintro ⟨handling, found, given, -⟩
  have handled := given swappedCall (Option.some.inj (found.symm.trans read))
  exact absurd handled (by decide)

end Mgw.WsReceiveBounds

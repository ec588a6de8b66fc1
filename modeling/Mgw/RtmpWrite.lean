import Mgw.Amf
import Mgw.FlvTag
import Mgw.RtmpSessions

/-!
# FLV tags on an RTMP connection

`RTMP_Write` takes the bytes of FLV tags apart and sends a packet for each tag. A tag with
the meta data goes out behind the name of the call that sets it.
-/

namespace Mgw.RtmpWrite

open BigEndian FlvTag RtmpPacket

set_option autoImplicit false

/-- `@setDataFrame`. -/
def av_setDataFrame : List UInt8 :=
  [0x40, 0x73, 0x65, 0x74, 0x44, 0x61, 0x74, 0x61, 0x46, 0x72, 0x61, 0x6d, 0x65]

/-- The connection with `m_write`. -/
structure Writing where
  r : Sender
  m_write : RTMPPacket

/-- A packet of the tag that starts here, with its body allocated. -/
def beginPacket (pkt : RTMPPacket) (buf : List UInt8) : Option (RTMPPacket × List UInt8) :=
  if buf.length < 11 then none
  else
    let m_packetType := buf.headD 0
    let dataSize := beValue ((buf.drop 1).take 3)
    let m_nTimeStamp := UInt32.ofNat (beValue ((buf.drop 7).take 1 ++ (buf.drop 4).take 3))
    let full := (m_packetType = RTMP_PACKET_TYPE_AUDIO ∨ m_packetType = RTMP_PACKET_TYPE_VIDEO) ∧
      m_nTimeStamp = 0 ∨ m_packetType = RTMP_PACKET_TYPE_INFO
    let m_nBodySize := if m_packetType = RTMP_PACKET_TYPE_INFO then dataSize + 16 else dataSize
    let begun := { pkt with
      m_headerType := if full then .large else .medium
      m_packetType := m_packetType
      m_nTimeStamp := m_nTimeStamp
      m_nBodySize := m_nBodySize
      m_nBytesRead := 0
      m_body := some (List.replicate m_nBodySize 0) }
    if m_packetType = RTMP_PACKET_TYPE_INFO then
      (Amf.encodeString m_nBodySize av_setDataFrame).bind fun enc =>
        (writeAt (List.replicate m_nBodySize 0) 0 enc).map fun m_body =>
          ({ begun with m_body := some m_body, m_nBytesRead := enc.length }, buf.drop 11)
    else some (begun, buf.drop 11)

/-- The bytes that are there are copied into the body. -/
def fillPacket (pkt : RTMPPacket) (buf : List UInt8) : Option (RTMPPacket × List UInt8) :=
  let num := min (pkt.m_nBodySize - pkt.m_nBytesRead) buf.length
  (writeAt (pkt.m_body.getD []) pkt.m_nBytesRead (buf.take num)).map fun m_body =>
    ({ pkt with m_body := some m_body, m_nBytesRead := pkt.m_nBytesRead + num }, buf.drop num)

/-- `RTMPPacket_Free`, and no byte of the next body. -/
def freed (pkt : RTMPPacket) : RTMPPacket := { pkt with m_body := none, m_nBytesRead := 0 }

/-- The loop of `RTMP_Write`, with what is written and what it returns. There is no result
where bytes are read behind the buffer. -/
def writeLoop (size : Nat) : Nat → Writing → List UInt8 → Option (Writing × List UInt8 × Int)
  | 0, _, _ => none
  | rounds + 1, w, buf =>
      if buf = [] then some (w, [], size)
      else if w.m_write.m_nBytesRead = 0 ∧ size < 11 then some (w, [], 0)
      else
        let begun :=
          if w.m_write.m_nBytesRead = 0 then
            beginPacket w.m_write (if buf.take 3 = [0x46, 0x4c, 0x56] then buf.drop 13 else buf)
          else some (w.m_write, buf)
        begun.bind fun (pkt, afterHead) =>
          (fillPacket pkt afterHead).bind fun (pkt, rest) =>
            if pkt.m_nBytesRead = pkt.m_nBodySize then
              (sendPacket w.r pkt).bind fun (r, wrote) =>
                let sent := { r := r, m_write := freed pkt }
                if rest.length < 4 then some (sent, wrote, (size : Int) + rest.length - 4)
                else
                  (writeLoop size rounds sent (rest.drop 4)).map fun (last, others, result) =>
                    (last, wrote ++ others, result)
            else writeLoop size rounds { w with m_write := pkt } rest

/-- `RTMP_Write`. -/
def rtmpWrite (w : Writing) (buf : List UInt8) (streamId : UInt32) :
    Option (Writing × List UInt8 × Int) :=
  writeLoop buf.length (buf.length + 1)
    { w with m_write := { w.m_write with m_nChannel := 4, m_nInfoField2 := streamId } } buf

/-- What the body of a packet has in front of the body of its tag. -/
def tagLead (m_packetType : UInt8) : List UInt8 :=
  if m_packetType = RTMP_PACKET_TYPE_INFO then Amf.AMF_STRING :: beBytes 2 13 ++ av_setDataFrame
  else []

def Tag.content (tag : Tag) : List UInt8 := tagLead (UInt8.ofNat tag.tagType) ++ tag.body

/-- The packet that a tag is sent in. -/
def tagPacket (streamId : UInt32) (tag : Tag) : RTMPPacket :=
  let m_packetType := UInt8.ofNat tag.tagType
  let m_nTimeStamp := UInt32.ofNat tag.timestamp
  { m_headerType :=
      if (m_packetType = RTMP_PACKET_TYPE_AUDIO ∨ m_packetType = RTMP_PACKET_TYPE_VIDEO) ∧
          m_nTimeStamp = 0 ∨ m_packetType = RTMP_PACKET_TYPE_INFO then .large
      else .medium
    m_packetType := m_packetType
    m_hasAbsTimestamp := false
    m_nChannel := 4
    m_nTimeStamp := m_nTimeStamp
    m_nInfoField2 := streamId
    m_nBodySize := (Tag.content tag).length
    m_nBytesRead := (Tag.content tag).length
    m_body := some (Tag.content tag) }

section Tags

variable {tag : Tag} {streamId : UInt32}

/-- What is left of `m_write` between tags. -/
structure Idle (streamId : UInt32) (pkt : RTMPPacket) : Prop where
  channel : pkt.m_nChannel = 4
  info : pkt.m_nInfoField2 = streamId
  absolute : pkt.m_hasAbsTimestamp = false
  read : pkt.m_nBytesRead = 0

theorem encode_tag_head (tag : Tag) (rest : List UInt8) :
    encodeTag tag ++ rest = UInt8.ofNat tag.tagType :: (beBytes 3 tag.dataSize ++
      (beBytes 3 (tag.timestamp % 256 ^ 3) ++ (beBytes 1 (tag.timestamp / 256 ^ 3) ++
        (beBytes 3 tag.streamId ++ (tag.body ++ (beBytes 4 tag.previousTagSize ++ rest)))))) := by
  rw [encodeTag]
  simp only [List.append_assoc]
  rfl

theorem tag_time (fits : tag.Fits) :
    beValue (beBytes 1 (tag.timestamp / 256 ^ 3) ++ beBytes 3 (tag.timestamp % 256 ^ 3)) =
      tag.timestamp := by
  have low : beBytes 3 (tag.timestamp % 256 ^ 3) = beBytes 3 tag.timestamp :=
    be_bytes_congr (Nat.mod_mod _ _)
  rw [low, ← be_bytes_add 1 3]
  exact be_value_of_lt fits.timestamp

theorem lead_encoded {room : Nat} (enough : 18 ≤ room) :
    Amf.encodeString room av_setDataFrame = some (Amf.AMF_STRING :: beBytes 2 13 ++ av_setDataFrame) := by
  have length : av_setDataFrame.length = 13 := rfl
  rw [Amf.encodeString, length, if_neg (by omega), if_pos (by decide), Amf.encodeInt,
    if_neg (by omega)]
  rfl

section Heads

variable (first : UInt8) {size low high id : List UInt8} (sizeLength : size.length = 3)
  (lowLength : low.length = 3) (highLength : high.length = 1) (idLength : id.length = 3)
  (rest : List UInt8)

include sizeLength

theorem head_size :
    ((first :: (size ++ (low ++ (high ++ (id ++ rest))))).drop 1).take 3 = size :=
  List.take_left' sizeLength

include lowLength

theorem head_low : ((first :: (size ++ (low ++ (high ++ (id ++ rest))))).drop 4).take 3 = low := by
  rw [List.drop_succ_cons, List.drop_left' sizeLength, List.take_left' lowLength]

include highLength

theorem head_high :
    ((first :: (size ++ (low ++ (high ++ (id ++ rest))))).drop 7).take 1 = high := by
  rw [List.drop_succ_cons, show 6 = 3 + 3 from rfl, ← List.drop_drop, List.drop_left' sizeLength,
    List.drop_left' lowLength, List.take_left' highLength]

include idLength

theorem head_rest : (first :: (size ++ (low ++ (high ++ (id ++ rest))))).drop 11 = rest := by
  rw [List.drop_succ_cons, show 10 = 3 + (3 + (1 + 3)) from rfl, ← List.drop_drop,
    List.drop_left' sizeLength, ← List.drop_drop, List.drop_left' lowLength, ← List.drop_drop,
    List.drop_left' highLength, List.drop_left' idLength]

end Heads

/-- The lead goes in front of an empty body. -/
theorem lead_written {body : List UInt8} {size : Nat} (lead : List UInt8)
    (length : size = (lead ++ body).length) :
    writeAt (List.replicate size 0) 0 lead = some (filled (lead ++ body) lead.length) := by
  have room : 0 + lead.length ≤ (lead ++ body).length := by
    rw [List.length_append]
    omega
  have written := write_filled room
  rwa [List.drop_zero, List.take_left, filled_zero, ← length, Nat.zero_add] at written

theorem begin_tag (fits : tag.Fits) {pkt : RTMPPacket} (idle : Idle streamId pkt)
    (most : UInt8.ofNat tag.tagType = RTMP_PACKET_TYPE_INFO → 2 ≤ tag.dataSize) (rest : List UInt8) :
    beginPacket pkt (encodeTag tag ++ rest) =
      some ((tagPacket streamId tag).upTo (Tag.content tag) (tagLead (UInt8.ofNat tag.tagType)).length,
        tag.body ++ (beBytes 4 tag.previousTagSize ++ rest)) := by
  have enough : ¬(encodeTag tag ++ rest).length < 11 := by
    rw [encode_tag_head]
    simp only [List.length_cons, List.length_append, be_bytes_length]
    omega
  obtain ⟨headerType, packetType, absolute, nChannel, time, field, bodySize, bytesRead, body⟩ := pkt
  obtain ⟨channel, information, relative, read⟩ := idle
  dsimp only at channel information relative read
  subst channel information relative
  rw [beginPacket, if_neg enough, encode_tag_head,
    head_size _ (be_bytes_length 3 _), head_low _ (be_bytes_length 3 _) (be_bytes_length 3 _),
    head_high _ (be_bytes_length 3 _) (be_bytes_length 3 _) (be_bytes_length 1 _),
    head_rest _ (be_bytes_length 3 _) (be_bytes_length 3 _) (be_bytes_length 1 _)
      (be_bytes_length 3 _), be_value_of_lt fits.dataSize, tag_time fits, List.headD_cons]
  dsimp only
  by_cases info : UInt8.ofNat tag.tagType = RTMP_PACKET_TYPE_INFO
  · have lead : tagLead (UInt8.ofNat tag.tagType) =
        Amf.AMF_STRING :: beBytes 2 13 ++ av_setDataFrame := if_pos info
    have length : tag.dataSize + 16 = (tagLead (UInt8.ofNat tag.tagType) ++ tag.body).length := by
      rw [lead, List.length_append, fits.body, Nat.add_comm]
      rfl
    rw [if_pos info, if_pos info, lead_encoded (by have := most info; omega), ← lead]
    dsimp only [Option.bind]
    rw [lead_written _ length, Option.map_some, length]
    rfl
  · have lead : tagLead (UInt8.ofNat tag.tagType) = [] := if_neg info
    have length : tag.dataSize = (tagLead (UInt8.ofNat tag.tagType) ++ tag.body).length := by
      rw [lead, List.nil_append, fits.body]
    have empty : List.replicate (Tag.content tag).length 0 =
        filled (Tag.content tag) (tagLead (UInt8.ofNat tag.tagType)).length := by
      rw [lead, List.length_nil, filled_zero]
    have bare : (tagLead (UInt8.ofNat tag.tagType)).length = 0 := by
      rw [lead, List.length_nil]
    rw [if_neg info, if_neg info, length, RTMPPacket.upTo, ← empty, bare]
    rfl

theorem fill_tag (rest : List UInt8) :
    fillPacket
        ((tagPacket streamId tag).upTo (Tag.content tag)
          (tagLead (UInt8.ofNat tag.tagType)).length) (tag.body ++ rest) =
      some (tagPacket streamId tag, rest) := by
  have length : (Tag.content tag).length =
      (tagLead (UInt8.ofNat tag.tagType)).length + tag.body.length := List.length_append
  have num : min (((tagPacket streamId tag).upTo (Tag.content tag)
        (tagLead (UInt8.ofNat tag.tagType)).length).m_nBodySize -
      ((tagPacket streamId tag).upTo (Tag.content tag)
        (tagLead (UInt8.ofNat tag.tagType)).length).m_nBytesRead) (tag.body ++ rest).length =
      tag.body.length := by
    change min ((Tag.content tag).length - (tagLead (UInt8.ofNat tag.tagType)).length) _ = _
    rw [List.length_append]
    omega
  have body : ((Tag.content tag).drop (tagLead (UInt8.ofNat tag.tagType)).length).take
      tag.body.length = tag.body := by
    rw [Tag.content, List.drop_left, List.take_length]
  have written := @write_filled (Tag.content tag) (tagLead (UInt8.ofNat tag.tagType)).length
    tag.body.length (Nat.le_of_eq length.symm)
  rw [body, ← length, filled_all] at written
  rw [fillPacket, num]
  change (writeAt (filled (Tag.content tag) (tagLead (UInt8.ofNat tag.tagType)).length)
    (tagLead (UInt8.ofNat tag.tagType)).length ((tag.body ++ rest).take tag.body.length)).map _ = _
  rw [List.take_left, List.drop_left, written, Option.map_some]
  change some ({ tagPacket streamId tag with
    m_nBytesRead := (tagLead (UInt8.ofNat tag.tagType)).length + tag.body.length }, rest) = _
  rw [← length]
  rfl

/-- A tag that can be sent: it does not look like the header of a file, and the call that
sets the meta data fits in front of it. -/
structure TagSendable (tag : Tag) : Prop where
  fits : tag.Fits
  type : tag.tagType ≠ 0x46
  lead : UInt8.ofNat tag.tagType = RTMP_PACKET_TYPE_INFO → 2 ≤ tag.dataSize

theorem not_file_header (sendable : TagSendable tag) (rest : List UInt8) :
    (encodeTag tag ++ rest).take 3 ≠ [0x46, 0x4c, 0x56] := by
  intro same
  have byte : UInt8.ofNat tag.tagType = 0x46 := by
    rw [encode_tag_head, List.take_succ_cons] at same
    exact (List.cons.inj same).1
  have number := congrArg UInt8.toNat byte
  rw [byte_value sendable.fits.tagType] at number
  exact sendable.type number

theorem idle_sent (streamId : UInt32) (tag : Tag) :
    Idle streamId (freed (tagPacket streamId tag)) :=
  ⟨rfl, rfl, rfl, rfl⟩

/-- A tag in front of others is sent as one packet. -/
theorem write_tag (sendable : TagSendable tag) {w : Writing} (idle : Idle streamId w.m_write)
    {size : Nat} (enough : 11 ≤ size) (rounds : Nat) (rest : List UInt8) :
    writeLoop size (rounds + 1) w (encodeTag tag ++ rest) =
      (sendPacket w.r (tagPacket streamId tag)).bind fun (r, wrote) =>
        (writeLoop size rounds
          { r := r, m_write := freed (tagPacket streamId tag) } rest).map fun (last, others, result) => (last, wrote ++ others, result) := by
  have some : encodeTag tag ++ rest ≠ [] := by
    rw [encode_tag_head]
    exact List.cons_ne_nil _ _
  have behind : ¬(beBytes 4 tag.previousTagSize ++ rest).length < 4 := by
    rw [List.length_append, be_bytes_length]
    omega
  have dropped : (beBytes 4 tag.previousTagSize ++ rest).drop 4 = rest :=
    List.drop_left' (be_bytes_length 4 _)
  rw [writeLoop, if_neg some, if_neg (by omega), if_pos idle.read,
    if_neg (not_file_header sendable rest), begin_tag sendable.fits idle sendable.lead]
  dsimp only [Option.bind]
  rw [fill_tag]
  dsimp only
  rw [if_pos (show (tagPacket streamId tag).m_nBytesRead = (tagPacket streamId tag).m_nBodySize
    from rfl)]
  cases sendPacket w.r (tagPacket streamId tag) with
  | none => rfl
  | some sent =>
      dsimp only
      rw [if_neg behind, dropped]

/-- The sends of the packets that stand for tags. -/
def tagSends (streamId : UInt32) (tags : List Tag) : List Send :=
  tags.map fun tag => .packet (tagPacket streamId tag)

theorem write_tags {streamId : UInt32} (tags : List Tag) (sendable : ∀ tag ∈ tags, TagSendable tag)
    {w : Writing} (idle : Idle streamId w.m_write) {size : Nat} (enough : 11 ≤ size)
    {rounds : Nat} (bound : tags.length < rounds) {after : Sender} {wrote : List UInt8}
    (sent : sendAll w.r (tagSends streamId tags) = some (after, wrote)) :
    ∃ last, Idle streamId last ∧
      writeLoop size rounds w (tags.flatMap encodeTag) =
        some ({ r := after, m_write := last }, wrote, (size : Int)) := by
  induction tags generalizing w rounds wrote with
  | nil =>
      obtain ⟨rounds, rfl⟩ := Nat.exists_eq_add_one_of_ne_zero (show rounds ≠ 0 by omega)
      cases sent
      exact ⟨w.m_write, idle, by rw [List.flatMap_nil, writeLoop, if_pos rfl]⟩
  | cons tag tags induction =>
      obtain ⟨rounds, rfl⟩ := Nat.exists_eq_add_one_of_ne_zero (show rounds ≠ 0 by omega)
      obtain ⟨⟨between, first⟩, performed, goes⟩ := Option.bind_eq_some_iff.mp sent
      obtain ⟨⟨last, others⟩, result, same⟩ := Option.bind_eq_some_iff.mp goes
      cases same
      have performed : sendPacket w.r (tagPacket streamId tag) = some (between, first) := performed
      obtain ⟨m_write, idle, written⟩ := @induction
        (fun tag member => sendable tag (List.mem_cons_of_mem _ member))
        { r := between, m_write := freed (tagPacket streamId tag) }
        (idle_sent streamId tag) rounds (by rw [List.length_cons] at bound; omega) others result
      refine ⟨m_write, idle, ?_⟩
      rw [List.flatMap_cons, write_tag (sendable tag List.mem_cons_self) (by assumption) enough,
        performed, Option.bind_some]
      dsimp only
      rw [written]
      rfl

end Tags

end Mgw.RtmpWrite

import Mgw.FlvMetaData
import Mgw.RtmpSend
import Mgw.RtmpWrite

/-!
# What is heard of the RTMP output

The output muxes each packet into an FLV tag and hands it to `RTMP_Write`. The reader at
the other end of the connection hears the packets and the meta data.
-/

namespace Mgw.RtmpOutput

open Amf BigEndian ByteArea FlvMetaData FlvMux FlvTag RtmpPacket RtmpSend RtmpWrite

set_option autoImplicit false

section Calls

variable (toDouble : ToDouble)

/-- The packet as the muxer has it. -/
def flvPacket (packet : RtmpTag) : FlvPacket where
  type := packet.type
  keyframe := packet.keyframe
  data := some fun index => packet.payload.getD index 0
  size := packet.payload.length
  pts := packet.pts

/-- A call of `flv_packet_mux` in `send_packet_internal`, or one of `flv_meta_data` in
`send_meta_data`, with the `RTMP_Write` behind it. -/
inductive Call where
  | media (packet : RtmpTag) (idx : Nat)
  | metaData (settings : Settings)

namespace Call

/-- The buffer that is handed to `RTMP_Write`. -/
def buffer : Call → Option (List UInt8)
  | .media packet _ => some (flvPacketMux (flvPacket packet) packet.isHeader)
  | .metaData settings => flvMetaData toDouble settings false

def idx : Call → Nat
  | .media _ idx => idx
  | .metaData _ => 0

/-- The tag in the buffer. -/
def tag : Call → Tag
  | .media packet _ => tagOf (flvPacket packet) packet.isHeader
  | .metaData settings => metaTag toDouble settings

/-- A packet that has a payload, which fits a tag. -/
def Muxable : Call → Prop
  | .media packet _ => 0 < packet.payload.length ∧ packet.payload.length + 5 < 16777216
  | .metaData _ => True

instance (call : Call) : Decidable call.Muxable :=
  match call with
  | .media _ _ => inferInstanceAs (Decidable (_ ∧ _))
  | .metaData _ => inferInstanceAs (Decidable True)

end Call

/-- The calls one after another, with what is written and what they return. -/
def writeCalls (streams : Nat → UInt32) : Writing → List Call →
    Option (Writing × List UInt8 × List Int)
  | w, [] => some (w, [], [])
  | w, call :: calls => do
      let buf ← call.buffer toDouble
      let (between, wrote, result) ← rtmpWrite w buf (streams call.idx)
      let (last, others, results) ← writeCalls streams between calls
      return (last, wrote ++ others, result :: results)

end Calls

section Tags

variable {toDouble : ToDouble} {call : Call}

theorem flv_packet_muxable {packet : RtmpTag} {idx : Nat} (muxable : (Call.media packet idx).Muxable) :
    (flvPacket packet).Muxable :=
  ⟨rfl, muxable.1, muxable.2⟩

theorem flv_packet_payload (packet : RtmpTag) : (flvPacket packet).payload = packet.payload :=
  take_bytes_get packet.payload

theorem buffer_eq (muxable : call.Muxable) :
    call.buffer toDouble = some (encodeTag (call.tag toDouble)) := by
  cases call with
  | media packet idx =>
      exact congrArg some (flv_packet_mux_eq (flv_packet_muxable muxable) packet.isHeader)
  | metaData settings => exact flv_meta_data_eq toDouble settings

theorem meta_tag_fits (settings : Settings) : (metaTag toDouble settings).Fits := by
  have most := meta_body_length toDouble settings
  refine ⟨show 18 < 256 ^ 1 by decide, ?_, show 0 < 256 ^ 4 by decide, show 0 < 256 ^ 3 by decide,
    rfl, ?_⟩
  · change (metaBody toDouble settings).length < 256 ^ 3
    omega
  · change 11 + (metaBody toDouble settings).length - 1 < 256 ^ 4
    omega

theorem meta_body_nonempty (settings : Settings) : 13 ≤ (metaBody toDouble settings).length := by
  have name : (Value.string (flvStr "onMetaData")).bytes.length = 13 := by decide
  rw [metaBody, List.length_append, name]
  omega

theorem tag_sendable (muxable : call.Muxable) : TagSendable (call.tag toDouble) := by
  cases call with
  | media packet idx =>
      refine ⟨tag_of_fits (flv_packet_muxable muxable) packet.isHeader, ?_, ?_⟩
      · change rtmpPacketType packet.type ≠ 0x46
        cases packet.type <;> decide
      · intro info
        change UInt8.ofNat (rtmpPacketType packet.type) = _ at info
        cases type : packet.type <;> rw [type] at info <;> exact absurd info (by decide)
  | metaData settings =>
      refine ⟨meta_tag_fits settings, show 18 ≠ 0x46 by decide, ?_⟩
      intro info
      have some := @meta_body_nonempty toDouble settings
      change 2 ≤ (metaBody toDouble settings).length
      omega

theorem media_content (packet : FlvPacket) (is_header : Bool) :
    Tag.content (tagOf packet is_header) = tagBody packet is_header := by
  have lead : tagLead (UInt8.ofNat (rtmpPacketType packet.type)) = [] := by
    cases packet.type <;> rfl
  change tagLead (UInt8.ofNat (rtmpPacketType packet.type)) ++ tagBody packet is_header = _
  rw [lead, List.nil_append]

theorem content_length (muxable : call.Muxable) :
    0 < (Tag.content (call.tag toDouble)).length ∧
      (Tag.content (call.tag toDouble)).length < 256 ^ 3 := by
  cases call with
  | media packet idx =>
      change 0 < (Tag.content (tagOf (flvPacket packet) packet.isHeader)).length ∧
        (Tag.content (tagOf (flvPacket packet) packet.isHeader)).length < 256 ^ 3
      have fits := (tag_of_fits (flv_packet_muxable muxable) packet.isHeader).dataSize
      rw [media_content]
      refine ⟨?_, fits⟩
      unfold tagBody
      rw [flv_packet_payload]
      cases (flvPacket packet).type with
      | video => exact Nat.succ_pos _
      | audio =>
          cases packet.isHeader with
          | false => exact Nat.succ_pos _
          | true => exact muxable.1
  | metaData settings =>
      have most := meta_body_length toDouble settings
      have lead : (tagLead (UInt8.ofNat 18)).length = 16 := by decide
      change 0 < (tagLead (UInt8.ofNat 18) ++ metaBody toDouble settings).length ∧
        (tagLead (UInt8.ofNat 18) ++ metaBody toDouble settings).length < 256 ^ 3
      rw [List.length_append, lead]
      omega

theorem call_type (call : Call) :
    UInt8.ofNat (call.tag toDouble).tagType ≠ RTMP_PACKET_TYPE_CHUNK_SIZE := by
  cases call with
  | media packet idx =>
      change UInt8.ofNat (rtmpPacketType packet.type) ≠ _
      cases packet.type <;> decide
  | metaData settings =>
      change UInt8.ofNat 18 ≠ _
      decide

/-- The packet of a call. -/
def callPacket (toDouble : ToDouble) (streams : Nat → UInt32) (call : Call) : RTMPPacket :=
  tagPacket (streams call.idx) (call.tag toDouble)

theorem call_valid (muxable : call.Muxable) (streams : Nat → UInt32) :
    (Send.packet (callPacket toDouble streams call)).Valid := by
  refine ⟨⟨⟨show 2 ≤ 4 by decide, show 4 ≤ 65599 by decide⟩, ?_, (content_length muxable).2,
    Nat.le_refl _⟩, call_type call⟩
  change (if _ then HeaderType.large else .medium) = .large ∨
    (if _ then HeaderType.large else .medium) = .medium
  split_ifs
  · exact .inl rfl
  · exact .inr rfl

end Tags

section Writes

variable {toDouble : ToDouble} {streams : Nat → UInt32}

/-- No tag is in the middle. -/
def Ready (pkt : RTMPPacket) : Prop := pkt.m_hasAbsTimestamp = false ∧ pkt.m_nBytesRead = 0

theorem write_call {w : Writing} (ready : Ready w.m_write) {call : Call} (muxable : call.Muxable)
    {r : Sender} {wrote : List UInt8}
    (sent : sendPacket w.r (callPacket toDouble streams call) = some (r, wrote)) :
    ∃ last, Ready last ∧ rtmpWrite w (encodeTag (call.tag toDouble)) (streams call.idx) =
      some ({ r := r, m_write := last }, wrote,
        ((encodeTag (call.tag toDouble)).length : Int)) := by
  have all : sendAll w.r (tagSends (streams call.idx) [call.tag toDouble]) = some (r, wrote ++ []) := by
    change (sendPacket w.r (callPacket toDouble streams call)).bind _ = _
    rw [sent]
    rfl
  have enough : 11 ≤ (encodeTag (call.tag toDouble)).length := by
    rw [← List.append_nil (encodeTag _), encode_tag_head]
    simp only [List.length_cons, List.length_append, be_bytes_length]
    omega
  obtain ⟨last, idle, written⟩ := @write_tags (streams call.idx) [call.tag toDouble]
    (by simpa using tag_sendable muxable)
    { w with m_write := { w.m_write with m_nChannel := 4, m_nInfoField2 := streams call.idx } }
    ⟨rfl, rfl, ready.1, ready.2⟩ (encodeTag (call.tag toDouble)).length enough
    ((encodeTag (call.tag toDouble)).length + 1) (by rw [List.length_singleton]; omega) r _ all
  refine ⟨last, ⟨idle.absolute, idle.read⟩, ?_⟩
  rw [List.append_nil, List.flatMap_singleton] at written
  exact written

/-- The sends of the packets of calls. -/
def callSends (toDouble : ToDouble) (streams : Nat → UInt32) (calls : List Call) : List Send :=
  calls.map fun call => .packet (callPacket toDouble streams call)

/-- The calls write what their packets are sent as. -/
theorem write_calls (calls : List Call) (muxable : ∀ call ∈ calls, call.Muxable) {w : Writing}
    (ready : Ready w.m_write) {after : Sender} {wrote : List UInt8}
    (sent : sendAll w.r (callSends toDouble streams calls) = some (after, wrote)) :
    ∃ last, writeCalls toDouble streams w calls =
      some ({ r := after, m_write := last }, wrote,
        calls.map fun call => ((encodeTag (call.tag toDouble)).length : Int)) := by
  induction calls generalizing w wrote with
  | nil =>
      cases sent
      exact ⟨w.m_write, rfl⟩
  | cons call calls induction =>
      obtain ⟨⟨between, first⟩, performed, goes⟩ := Option.bind_eq_some_iff.mp sent
      obtain ⟨⟨final, others⟩, result, same⟩ := Option.bind_eq_some_iff.mp goes
      cases same
      obtain ⟨next, readyNext, written⟩ := write_call ready (muxable call List.mem_cons_self)
        performed
      obtain ⟨last, writtenLast⟩ := @induction
        (fun other member => muxable other (List.mem_cons_of_mem _ member))
        { r := between, m_write := next } readyNext others result
      refine ⟨last, ?_⟩
      rw [writeCalls, buffer_eq (muxable call List.mem_cons_self)]
      simp only [Option.bind_eq_bind, Option.bind_some, written, writtenLast]
      rfl

end Writes

section MetaData

variable (amf3Decode : Amf3) (toDouble : ToDouble)

/-- The call that sets the meta data, as it is heard. -/
def metaMessage (settings : Settings) : Object :=
  .prop [] (.string av_setDataFrame) (.prop [] (.string (flvStr "onMetaData"))
    (.prop [] (.ecmaArray (objectOf (metaList toDouble settings))) .empty))

/-- An array with names is decoded at the end of a message, whatever its count is. -/
theorem array_decoded {obj : Object} (fits : obj.Fits true) {count : List UInt8}
    (length : count.length = 4) {rounds size : Nat}
    (own : (AMF_ECMA_ARRAY :: (count ++ (obj.bytes ++ beBytes 3 AMF_OBJECT_END))).length = size)
    (bound : 2 * obj.bytes.length + 5 ≤ rounds) :
    decodeProps amf3Decode rounds
        (AMF_ECMA_ARRAY :: (count ++ (obj.bytes ++ beBytes 3 AMF_OBJECT_END))) size false =
      .ok (.prop [] (.ecmaArray obj) .empty, 0) := by
  obtain ⟨rounds, rfl⟩ : ∃ fewer, rounds = fewer + 3 := ⟨rounds - 3, by omega⟩
  have content : (count ++ (obj.bytes ++ beBytes 3 AMF_OBJECT_END)).length =
      obj.bytes.length + 7 := by
    simp only [List.length_append, length, be_bytes_length]
    omega
  have whole : size = (count ++ (obj.bytes ++ beBytes 3 AMF_OBJECT_END)).length + 1 + 0 := by
    rw [← own, List.length_cons]
  have object := decode_named amf3Decode obj fits rounds [] (obj.bytes.length + 3) (by omega)
    (Int.le_refl _)
  have value : decodeValue amf3Decode (rounds + 1) AMF_ECMA_ARRAY
      (count ++ (obj.bytes ++ beBytes 3 AMF_OBJECT_END) ++ [])
      ((count ++ (obj.bytes ++ beBytes 3 AMF_OBJECT_END)).length + 0 : Nat) =
        .ok (.ecmaArray obj, (0 : Nat)) := by
    rw [List.append_nil] at object ⊢
    refine decode_counted amf3Decode length ?_
    rw [content, show ((obj.bytes.length + 7 + 0 : Nat) : Int) - 4 = obj.bytes.length + 3 by omega,
      object, Int.sub_self]
    rfl
  obtain ⟨first, second, third, fourth, rfl⟩ := List.length_eq_four.mp length
  have mark : decodeInt 3 (AMF_ECMA_ARRAY :: ([first, second, third, fourth] ++
      (obj.bytes ++ beBytes 3 AMF_OBJECT_END)) ++ []) =
        .ok (beValue [AMF_ECMA_ARRAY, first, second]) := by
    have taken := bytes_at_append [AMF_ECMA_ARRAY, first, second]
      (third :: fourth :: (obj.bytes ++ beBytes 3 AMF_OBJECT_END))
    rw [List.append_nil, decodeInt]
    exact congrArg (Except.map beValue) taken
  have goes : beValue [AMF_ECMA_ARRAY, first, second] ≠ AMF_OBJECT_END := by
    change ((0 * 256 + 8) * 256 + first.toNat) * 256 + second.toNat ≠ 9
    omega
  have decoded := decode_props_value amf3Decode value (fun _ => mark) goes
  rw [List.append_nil] at decoded
  rw [whole, decoded, decodeProps, if_pos (by decide)]
  rfl

theorem meta_message_decoded (settings : Settings) {rounds : Nat}
    (bound : 2 * (Tag.content (metaTag toDouble settings)).length ≤ rounds) :
    decodeProps amf3Decode rounds (Tag.content (metaTag toDouble settings))
      (Tag.content (metaTag toDouble settings)).length false =
        .ok (metaMessage toDouble settings, 0) := by
  have content : Tag.content (metaTag toDouble settings) =
      (Value.string av_setDataFrame).bytes ++ metaBody toDouble settings := rfl
  have frame : (Value.string av_setDataFrame).bytes.length = 16 := by decide
  have name : (Value.string (flvStr "onMetaData")).bytes.length = 13 := by decide
  have length : (metaBody toDouble settings).length =
      (objectOf (metaList toDouble settings)).bytes.length + 21 := by
    rw [metaBody]
    simp only [List.length_append, List.length_cons, be_bytes_length, name]
    omega
  rw [content, List.length_append, frame, length] at bound
  obtain ⟨rounds, rfl⟩ : ∃ fewer, rounds = fewer + 3 := ⟨rounds - 3, by omega⟩
  have array := @array_decoded amf3Decode _
    (object_of_fits (meta_list_short toDouble settings)) (beBytes 4 14) (be_bytes_length 4 14)
    (rounds + 1) _ rfl (by omega)
  rw [content, List.length_append,
    @decode_first amf3Decode (.string av_setDataFrame) (show _ < 4294967296 by decide) trivial
      (rounds + 1) _ _ (by omega) (Nat.le_refl _),
    metaBody, List.length_append,
    @decode_first amf3Decode (.string (flvStr "onMetaData")) (show _ < 4294967296 by decide) trivial
      rounds _ _ (by omega) (Nat.le_refl _), array]
  rfl

end MetaData

section Results

variable {toDouble : ToDouble} {streams : Nat → UInt32}

/-- The time that a call is heard with, in milliseconds. -/
def Call.time : Call → UInt32
  | .media packet _ => UInt32.ofNat (packet.pts % 2147483648).toNat
  | .metaData _ => 0

/-- A packet is heard with its codes and payload, and the meta data as values that are
decoded. -/
def Call.HeardAs (toDouble : ToDouble) (call : Call) (body : List UInt8) : Prop :=
  match call with
  | .media packet _ => body = tagBody (flvPacket packet) packet.isHeader
  | .metaData settings => ∀ (amf3Decode : Amf3) (rounds : Nat), 2 * body.length ≤ rounds →
      decodeProps amf3Decode rounds body body.length false = .ok (metaMessage toDouble settings, 0)

structure HeardCall (toDouble : ToDouble) (call : Call) (heard : RTMPPacket) : Prop where
  channel : heard.m_nChannel = 4
  type : heard.m_packetType = UInt8.ofNat (call.tag toDouble).tagType
  body : ∃ body, heard.m_body = some body ∧ heard.m_nBodySize = body.length ∧
    call.HeardAs toDouble body

theorem content_heard (call : Call) : call.HeardAs toDouble (Tag.content (call.tag toDouble)) := by
  cases call with
  | media packet idx => exact media_content (flvPacket packet) packet.isHeader
  | metaData settings =>
      intro amf3Decode rounds bound
      exact meta_message_decoded amf3Decode toDouble settings bound

theorem heard_call {call : Call} (muxable : call.Muxable) {heard : RTMPPacket}
    (same : Heard (callPacket toDouble streams call) heard) : HeardCall toDouble call heard := by
  have some : ¬(Tag.content (call.tag toDouble)).length = 0 :=
    Nat.ne_of_gt (content_length muxable).1
  have whole : (Tag.content (call.tag toDouble)).take (Tag.content (call.tag toDouble)).length =
      Tag.content (call.tag toDouble) := List.take_length
  refine ⟨same.channel, same.type, Tag.content (call.tag toDouble), ?_, same.size,
    content_heard call⟩
  rw [same.body]
  change (if (Tag.content (call.tag toDouble)).length = 0 then none else
    Option.some ((Tag.content (call.tag toDouble)).take _)) = _
  rw [if_neg some]
  exact congrArg Option.some whole

theorem call_time (call : Call) : (callPacket toDouble streams call).m_nTimeStamp = call.time := by
  cases call <;> rfl

/-- No packet of a call is empty. -/
theorem delivered_calls {calls : List Call} (muxable : ∀ call ∈ calls, call.Muxable) :
    delivered (callSends toDouble streams calls) = calls.map (callPacket toDouble streams) := by
  rw [delivered, callSends, List.map_map, List.filter_eq_self.mpr]
  · rfl
  · intro packet member
    obtain ⟨call, there, rfl⟩ := List.mem_map.mp member
    exact decide_eq_true (Nat.ne_of_gt (content_length (muxable call there)).1)

theorem heard_calls {calls : List Call} (muxable : ∀ call ∈ calls, call.Muxable)
    {heard : List RTMPPacket}
    (same : List.Forall₂ Heard (calls.map (callPacket toDouble streams)) heard) :
    List.Forall₂ (HeardCall toDouble) calls heard := by
  induction calls generalizing heard with
  | nil =>
      cases same
      exact .nil
  | cons call calls induction =>
      obtain _ | ⟨first, others⟩ := same
      exact .cons (heard_call (muxable call List.mem_cons_self) first)
        (induction (fun other member => muxable other (List.mem_cons_of_mem _ member)) others)

/-- What is heard of the calls behind other sends. -/
def OutputHeard (toDouble : ToDouble) (streams : Nat → UInt32) (chunkSize : Nat)
    (sends : List Send) (calls : List Call) : Prop :=
  ∃ connected hello, sendAll (Sender.fresh chunkSize) sends = some (connected, hello) ∧
    ∃ last wrote results,
      writeCalls toDouble streams { r := connected, m_write := RTMPPacket.zero } calls =
        some (last, wrote, results) ∧
      (∀ result ∈ results, 0 < result) ∧
      ∃ greeting heard, List.Forall₂ Heard (delivered sends) greeting ∧
        List.Forall₂ (HeardCall toDouble) calls heard ∧
        (AllOnTime connected (callSends toDouble streams calls) →
          AllOnTime (Sender.fresh chunkSize) sends →
            heard.map RTMPPacket.m_nTimeStamp = calls.map Call.time) ∧
        ∀ rounds, (hello ++ wrote).length < rounds →
          receive rounds (Receiver.fresh chunkSize) RTMPPacket.zero (hello ++ wrote) =
            (greeting ++ heard, some .failed)

theorem output_is_heard (toDouble : ToDouble) (streams : Nat → UInt32) {chunkSize : Nat}
    (least : 4 ≤ chunkSize) {sends : List Send} (valid : ∀ send ∈ sends, send.Valid)
    {calls : List Call} (muxable : ∀ call ∈ calls, call.Muxable) :
    OutputHeard toDouble streams chunkSize sends calls := by
  have callsValid : ∀ send ∈ callSends toDouble streams calls, send.Valid := by
    intro send member
    obtain ⟨call, there, rfl⟩ := List.mem_map.mp member
    exact call_valid (muxable call there) streams
  obtain ⟨connected, hello, before, reached, between, greeting, first⟩ :=
    @session _ _ RTMPPacket.zero sends (fresh_agree least) rfl valid
  obtain ⟨after, wrote, result, final, last, heard, run⟩ :=
    session (callSends toDouble streams calls) first.agree first.empty callsValid
  obtain ⟨m_write, written⟩ := @write_calls toDouble streams calls muxable
    { r := connected, m_write := RTMPPacket.zero } ⟨rfl, rfl⟩ after wrote result
  have same := run.same
  rw [delivered_calls muxable] at same
  refine ⟨connected, hello, before, _, wrote, _, written, ?_, greeting, heard, first.same,
    heard_calls muxable same, ?_, ?_⟩
  · intro size member
    obtain ⟨call, -, rfl⟩ := List.mem_map.mp member
    rw [encodeTag, List.length_append, be_bytes_length]
    omega
  · intro onTime greeted
    have times := (run.time (first.time (fun _ => rfl) greeted).2 onTime).1
    rw [times, delivered_calls muxable, List.map_map]
    exact List.map_congr_left fun call _ => call_time call
  · intro rounds enough
    obtain ⟨reads, atMost, received⟩ := first.received
    obtain ⟨later, atMostLater, receivedLater⟩ := run.received
    rw [List.length_append] at enough
    obtain ⟨more, rfl⟩ : ∃ more, rounds = more + 1 + later + reads :=
      ⟨rounds - 1 - later - reads, by omega⟩
    have whole := receivedLater (more + 1) []
    rw [List.append_nil] at whole
    rw [received, whole]
    change (greeting ++ (heard ++ []), some ReadError.failed) = _
    rw [List.append_nil]

/-- The settings of a camera with one microphone. -/
def cameraSettings : Settings where
  width := 1280
  height := 720
  vbps := 2000
  fps := 25
  channels := 1
  abps := 64
  samplerate := 44100
  samplesize := 16

/-- A packet of the camera. -/
def cameraTag (type : AvcPacket.EncoderType) (isHeader : Bool) (size : Nat) (pts : Int) : RtmpTag where
  type := type
  keyframe := isHeader
  isHeader := isHeader
  payload := List.replicate size 7
  pts := pts

theorem output_is_heard_camera :
    OutputHeard (fun _ => 0) (fun _ => 1) RTMP_DEFAULT_CHUNKSIZE
      [.chunkSize 4096, videoSend 0 300]
      [.metaData cameraSettings, .media (cameraTag .audio true 4 0) 0,
        .media (cameraTag .video true 40 0) 0, .media (cameraTag .video false 5000 40) 0] :=
  output_is_heard _ _ (by decide) (by decide +kernel) (by decide +kernel)

end Results

end Mgw.RtmpOutput

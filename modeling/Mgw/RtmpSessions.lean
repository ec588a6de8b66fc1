import Mgw.RtmpMessages
import Mathlib.Data.List.Forall2

/-!
# Sessions over an RTMP connection

What is sent in a session is written as one run of bytes. The reader hands on the packets
that were sent, in their order, and those that were sent before wherever the run is cut.
-/

namespace Mgw.RtmpPacket

open BigEndian

set_option autoImplicit false

section Sends

/-- A packet, or a new size of the chunks. -/
inductive Send where
  | packet (sent : RTMPPacket)
  | chunkSize (outChunkSize : Nat)

namespace Send

def perform (r : Sender) : Send → Option (Sender × List UInt8)
  | .packet sent => sendPacket r sent
  | .chunkSize outChunkSize => sendChunkSize r outChunkSize

/-- The packet that goes out. -/
def sent : Send → RTMPPacket
  | .packet sent => sent
  | .chunkSize outChunkSize => chunkSizePacket outChunkSize

/-- Packets do not change the size of the chunks by themselves. -/
def Valid : Send → Prop
  | .packet sent => Sendable sent ∧ sent.m_packetType ≠ RTMP_PACKET_TYPE_CHUNK_SIZE
  | .chunkSize outChunkSize => 4 ≤ outChunkSize ∧ outChunkSize < 2147483648

end Send

/-- All that is written in a session. -/
def sendAll : Sender → List Send → Option (Sender × List UInt8)
  | s, [] => some (s, [])
  | s, send :: sends => do
      let (between, wrote) ← send.perform s
      let (after, others) ← sendAll between sends
      return (after, wrote ++ others)

def AllOnTime : Sender → List Send → Prop
  | _, [] => True
  | s, send :: sends =>
      OnTime s send.sent ∧
        match send.perform s with
        | none => True
        | some (after, _) => AllOnTime after sends

/-- A connection on which nothing was sent. -/
def Sender.fresh (outChunkSize : Nat) : Sender where
  m_outChunkSize := outChunkSize
  m_vecChannelsOut := fun _ => none

def Receiver.fresh (inChunkSize : Nat) : Receiver where
  m_inChunkSize := inChunkSize
  m_vecChannelsIn := fun _ => none
  m_channelTimestamp := fun _ => 0

/-- The packets of a session that are not empty. -/
def delivered (sends : List Send) : List RTMPPacket :=
  (sends.map Send.sent).filter fun packet => packet.m_nBodySize ≠ 0

end Sends

section Steps

variable {s : Sender} {r : Receiver} {packet : RTMPPacket}

/-- An empty packet is not handed on. -/
def handed (sent heard : RTMPPacket) : List RTMPPacket :=
  if sent.m_nBodySize = 0 then [] else [heard]

/-- What comes of a step of a session. -/
structure Performed (s : Sender) (r : Receiver) (packet sent : RTMPPacket) (after : Sender)
    (wrote : List UInt8) (reached : Receiver) (heard : RTMPPacket) : Prop where
  agree : Agree after reached
  same : Heard sent heard
  time : SameTimes s r → OnTime s sent → heard.m_nTimeStamp = sent.m_nTimeStamp ∧
    SameTimes after reached
  received : ∃ reads ≤ wrote.length, ∀ more rest, receive (more + reads) r packet (wrote ++ rest) =
    let others := receive more reached { heard with m_body := none } rest
    (handed sent heard ++ others.1, others.2)

theorem handed_on {sent heard : RTMPPacket} {reached changed : Receiver} (same : Heard sent heard)
    (client : clientPacket reached heard = changed)
    (nothing : sent.m_nBodySize = 0 → changed = reached) (more : Nat) (rest : List UInt8) :
    (if sent.m_nBodySize = 0 then receive more reached heard rest
      else handOn more (reached, heard) rest) =
      let others := receive more changed { heard with m_body := none } rest
      (handed sent heard ++ others.1, others.2) := by
  rw [handed, handOn, client]
  split_ifs with zero
  · have bare : { heard with m_body := none } = heard := by
      have none := same.body
      rw [if_pos zero] at none
      rw [← none]
    rw [bare, nothing zero]
    rfl
  · rfl

theorem packet_performed (agree : Agree s r) (empty : packet.m_body = none) {sent : RTMPPacket}
    (sendable : Sendable sent) (type : sent.m_packetType ≠ RTMP_PACKET_TYPE_CHUNK_SIZE) :
    ∃ after wrote, sendPacket s sent = some (after, wrote) ∧
      ∃ reached heard, Performed s r packet sent after wrote reached heard := by
  obtain ⟨after, wrote, result, reached, heard, arrives⟩ := packet_arrives agree empty sendable
  have unchanged : clientPacket reached heard = reached := by
    refine if_neg ?_
    rw [arrives.same.type]
    exact type
  refine ⟨after, wrote, result, reached, heard, arrives.agree, arrives.same, arrives.time, ?_⟩
  obtain ⟨reads, atMost, received⟩ := arrives.received
  refine ⟨reads, atMost, ?_⟩
  intro more rest
  rw [received, handed_on arrives.same unchanged fun _ => rfl]

theorem chunk_size_packet_sendable (outChunkSize : Nat) :
    Sendable (chunkSizePacket outChunkSize) where
  channel := ⟨Nat.le_refl 2, show 2 ≤ 65599 by decide⟩
  headerType := .inl rfl
  size := show 4 < 256 ^ 3 by decide
  body := Nat.le_of_eq (be_bytes_length 4 outChunkSize).symm

theorem compress_chunk_size (prevPacket : Option RTMPPacket) (outChunkSize : Nat) :
    compress prevPacket (chunkSizePacket outChunkSize) = (.large, 0) := by
  cases prevPacket <;> rfl

/-- A new size is written in a chunk that is no longer than those of the old size. -/
theorem send_chunk_size_eq {outChunkSize : Nat} (least : 4 ≤ s.m_outChunkSize)
    (valid : 4 ≤ outChunkSize) :
    sendChunkSize s outChunkSize =
      (sendPacket s (chunkSizePacket outChunkSize)).map fun (after, wrote) =>
        ({ after with m_outChunkSize := outChunkSize }, wrote) := by
  have sendable := chunk_size_packet_sendable outChunkSize
  have length : (chunkSizePacket outChunkSize).payload.length = 4 := payload_length sendable
  rw [sendChunkSize, send_packet_eq sendable (compress_chunk_size _ _),
    send_packet_eq sendable (compress_chunk_size _ _), write_one_chunk _ (by rw [length]; exact valid),
    write_one_chunk _ (by rw [length]; exact least)]
  rfl

/-- The reader takes the new size from the packet. -/
theorem client_chunk_size {outChunkSize : Nat} {heard : RTMPPacket}
    (same : Heard (chunkSizePacket outChunkSize) heard) (most : outChunkSize < 2147483648) :
    clientPacket r heard = { r with m_inChunkSize := (outChunkSize : Int) } := by
  have payload : (chunkSizePacket outChunkSize).payload = beBytes 4 outChunkSize :=
    List.take_of_length_le (Nat.le_of_eq (be_bytes_length 4 outChunkSize))
  have value : beValue (((heard.m_body).getD []).take 4) = outChunkSize := by
    rw [same.body, payload]
    change beValue ((beBytes 4 outChunkSize).take 4) = _
    rw [List.take_of_length_le (Nat.le_of_eq (be_bytes_length 4 outChunkSize))]
    exact be_value_of_lt (Nat.lt_trans most (by decide))
  have word : (UInt32.ofNat outChunkSize).toInt32.toInt = (outChunkSize : Int) := by
    rw [UInt32.toInt32_ofNat', Int32.toInt_ofNat_of_lt most]
  have type : heard.m_packetType = RTMP_PACKET_TYPE_CHUNK_SIZE := same.type
  have size : heard.m_nBodySize = 4 := same.size
  rw [clientPacket, if_pos type, HandleChangeChunkSize, if_pos (by omega), value, word]

theorem chunk_size_performed (agree : Agree s r) (empty : packet.m_body = none)
    {outChunkSize : Nat} (least : 4 ≤ outChunkSize) (most : outChunkSize < 2147483648) :
    ∃ after wrote, sendChunkSize s outChunkSize = some (after, wrote) ∧
      ∃ reached heard, Performed s r packet (chunkSizePacket outChunkSize) after wrote reached
        heard := by
  obtain ⟨after, wrote, result, reached, heard, arrives⟩ := packet_arrives agree empty
    (chunk_size_packet_sendable outChunkSize)
  have changed := @client_chunk_size reached outChunkSize heard arrives.same most
  refine ⟨{ after with m_outChunkSize := outChunkSize }, wrote, ?_,
    { reached with m_inChunkSize := (outChunkSize : Int) }, heard,
    ⟨rfl, least, arrives.agree.channels⟩, arrives.same, arrives.time, ?_⟩
  · rw [send_chunk_size_eq agree.least least, result]
    rfl
  · obtain ⟨reads, atMost, received⟩ := arrives.received
    refine ⟨reads, atMost, ?_⟩
    intro more rest
    have some : ¬(chunkSizePacket outChunkSize).m_nBodySize = 0 := Nat.succ_ne_zero 3
    rw [received, handed_on arrives.same changed fun nothing => absurd nothing some]

theorem send_performed (agree : Agree s r) (empty : packet.m_body = none) {send : Send}
    (valid : send.Valid) :
    ∃ after wrote, send.perform s = some (after, wrote) ∧
      ∃ reached heard, Performed s r packet send.sent after wrote reached heard := by
  cases send with
  | packet sent => exact packet_performed agree empty valid.1 valid.2
  | chunkSize outChunkSize => exact chunk_size_performed agree empty valid.1 valid.2

end Steps

section Runs

variable {s : Sender} {r : Receiver} {packet : RTMPPacket}

/-- What comes of a session, with the packet that the reader goes on with. -/
structure Session (s : Sender) (r : Receiver) (packet : RTMPPacket) (sends : List Send)
    (after : Sender) (wrote : List UInt8) (reached : Receiver) (last : RTMPPacket)
    (heard : List RTMPPacket) : Prop where
  agree : Agree after reached
  empty : last.m_body = none
  same : List.Forall₂ Heard (delivered sends) heard
  time : SameTimes s r → AllOnTime s sends →
    heard.map RTMPPacket.m_nTimeStamp = (delivered sends).map RTMPPacket.m_nTimeStamp ∧
      SameTimes after reached
  received : ∃ reads ≤ wrote.length, ∀ more rest, receive (more + reads) r packet (wrote ++ rest) =
    let others := receive more reached last rest
    (heard ++ others.1, others.2)

theorem delivered_cons (send : Send) (sends : List Send) :
    delivered (send :: sends) = handed send.sent send.sent ++ delivered sends := by
  rw [delivered, List.map_cons, List.filter_cons, handed]
  by_cases nothing : send.sent.m_nBodySize = 0
  · rw [if_pos nothing, if_neg (by simp [nothing])]
    rfl
  · rw [if_neg nothing, if_pos (decide_eq_true nothing)]
    rfl

theorem handed_same {sent heard : RTMPPacket} (same : Heard sent heard) :
    List.Forall₂ Heard (handed sent sent) (handed sent heard) := by
  unfold handed
  split_ifs
  · exact .nil
  · exact .cons same .nil

theorem handed_time {sent heard : RTMPPacket} (time : heard.m_nTimeStamp = sent.m_nTimeStamp) :
    (handed sent heard).map RTMPPacket.m_nTimeStamp =
      (handed sent sent).map RTMPPacket.m_nTimeStamp := by
  unfold handed
  split_ifs
  · rfl
  · exact congrArg (fun time => [time]) time

theorem session (sends : List Send) (agree : Agree s r) (empty : packet.m_body = none)
    (valid : ∀ send ∈ sends, send.Valid) :
    ∃ after wrote, sendAll s sends = some (after, wrote) ∧
      ∃ reached last heard, Session s r packet sends after wrote reached last heard := by
  induction sends generalizing s r packet with
  | nil =>
      refine ⟨s, [], rfl, r, packet, [], agree, empty, .nil, ?_, 0, Nat.le_refl 0, ?_⟩
      · intro times _
        exact ⟨rfl, times⟩
      · intro more rest
        rfl
  | cons send sends induction =>
      obtain ⟨between, wrote, performed, reached, heard, first⟩ := send_performed agree empty
        (valid send List.mem_cons_self)
      have others (send : Send) (member : send ∈ sends) : send.Valid :=
        valid send (List.mem_cons_of_mem _ member)
      have times : SameTimes s r → AllOnTime s (send :: sends) →
          heard.m_nTimeStamp = send.sent.m_nTimeStamp ∧ SameTimes between reached ∧
            AllOnTime between sends := by
        intro times onTime
        obtain ⟨now, later⟩ := onTime
        rw [performed] at later
        obtain ⟨time, kept⟩ := first.time times now
        exact ⟨time, kept, later⟩
      obtain ⟨reads, atMost, received⟩ := first.received
      obtain ⟨after, more, result, final, last, rest, run⟩ :=
        @induction between reached { heard with m_body := none } first.agree rfl others
      obtain ⟨later, atMostLater, receivedLater⟩ := run.received
      refine ⟨after, wrote ++ more, ?_, final, last, handed send.sent heard ++ rest, run.agree,
        run.empty, ?_, ?_, later + reads, ?_, ?_⟩
      · rw [sendAll, performed]
        change (sendAll between sends).bind _ = _
        rw [result]
        rfl
      · rw [delivered_cons]
        exact List.rel_append (handed_same first.same) run.same
      · intro same onTime
        obtain ⟨time, kept, rest⟩ := times same onTime
        obtain ⟨others, last⟩ := run.time kept rest
        refine ⟨?_, last⟩
        rw [delivered_cons, List.map_append, List.map_append, handed_time time, others]
      · rw [List.length_append]
        omega
      · intro rounds input
        rw [← Nat.add_assoc, List.append_assoc, received, receivedLater]
        simp only [List.append_assoc]

end Runs

section Cuts

variable {r after : Receiver} {packet read : RTMPPacket} {input rest : List UInt8}

theorem bind_ok {Value Result : Type} {first : Except ReadError Value}
    {next : Value → Except ReadError Result} {result : Result}
    (done : first.bind next = .ok result) : ∃ value, first = .ok value ∧ next value = .ok result := by
  cases first with
  | error error => cases done
  | ok value => exact ⟨value, rfl, done⟩

theorem read_n_longer {n : Nat} {bytes : List UInt8} (done : ReadN n input = .ok (bytes, rest))
    (more : List UInt8) : ReadN n (input ++ more) = .ok (bytes, rest ++ more) := by
  rw [ReadN, readFixed] at done
  by_cases enough : n ≤ input.length
  · rw [if_pos enough] at done
    cases done
    have split : input ++ more = input.take n ++ (input.drop n ++ more) := by
      rw [← List.append_assoc, List.take_append_drop]
    rw [split]
    exact read_n_append (List.length_take_of_le enough) _
  · rw [if_neg enough] at done
    cases done

theorem read_basic_longer {headerType : HeaderType} {nChannel : Nat}
    (done : readBasicHeader input = .ok (headerType, nChannel, rest)) (more : List UInt8) :
    readBasicHeader (input ++ more) = .ok (headerType, nChannel, rest ++ more) := by
  cases input with
  | nil => cases done
  | cons byte input =>
      rw [read_basic_cons] at done
      rw [List.cons_append, read_basic_cons]
      split_ifs at done ⊢
      · obtain ⟨⟨bytes, others⟩, read, same⟩ := bind_ok done
        cases same
        rw [read_n_longer read]
        rfl
      · obtain ⟨⟨bytes, others⟩, read, same⟩ := bind_ok done
        cases same
        rw [read_n_longer read]
        rfl
      · cases done
        rfl

theorem read_extended_longer {base fields : RTMPPacket} {extended : Bool}
    (done : readExtended base input = .ok (fields, extended, rest)) (more : List UInt8) :
    readExtended base (input ++ more) = .ok (fields, extended, rest ++ more) := by
  rw [readExtended] at done ⊢
  split_ifs at done ⊢
  · obtain ⟨⟨bytes, others⟩, read, same⟩ := bind_ok done
    cases same
    rw [read_n_longer read]
    rfl
  · cases done
    rfl

theorem read_fields_longer {headerType : HeaderType} {base fields : RTMPPacket} {extended : Bool}
    (done : readFields headerType base input = .ok (fields, extended, rest)) (more : List UInt8) :
    readFields headerType base (input ++ more) = .ok (fields, extended, rest ++ more) := by
  obtain ⟨⟨header, afterHeader⟩, read, goes⟩ := bind_ok done
  rw [readFields, read_n_longer read]
  change (if headerType.packetSize - 1 < 3 then _ else _) = _ at goes
  change (if headerType.packetSize - 1 < 3 then _ else _) = _
  split_ifs at goes ⊢
  · cases goes
    rfl
  · exact read_extended_longer goes more

theorem read_chunk_longer {chunkSize : Int} (done : readChunk chunkSize packet input = .ok (read, rest))
    (more : List UInt8) : readChunk chunkSize packet (input ++ more) = .ok (read, rest ++ more) := by
  rw [readChunk] at done ⊢
  dsimp only at done ⊢
  generalize (if (packet.m_nBodySize : Int) - packet.m_nBytesRead < chunkSize then
    (packet.m_nBodySize : Int) - packet.m_nBytesRead else chunkSize) = nChunk at done ⊢
  by_cases negative : nChunk < 0
  · rw [if_pos negative] at done
    cases done
  · rw [if_neg negative] at done ⊢
    obtain ⟨⟨chunk, others⟩, taken, goes⟩ := bind_ok done
    rw [read_n_longer taken]
    change (if nChunk = 0 then _ else _) = _ at goes
    change (if nChunk = 0 then _ else _) = _
    by_cases nothing : nChunk = 0
    · rw [if_pos nothing] at goes ⊢
      cases goes
      rfl
    · rw [if_neg nothing] at goes ⊢
      dsimp only at goes ⊢
      cases written : packet.m_body.bind (writeAt · packet.m_nBytesRead chunk) with
      | none =>
          rw [written] at goes
          cases goes
      | some body =>
          rw [written] at goes
          cases goes
          rfl

/-- A call that reads a packet reads it from a longer input. -/
theorem read_packet_longer (done : readPacket r packet input = .ok (after, read, rest))
    (more : List UInt8) :
    readPacket r packet (input ++ more) = .ok (after, read, rest ++ more) := by
  obtain ⟨⟨headerType, nChannel, afterBasic⟩, basic, fieldsDone⟩ := bind_ok done
  obtain ⟨⟨fields, extended, afterFields⟩, header, chunkDone⟩ := bind_ok fieldsDone
  obtain ⟨⟨whole, others⟩, chunk, same⟩ := bind_ok chunkDone
  cases same
  rw [readPacket, read_basic_longer basic]
  change (readFields _ _ (afterBasic ++ more)).bind _ = _
  rw [read_fields_longer header]
  change (readChunk _ _ (afterFields ++ more)).bind _ = _
  rw [read_chunk_longer chunk]
  rfl

/-- Where the input is cut, the packets that were whole by then are handed on. -/
theorem receive_longer (rounds : Nat) (input more : List UInt8) :
    (receive rounds r packet input).1 <+: (receive rounds r packet (input ++ more)).1 := by
  induction rounds generalizing r packet input with
  | zero => exact List.prefix_rfl
  | succ rounds induction =>
      rw [receive]
      cases result : readPacket r packet input with
      | error error => exact List.nil_prefix
      | ok done =>
          obtain ⟨after, read, rest⟩ := done
          rw [receive, read_packet_longer result]
          dsimp only
          split_ifs
          · exact induction rest
          · exact (List.prefix_cons_inj read).mpr (induction rest)

end Cuts

section Results

theorem fresh_agree {chunkSize : Nat} (least : 4 ≤ chunkSize) :
    Agree (Sender.fresh chunkSize) (Receiver.fresh chunkSize) :=
  ⟨rfl, least, fun _ => .fresh⟩

theorem sendable_iff (packet : RTMPPacket) :
    Sendable packet ↔ (2 ≤ packet.m_nChannel ∧ packet.m_nChannel ≤ 65599) ∧
      (packet.m_headerType = .large ∨ packet.m_headerType = .medium) ∧
      packet.m_nBodySize < 256 ^ 3 ∧ packet.m_nBodySize ≤ (packet.m_body.getD []).length :=
  ⟨fun ⟨channel, headerType, size, body⟩ => ⟨channel, headerType, size, body⟩,
    fun ⟨channel, headerType, size, body⟩ => ⟨channel, headerType, size, body⟩⟩

instance (packet : RTMPPacket) : Decidable (Sendable packet) :=
  decidable_of_iff' _ (sendable_iff packet)

instance (send : Send) : Decidable send.Valid :=
  match send with
  | .packet sent => inferInstanceAs (Decidable (Sendable sent ∧ _))
  | .chunkSize _ => inferInstanceAs (Decidable (_ ∧ _))

instance (s : Sender) (sends : List Send) : Decidable (AllOnTime s sends) :=
  match sends with
  | [] => .isTrue trivial
  | send :: sends =>
      match result : send.perform s with
      | none => decidable_of_iff (OnTime s send.sent) (by rw [AllOnTime, result, and_true])
      | some (after, _) =>
          have := instDecidableAllOnTime after sends
          decidable_of_iff (OnTime s send.sent ∧ AllOnTime after sends)
            (by rw [AllOnTime, result])

/-- A video packet of this size on the channel of the sources. -/
def videoSend (time : UInt32) (size : Nat) : Send :=
  .packet
    { RTMPPacket.zero with
      m_headerType := .medium
      m_packetType := RTMP_PACKET_TYPE_VIDEO
      m_nChannel := 4
      m_nTimeStamp := time
      m_nBodySize := size
      m_body := some (List.replicate size 7) }

/-- What is written in a session is handed on by a reader packet by packet, in its order and
with nothing else between. Cut anywhere it gives a first part of that. -/
def Delivers (chunkSize : Nat) (sends : List Send) : Prop :=
  ∃ after wrote, sendAll (Sender.fresh chunkSize) sends = some (after, wrote) ∧
    ∃ heard, List.Forall₂ Heard (delivered sends) heard ∧
      (AllOnTime (Sender.fresh chunkSize) sends →
        heard.map RTMPPacket.m_nTimeStamp = (delivered sends).map RTMPPacket.m_nTimeStamp) ∧
      ∀ rounds, wrote.length < rounds →
        receive rounds (Receiver.fresh chunkSize) RTMPPacket.zero wrote = (heard, some .failed) ∧
          ∀ cut, (receive rounds (Receiver.fresh chunkSize) RTMPPacket.zero
            (wrote.take cut)).1 <+: heard

theorem sessions_are_delivered {chunkSize : Nat} (least : 4 ≤ chunkSize) {sends : List Send}
    (valid : ∀ send ∈ sends, send.Valid) : Delivers chunkSize sends := by
  obtain ⟨after, wrote, result, reached, last, heard, run⟩ :=
    @session _ _ RTMPPacket.zero sends (fresh_agree least) rfl valid
  obtain ⟨reads, atMost, received⟩ := run.received
  refine ⟨after, wrote, result, heard, run.same,
    fun onTime => (run.time (fun _ => rfl) onTime).1, ?_⟩
  intro rounds enough
  have all : receive rounds (Receiver.fresh chunkSize) RTMPPacket.zero wrote =
      (heard, some .failed) := by
    obtain ⟨more, rfl⟩ : ∃ more, rounds = more + 1 + reads := ⟨rounds - 1 - reads, by omega⟩
    have whole := received (more + 1) []
    rw [List.append_nil] at whole
    rw [whole]
    change (heard ++ [], some ReadError.failed) = _
    rw [List.append_nil]
  refine ⟨all, ?_⟩
  intro cut
  have longer := @receive_longer (Receiver.fresh chunkSize) RTMPPacket.zero rounds (wrote.take cut)
    (wrote.drop cut)
  rwa [List.take_append_drop, all] at longer

theorem sessions_are_delivered_video :
    Delivers RTMP_DEFAULT_CHUNKSIZE
      [.chunkSize 4096, videoSend 40 300, videoSend 80 300, videoSend 90 0, videoSend 120 5000] :=
  sessions_are_delivered (by decide) (by decide +kernel)

example : AllOnTime (Sender.fresh RTMP_DEFAULT_CHUNKSIZE)
    [.chunkSize 4096, videoSend 40 300, videoSend 80 300, videoSend 90 0, videoSend 120 5000] := by
  decide +kernel

/-- A packet like the last one is heard with the time counted on. -/
example : ((sendAll (Sender.fresh RTMP_DEFAULT_CHUNKSIZE)
    [videoSend 40 5, videoSend 80 5, videoSend 80 5]).map fun (_, wrote) =>
      (receive 9 (Receiver.fresh RTMP_DEFAULT_CHUNKSIZE) RTMPPacket.zero wrote).1.map
        RTMPPacket.m_nTimeStamp) = some [40, 80, 120] := by
  decide +kernel

end Results

end Mgw.RtmpPacket

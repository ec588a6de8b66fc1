import Mgw.RtmpChunks

/-!
# Both ends of an RTMP connection

The reader keeps of each channel what the writer leaves out of its headers. A packet that
is sent is heard as it was sent, and both ends agree about its channel again.
-/

namespace Mgw.RtmpPacket

open BigEndian

set_option autoImplicit false

section Agreement

/-- What a reader has of a channel on which so much was sent. -/
inductive Kept (nChannel : Nat) : Option RTMPPacket → Option RTMPPacket → Prop where
  | fresh : Kept nChannel none none
  | known {sent kept : RTMPPacket} : kept.m_nChannel = nChannel →
      kept.m_nBodySize = sent.m_nBodySize → kept.m_packetType = sent.m_packetType →
      kept.m_hasAbsTimestamp = false → kept.m_nBytesRead = 0 → kept.m_body = none →
      Kept nChannel (some sent) (some kept)

/-- Between packets both ends agree. -/
structure Agree (s : Sender) (r : Receiver) : Prop where
  chunkSize : r.m_inChunkSize = (s.m_outChunkSize : Int)
  least : 4 ≤ s.m_outChunkSize
  channels : ∀ nChannel, Kept nChannel (s.m_vecChannelsOut nChannel) (r.m_vecChannelsIn nChannel)

/-- The last time of each channel. -/
def SameTimes (s : Sender) (r : Receiver) : Prop :=
  ∀ nChannel, r.m_channelTimestamp nChannel =
    ((s.m_vecChannelsOut nChannel).map RTMPPacket.m_nTimeStamp).getD 0

/-- The bytes that are sent of a body. -/
def RTMPPacket.payload (packet : RTMPPacket) : List UInt8 :=
  (packet.m_body.getD []).take packet.m_nBodySize

/-- A packet as it is handed to `RTMP_SendPacket`. -/
structure Sendable (packet : RTMPPacket) : Prop where
  channel : ChannelFits packet.m_nChannel
  headerType : packet.m_headerType = .large ∨ packet.m_headerType = .medium
  size : packet.m_nBodySize < 256 ^ 3
  body : packet.m_nBodySize ≤ (packet.m_body.getD []).length

/-- Whether the time of a packet can be read off its chunks: it is not left out because
the time is the last one again, and a long one has a single chunk to itself. -/
def OnTime (s : Sender) (packet : RTMPPacket) : Prop :=
  let (headerType, last) := compress (s.m_vecChannelsOut packet.m_nChannel) packet
  headerType ≠ .minimum ∧
    (0xffffff ≤ packet.m_nTimeStamp - last → packet.m_nBodySize ≤ s.m_outChunkSize)

instance (s : Sender) (packet : RTMPPacket) : Decidable (OnTime s packet) :=
  inferInstanceAs (Decidable (_ ∧ (_ → _)))

/-- A packet is heard as it was sent, but for the time. -/
structure Heard (packet heard : RTMPPacket) : Prop where
  channel : heard.m_nChannel = packet.m_nChannel
  type : heard.m_packetType = packet.m_packetType
  size : heard.m_nBodySize = packet.m_nBodySize
  body : heard.m_body = if packet.m_nBodySize = 0 then none else some packet.payload

end Agreement

section Sending

variable {s : Sender} {packet : RTMPPacket}

theorem payload_length (sendable : Sendable packet) :
    packet.payload.length = packet.m_nBodySize :=
  List.length_take_of_le sendable.body

theorem write_chunks_some {chunkSize rounds : Nat} (positive : 0 < chunkSize) (next : List UInt8)
    {header buffer : List UInt8} (enough : buffer.length < rounds) :
    ∃ wrote, writeChunks chunkSize next rounds header buffer = some wrote := by
  induction rounds generalizing header buffer with
  | zero => omega
  | succ rounds induction =>
      rw [writeChunks]
      by_cases last : buffer.drop chunkSize = []
      · exact ⟨_, if_pos last⟩
      · have shorter : (buffer.drop chunkSize).length < rounds := by
          have nonempty := List.length_pos_of_ne_nil last
          rw [List.length_drop] at nonempty ⊢
          omega
        obtain ⟨others, written⟩ := @induction next _ shorter
        exact ⟨_, by rw [if_neg last, written]; rfl⟩

/-- A packet that fits one chunk is written alike in chunks of any such size. -/
theorem write_one_chunk {chunkSize rounds : Nat} (next : List UInt8) {header buffer : List UInt8}
    (fits : buffer.length ≤ chunkSize) :
    writeChunks chunkSize next (rounds + 1) header buffer = some (header ++ buffer) := by
  rw [writeChunks, List.drop_eq_nil_of_le fits, List.take_of_length_le fits]
  exact if_pos rfl

/-- What is written of a packet, and what is kept of it. -/
theorem send_packet_eq {headerType : HeaderType} {last : UInt32} (sendable : Sendable packet)
    (compressed : compress (s.m_vecChannelsOut packet.m_nChannel) packet = (headerType, last)) :
    sendPacket s packet =
      (writeChunks s.m_outChunkSize (basicHeader .minimum packet.m_nChannel)
        (packet.m_nBodySize + 1)
        (basicHeader headerType packet.m_nChannel ++
          messageHeader headerType (packet.m_nTimeStamp - last) packet) packet.payload).map
        fun wrote =>
          ({ s with
              m_vecChannelsOut := Function.update s.m_vecChannelsOut packet.m_nChannel
                (some { packet with m_headerType := headerType }) }, wrote) := by
  rw [sendPacket]
  dsimp only
  rw [if_neg (Nat.not_lt.mpr sendable.body), compressed]
  rfl

theorem compress_some {prevPacket : RTMPPacket} {headerType : HeaderType} {last : UInt32}
    (sendable : Sendable packet)
    (compressed : compress (some prevPacket) packet = (headerType, last)) :
    headerType = .large ∧ last = 0 ∨ headerType ≠ .large ∧ last = prevPacket.m_nTimeStamp ∧
      (headerType = .medium ∨ prevPacket.m_nBodySize = packet.m_nBodySize ∧
        prevPacket.m_packetType = packet.m_packetType) := by
  rw [compress] at compressed
  rcases sendable.headerType with large | medium
  · rw [if_pos large, Prod.mk.injEq] at compressed
    exact .inl ⟨compressed.1 ▸ large, compressed.2.symm⟩
  · rw [medium, if_neg (by decide)] at compressed
    dsimp only at compressed
    split_ifs at compressed with sized timed other <;>
      obtain ⟨rfl, rfl⟩ := Prod.mk.inj compressed
    · exact .inr ⟨by decide, rfl, .inr ⟨sized.1, sized.2.1⟩⟩
    · exact .inr ⟨by decide, rfl, .inr ⟨sized.1, sized.2.1⟩⟩
    · cases other.2
    · exact .inr ⟨by decide, rfl, .inl rfl⟩

end Sending

section Opening

variable {s : Sender} {r : Receiver} {packet sent : RTMPPacket} {headerType : HeaderType}
  {last : UInt32}

/-- What the header of a packet makes of what the reader has. -/
def openedBy (r : Receiver) (packet sent : RTMPPacket) (headerType : HeaderType) (last : UInt32) :
    RTMPPacket :=
  withFields headerType (sent.m_nTimeStamp - last) sent
    (basePacket r packet headerType sent.m_nChannel)

/-- A packet of which no byte has come in. -/
structure Opened (sent opened : RTMPPacket) : Prop where
  channel : opened.m_nChannel = sent.m_nChannel
  type : opened.m_packetType = sent.m_packetType
  size : opened.m_nBodySize = sent.m_nBodySize
  read : opened.m_nBytesRead = 0
  body : opened.m_body = none

theorem opened_by_large (empty : packet.m_body = none) :
    Opened sent (openedBy r packet sent .large last) :=
  ⟨rfl, rfl, rfl, rfl, empty⟩

theorem opened_by_fresh (empty : packet.m_body = none)
    (fresh : r.m_vecChannelsIn sent.m_nChannel = none) :
    Opened sent (openedBy r packet sent .medium last) := by
  unfold openedBy basePacket
  rw [if_neg (by decide), fresh]
  exact ⟨rfl, rfl, rfl, rfl, empty⟩

theorem opened_by_known {kept : RTMPPacket} (notLarge : headerType ≠ .large)
    (present : r.m_vecChannelsIn sent.m_nChannel = some kept) :
    openedBy r packet sent headerType last =
      withFields headerType (sent.m_nTimeStamp - last) sent kept := by
  unfold openedBy basePacket
  rw [if_neg notLarge, present]
  rfl

/-- Whatever is left out of the header, the reader has it. -/
theorem opened_by (sendable : Sendable sent) (empty : packet.m_body = none)
    (agree : Kept sent.m_nChannel (s.m_vecChannelsOut sent.m_nChannel)
      (r.m_vecChannelsIn sent.m_nChannel))
    (compressed : compress (s.m_vecChannelsOut sent.m_nChannel) sent = (headerType, last)) :
    Opened sent (openedBy r packet sent headerType last) := by
  cases out : s.m_vecChannelsOut sent.m_nChannel with
  | none =>
      rw [out] at agree compressed
      have fresh : r.m_vecChannelsIn sent.m_nChannel = none := by
        generalize r.m_vecChannelsIn sent.m_nChannel = kept at agree
        cases agree
        rfl
      obtain ⟨rfl, rfl⟩ := Prod.mk.inj compressed
      rcases sendable.headerType with large | medium
      · rw [large]
        exact opened_by_large empty
      · rw [medium]
        exact opened_by_fresh empty fresh
  | some prevPacket =>
      rw [out] at agree compressed
      cases present : r.m_vecChannelsIn sent.m_nChannel with
      | none =>
          rw [present] at agree
          cases agree
      | some kept =>
          rw [present] at agree
          cases agree with
          | known channel size type absolute read body =>
              rcases compress_some sendable compressed with ⟨rfl, -⟩ | ⟨notLarge, -, left⟩
              · exact opened_by_large empty
              · rw [opened_by_known notLarge present]
                cases headerType with
                | large => contradiction
                | medium => exact ⟨channel, rfl, rfl, rfl, body⟩
                | small | minimum =>
                    obtain ⟨sameSize, sameType⟩ := left.resolve_left (by decide)
                    exact ⟨channel, type.trans sameType, size.trans sameSize, read, body⟩

theorem opened_by_stamp (full : headerType ≠ .minimum) :
    (openedBy r packet sent headerType last).m_nTimeStamp = sent.m_nTimeStamp - last := by
  cases headerType with
  | minimum => contradiction
  | large | medium | small => rfl

/-- The time of the header, counted from the last time of the channel. -/
theorem opened_by_time (sendable : Sendable sent)
    (agree : Kept sent.m_nChannel (s.m_vecChannelsOut sent.m_nChannel)
      (r.m_vecChannelsIn sent.m_nChannel))
    (times : SameTimes s r)
    (compressed : compress (s.m_vecChannelsOut sent.m_nChannel) sent = (headerType, last)) :
    (if (openedBy r packet sent headerType last).m_hasAbsTimestamp then sent.m_nTimeStamp - last
      else sent.m_nTimeStamp - last + r.m_channelTimestamp sent.m_nChannel) =
        sent.m_nTimeStamp := by
  have time := times sent.m_nChannel
  have large : last = 0 → (if (openedBy r packet sent .large last).m_hasAbsTimestamp then
      sent.m_nTimeStamp - last
      else sent.m_nTimeStamp - last + r.m_channelTimestamp sent.m_nChannel) =
        sent.m_nTimeStamp := by
    rintro rfl
    have absolute : (openedBy r packet sent .large 0).m_hasAbsTimestamp = true := rfl
    rw [absolute, if_pos rfl, UInt32.sub_zero]
  cases out : s.m_vecChannelsOut sent.m_nChannel with
  | none =>
      rw [out] at time compressed
      obtain ⟨-, rfl⟩ := Prod.mk.inj compressed
      rw [time]
      change (if _ then sent.m_nTimeStamp - 0 else sent.m_nTimeStamp - 0 + 0) = _
      rw [UInt32.sub_zero, UInt32.add_zero, ite_self]
  | some prevPacket =>
      rw [out] at agree compressed time
      rcases compress_some sendable compressed with ⟨rfl, zero⟩ | ⟨notLarge, rfl, -⟩
      · exact large zero
      · cases present : r.m_vecChannelsIn sent.m_nChannel with
        | none =>
            rw [present] at agree
            cases agree
        | some kept =>
            rw [present] at agree
            cases agree with
            | known channel size type absolute read body =>
                have relative : (openedBy r packet sent headerType
                    prevPacket.m_nTimeStamp).m_hasAbsTimestamp = false := by
                  rw [opened_by_known notLarge present, ← absolute]
                  cases headerType <;> rfl
                rw [relative, time]
                exact UInt32.sub_add_cancel _ _

end Opening

section Landing

variable {s : Sender} {r : Receiver} {packet sent opened : RTMPPacket} {headerType : HeaderType}
  {last : UInt32} {extended : Bool}

/-- The time that a packet is given. -/
def landingTime (r : Receiver) (opened : RTMPPacket) : UInt32 :=
  if opened.m_hasAbsTimestamp then opened.m_nTimeStamp
  else opened.m_nTimeStamp + r.m_channelTimestamp opened.m_nChannel

theorem keep_ready (ready : opened.IsReady = true) :
    keepPacket r opened extended =
      ({ r with
          m_vecChannelsIn := Function.update r.m_vecChannelsIn opened.m_nChannel
            (some { marked opened extended with
              m_body := none, m_nBytesRead := 0, m_hasAbsTimestamp := false })
          m_channelTimestamp :=
            Function.update r.m_channelTimestamp opened.m_nChannel (landingTime r opened) },
        { opened with m_nTimeStamp := landingTime r opened }) := by
  rw [keepPacket, if_pos ready]
  rfl

/-- What the writer has when a packet is sent. -/
def Sender.keep (s : Sender) (packet : RTMPPacket) (headerType : HeaderType) : Sender :=
  { s with
    m_vecChannelsOut := Function.update s.m_vecChannelsOut packet.m_nChannel
      (some { packet with m_headerType := headerType }) }

/-- Both ends agree when a packet is there. -/
theorem landed_agree (agree : Agree s r) (ready : opened.IsReady = true)
    (channel : opened.m_nChannel = sent.m_nChannel) (type : opened.m_packetType = sent.m_packetType)
    (size : opened.m_nBodySize = sent.m_nBodySize) :
    Agree (s.keep sent headerType) (keepPacket r opened extended).1 := by
  rw [keep_ready ready]
  refine ⟨agree.chunkSize, agree.least, ?_⟩
  intro nChannel
  change Kept nChannel (Function.update s.m_vecChannelsOut sent.m_nChannel _ nChannel)
    (Function.update r.m_vecChannelsIn opened.m_nChannel _ nChannel)
  rw [channel]
  by_cases same : nChannel = sent.m_nChannel
  · rw [same, Function.update_self, Function.update_self]
    cases extended with
    | false => exact .known channel size type rfl rfl rfl
    | true => exact .known channel size type rfl rfl rfl
  · rw [Function.update_of_ne same, Function.update_of_ne same]
    exact agree.channels nChannel

theorem landed_times (times : SameTimes s r) (ready : opened.IsReady = true)
    (channel : opened.m_nChannel = sent.m_nChannel)
    (time : landingTime r opened = sent.m_nTimeStamp) :
    SameTimes (s.keep sent headerType) (keepPacket r opened extended).1 := by
  rw [keep_ready ready]
  intro nChannel
  change Function.update r.m_channelTimestamp opened.m_nChannel (landingTime r opened) nChannel =
    ((Function.update s.m_vecChannelsOut sent.m_nChannel
      (some { sent with m_headerType := headerType }) nChannel).map RTMPPacket.m_nTimeStamp).getD 0
  rw [channel, time]
  by_cases same : nChannel = sent.m_nChannel
  · rw [same, Function.update_self, Function.update_self]
    rfl
  · rw [Function.update_of_ne same, Function.update_of_ne same]
    exact times nChannel

end Landing

section Heard

variable (opened : RTMPPacket) (extended : Bool) (left chunkSize : Nat)

theorem heard_from_fields :
    (heardFrom opened extended left chunkSize).1.m_nChannel = opened.m_nChannel ∧
      (heardFrom opened extended left chunkSize).1.m_packetType = opened.m_packetType ∧
      (heardFrom opened extended left chunkSize).1.m_nBodySize = opened.m_nBodySize ∧
      (heardFrom opened extended left chunkSize).1.m_hasAbsTimestamp =
        opened.m_hasAbsTimestamp := by
  unfold heardFrom
  split_ifs
  · cases extended <;> exact ⟨rfl, rfl, rfl, rfl⟩
  · exact ⟨rfl, rfl, rfl, rfl⟩

theorem heard_from_whole (opened : RTMPPacket) {extended : Prop} [Decidable extended]
    {left chunkSize : Nat} (whole : extended → left ≤ chunkSize) :
    (heardFrom opened extended left chunkSize).1 = opened := by
  unfold heardFrom
  split_ifs with goes
  · have short : ¬extended := fun long => Nat.not_lt.mpr (whole long) goes
    rw [decide_eq_false short]
    rfl
  · rfl

end Heard

section Messages

variable {s : Sender} {r : Receiver} {packet sent : RTMPPacket}

/-- What comes of a packet that is sent: both ends agree again, and the reader hands the
packet on, unless it is empty. -/
structure Arrives (s : Sender) (r : Receiver) (packet sent : RTMPPacket) (after : Sender)
    (wrote : List UInt8) (reached : Receiver) (heard : RTMPPacket) : Prop where
  agree : Agree after reached
  same : Heard sent heard
  time : SameTimes s r → OnTime s sent → heard.m_nTimeStamp = sent.m_nTimeStamp ∧
    SameTimes after reached
  received : ∃ reads ≤ wrote.length, ∀ more rest, receive (more + reads) r packet (wrote ++ rest) =
    if sent.m_nBodySize = 0 then receive more reached heard rest
    else handOn more (reached, heard) rest

theorem arrives_of {opened : RTMPPacket} {headerType : HeaderType} {extended : Bool}
    {wrote : List UInt8} (agree : Agree s r) (ready : opened.IsReady = true)
    (channel : opened.m_nChannel = sent.m_nChannel) (type : opened.m_packetType = sent.m_packetType)
    (size : opened.m_nBodySize = sent.m_nBodySize)
    (body : opened.m_body = if sent.m_nBodySize = 0 then none else some sent.payload)
    (time : SameTimes s r → OnTime s sent → landingTime r opened = sent.m_nTimeStamp)
    (received : ∃ reads ≤ wrote.length, ∀ more rest,
      receive (more + reads) r packet (wrote ++ rest) =
        if sent.m_nBodySize = 0 then
          receive more (keepPacket r opened extended).1 (keepPacket r opened extended).2 rest
        else handOn more (keepPacket r opened extended) rest) :
    Arrives s r packet sent (s.keep sent headerType) wrote (keepPacket r opened extended).1
      (keepPacket r opened extended).2 where
  agree := landed_agree agree ready channel type size
  same := by
    rw [keep_ready ready]
    exact ⟨channel, type, size, body⟩
  time := by
    intro times onTime
    refine ⟨?_, landed_times times ready channel (time times onTime)⟩
    rw [keep_ready ready]
    exact time times onTime
  received := received

theorem read_nothing {opened : RTMPPacket} {chunkSize : Nat} (size : opened.m_nBodySize = 0)
    (read : opened.m_nBytesRead = 0) (rest : List UInt8) :
    readChunk chunkSize opened rest = .ok (opened, rest) := by
  obtain ⟨headerType, packetType, absolute, nChannel, time, info, nBodySize, nBytesRead, body⟩ :=
    opened
  obtain rfl : nBodySize = 0 := size
  obtain rfl : nBytesRead = 0 := read
  have chunk : (if ((0 : Nat) : Int) - (0 : Nat) < (chunkSize : Nat) then
      ((0 : Nat) : Int) - (0 : Nat) else (chunkSize : Nat)) = 0 := by
    split_ifs <;> omega
  have nothing : ReadN 0 rest = .ok ([], rest) := @read_n_append 0 [] rfl rest
  rw [readChunk]
  dsimp only
  rw [chunk, if_neg (by decide), Int.toNat_zero, nothing]
  rfl

section Kinds

variable {headerType : HeaderType} {last : UInt32} {wrote : List UInt8} (agree : Agree s r)
  (empty : packet.m_body = none) (sendable : Sendable sent)
  (compressed : compress (s.m_vecChannelsOut sent.m_nChannel) sent = (headerType, last))
  (written : writeChunks s.m_outChunkSize (basicHeader .minimum sent.m_nChannel)
    (sent.m_nBodySize + 1) (basicHeader headerType sent.m_nChannel ++
      messageHeader headerType (sent.m_nTimeStamp - last) sent) sent.payload = some wrote)

include compressed

theorem on_time_iff : OnTime s sent ↔ headerType ≠ .minimum ∧
    (0xffffff ≤ sent.m_nTimeStamp - last → sent.m_nBodySize ≤ s.m_outChunkSize) := by
  rw [OnTime, compressed]

include agree sendable

theorem landing_time_eq {opened : RTMPPacket} (times : SameTimes s r)
    (absolute : opened.m_hasAbsTimestamp =
      (openedBy r packet sent headerType last).m_hasAbsTimestamp)
    (stamp : opened.m_nTimeStamp = sent.m_nTimeStamp - last)
    (channel : opened.m_nChannel = sent.m_nChannel) :
    landingTime r opened = sent.m_nTimeStamp := by
  rw [landingTime, absolute, stamp, channel]
  exact opened_by_time sendable (agree.channels _) times compressed

include empty written

theorem empty_arrives (nothing : sent.m_nBodySize = 0) :
    ∃ reached heard, Arrives s r packet sent (s.keep sent headerType) wrote reached heard := by
  have length := payload_length sendable
  have opened := opened_by sendable empty (agree.channels _) compressed
  have opens : Opens r packet _ (allocBody headerType (openedBy r packet sent headerType last)) _ :=
    message_header_opens headerType (sent.m_nTimeStamp - last) sendable.channel sendable.size
  have unchanged : allocBody headerType (openedBy r packet sent headerType last) =
      openedBy r packet sent headerType last := by
    refine if_neg ?_
    rintro ⟨some, -⟩
    rw [opened.size, nothing] at some
    exact Nat.lt_irrefl 0 some
  have ready : (openedBy r packet sent headerType last).IsReady = true := by
    refine decide_eq_true ?_
    rw [opened.read, opened.size, nothing]
  have bare : sent.payload = [] := List.eq_nil_of_length_eq_zero (length.trans nothing)
  rw [bare, write_one_chunk _ (Nat.zero_le _), Option.some.injEq, List.append_nil] at written
  refine ⟨_, _, @arrives_of s r packet sent _ headerType
    (decide (Extended headerType (sent.m_nTimeStamp - last))) wrote agree ready opened.channel
    opened.type opened.size ?_ ?_ ?_⟩
  · rw [opened.body, if_pos nothing]
  · intro times onTime
    obtain ⟨full, -⟩ := (on_time_iff compressed).mp onTime
    exact landing_time_eq agree sendable compressed times rfl (opened_by_stamp full) opened.channel
  · subst written
    refine ⟨1, ?_, ?_⟩
    · rw [List.length_append]
      have some := List.length_pos_of_ne_nil (basic_header_nonempty headerType sent.m_nChannel)
      omega
    · intro more rest
      have result := opens rest
      rw [unchanged, agree.chunkSize, read_nothing (opened.size.trans nothing) opened.read] at result
      rw [if_pos nothing]
      refine receive_more result (.inr ?_) more
      rw [keep_ready ready]
      exact opened.size.trans nothing

theorem body_arrives (something : sent.m_nBodySize ≠ 0) :
    ∃ reached heard, Arrives s r packet sent (s.keep sent headerType) wrote reached heard := by
  have length := payload_length sendable
  have least := agree.least
  have opened := opened_by sendable empty (agree.channels _) compressed
  have opens : Opens r packet _ (allocBody headerType (openedBy r packet sent headerType last)) _ :=
    message_header_opens headerType (sent.m_nTimeStamp - last) sendable.channel sendable.size
  have allocated : allocBody headerType (openedBy r packet sent headerType last) =
      ({ openedBy r packet sent headerType last with m_headerType := headerType }).upTo
        sent.payload 0 := by
    rw [RTMPPacket.upTo, filled_zero, length, ← opened.size]
    refine if_pos ⟨?_, opened.body⟩
    rw [opened.size]
    omega
  rw [allocated] at opens
  have nonempty : basicHeader headerType sent.m_nChannel ++
      messageHeader headerType (sent.m_nTimeStamp - last) sent ≠ [] :=
    List.append_ne_nil_of_left_ne_nil (basic_header_nonempty _ _) _
  have received := receive_chunks sendable.channel (by omega) _ opens agree.chunkSize opened.channel
    (opened.size.trans length.symm) (by omega) nonempty written
  obtain ⟨⟨read, extended⟩, heard⟩ : ∃ result,
      heardFrom { openedBy r packet sent headerType last with m_headerType := headerType }
        (decide (Extended headerType (sent.m_nTimeStamp - last))) (sent.payload.length - 0)
        s.m_outChunkSize = result := ⟨_, rfl⟩
  have fields := heard_from_fields
    { openedBy r packet sent headerType last with m_headerType := headerType }
    (decide (Extended headerType (sent.m_nTimeStamp - last))) (sent.payload.length - 0)
    s.m_outChunkSize
  rw [heard] at received fields
  obtain ⟨channel, type, size, absolute⟩ := fields
  have ready : (read.upTo sent.payload sent.payload.length).IsReady = true :=
    decide_eq_true ((length.trans opened.size.symm).trans size.symm)
  obtain ⟨reads, atMost, handed⟩ := received
  refine ⟨_, _, @arrives_of s r packet sent _ headerType extended wrote agree ready
    (channel.trans opened.channel) (type.trans opened.type) (size.trans opened.size) ?_ ?_
    ⟨reads, atMost, ?_⟩⟩
  · rw [if_neg something]
    exact congrArg some (filled_all sent.payload)
  · intro times onTime
    obtain ⟨full, single⟩ := (on_time_iff compressed).mp onTime
    have whole : Extended headerType (sent.m_nTimeStamp - last) →
        sent.payload.length - 0 ≤ s.m_outChunkSize := by
      rintro ⟨-, long⟩
      rw [length]
      exact single long
    have same := heard_from_whole
      { openedBy r packet sent headerType last with m_headerType := headerType } whole
    rw [heard] at same
    dsimp only at same
    refine landing_time_eq agree sendable compressed times absolute ?_
      (channel.trans opened.channel)
    change read.m_nTimeStamp = _
    rw [same]
    exact opened_by_stamp full
  · intro more rest
    rw [if_neg something]
    exact handed more rest

end Kinds


theorem packet_arrives (agree : Agree s r) (empty : packet.m_body = none)
    (sendable : Sendable sent) :
    ∃ after wrote, sendPacket s sent = some (after, wrote) ∧
      ∃ reached heard, Arrives s r packet sent after wrote reached heard := by
  obtain ⟨⟨headerType, last⟩, compressed⟩ :
      ∃ result, compress (s.m_vecChannelsOut sent.m_nChannel) sent = result := ⟨_, rfl⟩
  have least := agree.least
  have positive : 0 < s.m_outChunkSize := by omega
  have length := payload_length sendable
  obtain ⟨wrote, written⟩ := write_chunks_some positive (basicHeader .minimum sent.m_nChannel)
    (show sent.payload.length < sent.m_nBodySize + 1 by omega)
  refine ⟨s.keep sent headerType, wrote, ?_, ?_⟩
  · rw [send_packet_eq sendable compressed, written]
    rfl
  · by_cases nothing : sent.m_nBodySize = 0
    · exact empty_arrives agree empty sendable compressed written nothing
    · exact body_arrives agree empty sendable compressed written nothing

end Messages

end Mgw.RtmpPacket

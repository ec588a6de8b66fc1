import Mgw.RtmpHeaders

/-!
# The chunks of an RTMP packet

The chunks that one packet is written in are put together by as many reads. The time
counts that the last of the reads finds with the packet.
-/

namespace Mgw.RtmpPacket

open BigEndian

set_option autoImplicit false

section Bodies

variable {body : List UInt8} {count more : Nat}

/-- A body of which so many bytes have come in. -/
def filled (body : List UInt8) (count : Nat) : List UInt8 :=
  body.take count ++ List.replicate (body.length - count) 0

theorem filled_zero (body : List UInt8) : filled body 0 = List.replicate body.length 0 := by
  rw [filled, List.take_zero, List.nil_append, Nat.sub_zero]

theorem filled_all (body : List UInt8) : filled body body.length = body := by
  rw [filled, List.take_length, Nat.sub_self, List.replicate_zero, List.append_nil]

/-- The next bytes go behind those that are there. -/
theorem write_filled (room : count + more ≤ body.length) :
    writeAt (filled body count) count ((body.drop count).take more) =
      some (filled body (count + more)) := by
  have chunk : ((body.drop count).take more).length = more := by
    rw [List.length_take, List.length_drop]
    omega
  have start : (body.take count).length = count := List.length_take_of_le (by omega)
  have length : (filled body count).length = body.length := by
    rw [filled, List.length_append, start, List.length_replicate]
    omega
  have before : (filled body count).take count = body.take count := by
    rw [filled, List.take_left' start]
  have behind : (filled body count).drop (count + more) =
      List.replicate (body.length - (count + more)) 0 := by
    rw [filled, ← List.drop_drop, List.drop_left' start, List.drop_replicate, Nat.sub_sub]
  rw [writeAt, chunk, length, if_pos room, before, behind, ← List.take_add]
  rfl

/-- The packet with so many bytes of the body. -/
def RTMPPacket.upTo (packet : RTMPPacket) (body : List UInt8) (count : Nat) : RTMPPacket :=
  { packet with m_nBytesRead := count, m_body := some (filled body count) }

variable {packet : RTMPPacket} {chunkSize : Nat}

theorem read_chunk (size : packet.m_nBodySize = body.length) (positive : 0 < chunkSize)
    (left : count < body.length) (rest : List UInt8) :
    readChunk chunkSize (packet.upTo body count) ((body.drop count).take chunkSize ++ rest) =
      .ok (packet.upTo body (min (count + chunkSize) body.length), rest) := by
  have atMost : count + min chunkSize (body.length - count) ≤ body.length := by omega
  have chunk : (if (((packet.upTo body count).m_nBodySize : Nat) : Int) - (count : Nat) <
      (chunkSize : Nat) then ((packet.upTo body count).m_nBodySize : Int) - (count : Nat)
      else (chunkSize : Nat)) = ((min chunkSize (body.length - count) : Nat) : Int) := by
    rw [show (packet.upTo body count).m_nBodySize = body.length from size]
    split_ifs <;> omega
  have taken : (body.drop count).take chunkSize =
      (body.drop count).take (min chunkSize (body.length - count)) := by
    rw [← List.length_drop, ← List.take_take, List.take_length]
  have length : ((body.drop count).take (min chunkSize (body.length - count))).length =
      min chunkSize (body.length - count) := by
    rw [List.length_take, List.length_drop]
    omega
  have reached : min (count + chunkSize) body.length =
      count + min chunkSize (body.length - count) := by
    omega
  have written : ((packet.upTo body count).m_body.bind fun buffer =>
      writeAt buffer count ((body.drop count).take (min chunkSize (body.length - count)))) =
        some (filled body (count + min chunkSize (body.length - count))) :=
    write_filled atMost
  rw [readChunk, show (packet.upTo body count).m_nBytesRead = count from rfl]
  dsimp only
  rw [chunk, if_neg (by omega), Int.toNat_natCast, taken, read_n_append length, reached]
  change (if ((min chunkSize (body.length - count) : Nat) : Int) = 0 then _ else _) = _
  rw [if_neg (by omega)]
  rw [written]
  rfl

end Bodies

section Calls

variable {r : Receiver} {packet opened : RTMPPacket} {header : List UInt8} {extended : Bool}

/-- A call that finds the header in front of the input goes on to a chunk of the packet. -/
def Opens (r : Receiver) (packet : RTMPPacket) (header : List UInt8) (opened : RTMPPacket)
    (extended : Bool) : Prop :=
  ∀ rest, readPacket r packet (header ++ rest) =
    (readChunk r.m_inChunkSize opened rest).map fun (read, rest) =>
      ((keepPacket r read extended).1, (keepPacket r read extended).2, rest)

theorem header_opens {headerType : HeaderType} {nChannel : Nat} {fields : List UInt8}
    {base : RTMPPacket} (fits : ChannelFits nChannel)
    (read : ∀ rest, readFields headerType (basePacket r packet headerType nChannel)
      (fields ++ rest) = .ok (base, extended, rest)) :
    Opens r packet (basicHeader headerType nChannel ++ fields) (allocBody headerType base)
      extended := by
  intro rest
  rw [List.append_assoc, readPacket, read_basic_header fits]
  change (readFields headerType (basePacket r packet headerType nChannel) (fields ++ rest)).bind _ = _
  rw [read]
  change (readChunk r.m_inChunkSize (allocBody headerType base) rest).bind _ = _
  cases readChunk r.m_inChunkSize (allocBody headerType base) rest <;> rfl

/-- The header of a packet. -/
theorem message_header_opens (headerType : HeaderType) (t : UInt32) {sent : RTMPPacket}
    (fits : ChannelFits sent.m_nChannel) (small : sent.m_nBodySize < 256 ^ 3) :
    Opens r packet (basicHeader headerType sent.m_nChannel ++ messageHeader headerType t sent)
      (allocBody headerType (withFields headerType t sent
        (basePacket r packet headerType sent.m_nChannel)))
      (Extended headerType t) :=
  header_opens fits fun rest => read_fields headerType t small _ rest

/-- The header of a chunk that goes on with a packet. -/
theorem next_header_opens {nChannel : Nat} {kept : RTMPPacket} (fits : ChannelFits nChannel)
    (present : r.m_vecChannelsIn nChannel = some kept) (begun : kept.m_body ≠ none) :
    Opens r packet (basicHeader .minimum nChannel) kept false := by
  have base : basePacket r packet .minimum nChannel = kept := by
    rw [basePacket, present]
    rfl
  have alloc : allocBody .minimum kept = kept := if_neg fun missing => begun missing.2
  have opens : Opens r packet (basicHeader .minimum nChannel ++ [])
      (allocBody .minimum (basePacket r packet .minimum nChannel)) false :=
    header_opens fits fun rest => rfl
  rwa [base, alloc, List.append_nil] at opens

theorem opens_chunk {body : List UInt8} {count chunkSize : Nat}
    (opens : Opens r packet header (opened.upTo body count) extended)
    (size : opened.m_nBodySize = body.length) (same : r.m_inChunkSize = chunkSize)
    (positive : 0 < chunkSize) (left : count < body.length) (rest : List UInt8) :
    readPacket r packet (header ++ (body.drop count).take chunkSize ++ rest) =
      let read := opened.upTo body (min (count + chunkSize) body.length)
      .ok ((keepPacket r read extended).1, (keepPacket r read extended).2, rest) := by
  rw [List.append_assoc, opens, same, read_chunk size positive left]
  rfl

/-- The packet as it is kept between chunks. -/
def marked (opened : RTMPPacket) (extended : Bool) : RTMPPacket :=
  if extended then { opened with m_nTimeStamp := 0xffffff } else opened

/-- What is found with the packet when its last chunk comes in. -/
def heardFrom (opened : RTMPPacket) (extended : Bool) (left chunkSize : Nat) : RTMPPacket × Bool :=
  if chunkSize < left then (marked opened extended, false) else (opened, extended)

theorem heard_from_false (opened : RTMPPacket) (left chunkSize : Nat) :
    heardFrom opened false left chunkSize = (opened, false) :=
  ite_self _

theorem keep_whole {body : List UInt8} (size : opened.m_nBodySize = body.length) :
    (keepPacket r (opened.upTo body body.length) extended).2.IsReady = true ∧
      (keepPacket r (opened.upTo body body.length) extended).2.m_nBodySize = body.length := by
  have ready : (opened.upTo body body.length).IsReady = true :=
    decide_eq_true (show body.length = opened.m_nBodySize from size.symm)
  rw [keepPacket, if_pos ready]
  exact ⟨ready, size⟩

theorem not_ready {body : List UInt8} {count : Nat} (size : opened.m_nBodySize = body.length)
    (left : count < body.length) : (opened.upTo body count).IsReady = false := by
  have short : ¬ count = opened.m_nBodySize := by omega
  exact decide_eq_false short

theorem keep_begun {body : List UInt8} {count : Nat} (size : opened.m_nBodySize = body.length)
    (left : count < body.length) :
    keepPacket r (opened.upTo body count) extended =
      ({ r with
          m_vecChannelsIn := Function.update r.m_vecChannelsIn opened.m_nChannel
            (some ((marked opened extended).upTo body count)) },
        { opened.upTo body count with m_body := none }) := by
  have begun : ¬(opened.upTo body count).IsReady = true := by
    rw [not_ready size left]
    exact Bool.false_ne_true
  rw [keepPacket, if_neg begun]
  cases extended <;> rfl

/-- Nothing that was kept of a packet between its chunks is there in the end. -/
theorem keep_over {body : List UInt8} {kept : RTMPPacket} (size : opened.m_nBodySize = body.length) :
    keepPacket
        { r with
          m_vecChannelsIn := Function.update r.m_vecChannelsIn opened.m_nChannel (some kept) }
        (opened.upTo body body.length) extended =
      keepPacket r (opened.upTo body body.length) extended := by
  have ready : (opened.upTo body body.length).IsReady = true :=
    decide_eq_true (show body.length = opened.m_nBodySize from size.symm)
  have idem (last : Option RTMPPacket) :
      Function.update (Function.update r.m_vecChannelsIn opened.m_nChannel (some kept))
        opened.m_nChannel last = Function.update r.m_vecChannelsIn opened.m_nChannel last :=
    Function.update_idem _ _ _
  rw [keepPacket, keepPacket, if_pos ready, if_pos ready]
  simp only [RTMPPacket.upTo, idem]

end Calls

section Loops

variable {r after : Receiver} {packet read : RTMPPacket} {input rest : List UInt8}

/-- A packet is handed on, and the packets behind it. -/
def handOn (rounds : Nat) (read : Receiver × RTMPPacket) (rest : List UInt8) :
    List RTMPPacket × Option ReadError :=
  let more := receive rounds (clientPacket read.1 read.2) { read.2 with m_body := none } rest
  (read.2 :: more.1, more.2)

theorem receive_whole (result : readPacket r packet input = .ok (after, read, rest))
    (ready : read.IsReady = true) (nonempty : read.m_nBodySize ≠ 0) (rounds : Nat) :
    receive (rounds + 1) r packet input = handOn rounds (after, read) rest := by
  have handed : ¬(read.IsReady = false ∨ read.m_nBodySize = 0) := by
    rintro (begun | empty)
    · rw [ready] at begun
      contradiction
    · exact nonempty empty
  rw [receive, result]
  dsimp only
  rw [if_neg handed]
  rfl

theorem receive_more (result : readPacket r packet input = .ok (after, read, rest))
    (goes : read.IsReady = false ∨ read.m_nBodySize = 0) (rounds : Nat) :
    receive (rounds + 1) r packet input = receive rounds after read rest := by
  rw [receive, result]
  dsimp only
  rw [if_pos goes]

theorem basic_header_nonempty (headerType : HeaderType) (nChannel : Nat) :
    basicHeader headerType nChannel ≠ [] := by
  unfold basicHeader
  dsimp only
  split_ifs <;> exact List.cons_ne_nil _ _

/-- From any chunk on the rest of a packet is put together, with at most a call for each
byte. -/
theorem receive_chunks {body : List UInt8} {nChannel chunkSize : Nat} (fits : ChannelFits nChannel)
    (positive : 0 < chunkSize) (rounds : Nat) {opened : RTMPPacket} {header wrote : List UInt8}
    {extended : Bool} {count : Nat} (opens : Opens r packet header (opened.upTo body count) extended)
    (same : r.m_inChunkSize = chunkSize) (channel : opened.m_nChannel = nChannel)
    (size : opened.m_nBodySize = body.length) (left : count < body.length) (some : header ≠ [])
    (written : writeChunks chunkSize (basicHeader .minimum nChannel) rounds header
      (body.drop count) = .some wrote) :
    ∃ reads ≤ wrote.length, ∀ more rest,
      let heard := heardFrom opened extended (body.length - count) chunkSize
      receive (more + reads) r packet (wrote ++ rest) =
        handOn more (keepPacket r (heard.1.upTo body body.length) heard.2) rest := by
  induction rounds generalizing r packet opened header wrote extended count with
  | zero => cases written
  | succ rounds induction =>
      have first := header.length_pos_of_ne_nil some
      rw [writeChunks] at written
      by_cases whole : body.length ≤ count + chunkSize
      · have last : (body.drop count).drop chunkSize = [] := by
          rw [List.drop_drop]
          exact List.drop_eq_nil_of_le whole
        rw [if_pos last, Option.some.injEq] at written
        subst written
        refine ⟨1, ?_, ?_⟩
        · rw [List.length_append]
          omega
        · intro more rest
          have result := opens_chunk opens size same positive left rest
          rw [Nat.min_eq_right whole] at result
          rw [heardFrom, if_neg (by omega)]
          obtain ⟨ready, length⟩ := @keep_whole r opened extended body size
          exact receive_whole result ready (by rw [length]; omega) more
      · have within : count + chunkSize < body.length := by omega
        have goes : ¬(body.drop count).drop chunkSize = [] := by
          rw [List.drop_drop, List.drop_eq_nil_iff]
          omega
        rw [if_neg goes, List.drop_drop] at written
        obtain ⟨others, othersWritten, rfl⟩ := Option.map_eq_some_iff.mp written
        let begun : Receiver × RTMPPacket :=
          keepPacket r (opened.upTo body (count + chunkSize)) extended
        have kept := @keep_begun r opened extended body _ size within
        have markedChannel : (marked opened extended).m_nChannel = nChannel := by
          rw [← channel]
          cases extended <;> rfl
        have markedSize : (marked opened extended).m_nBodySize = body.length := by
          rw [← size]
          cases extended <;> rfl
        have present : begun.1.m_vecChannelsIn nChannel =
            .some ((marked opened extended).upTo body (count + chunkSize)) := by
          change (keepPacket r (opened.upTo body (count + chunkSize)) extended).1.m_vecChannelsIn _ = _
          rw [kept, channel]
          exact Function.update_self _ _ _
        have next : Opens begun.1 begun.2 (basicHeader .minimum nChannel)
            ((marked opened extended).upTo body (count + chunkSize)) false :=
          next_header_opens fits present (Option.some_ne_none _)
        have sameNext : begun.1.m_inChunkSize = chunkSize := by
          change (keepPacket r (opened.upTo body (count + chunkSize)) extended).1.m_inChunkSize = _
          rw [kept]
          exact same
        obtain ⟨reads, atMost, received⟩ := induction next sameNext markedChannel markedSize within
          (basic_header_nonempty _ _) othersWritten
        refine ⟨reads + 1, ?_, ?_⟩
        · rw [List.length_append, List.length_append]
          omega
        · intro more rest
          have result := opens_chunk opens size same positive left (others ++ rest)
          rw [Nat.min_eq_left (Nat.le_of_lt within)] at result
          have partly : begun.2.IsReady = false := by
            change (keepPacket r (opened.upTo body (count + chunkSize)) extended).2.IsReady = _
            rw [kept]
            exact not_ready size within
          rw [← Nat.add_assoc, List.append_assoc, receive_more result (.inl partly), received,
            heard_from_false, heardFrom, if_pos (by omega)]
          change handOn more (keepPacket (keepPacket r _ extended).1 _ _) rest = _
          rw [kept, show opened.m_nChannel = (marked opened extended).m_nChannel by
            rw [markedChannel, channel], keep_over markedSize]

end Loops

end Mgw.RtmpPacket

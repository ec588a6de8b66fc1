import Mgw.RtmpSend
import Mgw.TransitionRuns

/-!
# The timeline of the RTMP output

From the first video packet that is sent on, a packet is written with its time
in milliseconds after that packet. A log of the rounds is kept beside the
stream, and a round is judged by the first video packet of those before it.
-/

namespace Mgw.RtmpTimeline

open AvcPacket RtmpSend TransitionRuns WordArithmetic

set_option autoImplicit false

/-- A round as it was logged; `handed` tells whether the conversion found a payload. -/
structure Entry where
  type : EncoderType
  pts : Int
  handed : Bool
  headers : List RtmpTag
  media : List RtmpTag
  completed : Bool

def Entry.times (entry : Entry) : List Int := (entry.headers ++ entry.media).map RtmpTag.pts

structure Session where
  stream : RtmpStream
  log : List Entry

namespace Session

def start : Session where
  stream := RtmpStream.connected
  log := []

def entry (session : Session) (round : Round) : Entry :=
  let result := sendThread session.stream round
  { type := round.packet.type
    pts := round.pts
    handed := (sendMedia round.memory round.packet).isSome
    headers := result.headers
    media := result.media
    completed := result.ret }

def next (session : Session) (round : Round) : Session :=
  if session.stream.disconnected then session
  else
    { stream := (sendThread session.stream round).stream
      log := session.log ++ [session.entry round] }

def times (session : Session) : List Int := session.log.flatMap Entry.times

end Session

/-- The time of the first video packet that is handed on. -/
def noteFirst (first : Option Int) (entry : Entry) : Option Int :=
  first.or (if entry.type = .video ∧ entry.handed then some entry.pts else none)

/-- The time after the first video packet, in milliseconds. -/
def rebased (first : Option Int) (pts : Int) : Int :=
  match first with
  | none => 0
  | some pts0 => pts / 1000 - pts0 / 1000

/-- A packet is written with its time after the first video packet, is skipped
only as an audio packet before it, and has headers of its own time. -/
structure Kept (first : Option Int) (entry : Entry) : Prop where
  media : entry.media = [] ∨ ∃ pts0, noteFirst first entry = some pts0 ∧
    entry.media.map RtmpTag.pts = [entry.pts / 1000 - pts0 / 1000]
  skipped : entry.completed = true → entry.handed = true → entry.media = [] →
    noteFirst first entry = none ∧ entry.type = .audio
  headers : ∀ header ∈ entry.headers, ∀ tag ∈ entry.media, header.pts = tag.pts

namespace Session

variable (session : Session) (round : Round)

def first : Option Int := summary noteFirst none session.log

/-- The order in which the ring delivers: no time is negative or decreases. -/
def InOrder : Prop :=
  0 ≤ round.pts ∧ round.pts < 9223372036854775808 ∧
    ∀ entry ∈ session.log, entry.pts ≤ round.pts

/-- The mark of an unset offset does no harm: behind a first video packet within
the first millisecond only such video packets are handed on, and headers are not
sent again before the first video packet, unless within the first millisecond. -/
def OffsetKept : Prop :=
  (session.first.isSome = true → session.stream.start_dts_offset = 0 →
      (sendMedia round.memory round.packet).isSome = true →
        round.packet.type = .video ∧ round.pts < 1000) ∧
    (session.first = none → session.stream.sent_headers = true →
      headersDue session.stream round = true → round.pts < 1000)

instance in_order_decidable : Decidable (session.InOrder round) :=
  inferInstanceAs (Decidable (_ ≤ _ ∧ _ < _ ∧ ∀ entry ∈ session.log, (_ : Int) ≤ _))

instance offset_kept_decidable : Decidable (session.OffsetKept round) :=
  inferInstanceAs (Decidable ((_ = _ → (_ : Nat) = _ → _ = _ → _ = _ ∧ (_ : Int) < _) ∧
    (_ = _ → _ = _ → _ = _ → (_ : Int) < _)))

end Session

section Rebase

theorem tick_of {pts : Int} (positive : 0 ≤ pts) (bound : pts < 9223372036854775808) :
    tickOf pts = (pts / 1000).toNat := by
  unfold tickOf
  rw [Int.tdiv_eq_ediv_of_nonneg positive]
  omega

/-- The difference of two ticks in order does not wrap. -/
theorem rebase_pts {pts pts0 : Int} (positive : 0 ≤ pts0) (ordered : pts0 ≤ pts)
    (bound : pts < 9223372036854775808) :
    asInt64 (subSize (tickOf pts) (pts0 / 1000).toNat) = pts / 1000 - pts0 / 1000 := by
  rw [tick_of (by omega) bound, sub_size_of_le (by omega) (by simp only [sizeRange]; omega), asInt64,
    if_pos (by omega)]
  omega

theorem note_first_time (first : Option Int) (entry : Entry) :
    rebased (noteFirst first entry) entry.pts = rebased first entry.pts := by
  cases first with
  | some pts0 => rfl
  | none =>
      unfold noteFirst
      rw [Option.none_or]
      split_ifs
      · exact Int.sub_self _
      · rfl

end Rebase

section Headers

variable {stream : RtmpStream}

/-- What sending headers leaves: the offset, and tags that are all of one time. -/
structure HeadersSent (stream : RtmpStream) (time : Int) (sent : Sent) : Prop where
  offset : sent.stream.start_dts_offset = stream.start_dts_offset
  marked : sent.stream.sent_headers = stream.sent_headers
  connected : sent.stream.disconnected = stream.disconnected
  times : ∀ tag ∈ sent.tags, tag.pts = time
  some_tag : sent.ret = true → sent.tags ≠ []

theorem nothing_sent (stream : RtmpStream) (time : Int) :
    HeadersSent stream time { stream := stream, ret := false, tags := [] } := by
  constructor
  · rfl
  · rfl
  · rfl
  · intro tag member
    contradiction
  · intro impossible
    contradiction

theorem header_sent {tag : RtmpTag} {ts : Int} (isHeader : tag.isHeader = true)
    (time : tag.pts = ts) (link : Link) :
    HeadersSent stream (asInt64 (subSize (tickOf ts) stream.start_dts_offset))
      (sendPacketInternal stream tag link) := by
  unfold sendPacketInternal
  rw [isHeader, time]
  by_cases received : link.received = false
  · simp only [received, Bool.true_eq_false, false_and, and_false, if_false, if_true]
    exact nothing_sent _ _
  · simp only [received, Bool.true_eq_false, false_and, and_false, if_false]
    constructor
    · rfl
    · rfl
    · rfl
    · intro other member
      rw [List.mem_singleton.mp member]
    · intro _
      exact List.cons_ne_nil _ _

theorem audio_header_sent (ts : Int) (replies : Replies) :
    HeadersSent stream (asInt64 (subSize (tickOf ts) stream.start_dts_offset))
      (sendAudioHeader stream ts replies) := by
  unfold sendAudioHeader
  split
  · apply header_sent
    · rfl
    · rfl
  · exact nothing_sent _ _

theorem video_header_sent (ts : Int) (replies : Replies) :
    HeadersSent stream (asInt64 (subSize (tickOf ts) stream.start_dts_offset))
      (sendVideoHeader stream ts replies) := by
  unfold sendVideoHeader
  split
  · apply header_sent
    · rfl
    · rfl
  · exact nothing_sent _ _

theorem headers_sent (ts : Int) (replies : Replies) :
    HeadersSent { stream with sent_headers := true }
      (asInt64 (subSize (tickOf ts) stream.start_dts_offset)) (sendHeaders stream ts replies) := by
  have audio := @audio_header_sent { stream with sent_headers := true } ts replies
  unfold sendHeaders
  by_cases failed : (sendAudioHeader { stream with sent_headers := true } ts replies).ret = false
  · simp only [failed, if_true]
    exact audio
  · simp only [failed]
    have video := @video_header_sent
      (sendAudioHeader { stream with sent_headers := true } ts replies).stream ts replies
    rw [audio.offset] at video
    constructor
    · exact video.offset.trans audio.offset
    · exact video.marked.trans audio.marked
    · exact video.connected.trans audio.connected
    · intro tag member
      rcases List.mem_append.mp member with first | second
      · exact audio.times tag first
      · exact video.times tag second
    · intro _
      apply List.append_ne_nil_of_left_ne_nil
      exact audio.some_tag (by simpa using failed)

end Headers

section Media

variable {stream : RtmpStream} {round : Round}

/-- What sending the packet itself leaves, in terms of the offset behind it. -/
structure MediaSent (stream : RtmpStream) (round : Round) (sent : Sent) : Prop where
  marked : sent.stream.sent_headers = stream.sent_headers
  connected : sent.stream.disconnected = stream.disconnected
  offset : sent.stream.start_dts_offset =
    if stream.start_dts_offset = 0 ∧ round.packet.type = .video ∧
        (sendMedia round.memory round.packet).isSome = true then tickOf round.pts
    else stream.start_dts_offset
  tags : sent.tags = [] ∨ ((sendMedia round.memory round.packet).isSome = true ∧
    (round.packet.type = .video ∨ stream.start_dts_offset ≠ 0) ∧
    sent.tags.map RtmpTag.pts =
      [asInt64 (subSize (tickOf round.pts) sent.stream.start_dts_offset)])
  skipped : sent.ret = true → (sendMedia round.memory round.packet).isSome = true →
    sent.tags = [] → stream.start_dts_offset = 0 ∧ round.packet.type = .audio

/-- The end of a call for a packet that is not skipped. -/
theorem media_written {based : RtmpStream} (marked : based.sent_headers = stream.sent_headers)
    (connected : based.disconnected = stream.disconnected)
    (offset : based.start_dts_offset =
      if stream.start_dts_offset = 0 ∧ round.packet.type = .video ∧
        (sendMedia round.memory round.packet).isSome = true then tickOf round.pts
      else stream.start_dts_offset)
    (video : round.packet.type = .video ∨ stream.start_dts_offset ≠ 0)
    (found : (sendMedia round.memory round.packet).isSome = true) {tags : List RtmpTag}
    (times : tags.map RtmpTag.pts =
      [asInt64 (subSize (tickOf round.pts) based.start_dts_offset)])
    (link : Link) (last_dts : Int) :
    MediaSent stream round
      (if link.received = false then { stream := based, ret := false, tags := [] }
      else
        { stream := { based with last_dts := last_dts }, ret := link.written, tags := tags }) := by
  by_cases received : link.received = false
  · rw [if_pos received]
    constructor
    · exact marked
    · exact connected
    · exact offset
    · exact Or.inl rfl
    · intro impossible
      contradiction
  · rw [if_neg received]
    constructor
    · exact marked
    · exact connected
    · exact offset
    · exact Or.inr ⟨found, video, times⟩
    · intro _ _ none
      change tags = [] at none
      rw [none] at times
      contradiction

theorem media_sent (stream : RtmpStream) (round : Round) :
    MediaSent stream round (sendMediaPacket stream round) := by
  unfold sendMediaPacket
  cases found : sendMedia round.memory round.packet with
  | none =>
      constructor
      · rfl
      · rfl
      · simp [found]
      · exact Or.inl rfl
      · intro _ impossible
        simp [found] at impossible
  | some payload =>
      simp only [sendPacketInternal, true_and]
      by_cases skipped : stream.start_dts_offset = 0 ∧ round.packet.type = .audio
      · rw [if_pos skipped]
        constructor
        · rfl
        · rfl
        · simp [skipped.2]
        · exact Or.inl rfl
        · intro _ _ _
          exact skipped
      · rw [if_neg skipped]
        have video : round.packet.type = .video ∨ stream.start_dts_offset ≠ 0 := by
          cases type : round.packet.type with
          | video => exact Or.inl rfl
          | audio => exact Or.inr fun unset => skipped ⟨unset, type⟩
        by_cases unset : stream.start_dts_offset = 0
        · have type := video.resolve_right (fun set => set unset)
          have isSome : (sendMedia round.memory round.packet).isSome = true := by
            rw [found]
            rfl
          rw [if_pos (show stream.start_dts_offset = 0 ∧ True from ⟨unset, trivial⟩)]
          apply media_written
          · rfl
          · rfl
          · rw [if_pos ⟨unset, type, isSome⟩]
          · exact Or.inl type
          · exact isSome
          · rfl
        · rw [if_neg (show ¬(stream.start_dts_offset = 0 ∧ True) from fun both => unset both.1)]
          apply media_written
          · rfl
          · rfl
          · rw [if_neg (fun all => unset all.1)]
          · exact Or.inr unset
          · rw [found]
            rfl
          · rfl

end Media

/-- The offset that stands for a first video packet. -/
def offsetOf (first : Option Int) : Nat :=
  match first with
  | none => 0
  | some pts0 => (pts0 / 1000).toNat

/-- What a round that is in order and safe starts from. -/
structure RoundSafe (first : Option Int) (stream : RtmpStream) (round : Round) : Prop where
  offset : stream.start_dts_offset = offsetOf first
  unsent : stream.sent_headers = false → first = none
  positive : 0 ≤ round.pts
  bound : round.pts < 9223372036854775808
  behind : ∀ pts0 ∈ first, 0 ≤ pts0 ∧ pts0 ≤ round.pts
  unset : first.isSome = true → stream.start_dts_offset = 0 →
    (sendMedia round.memory round.packet).isSome = true →
      round.packet.type = .video ∧ round.pts < 1000
  early : first = none → stream.sent_headers = true → headersDue stream round = true →
    round.pts < 1000

section Round

variable {first : Option Int} {stream : RtmpStream} {round : Round}

theorem header_time (safe : RoundSafe first stream round) (due : headersDue stream round = true) :
    asInt64 (subSize (tickOf (if stream.sent_headers then round.pts else 0))
      stream.start_dts_offset) = rebased first round.pts := by
  have positive := safe.positive
  rw [safe.offset]
  cases marked : stream.sent_headers with
  | false =>
      rw [safe.unsent marked]
      change asInt64 (subSize (tickOf 0) 0) = 0
      decide
  | true =>
      rw [if_pos rfl]
      cases known : first with
      | none =>
          have early := safe.early known marked due
          have tick : tickOf round.pts = 0 := by
            rw [tick_of positive safe.bound]
            omega
          rw [tick]
          change asInt64 (subSize 0 0) = 0
          decide
      | some pts0 =>
          obtain ⟨nonneg, ordered⟩ := safe.behind pts0 (by rw [known]; rfl)
          exact rebase_pts nonneg ordered safe.bound

/-- The headers of a round, where they are due. -/
def roundHeaders (stream : RtmpStream) (round : Round) : Sent :=
  if headersDue stream round then
    sendHeaders stream (if stream.sent_headers then round.pts else 0) round.replies
  else { stream := stream, ret := true, tags := [] }

theorem round_headers (safe : RoundSafe first stream round) :
    (roundHeaders stream round).stream.start_dts_offset = stream.start_dts_offset ∧
      (roundHeaders stream round).stream.disconnected = stream.disconnected ∧
      (roundHeaders stream round).stream.sent_headers = true ∧
      (∀ tag ∈ (roundHeaders stream round).tags, tag.pts = rebased first round.pts) ∧
      (stream.sent_headers = false → (roundHeaders stream round).ret = true →
        (roundHeaders stream round).tags ≠ []) := by
  unfold roundHeaders
  cases due : headersDue stream round with
  | true =>
      rw [if_pos rfl]
      obtain ⟨offset, marked, connected, times, someTag⟩ :=
        @headers_sent stream (if stream.sent_headers then round.pts else 0) round.replies
      rw [header_time safe due] at times
      exact ⟨offset, connected, marked, times, fun _ => someTag⟩
  | false =>
      have marked : stream.sent_headers = true := by
        unfold headersDue at due
        simp only [Bool.or_eq_false_iff, Bool.not_eq_false'] at due
        exact due.1
      rw [if_neg (by decide)]
      refine ⟨rfl, rfl, marked, ?_, ?_⟩
      · intro tag impossible
        contradiction
      · intro unsent
        rw [marked] at unsent
        contradiction

/-- Whether the round hands a video packet on. -/
def HandsVideo (round : Round) : Prop :=
  round.packet.type = .video ∧ (sendMedia round.memory round.packet).isSome = true

instance hands_video_decidable (round : Round) : Decidable (HandsVideo round) :=
  inferInstanceAs (Decidable (_ ∧ _))

/-- The first video packet behind a round. -/
def firstAfter (first : Option Int) (round : Round) : Option Int :=
  first.or (if HandsVideo round then some round.pts else none)

theorem offset_after (safe : RoundSafe first stream round) :
    (if stream.start_dts_offset = 0 ∧ round.packet.type = .video ∧
        (sendMedia round.memory round.packet).isSome = true then tickOf round.pts
      else stream.start_dts_offset) = offsetOf (firstAfter first round) := by
  have positive := safe.positive
  have tick := tick_of positive safe.bound
  have offset := safe.offset
  unfold firstAfter
  cases known : first with
  | none =>
      rw [known] at offset
      change stream.start_dts_offset = 0 at offset
      rw [Option.none_or, offset]
      by_cases video : HandsVideo round
      · rw [if_pos ⟨rfl, video⟩, if_pos video]
        exact tick
      · rw [if_neg (fun all => video all.2), if_neg video]
        rfl
  | some pts0 =>
      rw [known] at offset
      rw [Option.some_or, ← offset]
      by_cases reset : stream.start_dts_offset = 0 ∧ round.packet.type = .video ∧
          (sendMedia round.memory round.packet).isSome = true
      · have early := (safe.unset (by rw [known]; rfl) reset.1 reset.2.2).2
        rw [if_pos reset, tick, reset.1]
        omega
      · rw [if_neg reset]

/-- The time of a packet that is written. -/
theorem media_time (safe : RoundSafe first stream round)
    (found : (sendMedia round.memory round.packet).isSome = true)
    (sent : round.packet.type = .video ∨ stream.start_dts_offset ≠ 0) :
    asInt64 (subSize (tickOf round.pts) (offsetOf (firstAfter first round))) =
        rebased first round.pts ∧
      ∃ pts0, firstAfter first round = some pts0 ∧
        rebased first round.pts = round.pts / 1000 - pts0 / 1000 := by
  have positive := safe.positive
  unfold firstAfter
  cases known : first with
  | none =>
      have offset := safe.offset
      rw [known] at offset
      have video : HandsVideo round := by
        rcases sent with type | set
        · exact ⟨type, found⟩
        · exact absurd offset set
      rw [Option.none_or, if_pos video]
      have same := rebase_pts positive (Int.le_refl round.pts) safe.bound
      rw [Int.sub_self] at same
      exact ⟨same, round.pts, rfl, (Int.sub_self _).symm⟩
  | some pts0 =>
      obtain ⟨nonneg, ordered⟩ := safe.behind pts0 (by rw [known]; rfl)
      rw [Option.some_or]
      exact ⟨rebase_pts nonneg ordered safe.bound, pts0, rfl, rfl⟩

/-- What a round leaves, judged by the first video packet before it. -/
structure RoundKept (first : Option Int) (stream : RtmpStream) (round : Round)
    (result : RoundResult) : Prop where
  times : ∀ tag ∈ result.headers ++ result.media, tag.pts = rebased first round.pts
  media : result.media = [] ∨ ∃ pts0, firstAfter first round = some pts0 ∧
    result.media.map RtmpTag.pts = [round.pts / 1000 - pts0 / 1000]
  skipped : result.ret = true → (sendMedia round.memory round.packet).isSome = true →
    result.media = [] → firstAfter first round = none ∧ round.packet.type = .audio
  offset : result.ret = true → result.stream.start_dts_offset = offsetOf (firstAfter first round)
  marked : result.ret = true → result.stream.sent_headers = true
  connected : result.stream.disconnected = stream.disconnected
  started : stream.sent_headers = false → result.ret = true → result.headers ≠ []

theorem send_round_eq (stream : RtmpStream) (round : Round) : sendRound stream round =
    if (roundHeaders stream round).ret = false then
      { stream := (roundHeaders stream round).stream
        ret := false
        headers := (roundHeaders stream round).tags
        media := [] }
    else
      { stream := (sendMediaPacket (roundHeaders stream round).stream round).stream
        ret := (sendMediaPacket (roundHeaders stream round).stream round).ret
        headers := (roundHeaders stream round).tags
        media := (sendMediaPacket (roundHeaders stream round).stream round).tags } := rfl

theorem headers_failed_kept (safe : RoundSafe first stream round) :
    RoundKept first stream round
      { stream := (roundHeaders stream round).stream
        ret := false
        headers := (roundHeaders stream round).tags
        media := [] } := by
  obtain ⟨-, connected, -, times, -⟩ := round_headers safe
  constructor
  · intro tag member
    rw [List.append_nil] at member
    exact times tag member
  · exact Or.inl rfl
  · intro impossible
    contradiction
  · intro impossible
    contradiction
  · intro impossible
    contradiction
  · exact connected
  · intro _ impossible
    contradiction

section Packet

variable {headed : RtmpStream} (same : headed.start_dts_offset = stream.start_dts_offset)
include same

theorem packet_offset (safe : RoundSafe first stream round) :
    (sendMediaPacket headed round).stream.start_dts_offset = offsetOf (firstAfter first round) := by
  rw [(media_sent headed round).offset, same, offset_after safe]

theorem packet_written (safe : RoundSafe first stream round) :
    (sendMediaPacket headed round).tags = [] ∨
      ((sendMediaPacket headed round).tags.map RtmpTag.pts = [rebased first round.pts] ∧
        ∃ pts0, firstAfter first round = some pts0 ∧
          rebased first round.pts = round.pts / 1000 - pts0 / 1000) := by
  rcases (media_sent headed round).tags with none | ⟨found, sent, pts⟩
  · exact Or.inl none
  · rw [same] at sent
    obtain ⟨time, known⟩ := media_time safe found sent
    rw [packet_offset same safe, time] at pts
    exact Or.inr ⟨pts, known⟩

/-- Only an audio packet before the first video packet is left out. -/
theorem packet_skipped (safe : RoundSafe first stream round)
    (completed : (sendMediaPacket headed round).ret = true)
    (found : (sendMedia round.memory round.packet).isSome = true)
    (none : (sendMediaPacket headed round).tags = []) :
    firstAfter first round = .none ∧ round.packet.type = .audio := by
  obtain ⟨unset, audio⟩ := (media_sent headed round).skipped completed found none
  rw [same] at unset
  refine ⟨?_, audio⟩
  unfold firstAfter
  cases known : first with
  | none =>
      rw [Option.none_or, if_neg]
      intro video
      rw [video.1] at audio
      contradiction
  | some pts0 =>
      have video := (safe.unset (by rw [known]; rfl) unset found).1
      rw [video] at audio
      contradiction

end Packet

theorem send_round_kept (safe : RoundSafe first stream round) :
    RoundKept first stream round (sendRound stream round) := by
  obtain ⟨offset, connected, marked, times, started⟩ := round_headers safe
  rw [send_round_eq]
  by_cases failed : (roundHeaders stream round).ret = false
  · rw [if_pos failed]
    exact headers_failed_kept safe
  · rw [if_neg failed]
    have written := packet_written offset safe
    constructor
    · intro tag member
      rcases List.mem_append.mp member with header | packet
      · exact times tag header
      · rcases written with none | ⟨pts, -⟩
        · rw [none] at packet
          contradiction
        · have one := List.mem_map_of_mem (f := RtmpTag.pts) packet
          rw [pts] at one
          exact List.mem_singleton.mp one
    · rcases written with none | ⟨pts, pts0, known, time⟩
      · exact Or.inl none
      · rw [time] at pts
        exact Or.inr ⟨pts0, known, pts⟩
    · exact packet_skipped offset safe
    · exact fun _ => packet_offset offset safe
    · exact fun _ => (media_sent _ round).marked.trans marked
    · exact (media_sent _ round).connected.trans connected
    · intro unsent _
      exact started unsent (by simpa using failed)

end Round

structure TimelineInvariant (session : Session) : Prop where
  kept : EachAllowed noteFirst none Kept session.log
  sorted : session.times.Pairwise (· ≤ ·)
  zero : ∀ time ∈ session.times.head?, time = 0
  bounded : ∀ pts, (∀ entry ∈ session.log, entry.pts ≤ pts) → ∀ time ∈ session.times,
    time ≤ rebased session.first pts
  known : ∀ pts0 ∈ session.first, 0 ≤ pts0 ∧ ∃ entry ∈ session.log, entry.pts = pts0
  offset : session.stream.disconnected = false →
    session.stream.start_dts_offset = offsetOf session.first
  marked : session.stream.disconnected = false →
    (session.stream.sent_headers = true ↔ session.log ≠ [])
  started : session.stream.disconnected = false → session.log ≠ [] → session.times ≠ []

theorem timeline_start : TimelineInvariant Session.start := by
  constructor
  · exact each_allowed_nil
  · exact List.Pairwise.nil
  · intro time impossible
    contradiction
  · intro pts _ time impossible
    contradiction
  · intro pts0 impossible
    contradiction
  · exact fun _ => rfl
  · intro _
    simp [Session.start, RtmpStream.connected]
  · intro _ impossible
    exact absurd rfl impossible

section Step

variable {session : Session} {round : Round}

theorem round_safe (invariant : TimelineInvariant session)
    (connected : session.stream.disconnected = false) (inOrder : session.InOrder round)
    (kept : session.OffsetKept round) : RoundSafe session.first session.stream round := by
  obtain ⟨positive, bound, ordered⟩ := inOrder
  constructor
  · exact invariant.offset connected
  · intro unsent
    have empty : session.log = [] := by
      by_contra some
      have sent := (invariant.marked connected).mpr some
      rw [unsent] at sent
      contradiction
    unfold Session.first
    rw [empty]
    rfl
  · exact positive
  · exact bound
  · intro pts0 first
    obtain ⟨nonneg, entry, member, same⟩ := invariant.known pts0 first
    exact ⟨nonneg, same ▸ ordered entry member⟩
  · exact kept.1
  · exact kept.2

theorem next_first (connected : session.stream.disconnected = false) :
    (session.next round).first = firstAfter session.first round := by
  unfold Session.first Session.next
  rw [if_neg (by simp [connected])]
  exact summary_append _

theorem next_times (connected : session.stream.disconnected = false) :
    (session.next round).times = session.times ++ (session.entry round).times := by
  unfold Session.times Session.next
  rw [if_neg (by simp [connected]), List.flatMap_append]
  simp only [List.flatMap_cons, List.flatMap_nil, List.append_nil]

theorem next_log (connected : session.stream.disconnected = false) :
    (session.next round).log = session.log ++ [session.entry round] := by
  unfold Session.next
  rw [if_neg (by simp [connected])]

theorem next_stream (connected : session.stream.disconnected = false) :
    (session.next round).stream = (sendThread session.stream round).stream := by
  unfold Session.next
  rw [if_neg (by simp [connected])]

/-- The thread goes on as long as the rounds succeed. -/
theorem send_thread_round (stream : RtmpStream) (round : Round)
    (connected : stream.disconnected = false) :
    (sendThread stream round).headers = (sendRound stream round).headers ∧
      (sendThread stream round).media = (sendRound stream round).media ∧
      (sendThread stream round).ret = (sendRound stream round).ret ∧
      ((sendThread stream round).stream.disconnected = false →
        (sendRound stream round).ret = true ∧
          (sendThread stream round).stream = (sendRound stream round).stream) := by
  unfold sendThread
  rw [if_neg (by simp [connected])]
  simp only
  by_cases completed : (sendRound stream round).ret = true
  · rw [if_pos completed]
    exact ⟨rfl, rfl, rfl, fun _ => ⟨completed, rfl⟩⟩
  · rw [if_neg completed]
    refine ⟨rfl, rfl, rfl, ?_⟩
    intro impossible
    contradiction

theorem entry_kept (connected : session.stream.disconnected = false)
    (round_ : RoundKept session.first session.stream round (sendRound session.stream round)) :
    Kept session.first (session.entry round) ∧
      ∀ time ∈ (session.entry round).times, time = rebased session.first round.pts := by
  obtain ⟨headers, media, ret, -⟩ := send_thread_round session.stream round connected
  have tags : (session.entry round).headers ++ (session.entry round).media =
      (sendRound session.stream round).headers ++ (sendRound session.stream round).media := by
    unfold Session.entry
    simp only [headers, media]
  have mediaEntry : (session.entry round).media = (sendRound session.stream round).media := media
  have retEntry : (session.entry round).completed = (sendRound session.stream round).ret := ret
  constructor
  · constructor
    · rw [mediaEntry]
      exact round_.media
    · rw [mediaEntry, retEntry]
      exact round_.skipped
    · intro header inHeaders tag inMedia
      rw [round_.times header (tags ▸ List.mem_append_left _ inHeaders),
        round_.times tag (tags ▸ List.mem_append_right _ inMedia)]
  · intro time member
    obtain ⟨tag, inTags, same⟩ := List.mem_map.mp member
    rw [tags] at inTags
    rw [← same]
    exact round_.times tag inTags

theorem rebased_le (first : Option Int) {left right : Int} (ordered : left ≤ right) :
    rebased first left ≤ rebased first right := by
  cases first with
  | none => exact Int.le_refl 0
  | some pts0 =>
      change left / 1000 - pts0 / 1000 ≤ right / 1000 - pts0 / 1000
      omega

theorem sorted_append {times later : List Int} {now : Int} (sorted : times.Pairwise (· ≤ ·))
    (before : ∀ time ∈ times, time ≤ now) (same : ∀ time ∈ later, time = now) :
    (times ++ later).Pairwise (· ≤ ·) := by
  rw [List.pairwise_append]
  refine ⟨sorted, ?_, ?_⟩
  · apply List.pairwise_of_forall_mem_list
    intro left leftMember right rightMember
    rw [same left leftMember, same right rightMember]
  · intro left leftMember right rightMember
    rw [same right rightMember]
    exact before left leftMember

/-- The first time written is zero: the first round has no video packet before it. -/
theorem zero_append (invariant : TimelineInvariant session)
    (connected : session.stream.disconnected = false) {later : List Int}
    (same : ∀ time ∈ later, time = rebased session.first round.pts) :
    ∀ time ∈ (session.times ++ later).head?, time = 0 := by
  intro time head
  by_cases nothing : session.times = []
  · have empty : session.log = [] := by_contra fun some => invariant.started connected some nothing
    have none : session.first = none := by
      unfold Session.first
      rw [empty]
      rfl
    rw [nothing, List.nil_append] at head
    rw [same time (List.mem_of_head? head), none]
    rfl
  · rw [List.head?_append_of_ne_nil _ nothing] at head
    exact invariant.zero time head

theorem first_after_le (first : Option Int) {pts : Int} (latest : round.pts ≤ pts) :
    rebased first round.pts ≤ rebased (firstAfter first round) pts := by
  have same : rebased (firstAfter first round) round.pts = rebased first round.pts :=
    note_first_time first (Session.start.entry round)
  rw [← same]
  exact rebased_le _ latest

theorem known_append (invariant : TimelineInvariant session) (inOrder : session.InOrder round) :
    ∀ pts0 ∈ firstAfter session.first round,
      0 ≤ pts0 ∧ ∃ entry ∈ session.log ++ [session.entry round], entry.pts = pts0 := by
  intro pts0 known
  unfold firstAfter at known
  cases before : session.first with
  | none =>
      rw [before, Option.none_or] at known
      split_ifs at known with video
      · rw [← Option.some.inj known]
        exact ⟨inOrder.1, session.entry round,
          List.mem_append_right _ (List.mem_singleton.mpr rfl), rfl⟩
      · contradiction
  | some earlier =>
      rw [before, Option.some_or, ← before] at known
      obtain ⟨nonneg, entry, member, same⟩ := invariant.known pts0 known
      exact ⟨nonneg, entry, List.mem_append_left _ member, same⟩

/-- A round behind which the thread goes on has succeeded. -/
theorem next_live (connected : session.stream.disconnected = false)
    (live : (session.next round).stream.disconnected = false) :
    (sendRound session.stream round).ret = true ∧
      (session.next round).stream = (sendRound session.stream round).stream := by
  rw [next_stream connected] at live ⊢
  exact (send_thread_round session.stream round connected).2.2.2 live

/-- The first round that succeeds writes headers. -/
theorem started_append (invariant : TimelineInvariant session)
    (connected : session.stream.disconnected = false)
    (roundKept : RoundKept session.first session.stream round (sendRound session.stream round))
    (completed : (sendRound session.stream round).ret = true) :
    session.times ++ (session.entry round).times ≠ [] := by
  by_cases empty : session.log = []
  · have unsent : session.stream.sent_headers = false := by
      have marked := invariant.marked connected
      rw [empty] at marked
      simpa using marked
    have written := roundKept.started unsent completed
    have headers := (send_thread_round session.stream round connected).1
    apply List.append_ne_nil_of_right_ne_nil
    unfold Entry.times Session.entry
    simp [headers, written]
  · exact List.append_ne_nil_of_left_ne_nil (invariant.started connected empty) _

/-- The log with one more round whose tags are all of one time. -/
theorem timeline_append (invariant : TimelineInvariant session)
    (connected : session.stream.disconnected = false) (inOrder : session.InOrder round)
    (offsetKept : session.OffsetKept round) : TimelineInvariant (session.next round) := by
  have roundKept := send_round_kept (round_safe invariant connected inOrder offsetKept)
  obtain ⟨entryKept, entryTimes⟩ := entry_kept connected roundKept
  have first := @next_first session round connected
  have times := @next_times session round connected
  have log := @next_log session round connected
  have before := invariant.bounded round.pts inOrder.2.2
  constructor
  · rw [log]
    exact each_allowed_append invariant.kept entryKept
  · rw [times]
    exact sorted_append invariant.sorted before entryTimes
  · rw [times]
    exact zero_append invariant connected entryTimes
  · rw [times, log, first]
    intro pts ordered time member
    have latest : round.pts ≤ pts := ordered _ (List.mem_append_right _ (List.mem_singleton.mpr rfl))
    have now : time ≤ rebased session.first round.pts := by
      rcases List.mem_append.mp member with old | new
      · exact before time old
      · exact Int.le_of_eq (entryTimes time new)
    exact Int.le_trans now (first_after_le session.first latest)
  · rw [first, log]
    exact known_append invariant inOrder
  · intro live
    obtain ⟨completed, stream⟩ := next_live connected live
    rw [first, stream]
    exact roundKept.offset completed
  · intro live
    obtain ⟨completed, stream⟩ := next_live connected live
    rw [stream, roundKept.marked completed, log]
    simp
  · intro live _
    rw [times]
    exact started_append invariant connected roundKept (next_live connected live).1

end Step

def linked : Link where
  received := true
  written := true

def answered : Replies where
  settings := true
  audioHeader := some [0x12, 0x10]
  videoHeader := some [1]
  audioLink := linked
  videoLink := linked
  mediaLink := linked

/-- The memory around a packet that is a start code of four bytes and a key unit. -/
def keyUnit : ByteArea.Bytes := fun address => if address = 11 then 1 else if address = 12 then 0x65 else 0

def videoRound (pts priority : Int) : Round where
  memory := keyUnit
  packet := { type := .video, keyframe := true, data := 8, size := 6 }
  pts := pts
  priority := priority
  replies := answered

def audioRound (pts : Int) : Round where
  memory := fun _ => 0
  packet := { type := .audio, keyframe := false, data := 8, size := 20 }
  pts := pts
  priority := 2
  replies := answered

end Mgw.RtmpTimeline

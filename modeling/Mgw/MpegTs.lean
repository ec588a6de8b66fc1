import Mathlib.Data.List.Induction
import Mgw.AvcPacket
import Mgw.TransitionRuns

/-!
# The decoding times of the MPEG-TS muxer

`mpegts_start` and `mpegts_send_packet` of `mpeg-ts.c`, up to the packet that is
handed to the muxer library. The times are milliseconds after the first packet
whose own time is not zero; the offset 0 stands for none yet. A time that equals
the packet's before it, whichever stream that one was of, goes up by one.
-/

namespace Mgw.MpegTs

open AvcPacket TransitionRuns

set_option autoImplicit false

/-- The part of `struct mpegts_format` that these functions read and write. -/
structure MpegtsFormat where
  active : Bool
  disconnected : Bool
  start_dts_offset : Int
  last_dts : Int
  deriving DecidableEq

/-- `struct encoder_packet` with its presentation time, in microseconds. -/
structure TsPacket extends EncoderPacket where
  pts : Int

/-- The `AVPacket` before `av_packet_rescale_ts`. -/
structure SndPacket where
  stream : EncoderType
  key : Bool
  data : Nat
  size : Nat
  pts : Int
  dts : Int
  deriving DecidableEq

/-- The other arguments are the results of the calls that add the two streams
and write the header. -/
def mpegtsStart (ts : MpegtsFormat) (video audio header : Bool) : Bool × MpegtsFormat :=
  let reset := { ts with last_dts := 0, start_dts_offset := 0 }
  if ts.disconnected then (true, { reset with disconnected := false })
  else if !video then (false, reset)
  else if !audio then (false, reset)
  else if !header then (false, reset)
  else (true, { reset with active := true })

/-- `packet->pts /= 1000`. -/
def TsPacket.ms (packet : TsPacket) : Int := packet.pts.tdiv 1000

/-- What is handed to the muxer, if the packet gets that far. -/
def mpegtsSendPacket (ts : MpegtsFormat) (packet : TsPacket) : MpegtsFormat × Option SndPacket :=
  if !ts.active || ts.disconnected then (ts, none)
  else
    let offset := if ts.start_dts_offset = 0 then packet.ms else ts.start_dts_offset
    let dts := packet.ms - offset
    let handed := if dts = ts.last_dts ∧ ts.last_dts ≠ 0 then dts + 1 else dts
    ({ ts with start_dts_offset := offset, last_dts := dts },
      some
        { stream := packet.type
          key := packet.keyframe && decide (packet.type = .video)
          data := packet.data
          size := packet.size
          pts := handed
          dts := handed })

def sent (ts : MpegtsFormat) (packet : TsPacket) : MpegtsFormat := (mpegtsSendPacket ts packet).1

/-- The packets handed to the muxer by calls one after another. -/
def handed : MpegtsFormat → List TsPacket → List SndPacket
  | _, [] => []
  | ts, packet :: packets => (mpegtsSendPacket ts packet).2.toList ++ handed (sent ts packet) packets

/-- The times that the callers keep to. -/
structure WellTimed (packets : List TsPacket) : Prop where
  nonneg : ∀ packet ∈ packets, 0 ≤ packet.pts
  ordered : packets.Pairwise fun packet later => packet.pts ≤ later.pts
  spaced : packets.Pairwise fun packet later => packet.type = later.type → packet.ms < later.ms

/-- No time is negative, and those of one stream increase. -/
structure DtsIncrease (packets : List SndPacket) : Prop where
  nonneg : ∀ packet ∈ packets, 0 ≤ packet.dts
  increase : packets.Pairwise fun packet later => packet.stream = later.stream → packet.dts < later.dts

/-- The first time that is not zero, which becomes the offset; 0 if there is none. -/
def firstTime (packets : List TsPacket) : Int :=
  ((packets.map TsPacket.ms).find? fun time => time ≠ 0).getD 0

/-- A packet gets a time that its stream has had: it has the first time that is
not zero, behind one of its stream with time zero; or it comes one millisecond
behind two packets of one time, the second of its own stream, whose time went up by one. -/
def Collides (before : List TsPacket) (packet : TsPacket) : Prop :=
  (packet.ms ≠ 0 ∧ packet.ms = firstTime (before ++ [packet]) ∧
      ∃ earlier ∈ before, earlier.type = packet.type ∧ earlier.ms = 0) ∨
    ∃ rest other earlier, before = rest ++ [other, earlier] ∧ earlier.type = packet.type ∧
      other.ms = earlier.ms ∧ packet.ms = earlier.ms + 1 ∧ earlier.ms ≠ 0 ∧
      earlier.ms ≠ firstTime before

section Sending

variable {started : MpegtsFormat}

/-- The state that `mpegts_start` leaves when packets can be sent. -/
structure Started (ts : MpegtsFormat) : Prop where
  active : ts.active = true
  connected : ts.disconnected = false
  offset : ts.start_dts_offset = 0
  last : ts.last_dts = 0

theorem start_started {ts : MpegtsFormat} {video audio header : Bool}
    (start : mpegtsStart ts video audio header = (true, started))
    (active : started.active = true) : Started started := by
  unfold mpegtsStart at start
  dsimp only at start
  split_ifs at start with off noVideo noAudio noHeader
  · rw [← (Prod.mk.inj start).2] at active ⊢
    exact ⟨active, rfl, rfl, rfl⟩
  · cases (Prod.mk.inj start).1
  · cases (Prod.mk.inj start).1
  · cases (Prod.mk.inj start).1
  · rw [← (Prod.mk.inj start).2] at active ⊢
    exact ⟨rfl, by simpa using off, rfl, rfl⟩

/-- The time behind the offset of the last of some packets. -/
def lastTime (packets : List TsPacket) : Int :=
  (packets.getLast?.map fun last => last.ms - firstTime packets).getD 0

/-- The time that a packet is handed on with after others. -/
def stamp (before : List TsPacket) (packet : TsPacket) : Int :=
  let dts := packet.ms - firstTime (before ++ [packet])
  if dts = lastTime before ∧ lastTime before ≠ 0 then dts + 1 else dts

theorem first_time_append (before : List TsPacket) (packet : TsPacket) :
    firstTime (before ++ [packet]) =
      if firstTime before = 0 then packet.ms else firstTime before := by
  unfold firstTime
  rw [List.map_append, List.find?_append]
  cases found : (before.map TsPacket.ms).find? fun time => time ≠ 0 with
  | some time =>
      have nonzero : time ≠ 0 := by simpa using List.find?_some found
      rw [Option.some_or, Option.getD_some, if_neg nonzero]
  | none =>
      rw [Option.none_or, Option.getD_none, if_pos rfl]
      by_cases zero : packet.ms = 0
      · simp [zero]
      · simp [zero]

theorem last_time_append (before : List TsPacket) (packet : TsPacket) :
    lastTime (before ++ [packet]) = packet.ms - firstTime (before ++ [packet]) := by
  unfold lastTime
  rw [List.getLast?_concat]
  rfl

/-- The state after some packets. -/
def standing (started : MpegtsFormat) (packets : List TsPacket) : MpegtsFormat :=
  { started with start_dts_offset := firstTime packets, last_dts := lastTime packets }

/-- The packet that is handed on for one after others. -/
def stamped (before : List TsPacket) (packet : TsPacket) : SndPacket where
  stream := packet.type
  key := packet.keyframe && decide (packet.type = .video)
  data := packet.data
  size := packet.size
  pts := stamp before packet
  dts := stamp before packet

theorem send_standing (start : Started started) (before : List TsPacket) (packet : TsPacket) :
    mpegtsSendPacket (standing started before) packet =
      (standing started (before ++ [packet]), some (stamped before packet)) := by
  obtain ⟨active, connected, -, -⟩ := start
  unfold mpegtsSendPacket standing stamped stamp
  rw [active, connected, last_time_append, first_time_append]
  rfl

theorem run_sent (start : Started started) (packets : List TsPacket) :
    run sent started packets = standing started packets := by
  induction packets using List.reverseRecOn with
  | nil =>
      rw [run_nil]
      unfold standing
      rw [show firstTime [] = started.start_dts_offset from start.offset.symm,
        show lastTime [] = started.last_dts from start.last.symm]
  | append_singleton before packet ih =>
      rw [run_append, ih, run_cons, run_nil]
      unfold sent
      rw [send_standing start]

theorem handed_append (ts : MpegtsFormat) (before : List TsPacket) (packet : TsPacket) :
    handed ts (before ++ [packet]) =
      handed ts before ++ (mpegtsSendPacket (run sent ts before) packet).2.toList := by
  induction before generalizing ts with
  | nil => simp [handed]
  | cons first before ih =>
      rw [List.cons_append, handed, ih, handed, run_cons, List.append_assoc]

theorem handed_after (start : Started started) (before : List TsPacket) (packet : TsPacket) :
    handed started (before ++ [packet]) = handed started before ++ [stamped before packet] := by
  rw [handed_append, run_sent start, send_standing start]
  rfl

/-- Where a list with one more item can be split: at that item, or at one before it. -/
theorem split_concat {before earlier after : List TsPacket} {packet other : TsPacket} :
    before ++ [packet] = earlier ++ other :: after ↔
      (after = [] ∧ before = earlier ∧ packet = other) ∨
        ∃ rest, after = rest ++ [packet] ∧ before = earlier ++ other :: rest := by
  constructor
  · intro parts
    obtain none | ⟨rest, last, more⟩ := List.eq_nil_or_concat after
    · rw [none] at parts
      obtain ⟨first, second⟩ := List.append_inj' parts rfl
      exact Or.inl ⟨none, first, List.head_eq_of_cons_eq second⟩
    · rw [more, List.concat_eq_append, ← List.cons_append, ← List.append_assoc] at parts
      obtain ⟨first, second⟩ := List.append_inj' parts rfl
      refine Or.inr ⟨rest, ?_, first⟩
      rw [more, List.concat_eq_append, second]
  · intro split
    obtain ⟨none, same, last⟩ | ⟨rest, more, same⟩ := split
    · rw [none, same, last]
    · rw [more, same]
      simp

theorem mem_handed_iff (start : Started started) (packets : List TsPacket) (snd : SndPacket) :
    snd ∈ handed started packets ↔
      ∃ before packet after, packets = before ++ packet :: after ∧ snd = stamped before packet := by
  induction packets using List.reverseRecOn with
  | nil => simp [handed]
  | append_singleton before packet ih =>
      rw [handed_after start, List.mem_append, List.mem_singleton, ih]
      constructor
      · intro member
        obtain ⟨earlier, other, after, parts, same⟩ | same := member
        · exact ⟨earlier, other, after ++ [packet], by rw [parts]; simp, same⟩
        · exact ⟨before, packet, [], rfl, same⟩
      · intro ⟨earlier, other, after, parts, same⟩
        obtain ⟨-, first, second⟩ | ⟨rest, -, first⟩ := split_concat.mp parts
        · rw [first, second]
          exact Or.inr same
        · exact Or.inl ⟨earlier, other, rest, first, same⟩

end Sending

section Times

variable {before after : List TsPacket} {packet : TsPacket}

theorem ms_nonneg (nonneg : 0 ≤ packet.pts) : 0 ≤ packet.ms :=
  Int.tdiv_nonneg nonneg (by decide)

theorem timed_append (timed : WellTimed (before ++ after)) :
    WellTimed before ∧ WellTimed after := by
  obtain ⟨nonneg, ordered, spaced⟩ := timed
  rw [List.pairwise_append] at ordered spaced
  exact ⟨⟨fun packet member => nonneg packet (List.mem_append_left _ member), ordered.1, spaced.1⟩,
    ⟨fun packet member => nonneg packet (List.mem_append_right _ member), ordered.2.1, spaced.2.1⟩⟩

theorem timed_before (timed : WellTimed (before ++ after)) {earlier later : TsPacket}
    (first : earlier ∈ before) (second : later ∈ after) :
    earlier.ms ≤ later.ms ∧ (earlier.type = later.type → earlier.ms < later.ms) := by
  obtain ⟨nonneg, ordered, spaced⟩ := timed
  rw [List.pairwise_append] at ordered spaced
  exact ⟨Int.tdiv_le_tdiv (by decide) (ordered.2.2 earlier first later second),
    spaced.2.2 earlier first later second⟩

theorem first_time_mem (some' : firstTime before ≠ 0) :
    ∃ packet ∈ before, packet.ms = firstTime before := by
  unfold firstTime at some' ⊢
  cases found : (before.map TsPacket.ms).find? fun time => time ≠ 0 with
  | none =>
      rw [found] at some'
      contradiction
  | some time =>
      obtain ⟨packet, member, same⟩ := List.mem_map.mp (List.mem_of_find?_eq_some found)
      exact ⟨packet, member, same⟩

/-- The offset does not change any more behind a time that is not zero. -/
theorem first_time_fixed (after : List TsPacket) (member : packet ∈ before)
    (nonzero : packet.ms ≠ 0) : firstTime (before ++ after) = firstTime before := by
  unfold firstTime
  rw [List.map_append, List.find?_append]
  cases found : (before.map TsPacket.ms).find? fun time => time ≠ 0 with
  | none =>
      have zero := List.find?_eq_none.mp found packet.ms (List.mem_map_of_mem member)
      simp [nonzero] at zero
  | some time => rfl

/-- The offset of a packet is not above its time. -/
theorem first_time_le (timed : WellTimed (before ++ [packet])) :
    firstTime (before ++ [packet]) ≤ packet.ms := by
  rw [first_time_append]
  split_ifs with none
  · exact Int.le_refl _
  · obtain ⟨earlier, member, same⟩ := first_time_mem none
    rw [← same]
    exact (timed_before timed member (List.mem_singleton_self packet)).1

/-- With time zero there is no offset yet. -/
theorem first_time_zero (timed : WellTimed (before ++ [packet])) (zero : packet.ms = 0) :
    firstTime (before ++ [packet]) = 0 := by
  rw [first_time_append]
  split_ifs with none
  · exact zero
  · exfalso
    obtain ⟨earlier, member, same⟩ := first_time_mem none
    have early := (timed_before timed member (List.mem_singleton_self packet)).1
    have nonneg := ms_nonneg (timed.nonneg earlier (List.mem_append_left _ member))
    omega

/-- The time behind the offset, which is what `last_dts` keeps. -/
theorem raw_nonneg (timed : WellTimed (before ++ [packet])) :
    0 ≤ packet.ms - firstTime (before ++ [packet]) := by
  have bound := first_time_le timed
  omega

theorem stamp_bounds (before : List TsPacket) (packet : TsPacket) :
    packet.ms - firstTime (before ++ [packet]) ≤ stamp before packet ∧
      (stamp before packet = packet.ms - firstTime (before ++ [packet]) ∨
        (stamp before packet = packet.ms - firstTime (before ++ [packet]) + 1 ∧
          packet.ms - firstTime (before ++ [packet]) = lastTime before ∧ lastTime before ≠ 0)) := by
  unfold stamp
  dsimp only
  split_ifs with same
  · exact ⟨by omega, Or.inr ⟨rfl, same⟩⟩
  · exact ⟨Int.le_refl _, Or.inl rfl⟩

theorem stamp_nonneg (timed : WellTimed (before ++ [packet])) : 0 ≤ stamp before packet :=
  Int.le_trans (raw_nonneg timed) (stamp_bounds before packet).1

theorem stamp_zero (zero : packet.ms = firstTime (before ++ [packet])) : stamp before packet = 0 := by
  unfold stamp
  dsimp only
  rw [if_neg]
  · omega
  · intro same
    omega

/-- The time of a packet behind one whose time it has, or has not. -/
theorem stamp_behind (pre : List TsPacket) (other packet : TsPacket) :
    (packet.ms - firstTime (pre ++ [other] ++ [packet]) = other.ms - firstTime (pre ++ [other]) →
      other.ms ≠ firstTime (pre ++ [other]) → stamp (pre ++ [other]) packet =
        packet.ms - firstTime (pre ++ [other] ++ [packet]) + 1) ∧
    (packet.ms - firstTime (pre ++ [other] ++ [packet]) ≠ other.ms - firstTime (pre ++ [other]) →
      stamp (pre ++ [other]) packet = packet.ms - firstTime (pre ++ [other] ++ [packet])) := by
  unfold stamp
  rw [last_time_append]
  dsimp only
  constructor
  · intro same moved
    exact if_pos ⟨same, by omega⟩
  · intro different
    exact if_neg fun both => different both.1

/-- In a collision the packet's time is not above that of an earlier packet of its stream. -/
theorem collides_not_above (timed : WellTimed (before ++ [packet])) (collides : Collides before packet) :
    ∃ pre earlier mid, before = pre ++ earlier :: mid ∧ earlier.type = packet.type ∧
      stamp before packet ≤ stamp pre earlier := by
  obtain ⟨-, first, earlier, member, same, zero⟩ |
    ⟨rest, other, earlier, parts, same, equal, next, nonzero, behind⟩ := collides
  · obtain ⟨pre, mid, parts⟩ := List.append_of_mem member
    refine ⟨pre, earlier, mid, parts, same, ?_⟩
    rw [stamp_zero first]
    apply stamp_nonneg
    rw [parts, show pre ++ earlier :: mid ++ [packet] = pre ++ [earlier] ++ (mid ++ [packet]) by
      simp] at timed
    exact (timed_append timed).1
  · have total : before = rest ++ [other] ++ [earlier] := by rw [parts]; simp
    have offset : firstTime (rest ++ [other] ++ [earlier]) = firstTime (rest ++ [other]) :=
      first_time_fixed [earlier] (List.mem_append_right rest (List.mem_singleton_self other)) (by omega)
    have later : firstTime (before ++ [packet]) = firstTime before :=
      first_time_fixed [packet] (by rw [parts]; simp) nonzero
    refine ⟨rest ++ [other], earlier, [], total, same, ?_⟩
    rw [total] at later behind ⊢
    rw [(stamp_behind rest other earlier).1 (by omega) (by omega),
      (stamp_behind (rest ++ [other]) earlier packet).2 (by omega)]
    omega

/-- Two packets that have the type that a third one has not are of one stream. -/
theorem same_stream {first second third : EncoderType} (left : first ≠ third)
    (right : second ≠ third) : first = second := by
  cases first <;> cases second <;> cases third <;> first | rfl | contradiction

/-- A packet one millisecond behind two of one time, with others between: the last
of these is the other stream's and has the packet's time, which so goes up as well. -/
theorem above_raised {rest middle : List TsPacket} {other earlier last : TsPacket}
    (timed : WellTimed (rest ++ [other] ++ [earlier] ++ (middle ++ [last]) ++ [packet]))
    (same : earlier.type = packet.type) (equal : other.ms = earlier.ms)
    (nonzero : earlier.ms ≠ 0) (near : packet.ms = earlier.ms + 1) :
    stamp (rest ++ [other] ++ [earlier] ++ (middle ++ [last])) packet =
      packet.ms - firstTime (rest ++ [other] ++ [earlier]) + 1 := by
  have fixed : ∀ after, firstTime (rest ++ [other] ++ [earlier] ++ after) =
      firstTime (rest ++ [other] ++ [earlier]) := by
    intro after
    exact first_time_fixed after (List.mem_append_right _ (List.mem_singleton_self earlier)) nonzero
  have front : ∀ later ∈ [earlier] ++ (middle ++ [last]) ++ [packet],
      other.ms ≤ later.ms ∧ (other.type = later.type → other.ms < later.ms) := by
    intro later member
    exact @timed_before (rest ++ [other]) _ (by simpa using timed) other later (by simp) member
  have centre := @timed_before (rest ++ [other] ++ [earlier]) (middle ++ [last] ++ [packet])
    (by simpa using timed) earlier last (by simp) (by simp)
  have back := @timed_before _ [packet] timed last packet (by simp) (by simp)
  have lastOther : last.type ≠ packet.type := by
    intro own
    have below := centre.2 (same.trans own.symm)
    have above := back.2 own
    omega
  have otherType : other.type ≠ packet.type := by
    intro own
    have below := (front earlier (by simp)).2 (own.trans same.symm)
    omega
  have later := (front last (by simp)).2 (same_stream otherType lastOther)
  have bound := first_time_le (@timed_append (rest ++ [other] ++ [earlier])
    (middle ++ [last] ++ [packet]) (by simpa using timed)).1
  have lastFixed := fixed (middle ++ [last])
  have packetFixed := fixed (middle ++ [last] ++ [packet])
  have behind := (stamp_behind (rest ++ [other] ++ [earlier] ++ middle) last packet).1
  rw [List.append_assoc _ middle [last], lastFixed, List.append_assoc _ (middle ++ [last]) [packet],
    packetFixed] at behind
  exact behind (by omega) (by omega)

/-- Without a collision it is above that of every earlier packet of its stream. -/
theorem above_earlier {pre mid : List TsPacket} {earlier : TsPacket}
    (timed : WellTimed (pre ++ [earlier] ++ mid ++ [packet]))
    (same : earlier.type = packet.type) (free : ¬Collides (pre ++ [earlier] ++ mid) packet) :
    stamp pre earlier < stamp (pre ++ [earlier] ++ mid) packet := by
  have own := (timed_append (timed_append timed).1).1
  have member : earlier ∈ pre ++ [earlier] ++ mid := by simp
  have less := (timed_before timed member (List.mem_singleton_self packet)).2 same
  have nonneg := ms_nonneg (timed.nonneg earlier (by simp))
  have raw := (stamp_bounds (pre ++ [earlier] ++ mid) packet).1
  have bound := first_time_le timed
  by_cases zero : earlier.ms = 0
  · rw [stamp_zero (by rw [first_time_zero own zero]; exact zero)]
    by_cases first : packet.ms = firstTime (pre ++ [earlier] ++ mid ++ [packet])
    · exact absurd (Or.inl ⟨by omega, first, earlier, member, same, zero⟩) free
    · omega
  · have fixed : firstTime (pre ++ [earlier] ++ mid ++ [packet]) = firstTime (pre ++ [earlier]) := by
      rw [List.append_assoc _ mid]
      exact first_time_fixed _ (List.mem_append_right pre (List.mem_singleton_self earlier)) zero
    obtain plain | ⟨raised, behind, moved⟩ := (stamp_bounds pre earlier).2
    · omega
    by_cases near : packet.ms = earlier.ms + 1
    · -- the packet in front of the earlier one has its time
      obtain none | ⟨rest, other, parts⟩ := List.eq_nil_or_concat pre
      · rw [none] at moved
        contradiction
      rw [List.concat_eq_append] at parts
      subst parts
      rw [last_time_append] at behind moved
      have otherTimed := (timed_append own).1
      have otherNonzero : other.ms ≠ 0 := by
        intro otherZero
        rw [first_time_zero otherTimed otherZero] at moved
        omega
      have otherFixed : firstTime (rest ++ [other] ++ [earlier]) = firstTime (rest ++ [other]) :=
        first_time_fixed _ (List.mem_append_right rest (List.mem_singleton_self other)) otherNonzero
      have equal : other.ms = earlier.ms := by omega
      obtain none | ⟨middle, last, parts⟩ := List.eq_nil_or_concat mid
      · rw [none, List.append_nil] at free
        exact absurd (Or.inr ⟨rest, other, earlier, by simp, same, equal, near, zero, by omega⟩) free
      · rw [List.concat_eq_append] at parts
        subst parts
        rw [above_raised timed same equal zero near]
        omega
    · omega

theorem collides_iff (timed : WellTimed (before ++ [packet])) :
    (∀ pre earlier mid, before = pre ++ earlier :: mid → earlier.type = packet.type →
        stamp pre earlier < stamp before packet) ↔ ¬Collides before packet := by
  constructor
  · intro above collides
    obtain ⟨pre, earlier, mid, parts, same, below⟩ := collides_not_above timed collides
    have less := above pre earlier mid parts same
    omega
  · intro free pre earlier mid parts same
    rw [List.append_cons] at parts
    subst parts
    exact above_earlier timed same free

end Times

section Increase

variable {started : MpegtsFormat}

/-- No packet collides with those before it. -/
def NoCollision (packets : List TsPacket) : Prop :=
  ∀ before packet after, packets = before ++ packet :: after → ¬Collides before packet

theorem no_collision_append (before : List TsPacket) (packet : TsPacket) :
    NoCollision (before ++ [packet]) ↔ NoCollision before ∧ ¬Collides before packet := by
  constructor
  · intro free
    refine ⟨?_, free before packet [] rfl⟩
    intro earlier other after parts
    exact free earlier other (after ++ [packet]) (by rw [parts]; simp)
  · intro ⟨free, last⟩ earlier other after parts
    obtain ⟨-, first, second⟩ | ⟨rest, -, first⟩ := split_concat.mp parts
    · rwa [← first, ← second]
    · exact free earlier other rest first

theorem increase_append (start : Started started) {before : List TsPacket} {packet : TsPacket}
    (timed : WellTimed (before ++ [packet])) :
    DtsIncrease (handed started (before ++ [packet])) ↔
      DtsIncrease (handed started before) ∧ ¬Collides before packet := by
  rw [← collides_iff timed, handed_after start]
  constructor
  · intro ⟨nonneg, increase⟩
    rw [List.pairwise_append] at increase
    refine ⟨⟨fun snd member => nonneg snd (List.mem_append_left _ member), increase.1⟩, ?_⟩
    intro pre earlier mid parts same
    exact increase.2.2 (stamped pre earlier)
      ((mem_handed_iff start before _).mpr ⟨pre, earlier, mid, parts, rfl⟩) _
      (List.mem_singleton_self _) same
  · intro ⟨⟨nonneg, increase⟩, above⟩
    constructor
    · intro snd member
      rw [List.mem_append, List.mem_singleton] at member
      obtain earlier | last := member
      · exact nonneg snd earlier
      · rw [last]
        exact stamp_nonneg timed
    · rw [List.pairwise_append]
      refine ⟨increase, List.pairwise_singleton _ _, ?_⟩
      intro snd member last final same
      obtain ⟨pre, earlier, mid, parts, sndEq⟩ := (mem_handed_iff start before snd).mp member
      rw [List.mem_singleton] at final
      rw [sndEq, final] at same ⊢
      exact above pre earlier mid parts same

/-- The decoding times increase in each stream if and only if no packet of the
call sequence collides with those before it. -/
theorem dts_increase_iff (ts started : MpegtsFormat) (video audio header : Bool)
    (start : mpegtsStart ts video audio header = (true, started)) (active : started.active = true)
    (packets : List TsPacket) (timed : WellTimed packets) :
    DtsIncrease (handed started packets) ↔ NoCollision packets := by
  have begun := start_started start active
  clear start
  induction packets using List.reverseRecOn with
  | nil =>
      constructor
      · intro _ before packet after impossible
        simp at impossible
      · intro _
        exact ⟨fun packet member => absurd member (by simp [handed]), by simp [handed]⟩
  | append_singleton before packet ih =>
      rw [increase_append begun timed, no_collision_append]
      exact and_congr (ih (timed_append timed).1) Iff.rfl

end Increase

section Packets

def packetAt (type : EncoderType) (pts : Int) : TsPacket where
  type := type
  keyframe := false
  data := 0
  size := 100
  pts := pts

/-- The state that a successful `mpegts_start` leaves. -/
def readyFormat : MpegtsFormat where
  active := true
  disconnected := false
  start_dts_offset := 0
  last_dts := 0

theorem dts_increase_iff_four :
    NoCollision [packetAt .video 0, packetAt .audio 21000, packetAt .video 40000,
      packetAt .audio 42000] :=
  (dts_increase_iff { readyFormat with active := false, last_dts := 7 } readyFormat true true true rfl
    rfl _ ⟨by decide, by decide, by decide⟩).mp ⟨by decide, by decide⟩

/-- Audio and video at 5 ms, then video at 6 ms: the video packets are handed on
with the same time, as the first one's went up by one. And the first two packets of
one stream, at 0 and 1 ms, both get the time 0. -/
theorem equal_times_collide :
    WellTimed [packetAt .video 1000, packetAt .audio 5000, packetAt .video 5000,
        packetAt .video 6000] ∧
      ¬DtsIncrease (handed readyFormat [packetAt .video 1000, packetAt .audio 5000,
        packetAt .video 5000, packetAt .video 6000]) ∧
      WellTimed [packetAt .video 0, packetAt .video 1000] ∧
      ¬DtsIncrease (handed readyFormat [packetAt .video 0, packetAt .video 1000]) := by
  refine ⟨⟨by decide, by decide, by decide⟩, ?_, ⟨by decide, by decide, by decide⟩, ?_⟩
  · intro rises
    have increase := rises.increase
    revert increase
    decide
  · intro rises
    have increase := rises.increase
    revert increase
    decide

end Packets

end Mgw.MpegTs

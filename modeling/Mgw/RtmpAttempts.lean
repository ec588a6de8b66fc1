import Mgw.RtmpClient
import Mathlib.Tactic.Common

/-!
# The order of an attempt

Whatever the server sends and wherever the connection breaks, an attempt asks for each
thing once and in the order of `HandleInvoke`, under numbers that grow and with its own
key, and the media behind a `publish` carry the stream that was published.
-/

namespace Mgw.RtmpClient

set_option autoImplicit false

open List

/-- What the packets with a part in the session ask for. -/
inductive Stage where
  | connect
  | releaseStream
  | FCPublish
  | createStream
  | publish
  deriving DecidableEq

/-- The order that the stages come in. -/
def course : List Stage := [.connect, .releaseStream, .FCPublish, .createStream, .publish]

namespace Sent

def stage : Sent → Option Stage
  | .connect _ => some .connect
  | .releaseStream _ _ => some .releaseStream
  | .FCPublish _ _ => some .FCPublish
  | .createStream _ => some .createStream
  | .publish _ _ _ => some .publish
  | _ => none

def txn : Sent → Option Nat
  | .connect txn => some txn
  | .releaseStream txn _ => some txn
  | .FCPublish txn _ => some txn
  | .createStream txn => some txn
  | .publish txn _ _ => some txn
  | .checkbw txn => some txn
  | _ => none

/-- A packet that names a playpath names this one. -/
def Names (key : List UInt8) : Sent → Prop
  | .releaseStream _ playpath => playpath = some key
  | .FCPublish _ playpath => playpath = some key
  | .publish _ _ playpath => playpath = some key
  | _ => True

/-- Media belong to the stream that was published before them. -/
def Heads : Sent → Sent → Prop
  | .publish _ id _, .media carried => carried = id
  | _, _ => True

end Sent

def stagesOf (sent : List Sent) : List Stage := sent.filterMap Sent.stage

def numbersOf (sent : List Sent) : List Nat := sent.filterMap Sent.txn

/-- What holds of the packets and the calls of an attempt with this key. -/
structure Orderly (key : List UInt8) (r : Client) : Prop where
  stages : stagesOf r.sent <+ course
  numbers : (numbersOf r.sent).Pairwise (· < ·)
  calls : r.m_methodCalls.map Prod.snd <+ numbersOf r.sent
  keys : ∀ packet ∈ r.sent, packet.Names key
  media : r.sent.Pairwise Sent.Heads

/-- A client whose streams fit, with no more than one of them. -/
structure Sound (key : List UInt8) (r : Client) : Prop extends Orderly key r where
  room : r.streams.length = RTMP_MAX_STREAMS
  single : r.nStreams ≤ 1

/-- A client that is connected, with the calls that it may wait for and the stages that are
behind it. -/
structure Live (key : List UInt8) (waits : List Method) (passed : List Stage) (r : Client) : Prop
    extends Sound key r where
  connected : r.connected = true
  waiting : r.m_methodCalls.map Prod.fst <+ waits
  passes : stagesOf r.sent <+ passed
  known : ∀ txn ∈ numbersOf r.sent, txn ≤ r.m_numInvokes
  keyed : r.nStreams = 1 → r.playpath 0 = some key
  asked : ∀ call ∈ r.m_methodCalls, call.1 = .createStream → r.nStreams = 1
  first : .publish ∉ passed → r.curStreamIdx = 0
  named : ∀ txn id playpath, .publish txn id playpath ∈ r.sent → mediaId r = id

/-- A client whose connection is over. -/
structure Ended (key : List UInt8) (r : Client) : Prop extends Sound key r where
  connected : r.connected = false
  m_bPlaying : r.m_bPlaying = false
  m_methodCalls : r.m_methodCalls = []

def Going (key : List UInt8) (waits : List Method) (passed : List Stage) (r : Client) : Prop :=
  Live key waits passed r ∨ Ended key r

section Streams

@[simp] theorem mapStreams_length (r : Client) (change : Stream → Stream) :
    (r.mapStreams change).length = r.streams.length := by
  simp only [Client.mapStreams, List.length_append, List.length_map, List.length_take,
    List.length_drop]
  omega

/-- A change that leaves the playpaths alone. -/
theorem playpath_mapStreams (r : Client) (change : Stream → Stream) (streamIdx : Nat)
    (kept : ∀ stream, (change stream).playpath = stream.playpath) :
    (r.mapStreams change)[streamIdx]?.bind Stream.playpath = r.playpath streamIdx := by
  unfold Client.playpath Client.mapStreams
  by_cases inside : streamIdx < r.nStreams
  · by_cases exists_ : streamIdx < r.streams.length
    · rw [List.getElem?_append_left (by simp; omega)]
      simp [inside, kept, Option.bind_map, Function.comp_def]
    · rw [List.getElem?_eq_none (by simp; omega), List.getElem?_eq_none (by omega)]
  · by_cases exists_ : streamIdx < r.streams.length
    · rw [List.getElem?_append_right (by simp; omega)]
      simp only [List.length_map, List.length_take, List.getElem?_drop]
      congr 2
      omega
    · rw [List.getElem?_eq_none (by simp; omega), List.getElem?_eq_none (by omega)]

end Streams

section Closing

variable {key : List UInt8} {r : Client}

@[simp] theorem close_sent (r : Client) : r.close.sent = r.sent := by
  unfold Client.close
  cases r.clean <;> rfl

@[simp] theorem close_m_methodCalls (r : Client) : r.close.m_methodCalls = [] := by
  unfold Client.close
  cases r.clean <;> rfl

@[simp] theorem close_connected (r : Client) : r.close.connected = false := by
  unfold Client.close
  cases r.clean <;> rfl

@[simp] theorem close_m_bPlaying (r : Client) : r.close.m_bPlaying = false := by
  unfold Client.close
  cases r.clean <;> rfl

@[simp] theorem close_room (r : Client) : r.close.streams.length = r.streams.length := by
  unfold Client.close
  cases r.clean
  · exact mapStreams_length r _
  · exact (mapStreams_length _ _).trans (mapStreams_length r _)

theorem close_nStreams (r : Client) : r.close.nStreams = r.nStreams ∨ r.close.nStreams = 0 := by
  unfold Client.close
  cases r.clean
  · exact .inl rfl
  · exact .inr rfl

theorem Sound.close (sound : Sound key r) : Ended key r.close where
  stages := by simpa using sound.stages
  numbers := by simpa using sound.numbers
  calls := by simp
  keys := by simpa using sound.keys
  media := by simpa using sound.media
  room := by simpa using sound.room
  single := by
    have single := sound.single
    have closed := close_nStreams r
    omega
  connected := by simp
  m_bPlaying := by simp
  m_methodCalls := by simp

theorem Going.sound {waits : List Method} {passed : List Stage} (going : Going key waits passed r) :
    Sound key r := by
  cases going with
  | inl live => exact live.toSound
  | inr ended => exact ended.toSound

end Closing

section Sending

variable {key : List UInt8} {waits : List Method} {passed : List Stage} {r : Client}

/-- What becomes of a packet. -/
theorem send_cases (r : Client) (packet : Sent) :
    (∃ link, r.send packet = ({ r with link := link, sent := r.sent ++ [packet] }, true)) ∨
      (∃ link, r.send packet = ({ r with link := link }, false)) ∨
      r.send packet = (r.close, false) := by
  unfold Client.send
  split
  · exact .inl ⟨_, rfl⟩
  · exact .inr (.inl ⟨_, rfl⟩)
  · exact .inr (.inr rfl)

theorem stagesOf_append (sent : List Sent) (packet : Sent) :
    stagesOf (sent ++ [packet]) = stagesOf sent ++ packet.stage.toList := by
  unfold stagesOf
  cases kind : packet.stage with
  | none => simp [kind]
  | some stage => simp [kind]

theorem numbersOf_append (sent : List Sent) (packet : Sent) :
    numbersOf (sent ++ [packet]) = numbersOf sent ++ packet.txn.toList := by
  unfold numbersOf
  cases number : packet.txn with
  | none => simp [number]
  | some txn => simp [number]

/-- Only media must follow what is behind them. -/
theorem heads_of_txn (before packet : Sent) (txn : Nat) (numbered : packet.txn = some txn) :
    before.Heads packet := by
  cases packet with
  | media id => cases numbered
  | _ => cases before <;> trivial

/-- A packet that is next in this state. -/
structure Fits (key : List UInt8) (r : Client) (packet : Sent) : Prop where
  number : ∀ txn ∈ packet.txn, txn ≤ r.m_numInvokes ∧ ∀ earlier ∈ numbersOf r.sent, earlier < txn
  names : packet.Names key
  media : ∀ before ∈ r.sent, before.Heads packet
  named : ∀ txn id playpath, packet = .publish txn id playpath → mediaId r = id

theorem Live.append (live : Live key waits passed r) {packet : Sent} (fits : Fits key r packet)
    (within : passed ++ packet.stage.toList <+ course) (link : List Delivery) :
    Live key waits (passed ++ packet.stage.toList)
      { r with link := link, sent := r.sent ++ [packet] } where
  stages := by
    rw [stagesOf_append]
    exact (live.passes.append_right _).trans within
  numbers := by
    rw [numbersOf_append]
    refine List.pairwise_append.mpr ⟨live.numbers, ?_, ?_⟩
    · cases packet.txn <;> simp
    · intro earlier behind txn number
      exact (fits.number txn (Option.mem_toList.mp number)).2 earlier behind
  calls := by
    rw [numbersOf_append]
    exact live.calls.trans (List.sublist_append_left _ _)
  keys := by
    intro sent among
    cases List.mem_append.mp among with
    | inl before => exact live.keys sent before
    | inr last =>
      rw [List.mem_singleton.mp last]
      exact fits.names
  media := by
    refine List.pairwise_append.mpr ⟨live.media, List.pairwise_singleton _ _, ?_⟩
    intro before behind last among
    rw [List.mem_singleton.mp among]
    exact fits.media before behind
  room := live.room
  single := live.single
  connected := live.connected
  waiting := live.waiting
  passes := by
    rw [stagesOf_append]
    exact live.passes.append_right _
  known := by
    intro txn among
    rw [numbersOf_append] at among
    cases List.mem_append.mp among with
    | inl before => exact live.known txn before
    | inr last => exact (fits.number txn (Option.mem_toList.mp last)).1
  keyed := live.keyed
  asked := live.asked
  first := fun absent => live.first fun passes => absent (List.mem_append_left _ passes)
  named := by
    intro txn id playpath among
    cases List.mem_append.mp among with
    | inl before => exact live.named txn id playpath before
    | inr last => exact fits.named txn id playpath (List.mem_singleton.mp last).symm

/-- More may be waited for and passed than is. -/
theorem Live.mono (live : Live key waits passed r) {moreWaits : List Method}
    {morePassed : List Stage} (waits : waits <+ moreWaits) (passes : passed <+ morePassed) :
    Live key moreWaits morePassed r :=
  { live with
    waiting := live.waiting.trans waits
    passes := live.passes.trans passes
    first := fun absent => live.first fun among => absent (passes.subset among) }

theorem Going.mono (going : Going key waits passed r) {moreWaits : List Method}
    {morePassed : List Stage} (waits : waits <+ moreWaits) (passes : passed <+ morePassed) :
    Going key moreWaits morePassed r :=
  going.imp_left fun live => live.mono waits passes

theorem Live.send (live : Live key waits passed r) {packet : Sent} (fits : Fits key r packet)
    (within : passed ++ packet.stage.toList <+ course) :
    Going key waits (passed ++ packet.stage.toList) (r.send packet).1 := by
  rcases send_cases r packet with ⟨link, sent⟩ | ⟨link, stalled⟩ | closed
  · rw [sent]
    exact .inl (live.append fits within link)
  · rw [stalled]
    have same : Live key waits passed { r with link := link } := { live with }
    exact .inl (same.mono (List.Sublist.refl _) (List.sublist_append_left _ _))
  · rw [closed]
    exact .inr live.close

/-- A number that is counted. -/
theorem Live.count (live : Live key waits passed r) :
    Live key waits passed { r with m_numInvokes := r.m_numInvokes + 1 } :=
  { live with known := fun txn among => Nat.le_succ_of_le (live.known txn among) }

/-- A call that went out under its number is waited for. -/
theorem Live.queue (live : Live key waits passed r) (name : Method) (txn : Nat)
    (last : r.m_methodCalls.map Prod.snd ++ [txn] <+ numbersOf r.sent)
    (asked : name = .createStream → r.nStreams = 1) :
    Live key (waits ++ [name]) passed { r with m_methodCalls := r.m_methodCalls ++ [(name, txn)] } :=
  { live with
    calls := by simpa using last
    waiting := by
      simp only [List.map_append, List.map_cons, List.map_nil]
      exact live.waiting.append_right _
    asked := by
      intro call among
      cases List.mem_append.mp among with
      | inl before => exact live.asked call before
      | inr new =>
        rw [List.mem_singleton.mp new]
        exact asked }

section Invoking

variable {packet : Nat → Sent} {after : Client} {gone : Bool}

theorem invoke_none
    (sent : { r with m_numInvokes := r.m_numInvokes + 1 }.send (packet (r.m_numInvokes + 1)) =
      (after, gone)) :
    (r.invoke none packet).1 = after := by
  simp only [Client.invoke]
  rw [sent]
  cases gone <;> rfl

theorem invoke_queued (name : Method)
    (sent : { r with m_numInvokes := r.m_numInvokes + 1 }.send (packet (r.m_numInvokes + 1)) =
      (after, true)) :
    (r.invoke (some name) packet).1 =
      { after with m_methodCalls := after.m_methodCalls ++ [(name, r.m_numInvokes + 1)] } := by
  simp only [Client.invoke]
  rw [sent]

theorem invoke_failed (queue : Option Method)
    (failed : { r with m_numInvokes := r.m_numInvokes + 1 }.send (packet (r.m_numInvokes + 1)) =
      (after, false)) :
    (r.invoke queue packet).1 = after := by
  simp only [Client.invoke]
  rw [failed]

end Invoking

/-- A packet with a number. -/
structure Call (key : List UInt8) (r : Client) (stage : Option Stage) (packet : Nat → Sent) :
    Prop where
  stage : ∀ txn, (packet txn).stage = stage
  txn : ∀ txn, (packet txn).txn = some txn
  names : ∀ txn, (packet txn).Names key
  named : ∀ txn number id playpath, packet txn = .publish number id playpath → mediaId r = id

theorem Live.invoke (live : Live key waits passed r) {stage : Option Stage} {packet : Nat → Sent}
    (call : Call key r stage packet) (queue : Option Method)
    (within : passed ++ stage.toList <+ course)
    (asked : queue = some .createStream → r.nStreams = 1) :
    Going key (waits ++ queue.toList) (passed ++ stage.toList) (r.invoke queue packet).1 := by
  let counted : Client := { r with m_numInvokes := r.m_numInvokes + 1 }
  let txn := r.m_numInvokes + 1
  have fits : Fits key counted (packet txn) := by
    constructor
    · intro number numbered
      rw [call.txn, Option.mem_some_iff] at numbered
      subst numbered
      exact ⟨Nat.le_refl _, fun earlier behind => Nat.lt_succ_of_le (live.known earlier behind)⟩
    · exact call.names txn
    · intro before _
      exact heads_of_txn before _ txn (call.txn txn)
    · exact call.named txn
  have staged : (packet txn).stage.toList = stage.toList := by rw [call.stage]
  rw [← staged] at within ⊢
  rcases send_cases counted (packet txn) with ⟨link, sent⟩ | ⟨link, stalled⟩ | closed
  · have went := live.count.append fits within link
    cases queue with
    | none =>
      rw [invoke_none sent]
      simpa using .inl went
    | some name =>
      rw [invoke_queued name sent]
      have last : r.m_methodCalls.map Prod.snd ++ [txn] <+ numbersOf (r.sent ++ [packet txn]) := by
        rw [numbersOf_append, call.txn]
        exact live.calls.append_right _
      exact .inl (went.queue name txn last fun create => asked (by rw [create]))
  · rw [invoke_failed queue stalled]
    have same : Live key waits passed { counted with link := link } := { live.count with }
    exact .inl (same.mono (List.sublist_append_left _ _) (List.sublist_append_left _ _))
  · rw [invoke_failed queue closed]
    exact .inr live.count.close

/-- Nothing goes out when the connection is over. -/
theorem Ended.send (ended : Ended key r) (packet : Sent) :
    r.send packet = (r.close, false) := by
  unfold Client.send
  rw [ended.connected]

theorem Ended.invoke (ended : Ended key r) (queue : Option Method) (packet : Nat → Sent) :
    Ended key (r.invoke queue packet).1 := by
  have counted : Ended key { r with m_numInvokes := r.m_numInvokes + 1 } := { ended with }
  rw [invoke_failed queue (counted.send _)]
  exact counted.close

end Sending

end Mgw.RtmpClient

import Mgw.RtmpAttempts

/-!
# The attempts of an output

What the connection and each invoke of the server do to the order of an attempt, and with
it whole attempts, each behind any others.
-/

namespace Mgw.RtmpClient

set_option autoImplicit false

open List
open TransitionRuns (tryRun)

/-- A client between two attempts. -/
structure Idle (r : Client) : Prop where
  connected : r.connected = false
  m_bPlaying : r.m_bPlaying = false
  m_methodCalls : r.m_methodCalls = []
  m_numInvokes : r.m_numInvokes = 0
  room : r.streams.length = RTMP_MAX_STREAMS
  nStreams : r.nStreams = 0
  curStreamIdx : r.curStreamIdx = 0

/-- A client that is about to connect. -/
structure Ready (key : List UInt8) (r : Client) : Prop where
  connected : r.connected = false
  m_bPlaying : r.m_bPlaying = false
  m_methodCalls : r.m_methodCalls = []
  room : r.streams.length = RTMP_MAX_STREAMS
  single : r.nStreams ≤ 1
  keyed : r.nStreams = 1 → r.playpath 0 = some key
  curStreamIdx : r.curStreamIdx = 0

section Connecting

variable {key : List UInt8} {r : Client}

theorem Ready.live (ready : Ready key r) (link : List Delivery) :
    Live key [] [] { r with connected := true, link := link, sent := [] } where
  stages := List.nil_sublist _
  numbers := List.Pairwise.nil
  calls := by
    rw [ready.m_methodCalls]
    exact List.nil_sublist _
  keys := fun packet among => absurd among List.not_mem_nil
  media := List.Pairwise.nil
  room := ready.room
  single := ready.single
  connected := rfl
  waiting := by
    rw [ready.m_methodCalls]
    exact List.nil_sublist _
  passes := List.nil_sublist _
  known := fun txn among => absurd among List.not_mem_nil
  keyed := ready.keyed
  asked := by simp [ready.m_methodCalls]
  first := fun _ => ready.curStreamIdx
  named := fun txn id playpath among => absurd among List.not_mem_nil

theorem Ready.ended (ready : Ready key r) : Ended key { r with sent := [] } where
  stages := List.nil_sublist _
  numbers := List.Pairwise.nil
  calls := by
    rw [ready.m_methodCalls]
    exact List.nil_sublist _
  keys := fun packet among => absurd among List.not_mem_nil
  media := List.Pairwise.nil
  room := ready.room
  single := ready.single
  connected := ready.connected
  m_bPlaying := ready.m_bPlaying
  m_methodCalls := ready.m_methodCalls

theorem connect_call (r : Client) : Call key r (some .connect) .connect where
  stage := fun _ => rfl
  txn := fun _ => rfl
  names := fun _ => trivial
  named := by
    intro txn number id playpath same
    cases same

/-- A packet that has no part in the order. -/
theorem plain_fits {packet : Sent} (numberless : packet.txn = none) (names : packet.Names key)
    (media : ∀ before ∈ r.sent, before.Heads packet) : Fits key r packet where
  number := by simp [numberless]
  names := names
  media := media
  named := by
    intro txn id playpath same
    rw [same] at numberless
    cases numberless

theorem rtmpConnect_going (ready : Ready key r) (dial : Dial) :
    Going key [.connect] [.connect] (rtmpConnect r dial) := by
  cases dial with
  | unreachable => exact .inr ready.ended
  | noSocket =>
    have same : { r with connected := false, sent := [] } = { r with sent := [] } := by
      rw [← ready.connected]
    change Going key _ _ { r with connected := false, sent := [] }
    rw [same]
    exact .inr ready.ended
  | refused => exact .inr ready.ended.close
  | up link =>
    have chunkSize : Fits key { r with connected := true, link := link, sent := [] } .chunkSize :=
      plain_fits rfl trivial fun before among => absurd among List.not_mem_nil
    have sized := (ready.live link).send chunkSize (by decide)
    simp only [rtmpConnect]
    generalize Client.send _ Sent.chunkSize = outcome at sized ⊢
    obtain ⟨client, gone⟩ := outcome
    cases gone with
    | false => exact .inr sized.sound.close
    | true =>
      have asked : Going key [.connect] [.connect]
          (client.invoke (some .connect) .connect).1 := by
        cases sized with
        | inl live => exact live.invoke (connect_call client) (some .connect) (by decide) (by simp)
        | inr ended => exact .inr (ended.invoke _ _)
      simp only [reduceCtorEq, if_false]
      generalize client.invoke _ _ = outcome at asked ⊢
      obtain ⟨after, gone⟩ := outcome
      cases gone with
      | false => exact .inr asked.sound.close
      | true => exact asked

end Connecting

section Results

variable {key : List UInt8} {waits : List Method} {passed : List Stage} {r : Client}

/-- The loops go round once at most. -/
theorem eachStream_going {moreWaits : List Method} {morePassed : List Stage}
    (send : Client → Nat → Client) (going : Going key waits passed r)
    (sends : r.nStreams = 1 → Going key moreWaits morePassed (send r 0))
    (waiting : waits <+ moreWaits) (passes : passed <+ morePassed) :
    Going key moreWaits morePassed (Client.eachStream send r.nStreams 0 r) := by
  have single := going.sound.single
  have none_or_one : r.nStreams = 0 ∨ r.nStreams = 1 := by omega
  cases none_or_one with
  | inl none =>
    rw [none]
    exact going.mono waiting passes
  | inr one =>
    have round : Client.eachStream send r.nStreams 0 r = send r 0 := by
      simp [one, Client.eachStream]
    rw [round]
    exact sends one

theorem Going.invoke (going : Going key waits passed r) {stage : Option Stage}
    {packet : Nat → Sent} (call : Live key waits passed r → Call key r stage packet)
    (queue : Option Method) (within : passed ++ stage.toList <+ course)
    (asked : queue = some .createStream → r.nStreams = 1) :
    Going key (waits ++ queue.toList) (passed ++ stage.toList) (r.invoke queue packet).1 := by
  cases going with
  | inl live => exact live.invoke (call live) queue within asked
  | inr ended => exact .inr (ended.invoke queue packet)

theorem sendReleaseStream_going (going : Going key waits passed r) (one : r.nStreams = 1)
    (within : passed ++ [.releaseStream] <+ course) :
    Going key waits (passed ++ [.releaseStream]) (r.sendReleaseStream 0) := by
  have call : Live key waits passed r →
      Call key r (some .releaseStream) fun txn => .releaseStream txn (r.playpath 0) := by
    intro live
    exact ⟨fun _ => rfl, fun _ => rfl, fun _ => live.keyed one, fun _ _ _ _ same => by cases same⟩
  simpa [Client.sendReleaseStream] using going.invoke call none within (by simp)

theorem sendFCPublish_going (going : Going key waits passed r) (one : r.nStreams = 1)
    (within : passed ++ [.FCPublish] <+ course) :
    Going key waits (passed ++ [.FCPublish]) (r.sendFCPublish 0) := by
  have call : Live key waits passed r →
      Call key r (some .FCPublish) fun txn => .FCPublish txn (r.playpath 0) := by
    intro live
    exact ⟨fun _ => rfl, fun _ => rfl, fun _ => live.keyed one, fun _ _ _ _ same => by cases same⟩
  simpa [Client.sendFCPublish] using going.invoke call none within (by simp)

theorem sendCreateStream_going (going : Going key [] passed r) (one : r.nStreams = 1)
    (within : passed ++ [.createStream] <+ course) :
    Going key [.createStream] (passed ++ [.createStream]) r.sendCreateStream := by
  have call : Live key [] passed r → Call key r (some .createStream) .createStream :=
    fun _ => ⟨fun _ => rfl, fun _ => rfl, fun _ => trivial, fun _ _ _ _ same => by cases same⟩
  exact going.invoke call (some .createStream) within fun _ => one

theorem sendCheckBW_going (going : Going key waits passed r) (within : passed <+ course) :
    Going key waits passed r.sendCheckBW := by
  have call : Live key waits passed r → Call key r none .checkbw :=
    fun _ => ⟨fun _ => rfl, fun _ => rfl, fun _ => trivial, fun _ _ _ _ same => by cases same⟩
  simpa [Client.sendCheckBW] using going.invoke call none (by simpa using within) (by simp)

theorem sendAnswer_going (live : Live key waits passed r) (within : passed <+ course) :
    Going key waits passed r.sendAnswer := by
  have fits : Fits key r .answer :=
    plain_fits rfl trivial fun before _ => by cases before <;> trivial
  simpa [Client.sendAnswer, Sent.stage] using live.send fits (by simpa [Sent.stage] using within)

/-- The result of `connect`. -/
theorem connectResult_going (live : Live key [] [.connect] r) :
    Going key [.createStream] [.connect, .releaseStream, .FCPublish, .createStream]
      (connectResult r) := by
  have released : Going key [] [.connect, .releaseStream]
      (Client.eachStream Client.sendReleaseStream r.nStreams 0 r) :=
    eachStream_going _ (.inl live)
      (fun one => sendReleaseStream_going (.inl live) one (by decide)) (by decide) (by decide)
  simp only [connectResult]
  generalize Client.eachStream Client.sendReleaseStream r.nStreams 0 r = client at released ⊢
  have published : Going key [] [.connect, .releaseStream, .FCPublish]
      (Client.eachStream Client.sendFCPublish client.nStreams 0 client) :=
    eachStream_going _ released
      (fun one => sendFCPublish_going released one (by decide)) (by decide) (by decide)
  generalize Client.eachStream Client.sendFCPublish client.nStreams 0 client = client at published ⊢
  exact eachStream_going _ published
    (fun one => sendCreateStream_going published one (by decide)) (by decide) (by decide)

/-- Nothing was published before `publish` is passed. -/
theorem Live.unpublished (live : Live key waits passed r) (unpassed : .publish ∉ passed)
    (txn : Nat) (id : Int) (playpath : Option (List UInt8)) :
    .publish txn id playpath ∉ r.sent := by
  intro among
  have stage : Stage.publish ∈ stagesOf r.sent := List.mem_filterMap.mpr ⟨_, among, rfl⟩
  exact unpassed (live.passes.subset stage)

/-- The stream of the server takes the place of the added one. -/
theorem Live.named_stream (live : Live key waits passed r) (unpassed : .publish ∉ passed)
    (id : Int) :
    Live key waits passed
      { r with streams := r.streams.modify 0 fun stream => { stream with id := id } } :=
  { live with
    room := by simpa using live.room
    keyed := by
      intro one
      rw [← live.keyed one]
      simp [Client.playpath, Option.bind_map, Function.comp_def]
    named := fun txn id playpath among =>
      absurd among (live.unpublished unpassed txn id playpath) }

theorem sendPublish_going
    (live : Live key [] [.connect, .releaseStream, .FCPublish, .createStream] r)
    (one : r.nStreams = 1) : Going key [.publish] course (r.sendPublish 0) := by
  have call : Call key r (some .publish) fun txn =>
      .publish txn (r.streams[0]?.elim 0 Stream.id) (r.playpath 0) := by
    constructor
    · exact fun _ => rfl
    · exact fun _ => rfl
    · exact fun _ => live.keyed one
    · intro txn number id playpath same
      rw [Sent.publish.injEq] at same
      rw [← same.2.1, mediaId, List.head?_eq_getElem?]
  exact live.invoke call (some .publish) (by decide) (by simp)

/-- Once all is passed, it does not matter which stream is next. -/
theorem Going.advance (going : Going key waits course r) (next : Nat) :
    Going key waits course { r with curStreamIdx := next } := by
  cases going with
  | inl live =>
    exact .inl { live with first := fun absent => absurd (by decide) absent }
  | inr ended => exact .inr { ended with }

theorem createStreamResult_going
    (live : Live key [] [.connect, .releaseStream, .FCPublish, .createStream] r)
    (one : r.nStreams = 1) (id : Int) :
    ∃ after, createStreamResult r id = some after ∧ Going key [.publish] course after := by
  have start : r.curStreamIdx = 0 := live.first (by decide)
  have room : r.curStreamIdx < r.streams.length := by
    rw [start, live.room]
    decide
  have named := live.named_stream (by decide) id
  have published := sendPublish_going named one
  unfold createStreamResult
  rw [if_pos room]
  refine ⟨_, rfl, Going.advance ?_ _⟩
  simp only [start] at published ⊢
  exact published

end Results

/-- What an attempt waits for, and what is behind it. -/
inductive Phase where
  | connecting
  | creating
  | publishing

def Phase.waits : Phase → Method
  | .connecting => .connect
  | .creating => .createStream
  | .publishing => .publish

def Phase.passed : Phase → List Stage
  | .connecting => [.connect]
  | .creating => [.connect, .releaseStream, .FCPublish, .createStream]
  | .publishing => course

theorem Phase.within (phase : Phase) : phase.passed <+ course := by
  cases phase <;> decide

section Handling

variable {key : List UInt8} {passed : List Stage} {r : Client}

/-- A client within an attempt. -/
def Attempting (key : List UInt8) (r : Client) : Prop :=
  (∃ phase : Phase, Live key [phase.waits] phase.passed r) ∨ Ended key r

theorem Going.attempting (phase : Phase) (going : Going key [phase.waits] phase.passed r) :
    Attempting key r :=
  going.imp_left fun live => ⟨phase, live⟩

/-- A result is for nothing, or for what is waited for. -/
theorem takeCall_cases {name : Method} (live : Live key [name] passed r) (matching : Nat → Bool) :
    (takeCall r matching).1 = none ∨
      ((takeCall r matching).1 = some name ∧ Live key [] passed (takeCall r matching).2 ∧
        (name = .createStream → r.nStreams = 1)) := by
  have waiting := live.waiting
  cases calls : r.m_methodCalls with
  | nil =>
    left
    simp [takeCall, calls]
  | cons call rest =>
    rw [calls, List.map_cons, List.sublist_singleton] at waiting
    have only : call.1 = name ∧ rest = [] := by simpa using waiting
    obtain ⟨called, alone⟩ := only
    by_cases found : matching call.2
    · right
      have taken : (takeCall r matching).2 = { r with m_methodCalls := [] } := by
        simp [takeCall, calls, alone, found]
      refine ⟨by simp [takeCall, calls, found, called], ?_, ?_⟩
      · rw [taken]
        exact { live with
          calls := List.nil_sublist _
          waiting := List.nil_sublist _
          asked := fun call among => absurd among List.not_mem_nil }
      · intro create
        exact live.asked call (by rw [calls]; exact List.mem_cons_self) (called.trans create)
    · left
      simp [takeCall, calls, alone, found]

theorem handleResult_attempting (phase : Phase) (live : Live key [phase.waits] phase.passed r)
    (txn id : Int) : ∃ after, handleResult r txn id = some after ∧ Attempting key after := by
  have cases := takeCall_cases live fun num => num = txn
  unfold handleResult
  rcases taking : takeCall r (fun num => num = txn) with ⟨name, taken⟩
  rw [taking] at cases
  rcases cases with unasked | ⟨asked, taken_live, create⟩
  · cases unasked
    exact ⟨r, rfl, .inl ⟨phase, live⟩⟩
  · cases asked
    cases phase with
    | connecting =>
      exact ⟨_, rfl, (connectResult_going taken_live).attempting .creating⟩
    | creating =>
      have single : taken.nStreams = 1 := by
        rw [← create rfl]
        exact congrArg (fun taken => taken.2.nStreams) taking.symm
      obtain ⟨after, result, going⟩ := createStreamResult_going taken_live single id
      exact ⟨after, result, going.attempting .publishing⟩
    | publishing =>
      have playing : Live key [] course { taken with m_bPlaying := true } := { taken_live with }
      have waiting := playing.mono (List.nil_sublist [.publish]) (List.Sublist.refl course)
      exact ⟨_, rfl, .inl ⟨.publishing, waiting⟩⟩

theorem Sound.ready (sound : Sound key r) (keyed : r.nStreams = 1 → r.playpath 0 = some key)
    (start : r.curStreamIdx = 0) : Ready key r.close where
  connected := by simp
  m_bPlaying := by simp
  m_methodCalls := by simp
  room := by simpa using sound.room
  single := sound.close.single
  keyed := by
    unfold Client.close
    cases r.clean with
    | false =>
      intro one
      rw [← keyed one]
      exact playpath_mapStreams r _ 0 fun _ => rfl
    | true =>
      intro one
      cases one
  curStreamIdx := by
    unfold Client.close
    cases r.clean with
    | false => exact start
    | true => rfl

theorem connectError_going (live : Live key [] [.connect] r) (auth : Auth) :
    Going key [.connect] [.connect] (connectError r auth) := by
  cases auth with
  | refused =>
    have kept : Live key [] [.connect] { r with clean := true } := { live with }
    exact .inl (kept.mono (List.nil_sublist _) (List.Sublist.refl _))
  | unknown => exact .inl (live.mono (List.nil_sublist _) (List.Sublist.refl _))
  | retry late dial =>
    have kept : Live key [] [.connect] { r with clate := r.clate || late } := { live with }
    have ready := kept.toSound.ready kept.keyed (kept.first (by decide))
    let closed := { r with clate := r.clate || late }.close
    have cleaned : Ready key { closed with clean := closed.clean || closed.clate } :=
      { ready with }
    exact rtmpConnect_going cleaned dial

theorem handleError_attempting (phase : Phase) (live : Live key [phase.waits] phase.passed r)
    (txn : Int) (whole : Bool) (auth : Auth) : Attempting key (handleError r txn whole auth) := by
  have cases := takeCall_cases live fun num => whole && decide ((num : Int) = txn)
  unfold handleError
  rcases taking : takeCall r (fun num => whole && decide ((num : Int) = txn)) with ⟨name, taken⟩
  rw [taking] at cases
  rcases cases with unasked | ⟨asked, taken_live, -⟩
  · cases unasked
    exact .inl ⟨phase, live⟩
  · cases asked
    cases phase with
    | connecting => exact (connectError_going taken_live auth).attempting .connecting
    | creating =>
      exact .inl ⟨.creating, taken_live.mono (List.nil_sublist _) (List.Sublist.refl _)⟩
    | publishing =>
      exact .inl ⟨.publishing, taken_live.mono (List.nil_sublist _) (List.Sublist.refl _)⟩

/-- A call that is waited for no longer. -/
theorem Live.erase {waits : List Method} (live : Live key waits passed r) (name : Method) :
    Live key waits passed (eraseMethod r name) :=
  { live with
    calls := (List.eraseP_sublist.map Prod.snd).trans live.calls
    waiting := (List.eraseP_sublist.map Prod.fst).trans live.waiting
    asked := fun call among => live.asked call (List.mem_of_mem_eraseP among) }

theorem handleStatus_attempting (phase : Phase) (live : Live key [phase.waits] phase.passed r)
    (code : Code) : Attempting key (handleStatus r code) := by
  have playing : Live key [phase.waits] phase.passed { r with m_bPlaying := true } :=
    { live with }
  cases code with
  | failed => exact .inr live.close
  | playStart => exact .inl ⟨phase, playing.erase .play⟩
  | publishStart => exact .inl ⟨phase, playing.erase .publish⟩
  | playComplete => exact .inr live.close
  | other => exact .inl ⟨phase, live⟩

theorem handleInvoke_attempting (phase : Phase) (live : Live key [phase.waits] phase.passed r)
    (invoke : Invoke) : ∃ after, handleInvoke r invoke = some after ∧ Attempting key after := by
  cases invoke with
  | result txn id => exact handleResult_attempting phase live txn id
  | onBWDone =>
    refine ⟨_, rfl, ?_⟩
    split
    · exact (sendCheckBW_going (.inl live) phase.within).attempting phase
    · exact .inl ⟨phase, live⟩
  | onFCUnsubscribe => exact ⟨_, rfl, .inr live.close⟩
  | ping => exact ⟨_, rfl, (sendAnswer_going live phase.within).attempting phase⟩
  | onbwcheck =>
    have checked : Live key [phase.waits] phase.passed
        { r with m_nBWCheckCounter := r.m_nBWCheckCounter + 1 } := { live with }
    exact ⟨_, rfl, (sendAnswer_going checked phase.within).attempting phase⟩
  | onbwdone => exact ⟨_, rfl, .inl ⟨phase, live.erase .checkbw⟩⟩
  | error txn whole auth =>
    exact ⟨_, rfl, handleError_attempting phase live txn whole auth⟩
  | close => exact ⟨_, rfl, .inr live.close⟩
  | onStatus code => exact ⟨_, rfl, handleStatus_attempting phase live code⟩
  | playlistReady => exact ⟨_, rfl, .inl ⟨phase, live.erase .setPlaylist⟩⟩
  | other => exact ⟨_, rfl, .inl ⟨phase, live⟩⟩

end Handling

section Attempts

variable {key : List UInt8} {r : Client}

theorem Attempting.sound (attempting : Attempting key r) : Sound key r := by
  cases attempting with
  | inl going =>
    obtain ⟨phase, live⟩ := going
    exact live.toSound
  | inr ended => exact ended.toSound

/-- Media take the id that was published. -/
theorem sendMedia_attempting (phase : Phase) (live : Live key [phase.waits] phase.passed r) :
    Attempting key (r.send (.media (mediaId r))).1 := by
  have fits : Fits key r (.media (mediaId r)) := by
    refine plain_fits rfl trivial fun before among => ?_
    cases before with
    | publish txn id playpath => exact live.named txn id playpath among
    | _ => trivial
  have sent := live.send fits (by simpa [Sent.stage] using phase.within)
  exact Going.attempting phase (by simpa [Sent.stage] using sent)

theorem step_attempting (attempting : Attempting key r) (traffic : Traffic) :
    ∃ after, step r traffic = some after ∧ Attempting key after := by
  cases attempting with
  | inl going =>
    obtain ⟨phase, live⟩ := going
    cases traffic with
    | message invoke =>
      simp only [step]
      split
      · exact handleInvoke_attempting phase live invoke
      · exact ⟨r, rfl, .inl ⟨phase, live⟩⟩
    | control =>
      refine ⟨_, rfl, ?_⟩
      split
      · exact (sendAnswer_going live phase.within).attempting phase
      · exact .inl ⟨phase, live⟩
    | lost => exact ⟨_, rfl, .inr live.close⟩
    | media =>
      refine ⟨_, rfl, ?_⟩
      split
      · exact sendMedia_attempting phase live
      · exact .inl ⟨phase, live⟩
  | inr ended =>
    -- what is closed is not heard and does not write
    cases traffic with
    | message invoke =>
      refine ⟨r, ?_, .inr ended⟩
      simp [step, ended.connected]
    | control =>
      refine ⟨r, ?_, .inr ended⟩
      simp [step, ended.connected]
    | lost => exact ⟨_, rfl, .inr ended.close⟩
    | media =>
      refine ⟨r, ?_, .inr ended⟩
      simp [step, ended.m_bPlaying]

theorem Idle.added (idle : Idle r) (key : List UInt8) :
    ∃ added, rtmpAddStream r key = some added ∧ Ready key added := by
  have first : 0 < r.streams.length := by
    rw [idle.room]
    decide
  unfold rtmpAddStream
  rw [if_pos (by rw [idle.nStreams]; exact first)]
  refine ⟨_, rfl, ?_⟩
  simp only [idle.nStreams]
  exact {
    connected := idle.connected
    m_bPlaying := idle.m_bPlaying
    m_methodCalls := idle.m_methodCalls
    room := by simpa using idle.room
    single := Nat.le_refl _
    keyed := by
      intro _
      simp [Client.playpath, first]
    curStreamIdx := idle.curStreamIdx }

theorem attempt_attempting (idle : Idle r) (tried : Attempt) :
    ∃ reached, attempt r tried = some reached ∧ Attempting tried.playpath reached := by
  obtain ⟨added, result, ready⟩ := idle.added tried.playpath
  have connecting := (rtmpConnect_going ready tried.dial).attempting .connecting
  obtain ⟨reached, runs, attempting⟩ :=
    TransitionRuns.try_run_invariant
      (fun _ traffic attempting _ => step_attempting attempting traffic) tried.traffic _ connecting
      (TransitionRuns.try_meets_of_forall (fun _ _ => trivial) _ _)
  refine ⟨reached, ?_, attempting⟩
  rw [attempt, result, Option.bind_some, runs]

/-- A closed connection and a stop make way for the next attempt. -/
theorem Sound.idle (sound : Sound key r) : Idle (rtmpStreamStop r.close) where
  connected := close_connected r
  m_bPlaying := close_m_bPlaying r
  m_methodCalls := close_m_methodCalls r
  m_numInvokes := by
    change r.close.m_numInvokes = 0
    unfold Client.close
    cases r.clean <;> rfl
  room := by
    change (r.close.mapStreams _).length = _
    simpa using sound.room
  nStreams := rfl
  curStreamIdx := rfl

theorem fresh_idle : Idle Client.fresh := ⟨rfl, rfl, rfl, rfl, rfl, rfl, rfl⟩

theorem attempts_idle (past : List Attempt) :
    ∃ idle, attempts Client.fresh past = some idle ∧ Idle idle := by
  refine TransitionRuns.try_run_invariant (fun r tried idle _ => ?_) past _ fresh_idle
    (TransitionRuns.try_meets_of_forall (fun _ _ => trivial) _ _)
  obtain ⟨reached, result, attempting⟩ := attempt_attempting idle tried
  refine ⟨_, ?_, attempting.sound.idle⟩
  rw [endedAttempt, result, Option.map_some]

/-- Behind any attempts, every next one stays within the streams and keeps the order. -/
theorem attempts_are_orderly (past : List Attempt) (tried : Attempt) :
    ∃ reached, (attempts Client.fresh past).bind (attempt · tried) = some reached ∧
      Orderly tried.playpath reached := by
  obtain ⟨idle, before, ready⟩ := attempts_idle past
  obtain ⟨reached, result, attempting⟩ := attempt_attempting ready tried
  refine ⟨reached, ?_, attempting.sound.toOrderly⟩
  rw [before, Option.bind_some, result]

end Attempts

end Mgw.RtmpClient

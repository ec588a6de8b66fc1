import Mgw.RtmpAttemptRuns

/-!
# An attempt that is answered

Where the packets go out and the server answers `connect` and `createStream`, the stream is
published, and the media go out under the id that the server gave. What came before the
attempt leaves no trace in it.
-/

namespace Mgw.RtmpClient

set_option autoImplicit false

open TransitionRuns (tryRun)

/-- The invokes that ask for nothing and answer nothing that a publisher waits for. -/
def Invoke.quiet : Invoke → Bool
  | .onbwdone => true
  | .playlistReady => true
  | .onStatus .other => true
  | .other => true
  | _ => false

section Quiet

variable {r : Client}

theorem eraseMethod_absent (name : Method) (absent : ∀ call ∈ r.m_methodCalls, call.1 ≠ name) :
    eraseMethod r name = r := by
  have same : r.m_methodCalls.eraseP (fun call => call.1 = name) = r.m_methodCalls :=
    List.eraseP_of_forall_not fun call among => by simpa using absent call among
  rw [eraseMethod, same]

theorem quiet_step (unasked : ∀ call ∈ r.m_methodCalls, call.1 ≠ .checkbw ∧ call.1 ≠ .setPlaylist)
    (invoke : Invoke) (quiet : invoke.quiet = true) : step r (.message invoke) = some r := by
  have handled : handleInvoke r invoke = some r := by
    cases invoke with
    | onbwdone =>
      exact congrArg some (eraseMethod_absent .checkbw fun call among => (unasked call among).1)
    | playlistReady =>
      exact congrArg some (eraseMethod_absent .setPlaylist fun call among => (unasked call among).2)
    | onStatus code =>
      cases code with
      | other => rfl
      | _ => cases quiet
    | other => rfl
    | _ => cases quiet
  simp only [step, handled, ite_self]

theorem quiet_run (unasked : ∀ call ∈ r.m_methodCalls, call.1 ≠ .checkbw ∧ call.1 ≠ .setPlaylist)
    (invokes : List Invoke) (quiet : ∀ invoke ∈ invokes, invoke.quiet = true)
    (rest : List Traffic) :
    tryRun step r (invokes.map .message ++ rest) = tryRun step r rest := by
  induction invokes with
  | nil => rfl
  | cons invoke invokes ih =>
    have first := quiet_step unasked invoke (quiet invoke List.mem_cons_self)
    rw [List.map_cons, List.cons_append, TransitionRuns.try_run_cons first]
    exact ih fun later among => quiet later (List.mem_cons_of_mem _ among)

end Quiet

/-- A client that waits for one call, with the stream that it publishes, the packets that may
still go out and those that went. -/
structure Awaiting (name : Method) (txn : Nat) (stream : Stream) (link : List Delivery)
    (sent : List Sent) (r : Client) : Prop where
  connected : r.connected = true
  m_bPlaying : r.m_bPlaying = false
  m_methodCalls : r.m_methodCalls = [(name, txn)]
  m_numInvokes : r.m_numInvokes = txn
  link : r.link = link
  sent : r.sent = sent
  stream : r.streams.head? = some stream
  nStreams : r.nStreams = 1
  curStreamIdx : name ≠ .publish → r.curStreamIdx = 0

section Answers

variable {r : Client} {txn : Nat} {stream : Stream} {link : List Delivery} {sent : List Sent}

theorem Idle.connects (idle : Idle r) (key : List UInt8) (link : List Delivery) :
    ∃ added, rtmpAddStream r key = some added ∧
      Awaiting .connect 1 { id := -1, playpath := some key } link [.chunkSize, .connect 1]
        (rtmpConnect added (.up (.goes :: .goes :: link))) := by
  have first : 0 < r.streams.length := by
    rw [idle.room]
    decide
  refine ⟨_, if_pos (by rw [idle.nStreams]; exact first), ?_⟩
  simp only [idle.nStreams]
  constructor <;> simp [rtmpConnect, Client.send, Client.invoke, idle.m_methodCalls,
    idle.m_numInvokes, idle.m_bPlaying, idle.curStreamIdx, List.head?_eq_getElem?, first]

theorem Awaiting.takes {name : Method} (awaiting : Awaiting name txn stream link sent r) :
    takeCall r (fun num => (num : Int) = txn) = (some name, { r with m_methodCalls := [] }) := by
  simp [takeCall, awaiting.m_methodCalls]

theorem Awaiting.quiet {name : Method} (awaiting : Awaiting name txn stream link sent r)
    (other : name ≠ .checkbw ∧ name ≠ .setPlaylist) (invokes : List Invoke)
    (quiet : ∀ invoke ∈ invokes, invoke.quiet = true) (rest : List Traffic) :
    tryRun step r (invokes.map .message ++ rest) = tryRun step r rest := by
  refine quiet_run ?_ invokes quiet rest
  intro call among
  rw [awaiting.m_methodCalls, List.mem_singleton] at among
  rw [among]
  exact other

theorem Awaiting.playpath {name : Method} (awaiting : Awaiting name txn stream link sent r) :
    r.streams[0]? = some stream := by
  rw [← List.head?_eq_getElem?, awaiting.stream]

/-- The result of `connect`. -/
theorem Awaiting.released
    (awaiting : Awaiting .connect txn stream (.goes :: .goes :: .goes :: link) sent r)
    (reply : Int) :
    ∃ after, step r (.message (.result txn reply)) = some after ∧
      Awaiting .createStream (txn + 3) stream link
        (sent ++ [.releaseStream (txn + 1) stream.playpath, .FCPublish (txn + 2) stream.playpath,
          .createStream (txn + 3)]) after := by
  refine ⟨connectResult { r with m_methodCalls := [] }, ?_, ?_⟩
  · rw [step, if_pos ⟨awaiting.connected, awaiting.m_bPlaying⟩, handleInvoke, handleResult,
      awaiting.takes]
  · constructor <;> simp [connectResult, Client.eachStream, Client.sendReleaseStream,
      Client.sendFCPublish, Client.sendCreateStream, Client.invoke, Client.send, Client.playpath,
      awaiting.connected, awaiting.m_bPlaying, awaiting.m_numInvokes, awaiting.link, awaiting.sent,
      awaiting.stream, awaiting.nStreams, awaiting.curStreamIdx, awaiting.playpath]

/-- The result of `createStream`. -/
theorem Awaiting.published (awaiting : Awaiting .createStream txn stream (.goes :: link) sent r)
    (id : Int) :
    ∃ after, step r (.message (.result txn id)) = some after ∧
      Awaiting .publish (txn + 1) { stream with id := id } link
        (sent ++ [.publish (txn + 1) id stream.playpath]) after := by
  have first : r.curStreamIdx = 0 := awaiting.curStreamIdx (by decide)
  have room : 0 < r.streams.length := (List.getElem?_eq_some_iff.mp awaiting.playpath).1
  have named : (r.streams.modify 0 fun stream => { stream with id := id })[0]? =
      some { stream with id := id } := by
    rw [List.getElem?_modify_eq, awaiting.playpath]
    rfl
  have created : ∃ after, createStreamResult { r with m_methodCalls := [] } id = some after ∧
      Awaiting .publish (txn + 1) { stream with id := id } link
        (sent ++ [.publish (txn + 1) id stream.playpath]) after := by
    simp only [createStreamResult, first]
    refine ⟨_, if_pos room, ?_⟩
    constructor <;> simp [Client.sendPublish, Client.invoke, Client.send, Client.playpath,
      awaiting.connected, awaiting.m_bPlaying, awaiting.m_numInvokes, awaiting.link,
      awaiting.sent, awaiting.nStreams, List.head?_eq_getElem?, named]
  obtain ⟨after, result, publishing⟩ := created
  refine ⟨after, ?_, publishing⟩
  rw [step, if_pos ⟨awaiting.connected, awaiting.m_bPlaying⟩, handleInvoke, handleResult,
    awaiting.takes]
  exact result

theorem Awaiting.started (awaiting : Awaiting .publish txn stream link sent r) :
    ∃ after, step r (.message (.onStatus .publishStart)) = some after ∧
      after.connected = true ∧ after.m_bPlaying = true ∧ after.link = link ∧ after.sent = sent ∧
      mediaId after = stream.id := by
  refine ⟨{ r with m_bPlaying := true, m_methodCalls := [] }, ?_, awaiting.connected, rfl,
    awaiting.link, awaiting.sent, ?_⟩
  · rw [step, if_pos ⟨awaiting.connected, awaiting.m_bPlaying⟩]
    simp [handleInvoke, handleStatus, eraseMethod, awaiting.m_methodCalls]
  · simp [mediaId, awaiting.stream]

theorem media_run (connected : r.connected = true) (playing : r.m_bPlaying = true) (count : Nat)
    (goes : r.link = List.replicate count .goes) :
    tryRun step r (List.replicate count .media) =
      some { r with
        link := []
        sent := r.sent ++ List.replicate count (.media (mediaId r)) } := by
  induction count generalizing r with
  | zero =>
    cases r
    cases goes
    simp [tryRun]
  | succ count ih =>
    rw [List.replicate_succ] at goes
    have written : step r .media =
        some { r with
          link := List.replicate count .goes
          sent := r.sent ++ [.media (mediaId r)] } := by
      simp [step, Client.send, connected, playing, goes]
    have later := @ih
      { r with
        link := List.replicate count .goes
        sent := r.sent ++ [.media (mediaId r)] } connected playing rfl
    rw [List.replicate_succ, TransitionRuns.try_run_cons written, later]
    simp [mediaId, List.replicate_succ]

end Answers

/-- What the client of an answered attempt sends. -/
def handshake (key : List UInt8) (id : Int) : List Sent :=
  [.chunkSize, .connect 1, .releaseStream 2 (some key), .FCPublish 3 (some key), .createStream 4,
    .publish 5 id (some key)]

/-- The messages of a server that answers, with others between its answers. -/
def answers (first second third : List Invoke) (reply id : Int) (media : List Traffic) :
    List Traffic :=
  first.map .message ++ .message (.result 1 reply) ::
    (second.map .message ++ .message (.result 4 id) ::
      (third.map .message ++ .message (.onStatus .publishStart) :: media))

end Mgw.RtmpClient

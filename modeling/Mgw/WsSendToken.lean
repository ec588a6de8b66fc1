import Mgw.TransitionRuns
import Mgw.WsClientSend

/-!
# The sending token of the websocket client

The semaphore has one token: it is free, held by a thread in `wsclient_send`, or it
stands for the one message in the buffer that is not yet written. Each handler keeps
that count and the order of the messages, except where a response is queued without
its size, a sender gives up with the token, or the service thread waits.
-/

namespace Mgw.WsSendToken

open ByteArea TransitionRuns WsMessage WsClientSend

set_option autoImplicit false

/-- The message in the buffer that is not yet written. -/
def pending (client : WsClient) : List (List UInt8) :=
  if 0 < client.snd_size then [takeBytes client.snd_buffer client.snd_size] else []

/-- A handler that does not wait, keeps the token and has the messages written in order. -/
structure Serves (client : WsClient) (handled : Handled) : Prop where
  goesOn : handled.waits = false
  token : handled.client.snd_sem + (pending handled.client).length =
    client.snd_sem + (pending client).length
  order : pending client ++ handled.queued.toList =
    handled.written.toList ++ pending handled.client

section Handlers

variable {client : WsClient}

theorem quiet_serves {after : WsClient} (sem : after.snd_sem = client.snd_sem)
    (buffer : after.snd_buffer = client.snd_buffer) (size : after.snd_size = client.snd_size) :
    Serves client after.quiet := by
  have same : pending after = pending client := by
    unfold pending
    rw [buffer, size]
  constructor
  · rfl
  · change after.snd_sem + (pending after).length = _
    rw [sem, same]
  · change pending client ++ [] = [] ++ pending after
    rw [same, List.append_nil, List.nil_append]

theorem then_serves {handled : Handled} {change : WsClient → WsClient}
    (serves : Serves client handled)
    (kept : ∀ client, (change client).snd_sem = client.snd_sem ∧
      pending (change client) = pending client) : Serves client (handled.then change) := by
  obtain ⟨sem, same⟩ := kept handled.client
  unfold Handled.then
  rw [if_neg (by simp [serves.goesOn])]
  constructor
  · exact serves.goesOn
  · change (change handled.client).snd_sem + _ = _
    rw [sem, same]
    exact serves.token
  · change _ = _ ++ pending (change handled.client)
    rw [same]
    exact serves.order

theorem put_buffer (offset : Nat) (bytes : List UInt8) :
    (client.put offset bytes).snd_buffer =
      copyIn client.snd_buffer offset (fun index => bytes.getD index 0) bytes.length := rfl

/-- What `send_message` puts into the buffer is its head and body. -/
theorem sent_bytes (client : WsClient) (head body : List UInt8) :
    takeBytes ((client.put 0 head).put head.length body).snd_buffer (head.length + body.length) =
      head ++ body := by
  have first : takeBytes ((client.put 0 head).put head.length body).snd_buffer head.length =
      takeBytes (client.put 0 head).snd_buffer head.length := by
    apply take_bytes_congr
    intro index bound
    rw [put_buffer]
    exact copy_in_outside _ _ _ _ _ (Or.inl bound)
  have copied : takeBytes (client.put 0 head).snd_buffer head.length = head := by
    have read := take_bytes_copied client.snd_buffer 0 head
    apply Eq.trans _ read
    apply take_bytes_congr
    intro index _
    rw [advance_apply, Nat.zero_add, put_buffer]
  rw [take_bytes_add, first, copied, put_buffer, take_bytes_copied]

theorem pending_of_size (positive : 0 < client.snd_size) :
    pending client = [takeBytes client.snd_buffer client.snd_size] := if_pos positive

theorem pending_nil (empty : client.snd_size = 0) : pending client = [] := by
  unfold pending
  rw [if_neg (by omega)]

theorem count_message_kept (client : WsClient) (type : SubmsgType) :
    (client.countMessage type).snd_sem = client.snd_sem ∧
      (client.countMessage type).snd_size = client.snd_size := by
  unfold WsClient.countMessage
  split_ifs <;> exact ⟨rfl, rfl⟩

/-- With the token at hand and nothing in the buffer a message is queued. -/
theorem send_message_serves (free : client.snd_sem ≠ 0) (empty : client.snd_size = 0)
    (body : List UInt8) (type : SubmsgType) : Serves client (sendMessage client body type) := by
  obtain ⟨sem, -⟩ := count_message_kept client type
  have head := common_head_length type client.message_no body.length
  have bytes := sent_bytes (client.countMessage type)
    (commonHead type client.message_no body.length) body
  rw [head] at bytes
  unfold sendMessage
  simp only [sem, if_neg free]
  have queued : pending
      { ((client.countMessage type).put 0 (commonHead type client.message_no body.length)).put
          COMMON_HEAD_SIZE body with
        snd_sem := client.snd_sem - 1
        snd_size := COMMON_HEAD_SIZE + body.length
        snd_req := true } = [commonHead type client.message_no body.length ++ body] := by
    rw [pending_of_size (Nat.add_pos_left (by decide) _)]
    exact congrArg (fun message => [message]) bytes
  constructor
  · rfl
  · rw [queued, pending_nil empty]
    simp only [List.length_singleton, List.length_nil]
    omega
  · rw [queued, pending_nil empty]
    rfl

theorem request_authorization_serves (free : client.tokenUsable = true → client.snd_sem ≠ 0)
    (empty : client.snd_sem ≠ 0 → client.snd_size = 0) :
    Serves client (requestAuthorization client) := by
  unfold requestAuthorization
  split_ifs with usable
  · exact send_message_serves (free usable) (empty (free usable)) _ _
  · exact quiet_serves rfl rfl rfl

/-- The writable callback writes what is in the buffer. -/
theorem writeable_serves (client : WsClient) :
    Serves client (lwsCallback client .LWS_CALLBACK_CLIENT_WRITEABLE) ∧
      pending (lwsCallback client .LWS_CALLBACK_CLIENT_WRITEABLE).client = [] ∧
      (lwsCallback client .LWS_CALLBACK_CLIENT_WRITEABLE).queued = none := by
  unfold lwsCallback
  dsimp only
  split_ifs with some
  · have sent := pending_of_size some
    refine ⟨⟨rfl, ?_, ?_⟩, pending_nil rfl, rfl⟩
    · rw [sent, pending_nil rfl]
      rfl
    · rw [sent, pending_nil rfl]
      rfl
  · exact ⟨quiet_serves rfl rfl rfl, pending_nil (Nat.eq_zero_of_not_pos some), rfl⟩

/-- Whether the service thread is to send a message. -/
def callbackSends (client : WsClient) : Reason → Bool
  | .LWS_CALLBACK_CLIENT_ESTABLISHED => client.tokenUsable
  | .LWS_CALLBACK_CLIENT_RECEIVE .ping => true
  | .LWS_CALLBACK_CLIENT_RECEIVE (.pong authen _ _) => !authen && client.tokenUsable
  | .LWS_CALLBACK_CLIENT_RECEIVE (.authen authen_type) =>
      authen_type = AUTHEN_TYPE_UNAUTHOR && client.tokenUsable
  | _ => false

/-- Whether a text message is to be answered. -/
def callbackResponds : Reason → Bool
  | .LWS_CALLBACK_CLIENT_RECEIVE (.text repeated _ ack_req _) => !repeated && ack_req
  | _ => false

def heartbeatSends (client : WsClient) (elapsed : Bool) : Bool :=
  client.actived && !client.snd_req && elapsed

theorem callback_serves {reason : Reason} (empty : client.snd_sem ≠ 0 → client.snd_size = 0)
    (free : callbackSends client reason = true → client.snd_sem ≠ 0)
    (noResponse : callbackResponds reason = false) : Serves client (lwsCallback client reason) := by
  cases reason with
  | LWS_CALLBACK_CLIENT_CONNECTION_ERROR => exact quiet_serves rfl rfl rfl
  | LWS_CALLBACK_CLIENT_CLOSED => exact quiet_serves rfl rfl rfl
  | LWS_CALLBACK_CLIENT_WRITEABLE => exact (writeable_serves client).1
  | LWS_CALLBACK_CLIENT_ESTABLISHED =>
      unfold lwsCallback
      apply then_serves (request_authorization_serves free empty)
      intro client
      exact ⟨rfl, rfl⟩
  | LWS_CALLBACK_CLIENT_RECEIVE received =>
      cases received with
      | nop => exact quiet_serves rfl rfl rfl
      | ping => exact send_message_serves (free rfl) (empty (free rfl)) _ _
      | pong authen ip port =>
          unfold lwsCallback receiveMessage
          apply then_serves
          · cases authen with
            | true => exact quiet_serves rfl rfl rfl
            | false => exact request_authorization_serves free empty
          · intro client
            exact ⟨rfl, rfl⟩
      | authen authen_type =>
          unfold lwsCallback receiveMessage
          dsimp only
          split_ifs with refused
          · apply request_authorization_serves _ empty
            intro usable
            apply free
            simp [callbackSends, refused, usable]
          · exact quiet_serves rfl rfl rfl
      | text repeated resp ack_req com_body =>
          unfold lwsCallback receiveMessage
          dsimp only
          split_ifs with again answer
          · exact quiet_serves rfl rfl rfl
          · simp [callbackResponds, again, answer] at noResponse
          · exact quiet_serves rfl rfl rfl

theorem heartbeat_serves {elapsed : Bool} (empty : client.snd_sem ≠ 0 → client.snd_size = 0)
    (free : heartbeatSends client elapsed = true → client.snd_sem ≠ 0) :
    Serves client (loopHeartbeat client elapsed) := by
  unfold loopHeartbeat
  split_ifs with due
  · exact send_message_serves (free due) (empty (free due)) _ _
  · exact quiet_serves rfl rfl rfl

end Handlers

/-- Whether the thread at a place is about to look whether the client is active. -/
def checksNow (session : Session) (place : Nat) : Bool :=
  session.senders[place]?.any fun sender => !sender.checked

/-- The service thread sends only with the token free and answers no text message,
and a thread that holds the token finds the client active. -/
def TokenKept (session : Session) : Event → Prop
  | .callback reason =>
      (callbackSends session.client reason = true → session.client.snd_sem ≠ 0) ∧
        callbackResponds reason = false
  | .heartbeat elapsed =>
      heartbeatSends session.client elapsed = true → session.client.snd_sem ≠ 0
  | .wsclientSend _ => True
  | .senderChecks place => checksNow session place = true → session.client.actived = true
  | .senderQueues _ => True

instance token_kept_decidable (session : Session) : ∀ event, Decidable (TokenKept session event)
  | .callback reason => inferInstanceAs (Decidable ((callbackSends session.client reason = true →
      session.client.snd_sem ≠ 0) ∧ callbackResponds reason = false))
  | .heartbeat elapsed => inferInstanceAs (Decidable
      (heartbeatSends session.client elapsed = true → session.client.snd_sem ≠ 0))
  | .senderChecks place => inferInstanceAs (Decidable
      (checksNow session place = true → session.client.actived = true))
  | .wsclientSend _ | .senderQueues _ => inferInstanceAs (Decidable True)

structure TokenInvariant (session : Session) : Prop where
  goesOn : session.waits = false
  token : session.client.snd_sem + (pending session.client).length + session.senders.length = 1
  order : session.queued = session.written ++ pending session.client
  full : ∀ sender ∈ session.senders, sender.buf ≠ []

section Sessions

variable {session : Session}

/-- The token free means an empty buffer. -/
theorem free_empty (invariant : TokenInvariant session) (free : session.client.snd_sem ≠ 0) :
    session.client.snd_size = 0 := by
  have token := invariant.token
  by_contra some
  rw [pending_of_size (Nat.pos_of_ne_zero some), List.length_singleton] at token
  omega

theorem serve_invariant (invariant : TokenInvariant session) (handler : WsClient → Handled)
    (serves : Serves session.client (handler session.client)) :
    TokenInvariant (session.serve handler) := by
  unfold Session.serve
  rw [if_neg (by simp [invariant.goesOn])]
  constructor
  · exact serves.goesOn
  · have token := invariant.token
    have kept := serves.token
    change (handler session.client).client.snd_sem +
      (pending (handler session.client).client).length + session.senders.length = 1
    omega
  · change session.queued ++ _ = (session.written ++ _) ++ pending _
    rw [invariant.order, List.append_assoc, serves.order, List.append_assoc]
  · exact invariant.full

theorem take_invariant (invariant : TokenInvariant session) (buf : List UInt8) :
    TokenInvariant (session.next (.wsclientSend buf)) := by
  unfold Session.next
  dsimp only
  split_ifs with nothing
  · exact invariant
  · obtain ⟨full, free⟩ := not_or.mp nothing
    have token := invariant.token
    constructor
    · exact invariant.goesOn
    · change session.client.snd_sem - 1 + (pending session.client).length +
        (session.senders ++ [_]).length = 1
      rw [List.length_append, List.length_singleton]
      omega
    · exact invariant.order
    · intro sender member
      rcases List.mem_append.mp member with old | new
      · exact invariant.full sender old
      · rw [List.mem_singleton.mp new]
        exact full

theorem check_invariant (invariant : TokenInvariant session) {place : Nat}
    (active : checksNow session place = true → session.client.actived = true) :
    TokenInvariant (session.next (.senderChecks place)) := by
  unfold Session.next
  dsimp only
  split
  · rename_i buf found
    rw [if_pos (active (by simp [checksNow, found]))]
    have there := List.mem_of_getElem? found
    constructor
    · exact invariant.goesOn
    · change _ + _ + (session.senders.set place _).length = 1
      rw [List.length_set]
      exact invariant.token
    · exact invariant.order
    · intro sender member
      rcases List.mem_or_eq_of_mem_set member with old | new
      · exact invariant.full sender old
      · rw [new]
        change buf ≠ []
        exact invariant.full _ there
  · exact invariant

/-- The message of a thread with the token goes into an empty buffer. -/
theorem queue_invariant (invariant : TokenInvariant session) (place : Nat) :
    TokenInvariant (session.next (.senderQueues place)) := by
  unfold Session.next
  dsimp only
  split
  · rename_i buf found
    have there := List.mem_of_getElem? found
    have nonempty : buf ≠ [] := invariant.full _ there
    have inside : place < session.senders.length := (List.getElem?_eq_some_iff.mp found).1
    have token := invariant.token
    have nothing : pending session.client = [] := by
      apply List.eq_nil_of_length_eq_zero
      omega
    have queued : pending (Session.queueSender session.client buf) = [buf] := by
      rw [pending_of_size (List.length_pos_of_ne_nil nonempty)]
      apply congrArg fun message => [message]
      apply Eq.trans _ (take_bytes_copied session.client.snd_buffer 0 buf)
      apply take_bytes_congr
      intro index _
      rw [advance_apply, Nat.zero_add]
      rfl
    constructor
    · exact invariant.goesOn
    · change session.client.snd_sem + (pending _).length + (session.senders.eraseIdx place).length = 1
      rw [queued, List.length_eraseIdx_of_lt inside, List.length_singleton]
      omega
    · change session.queued ++ [buf] = session.written ++ pending _
      rw [queued, invariant.order, nothing, List.append_nil]
    · intro sender member
      exact invariant.full sender (List.mem_of_mem_eraseIdx member)
  · exact invariant

theorem next_invariant {event : Event} (invariant : TokenInvariant session)
    (kept : TokenKept session event) : TokenInvariant (session.next event) := by
  cases event with
  | callback reason =>
      apply serve_invariant invariant fun client => lwsCallback client reason
      exact callback_serves (free_empty invariant) kept.1 kept.2
  | heartbeat elapsed =>
      apply serve_invariant invariant fun client => loopHeartbeat client elapsed
      exact heartbeat_serves (free_empty invariant) kept
  | wsclientSend buf => exact take_invariant invariant buf
  | senderChecks place => exact check_invariant invariant kept
  | senderQueues place => exact queue_invariant invariant place

theorem create_invariant (access_token : List UInt8) (port ip_val : Nat) :
    TokenInvariant (wsclientCreate access_token port ip_val) where
  goesOn := rfl
  token := rfl
  order := rfl
  full := by
    intro sender member
    contradiction

end Sessions

def clientOf40 : Session := wsclientCreate (List.replicate 40 97) 8080 0

def established : Event := .callback .LWS_CALLBACK_CLIENT_ESTABLISHED
def writeable : Event := .callback .LWS_CALLBACK_CLIENT_WRITEABLE
def closed : Event := .callback .LWS_CALLBACK_CLIENT_CLOSED

end Mgw.WsSendToken

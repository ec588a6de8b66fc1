import Mgw.Dialogue
import Mgw.BigEndian
import Mgw.TransitionRuns

/-!
# The handshake of RTMP

`HandShake` and `SHandShake` on the two ends of a connection that is not encrypted, with
`WriteN`, `ReadN` and `RTMPSockBuf_Fill` below them: `send` and `recv` take as many bytes as
they like, and a socket has room for what is sent. `rtmp.c` has the two functions for a build
without `CRYPTO` and `handshake.h` for one with it. Errors of the sockets are left out.
-/

namespace Mgw.RtmpHandshake

set_option autoImplicit false

open Dialogue (Script Config Steps)
open TransitionRuns (tryRun)

def RTMP_SIG_SIZE : Nat := 1536

def RTMP_BUFFER_CACHE_SIZE : Nat := 16 * 1024

/-- The clock and the random bytes that a signature is made of. -/
structure Seed where
  time : Nat
  random : Vector UInt8 (RTMP_SIG_SIZE - 8)

/-- With `_DEBUG` the random bytes are all the same. -/
def Seed.debug (time : Nat) (byte : UInt8) : Seed where
  time := time
  random := Vector.replicate _ byte

def Seed.signature (seed : Seed) : List UInt8 :=
  BigEndian.beBytes 4 seed.time ++ [0, 0, 0, 0] ++ seed.random.toList

/-- The end of a handshake: whether it returns `TRUE`, the signature of the other side, and
whether the own one came back. -/
structure Outcome where
  success : Bool
  peer : List UInt8
  bMatch : Bool

abbrev Program := Script UInt8 Outcome

/-- The answer is compared with the own signature. -/
def finish (own peer answer : List UInt8) : Program :=
  .done { success := true, peer := peer, bMatch := answer = own }

def failed : Program :=
  .done { success := false, peer := [], bMatch := false }

/-- `HandShake`, which is the same in both builds as long as no SWF is to be verified. The type
of the answer is only logged. -/
def handShake (seed : Seed) : Program :=
  let clientsig := seed.signature
  .write (3 :: clientsig) <|
    .read 1 [] fun _ =>
      .read RTMP_SIG_SIZE [] fun serversig =>
        .write serversig <|
          .read RTMP_SIG_SIZE [] (finish clientsig serversig)

/-- `SHandShake` of `rtmp.c`. -/
def sHandShake (seed : Seed) : Program :=
  let serversig := seed.signature
  .read 1 [] fun type =>
    if type ≠ [3] then failed
    else
      .write (type ++ serversig) <|
        .read RTMP_SIG_SIZE [] fun clientsig =>
          .write clientsig <|
            .read RTMP_SIG_SIZE [] (finish serversig clientsig)

/-- `SHandShake` of `handshake.h`. What it does for a client that encrypts or has a version is
a parameter. -/
def Crypto.sHandShake (fp9HandShake : List UInt8 → List UInt8 → Program) (seed : Seed) : Program :=
  let serversig := seed.signature
  .read 1 [] fun type =>
    .read RTMP_SIG_SIZE [] fun clientsig =>
      if type ≠ [3] ∧ type ≠ [6] ∧ type ≠ [8] then failed
      else if type ≠ [3] ∨ clientsig.getD 4 0 ≠ 0 then fp9HandShake type clientsig
      else
        .write (type ++ serversig) <|
          .write clientsig <|
            .read RTMP_SIG_SIZE [] (finish serversig clientsig)

/-- Without `CRYPTO` or with it. -/
inductive Build where
  | plain
  | crypto (fp9HandShake : List UInt8 → List UInt8 → Program)

def Build.sHandShake : Build → Seed → Program
  | .plain => RtmpHandshake.sHandShake
  | .crypto fp9HandShake => Crypto.sHandShake fp9HandShake

/-- A program with the bytes that `RTMPSockBuf_Fill` fetched before they were asked for. -/
structure Party where
  program : Program
  sb : List UInt8

/-- The two parties with what is in the sockets. -/
structure Connection where
  client : Party
  server : Party
  toServer : List UInt8
  toClient : List UInt8

/-- A round of `WriteN` in which `send` takes so many bytes. -/
def sendSome (party : Party) (count : Nat) : Option (Party × List UInt8) :=
  match party.program with
  | .write bytes next =>
      if 0 < count ∧ count ≤ bytes.length then
        some ({ party with program := (Script.write (bytes.drop count) next).settle },
          bytes.take count)
      else none
  | _ => none

/-- `RTMPSockBuf_Fill` where `recv` gives so many bytes. -/
def fill (socket : List UInt8) (count : Nat) : Option (List UInt8 × List UInt8) :=
  if 0 < count ∧ count ≤ RTMP_BUFFER_CACHE_SIZE - 1 ∧ count ≤ socket.length then
    some (socket.take count, socket.drop count)
  else none

/-- The buffer is filled where there is nothing in it. -/
def buffered (party : Party) (socket : List UInt8) (count : Nat) :
    Option (List UInt8 × List UInt8) :=
  if party.sb = [] then fill socket count else some (party.sb, socket)

/-- A round of `ReadN`. -/
def receiveSome (party : Party) (socket : List UInt8) (count : Nat) :
    Option (Party × List UInt8) :=
  match party.program with
  | .read (n + 1) got next => do
      let (sb, socket) ← buffered party socket count
      let nRead := min (n + 1) sb.length
      some ({ program := (Script.read (n + 1 - nRead) (got ++ sb.take nRead) next).settle
              sb := sb.drop nRead }, socket)
  | _ => none

inductive Event where
  | clientSends (count : Nat)
  | clientReceives (count : Nat)
  | serverSends (count : Nat)
  | serverReceives (count : Nat)

def step (c : Connection) : Event → Option Connection
  | .clientSends count =>
      (sendSome c.client count).map fun (client, sent) =>
        { c with client := client, toServer := c.toServer ++ sent }
  | .clientReceives count =>
      (receiveSome c.client c.toClient count).map fun (client, rest) =>
        { c with client := client, toClient := rest }
  | .serverSends count =>
      (sendSome c.server count).map fun (server, sent) =>
        { c with server := server, toClient := c.toClient ++ sent }
  | .serverReceives count =>
      (receiveSome c.server c.toServer count).map fun (server, rest) =>
        { c with server := server, toServer := rest }

def start (build : Build) (client server : Seed) : Connection where
  client := { program := handShake client, sb := [] }
  server := { program := build.sHandShake server, sb := [] }
  toServer := []
  toClient := []

/-- Each side has the signature of the other and got its own back, and no byte is left over. -/
def shaken (client server : Seed) : Connection where
  client :=
    { program := .done { success := true, peer := server.signature, bMatch := true }, sb := [] }
  server :=
    { program := .done { success := true, peer := client.signature, bMatch := true }, sb := [] }
  toServer := []
  toClient := []

section Views

/-- A connection with the bytes in a buffer before those in its socket. -/
def view (c : Connection) : Config UInt8 Outcome Outcome where
  left := c.client.program
  right := c.server.program
  toRight := c.server.sb ++ c.toServer
  toLeft := c.client.sb ++ c.toClient

variable {party after : Party} {c next : Connection}

theorem take_some {bytes : List UInt8} {count : Nat} (positive : 0 < count)
    (inside : count ≤ bytes.length) : bytes.take count ≠ [] := by
  have length : (bytes.take count).length = count := by
    rw [List.length_take, Nat.min_eq_left inside]
  exact List.ne_nil_of_length_pos (by omega)

theorem send_some_cases {count : Nat} {sent : List UInt8}
    (sends : sendSome party count = some (after, sent)) :
    ∃ more rest, sent ≠ [] ∧ party.program = (Script.write (sent ++ more) rest).settle ∧
      after = { party with program := (Script.write more rest).settle } := by
  unfold sendSome at sends
  split at sends
  · rename_i bytes rest program
    split at sends
    · rename_i bounds
      cases sends
      have some_ : bytes.take count ≠ [] := take_some bounds.1 bounds.2
      refine ⟨bytes.drop count, rest, some_, ?_, rfl⟩
      rw [List.take_append_drop, program, Script.settle_write]
      rintro rfl
      exact some_ List.take_nil
    · cases sends
  · cases sends

theorem fill_cases {socket sb rest : List UInt8} {count : Nat}
    (fills : fill socket count = some (sb, rest)) : sb ≠ [] ∧ socket = sb ++ rest := by
  unfold fill at fills
  split at fills
  · rename_i bounds
    cases fills
    exact ⟨take_some bounds.1 bounds.2.2, (List.take_append_drop count socket).symm⟩
  · cases fills

theorem buffered_cases {socket sb rest : List UInt8} {count : Nat}
    (fetched : buffered party socket count = some (sb, rest)) :
    sb ≠ [] ∧ party.sb ++ socket = sb ++ rest := by
  unfold buffered at fetched
  split at fetched
  · rename_i empty
    rw [empty, List.nil_append]
    exact fill_cases fetched
  · rename_i some_
    cases fetched
    exact ⟨some_, rfl⟩

theorem receive_some_cases {socket rest : List UInt8} {count : Nat}
    (receives : receiveSome party socket count = some (after, rest)) :
    ∃ bytes got more then_, bytes ≠ [] ∧
      party.program = (Script.read (bytes.length + more) got then_).settle ∧
      after.program = (Script.read more (got ++ bytes) then_).settle ∧
      party.sb ++ socket = bytes ++ (after.sb ++ rest) := by
  unfold receiveSome at receives
  split at receives
  · rename_i n got then_ program
    obtain ⟨⟨sb, left⟩, filled, copied⟩ := Option.bind_eq_some_iff.mp receives
    obtain ⟨some_, same⟩ := buffered_cases filled
    cases copied
    have positive : 0 < sb.length := List.length_pos_of_ne_nil some_
    have length : (sb.take (min (n + 1) sb.length)).length = min (n + 1) sb.length := by
      rw [List.length_take]
      omega
    refine ⟨sb.take (min (n + 1) sb.length), got, n + 1 - min (n + 1) sb.length, then_, ?_, ?_,
      rfl, ?_⟩
    · apply List.ne_nil_of_length_pos
      omega
    · rw [program, length, Nat.add_sub_cancel' (Nat.min_le_left _ _)]
      rfl
    · rw [same, ← List.append_assoc, List.take_append_drop]
  · cases receives

/-- A round of a call is some steps of a byte. -/
theorem step_view {event : Event} (goes : step c event = some next) :
    ∃ count, 0 < count ∧ Steps Dialogue.Step count (view c) (view next) := by
  cases event with
  | clientSends count =>
    obtain ⟨⟨client, sent⟩, sends, rfl⟩ := Option.map_eq_some_iff.mp goes
    obtain ⟨more, rest, some_, program, rfl⟩ := send_some_cases sends
    refine ⟨sent.length, List.length_pos_of_ne_nil some_, ?_⟩
    simp only [view, program, ← List.append_assoc]
    exact Dialogue.left_writes sent more rest
  | clientReceives count =>
    obtain ⟨⟨client, left⟩, receives, rfl⟩ := Option.map_eq_some_iff.mp goes
    obtain ⟨bytes, got, more, rest, some_, program, after, same⟩ := receive_some_cases receives
    refine ⟨bytes.length, List.length_pos_of_ne_nil some_, ?_⟩
    simp only [view, program, after, same]
    exact Dialogue.left_reads bytes got more rest
  | serverSends count =>
    obtain ⟨⟨server, sent⟩, sends, rfl⟩ := Option.map_eq_some_iff.mp goes
    obtain ⟨more, rest, some_, program, rfl⟩ := send_some_cases sends
    refine ⟨sent.length, List.length_pos_of_ne_nil some_, ?_⟩
    simp only [view, program, ← List.append_assoc]
    exact Dialogue.right_writes sent more rest
  | serverReceives count =>
    obtain ⟨⟨server, left⟩, receives, rfl⟩ := Option.map_eq_some_iff.mp goes
    obtain ⟨bytes, got, more, rest, some_, program, after, same⟩ := receive_some_cases receives
    refine ⟨bytes.length, List.length_pos_of_ne_nil some_, ?_⟩
    simp only [view, program, after, same]
    exact Dialogue.right_reads bytes got more rest

theorem run_view {events : List Event} (runs : tryRun step c events = some next) :
    ∃ count, events.length ≤ count ∧ Steps Dialogue.Step count (view c) (view next) := by
  induction events generalizing c with
  | nil =>
    cases runs
    exact ⟨0, Nat.le_refl 0, .refl _⟩
  | cons event events ih =>
    obtain ⟨between, goes, later⟩ := Option.bind_eq_some_iff.mp runs
    obtain ⟨first, positive, steps⟩ := step_view goes
    obtain ⟨rest, bound, more⟩ := ih later
    refine ⟨first + rest, ?_, steps.trans more⟩
    rw [List.length_cons]
    omega

theorem can_send {offered : UInt8 × Program} (offers : party.program.offer = some offered) :
    ∃ result, sendSome party 1 = some result := by
  unfold sendSome
  cases program : party.program with
  | done result =>
    rw [program] at offers
    cases offers
  | read count got then_ =>
    rw [program] at offers
    cases offers
  | write bytes then_ =>
    cases bytes with
    | nil =>
      rw [program] at offers
      cases offers
    | cons byte bytes => exact ⟨_, if_pos ⟨by decide, by simp⟩⟩

theorem can_receive {accepted : UInt8 → Program} {socket rest : List UInt8} {byte : UInt8}
    (accepts : party.program.accept = some accepted) (waits : party.sb ++ socket = byte :: rest) :
    ∃ result, receiveSome party socket 1 = some result := by
  have fetches : ∃ sb left, buffered party socket 1 = some (sb, left) := by
    unfold buffered
    by_cases empty : party.sb = []
    · rw [empty, List.nil_append] at waits
      rw [if_pos empty, waits]
      exact ⟨_, _, if_pos ⟨by decide, by decide, by simp⟩⟩
    · exact ⟨_, _, if_neg empty⟩
  obtain ⟨sb, left, fetched⟩ := fetches
  unfold receiveSome
  cases program : party.program with
  | done result =>
    rw [program] at accepts
    cases accepts
  | write bytes then_ =>
    rw [program] at accepts
    cases accepts
  | read count got then_ =>
    cases count with
    | zero =>
      rw [program] at accepts
      cases accepts
    | succ count => exact ⟨_, by rw [fetched]; rfl⟩

/-- Where a byte could go, a round of a call could. -/
theorem round_of_step {after : Config UInt8 Outcome Outcome} (goes : Dialogue.Step (view c) after) :
    ∃ event next, step c event = some next := by
  rcases goes.enabled with ⟨_, offers⟩ | ⟨_, _, _, accepts, waits⟩ | ⟨_, offers⟩ |
    ⟨_, _, _, accepts, waits⟩
  · obtain ⟨result, sends⟩ := can_send offers
    exact ⟨.clientSends 1, _, Option.map_eq_some_iff.mpr ⟨result, sends, rfl⟩⟩
  · obtain ⟨result, receives⟩ := can_receive accepts waits
    exact ⟨.clientReceives 1, _, Option.map_eq_some_iff.mpr ⟨result, receives, rfl⟩⟩
  · obtain ⟨result, sends⟩ := can_send offers
    exact ⟨.serverSends 1, _, Option.map_eq_some_iff.mpr ⟨result, sends, rfl⟩⟩
  · obtain ⟨result, receives⟩ := can_receive accepts waits
    exact ⟨.serverReceives 1, _, Option.map_eq_some_iff.mpr ⟨result, receives, rfl⟩⟩

end Views

section Runs

variable {build : Build} {client server : Seed}

theorem signature_length (seed : Seed) : seed.signature.length = RTMP_SIG_SIZE := by
  have random : seed.random.toList.length = RTMP_SIG_SIZE - 8 := Vector.length_toList
  simp only [Seed.signature, List.length_append, BigEndian.be_bytes_length, random]
  rfl

theorem typed_length (seed : Seed) : ([3] ++ seed.signature).length = RTMP_SIG_SIZE + 1 := by
  rw [List.singleton_append, List.length_cons, signature_length]

/-- A signature has no version. -/
theorem signature_version (seed : Seed) : seed.signature.getD 4 0 = 0 := rfl

theorem finish_own (own peer : List UInt8) :
    finish own peer own = .done { success := true, peer := peer, bMatch := true } := by
  simp [finish]

theorem view_shaken : view (shaken client server) =
    ⟨finish client.signature server.signature client.signature,
      finish server.signature client.signature server.signature, [], []⟩ := by
  rw [finish_own, finish_own]
  rfl

/-- The bytes that are written and read. -/
def traffic : Nat := 4 * (1 + 2 * RTMP_SIG_SIZE)

/-- One order that the handshake comes to its end in. -/
theorem plain_order (client server : Seed) :
    Steps Dialogue.Step traffic (view (start .plain client server))
      (view (shaken client server)) := by
  have clientSize := signature_length client
  have serverSize := signature_length server
  have typeSize : [(3 : UInt8)].length = 1 := rfl
  have count : traffic = RTMP_SIG_SIZE + 1 + (1 + (RTMP_SIG_SIZE + 1 + (1 + (RTMP_SIG_SIZE +
      (RTMP_SIG_SIZE + (RTMP_SIG_SIZE + (RTMP_SIG_SIZE +
        (RTMP_SIG_SIZE + RTMP_SIG_SIZE)))))))) := rfl
  rw [count, view_shaken]
  refine (Dialogue.left_writes_all (typed_length client) _).trans ?_
  refine (Dialogue.right_reads_all typeSize _).trans ?_
  rw [if_neg (not_not_intro rfl)]
  refine (Dialogue.right_writes_all (typed_length server) _).trans ?_
  refine (Dialogue.left_reads_all typeSize _).trans ?_
  refine (Dialogue.left_reads_rest serverSize _).trans ?_
  -- the client sends back what it read, then the server, and each reads its own
  refine (Dialogue.left_writes_all serverSize _).trans ?_
  refine (Dialogue.right_reads_all clientSize _).trans ?_
  refine (Dialogue.right_writes_all clientSize _).trans ?_
  refine (Dialogue.left_reads_rest clientSize _).trans ?_
  exact Dialogue.right_reads_rest serverSize _

theorem crypto_order (fp9HandShake : List UInt8 → List UInt8 → Program) (client server : Seed) :
    Steps Dialogue.Step traffic (view (start (.crypto fp9HandShake) client server))
      (view (shaken client server)) := by
  have clientSize := signature_length client
  have serverSize := signature_length server
  have typeSize : [(3 : UInt8)].length = 1 := rfl
  have noVersion : ¬([(3 : UInt8)] ≠ [3] ∨ client.signature.getD 4 0 ≠ 0) := by
    rintro (other | version)
    · exact other rfl
    · exact version (signature_version client)
  have count : traffic = RTMP_SIG_SIZE + 1 + (1 + (RTMP_SIG_SIZE + (RTMP_SIG_SIZE + 1 +
      (RTMP_SIG_SIZE + (1 + (RTMP_SIG_SIZE + (RTMP_SIG_SIZE +
        (RTMP_SIG_SIZE + RTMP_SIG_SIZE)))))))) := rfl
  rw [count, view_shaken]
  refine (Dialogue.left_writes_all (typed_length client) _).trans ?_
  refine (Dialogue.right_reads_all typeSize _).trans ?_
  refine (Dialogue.right_reads_rest clientSize _).trans ?_
  -- the whole signature is read before the answer, which goes out with it
  rw [if_neg (fun unknown => unknown.1 rfl), if_neg noVersion]
  refine (Dialogue.right_writes_all (typed_length server) _).trans ?_
  refine (Dialogue.right_writes_all clientSize _).trans ?_
  refine (Dialogue.left_reads_all typeSize _).trans ?_
  refine (Dialogue.left_reads_all serverSize _).trans ?_
  refine (Dialogue.left_writes_all serverSize _).trans ?_
  refine (Dialogue.left_reads_rest clientSize _).trans ?_
  exact Dialogue.right_reads_rest serverSize _

theorem handshake_order (build : Build) (client server : Seed) :
    Steps Dialogue.Step traffic (view (start build client server))
      (view (shaken client server)) := by
  cases build with
  | plain => exact plain_order client server
  | crypto fp9HandShake => exact crypto_order fp9HandShake client server

theorem shaken_ends (client server : Seed) (next : Config UInt8 Outcome Outcome) :
    ¬Dialogue.Step (view (shaken client server)) next := by
  intro goes
  rcases goes.enabled with ⟨_, offers⟩ | ⟨_, _, _, accepts, _⟩ | ⟨_, offers⟩ | ⟨_, _, _, accepts, _⟩
  · cases offers
  · cases accepts
  · cases offers
  · cases accepts

theorem shaken_of_view {c : Connection} (seen : view c = view (shaken client server)) :
    c = shaken client server := by
  obtain ⟨⟨clientProgram, clientSb⟩, ⟨serverProgram, serverSb⟩, toServer, toClient⟩ := c
  have left : clientProgram = _ := congrArg Config.left seen
  have right : serverProgram = _ := congrArg Config.right seen
  have noneToRight : serverSb ++ toServer = [] := congrArg Config.toRight seen
  have noneToLeft : clientSb ++ toClient = [] := congrArg Config.toLeft seen
  obtain ⟨rfl, rfl⟩ := List.append_eq_nil_iff.mp noneToRight
  obtain ⟨rfl, rfl⟩ := List.append_eq_nil_iff.mp noneToLeft
  rw [left, right]
  rfl

/-- Each round is a step towards the end. -/
theorem goes_on {reached : Connection} {count : Nat}
    (ahead : Steps Dialogue.Step count (view reached) (view (shaken client server))) :
    ∃ more, tryRun step reached more = some (shaken client server) := by
  induction count using Nat.strong_induction_on generalizing reached with
  | h count ih =>
    cases count with
    | zero =>
      have finished : reached = shaken client server := shaken_of_view ahead.zero
      exact ⟨[], by rw [finished]; rfl⟩
    | succ count =>
      obtain ⟨_, one, _⟩ := ahead.succ
      obtain ⟨event, next, goes⟩ := round_of_step one
      obtain ⟨bytes, positive, steps⟩ := step_view goes
      obtain ⟨_, rest⟩ :=
        Dialogue.run_towards Dialogue.step_diamond (shaken_ends client server) ahead steps
      obtain ⟨more, later⟩ := ih (count + 1 - bytes) (by omega) rest
      exact ⟨event :: more, by rw [TransitionRuns.try_run_cons goes, later]⟩

theorem shaken_stops (event : Event) : step (shaken client server) event = none := by
  cases goes : step (shaken client server) event with
  | none => rfl
  | some next =>
    obtain ⟨count, positive, steps⟩ := step_view goes
    cases count with
    | zero => exact absurd positive (Nat.lt_irrefl 0)
    | succ count =>
      obtain ⟨_, one, _⟩ := steps.succ
      exact absurd one (shaken_ends client server _)

/-- In whatever order the two sides come to their calls, and however many bytes each call
takes, the handshake is over after so many rounds at most, from everywhere on the way its end
can be reached, and it stops nowhere else. -/
theorem handshakes_complete {events : List Event} {reached : Connection}
    (runs : tryRun step (start build client server) events = some reached) :
    events.length ≤ traffic ∧
      (∃ more, tryRun step reached more = some (shaken client server)) ∧
      ((∀ event, step reached event = none) ↔ reached = shaken client server) := by
  obtain ⟨count, bound, steps⟩ := run_view runs
  obtain ⟨within, ahead⟩ := Dialogue.run_towards Dialogue.step_diamond
    (shaken_ends client server) (handshake_order build client server) steps
  obtain ⟨more, later⟩ := goes_on ahead
  refine ⟨Nat.le_trans bound within, ⟨more, later⟩, ?_, ?_⟩
  · intro stuck
    cases more with
    | nil =>
      cases later
      rfl
    | cons event more =>
      obtain ⟨next, goes, _⟩ := Option.bind_eq_some_iff.mp later
      cases (stuck event).symm.trans goes
  · rintro rfl event
    exact shaken_stops event

/-- The type and a byte of the time go out, and the server takes the type. -/
theorem first_rounds (client server : Seed) : ∃ reached,
    tryRun step (start (.crypto fun _ _ => failed) client server)
      [.clientSends 2, .serverReceives 1] = some reached :=
  ⟨_, rfl⟩

theorem handshakes_complete_debug : ∃ reached,
    tryRun step (start (.crypto fun _ _ => failed) (.debug 1 0) (.debug 2 0))
        [.clientSends 2, .serverReceives 1] = some reached ∧
      [Event.clientSends 2, .serverReceives 1].length ≤ traffic ∧
      (∃ more, tryRun step reached more = some (shaken (.debug 1 0) (.debug 2 0))) ∧
      ((∀ event, step reached event = none) ↔ reached = shaken (.debug 1 0) (.debug 2 0)) := by
  obtain ⟨reached, runs⟩ := first_rounds (.debug 1 0) (.debug 2 0)
  exact ⟨reached, runs, handshakes_complete runs⟩

end Runs

end Mgw.RtmpHandshake

import Mathlib.Data.List.Perm.Subperm
import Mgw.Device
import Mgw.TransitionRuns

/-!
# The stream list of a device

`mgw_device_add_stream`, `mgw_device_add_stream_obj` and `mgw_device_release_stream` of
`mgw-device.c` on lists that run through the contexts of the streams. A stream that is
given to `mgw_device_add_stream_obj` is on a list already, where `mgw_stream_create` has
put it; it is not taken off that list.
-/

namespace Mgw.DeviceStreams

open IntrusiveList TransitionRuns
open Device (MGW_ERR_EPARAM MGW_ERR_ECREATE StreamSettings fillStream mgwDevErr)
open StreamOutputs (MGW_ERR_SUCCESS MGW_ERR_EXISTED Progress dupName)

set_option autoImplicit false

/-- The list of the device, the private one and those of the other devices. -/
inductive StreamList where
  | stream_list | priv_streams_list | elsewhere (device : Nat)
  deriving DecidableEq

inductive Cell where
  | head (list : StreamList)
  | next (address : Nat)
  deriving DecidableEq

def layout : Layout StreamList Nat Cell where
  head := .head
  next := .next
  head_injective := fun _ _ => Cell.head.inj
  next_injective := fun _ _ => Cell.next.inj
  head_ne_next := fun _ _ => Cell.noConfusion

structure StreamContext where
  obj_name : List UInt8
  is_private : Bool
  refs : Int
  mutex : Option StreamList
  deriving DecidableEq

/-- The streams by their addresses, of which those from `allocated` on are not in use. -/
structure Streams where
  links : Heap Nat Cell
  stream : Nat → Option StreamContext
  allocated : Nat

structure Outcome where
  streams : Streams
  progress : Progress

section Context

variable (streams : Streams) (address : Nat)

def Streams.modify (change : StreamContext → StreamContext) : Streams :=
  { streams with stream :=
      Function.update streams.stream address ((streams.stream address).map change) }

def mgwContextDataInsert (list : StreamList) : Streams :=
  { streams.modify address fun stream => { stream with mutex := some list } with
    links := insert layout streams.links (.head list) address }

def mgwContextDataRemove : Streams :=
  match (streams.stream address).bind StreamContext.mutex with
  | none => streams
  | some _ =>
      { streams.modify address fun stream => { stream with mutex := none } with
        links := remove layout streams.links address }

/-- `mgw_context_data_free` and the release of the memory. -/
def mgwContextDataFree : Streams :=
  let removed := mgwContextDataRemove streams address
  { removed with stream := Function.update removed.stream address none }

/-- The name that a stream can be found by. -/
def publicName : Option (List UInt8) :=
  (streams.stream address).bind fun stream =>
    if stream.is_private then none else some stream.obj_name

/-- `none` where the walk does not end. -/
def mgwGetWeakStreamByName (name : List UInt8) : Option (Option Nat) :=
  search layout streams.links (fun address => publicName streams address = some name)
    streams.allocated (streams.links.pointee (.head .stream_list))

/-- The new stream as `mgw_stream_init_context` leaves it. -/
def newStream (name : List UInt8) (settings : StreamSettings) : Streams :=
  let stream : StreamContext :=
    { obj_name := dupName name settings.unnamed_index
      is_private := settings.is_private
      refs := 0
      mutex := none }
  { streams with
    stream := Function.update streams.stream streams.allocated (some stream)
    allocated := streams.allocated + 1 }

/-- `mgw_stream_create` for a device. -/
def mgwStreamCreate (name : List UInt8) (settings : StreamSettings) : Streams :=
  mgwContextDataInsert (newStream streams name settings) streams.allocated
    (if settings.is_private then .priv_streams_list else .stream_list)

/-- `ends` is whether the release of the source and the outputs of the stream, which
comes first, comes to an end. -/
def mgwStreamRelease (ends : Bool) : Outcome :=
  match streams.stream address with
  | none => { streams := streams, progress := .aborted }
  | some stream =>
      let released := streams.modify address fun stream => { stream with refs := stream.refs - 1 }
      if stream.refs - 1 = -1 then
        if ends then
          { streams := mgwContextDataFree released address, progress := .returned 0 }
        else { streams := released, progress := .waiting }
      else { streams := released, progress := .returned 0 }

end Context

section Device

variable (streams : Streams)

/-- The source and the outputs are added to the stream when it is on its list. -/
def mgwDeviceAddStream (name : Option (List UInt8)) (settings : Option StreamSettings) : Outcome :=
  match name, settings with
  | some name, some settings =>
      if settings.created then
        { streams := mgwStreamCreate streams name settings
          progress := (fillStream StreamOutputs.mgwStreamCreate.stream settings).progress }
      else { streams := streams, progress := .returned (mgwDevErr MGW_ERR_ECREATE) }
  | _, _ => { streams := streams, progress := .returned (mgwDevErr MGW_ERR_EPARAM) }

/-- `none` where the walk does not end, or the stream has been freed. -/
def mgwDeviceAddStreamObj (address : Option Nat) : Option Outcome :=
  match address with
  | none => some { streams := streams, progress := .returned (mgwDevErr MGW_ERR_EPARAM) }
  | some address => do
      let stream ← streams.stream address
      match ← mgwGetWeakStreamByName streams stream.obj_name with
      | some _ => return { streams := streams, progress := .returned (mgwDevErr MGW_ERR_EXISTED) }
      | none =>
          return {
            streams := mgwContextDataInsert streams address .stream_list
            progress := .returned (mgwDevErr MGW_ERR_SUCCESS) }

def mgwDeviceReleaseStream (name : Option (List UInt8)) (ends : Bool) : Option Outcome :=
  match name with
  | none => some { streams := streams, progress := .returned 0 }
  | some name =>
      (mgwGetWeakStreamByName streams name).map fun found =>
        match found with
        | none => { streams := streams, progress := .returned 0 }
        | some address => mgwStreamRelease streams address ends

end Device

inductive Call where
  | addStream (name : Option (List UInt8)) (settings : Option StreamSettings)
  | addStreamObj (address : Option Nat)
  | releaseStream (name : Option (List UInt8)) (ends : Bool)

def execute (streams : Streams) : Call → Option Outcome
  | .addStream name settings => some (mgwDeviceAddStream streams name settings)
  | .addStreamObj address => mgwDeviceAddStreamObj streams address
  | .releaseStream name ends => mgwDeviceReleaseStream streams name ends

/-- A call that does not come back leaves its streams to the other threads. -/
def next (streams : Streams) (call : Call) : Option Streams :=
  (execute streams call).map Outcome.streams

/-- The streams that the walk along the list of the device meets. -/
def streamList (streams : Streams) : List Nat :=
  walk layout streams.links streams.allocated (streams.links.pointee (.head .stream_list))

def publicNames (streams : Streams) : List (List UInt8) :=
  (streamList streams).filterMap (publicName streams)

/-- The list is well linked and has no name twice. -/
structure NamesUnique (streams : Streams) : Prop where
  linked : Chain layout streams.links (.head .stream_list) (streamList streams)
  unique : (publicNames streams).Nodup

instance (streams : Streams) : Decidable (NamesUnique streams) :=
  decidable_of_iff (Chain layout streams.links (.head .stream_list) (streamList streams) ∧
      (publicNames streams).Nodup)
    ⟨fun both => ⟨both.1, both.2⟩, fun names => ⟨names.linked, names.unique⟩⟩

/-- A new public stream has a name that is not on the list yet; a new private one does
not come before a stream of the device; a private stream of the device is not added
again. -/
def Keeps (streams : Streams) : Call → Prop
  | .addStream (some name) (some settings) =>
      settings.created = true →
        if settings.is_private then
          ∀ first ∈ streams.links.pointee (.head .priv_streams_list), first ∉ streamList streams
        else dupName name settings.unnamed_index ∉ publicNames streams
  | .addStream _ _ => True
  | .addStreamObj (some address) =>
      ∃ stream, streams.stream address = some stream ∧
        (address ∈ streamList streams → stream.obj_name ∈ publicNames streams)
  | .addStreamObj none => True
  | .releaseStream _ _ => True

instance keeps_decidable (streams : Streams) : ∀ call, Decidable (Keeps streams call)
  | .addStream (some name) (some settings) =>
      inferInstanceAs (Decidable (settings.created = true →
        if settings.is_private then
          ∀ first ∈ streams.links.pointee (.head .priv_streams_list), first ∉ streamList streams
        else dupName name settings.unnamed_index ∉ publicNames streams))
  | .addStream none _ => inferInstanceAs (Decidable True)
  | .addStream (some _) none => inferInstanceAs (Decidable True)
  | .addStreamObj (some address) =>
      inferInstanceAs (Decidable (∃ stream ∈ streams.stream address,
        address ∈ streamList streams → stream.obj_name ∈ publicNames streams))
  | .addStreamObj none => inferInstanceAs (Decidable True)
  | .releaseStream _ _ => inferInstanceAs (Decidable True)

/-- A device without streams, among whatever other streams there are. -/
structure NewDevice where
  streams : Streams
  empty : streams.links.pointee (.head .stream_list) = none
  below : ∀ address, streams.stream address ≠ none → address < streams.allocated

end Mgw.DeviceStreams

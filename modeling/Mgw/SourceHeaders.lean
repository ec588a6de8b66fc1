import Mgw.AacHeader
import Mgw.AvcPacket
import Mgw.BlockHeap

/-!
# The header blocks of sources

A source keeps its two headers in growable buffers. `get_video_header` and
`get_audio_header` hand out the buffer's own block for a private source and a fresh
copy for the source of a plugin; the RTMP output releases what it was handed in both
cases. A release of a released block, or an access to one, has no result.
-/

namespace Mgw.SourceHeaders

open AacHeader AvcPacket BlockHeap

set_option autoImplicit false

/-- `struct bmem`. -/
structure Bmem where
  array : Option Nat
  len : Nat
  deriving DecidableEq

def Bmem.init : Bmem where
  array := none
  len := 0

section Buffer

variable (heap : Heap) (mem : Bmem)

/-- The array keeps its value. -/
def bmemFree : Option (Heap × Bmem) :=
  if mem.array.isNone then some (heap, mem)
  else (heap.free mem.array).map fun freed => (freed, { mem with len := 0 })

def ensureBmemCapacity (new_size : Nat) : Option (Heap × Bmem) :=
  if new_size ≤ mem.len then
    (heap.write mem.array (List.replicate mem.len 0)).map fun cleared => (cleared, mem)
  else
    (heap.realloc mem.array new_size).map fun grown =>
      (grown, { array := some (grown.count - 1), len := new_size })

/-- `array` are the bytes to be copied, none for a null pointer or a length of zero. -/
def bmemCopy (array : List UInt8) : Option (Heap × Bmem) :=
  if array = [] then bmemFree heap mem
  else
    (ensureBmemCapacity heap mem array.length).bind fun ensured =>
      (ensured.1.write ensured.2.array array).map fun copied =>
        (copied, { ensured.2 with len := array.length })

end Buffer

/-- `header` holds `video_header` and `audio_header`. A source that is not private
is one of a plugin, with its `info_impl`. -/
structure MgwSource where
  is_private : Bool
  header : EncoderType → Bmem

/-- What the RTMP output writes for a header. -/
structure SentHeader where
  source : Nat
  type : EncoderType
  data : List UInt8
  deriving DecidableEq

structure State where
  heap : Heap
  /-- The sources that are not destroyed, by the order of their creation. -/
  sources : Nat → Option MgwSource
  sourceCount : Nat
  sent : List SentHeader

def initial : State where
  heap := Heap.empty
  sources := fun _ => none
  sourceCount := 0
  sent := []

/-- The arguments of `mgw_source_set_audio_extra_data`, also as `meta` settings. -/
structure AudioMeta where
  channels : UInt8
  samplesize : UInt8
  samplerate : UInt32

def AudioMeta.header (audio : AudioMeta) : List UInt8 :=
  mgwGetAaclcFlvHeader audio.channels audio.samplesize audio.samplerate

/-- A header pointer with the size beside it, and the heap behind the call that set them. -/
structure Fetched where
  heap : Heap
  header : Option Nat
  size : Nat

/-- The plugin's `get_extra_data`: a fresh block, or 0 with the pointer left as it is. -/
def getExtraData (heap : Heap) (header : Option Nat) (extra : Option (List UInt8)) : Fetched :=
  match extra with
  | none => { heap := heap, header := header, size := 0 }
  | some bytes =>
      { heap := heap.malloc bytes, header := some heap.count, size := bytes.length }

/-- `bmem_copy(&mem, header, size); bfree(header)`. -/
def keepHeader (fetched : Fetched) (mem : Bmem) : Option (Heap × Bmem) := do
  let bytes ← fetched.heap.read fetched.header fetched.size
  let copied ← bmemCopy fetched.heap mem bytes
  let freed ← copied.1.free fetched.header
  return (freed, copied.2)

namespace State

variable (state : State)

def setSource (source : Nat) (contents : Option MgwSource) : State :=
  { state with sources := Function.update state.sources source contents }

def setHeader (index : Nat) (source : MgwSource) (type : EncoderType) (result : Heap × Bmem) :
    State :=
  { state.setSource index
      (some { source with header := Function.update source.header type result.2 }) with
    heap := result.1 }

/-- The audio header is built in a block of its own, copied and released. -/
def mgwSourceSetAudioExtraData (index : Nat) (source : MgwSource) (audio : AudioMeta) :
    Option State :=
  if source.is_private then
    (keepHeader (getExtraData state.heap none (some audio.header)) (source.header .audio)).map
      (state.setHeader index source .audio)
  else some state

def mgwSourceSetVideoExtraData (index : Nat) (source : MgwSource) (extra_data : List UInt8) :
    Option State :=
  if source.is_private then
    (bmemCopy state.heap (source.header .video) extra_data).map
      (state.setHeader index source .video)
  else some state

/-- A private source sets its audio header when there are `meta` settings. -/
def createPrivate (audio : Option AudioMeta) : Option State :=
  let source : MgwSource := { is_private := true, header := fun _ => Bmem.init }
  let created : State :=
    { state.setSource state.sourceCount (some source) with sourceCount := state.sourceCount + 1 }
  match audio with
  | none => some created
  | some audio => created.mgwSourceSetAudioExtraData state.sourceCount source audio

/-- Both headers of a plugin go through one pointer. -/
def createPlugin (video audio : Option (List UInt8)) : Option State := do
  let fetchedVideo := getExtraData state.heap none video
  let keptVideo ← keepHeader fetchedVideo Bmem.init
  let fetchedAudio := getExtraData keptVideo.1 fetchedVideo.header audio
  let keptAudio ← keepHeader fetchedAudio Bmem.init
  let header : EncoderType → Bmem := fun type =>
    if type = .video then keptVideo.2 else keptAudio.2
  return { state.setSource state.sourceCount (some { is_private := false, header := header }) with
    heap := keptAudio.1
    sourceCount := state.sourceCount + 1 }

def mgwSourceDestroy (index : Nat) (source : MgwSource) : Option State := do
  let audio ← bmemFree state.heap (source.header .audio)
  let video ← bmemFree audio.1 (source.header .video)
  return { state.setSource index none with heap := video.1 }

/-- `get_header_internal`, into parameters without a pointer. A plugin without the
stream gives no settings either, so that `send_audio_header` comes here without
a pointer too. -/
def getHeaderInternal (source : MgwSource) (type : EncoderType) (extra : Option (List UInt8)) :
    Fetched :=
  if source.is_private then
    { heap := state.heap
      header := (source.header type).array
      size := (source.header type).len }
  else getExtraData state.heap none extra

/-- The end of `send_packet_internal` for a header; `dropped` is a connection that
fails before the write. -/
def sendHeader (index : Nat) (type : EncoderType) (heap : Heap) (data : List UInt8)
    (dropped : Bool) : State :=
  { state with
    heap := heap
    sent := state.sent ++ if dropped then [] else [{ source := index, type := type, data := data }] }

/-- The copy behind the two codes is released by `send_packet_internal`. -/
def sendAudioHeader (index : Nat) (source : MgwSource) (settings : EncoderSettings)
    (extra : Option (List UInt8)) (dropped : Bool) : Option State := do
  let params := state.getHeaderInternal source .audio extra
  let out ← params.heap.read params.header params.size
  let data := settings.code :: 0x00 :: out
  let copied := params.heap.malloc data
  let freed ← copied.free params.header
  let done ← freed.free (some params.heap.count)
  return state.sendHeader index .audio done data dropped

def sendVideoHeader (index : Nat) (source : MgwSource) (extra : Option (List UInt8))
    (dropped : Bool) : Option State := do
  let params := state.getHeaderInternal source .video extra
  let data ← if dropped then some [] else params.heap.read params.header params.size
  let done ← params.heap.free params.header
  return state.sendHeader index .video done data dropped

end State

/-- The calls. Sources are named by the order of their creation; a call for a
destroyed one, or for one that never was, is none. -/
inductive Action where
  | createPrivate (audio : Option AudioMeta)
  | createPlugin (video audio : Option (List UInt8))
  | setVideo (source : Nat) (extra_data : List UInt8)
  | setAudio (source : Nat) (audio : AudioMeta)
  | sendAudio (source : Nat) (settings : EncoderSettings) (extra : Option (List UInt8))
      (dropped : Bool)
  | sendVideo (source : Nat) (extra : Option (List UInt8)) (dropped : Bool)
  | destroy (source : Nat)

/-- A call for a source that is there. -/
def withSource (state : State) (index : Nat) (call : MgwSource → Option State) : Option State :=
  match state.sources index with
  | none => some state
  | some source => call source

def next (state : State) : Action → Option State
  | .createPrivate audio => state.createPrivate audio
  | .createPlugin video audio => state.createPlugin video audio
  | .setVideo index extra_data =>
      withSource state index fun source => state.mgwSourceSetVideoExtraData index source extra_data
  | .setAudio index audio =>
      withSource state index fun source => state.mgwSourceSetAudioExtraData index source audio
  | .sendAudio index settings extra dropped =>
      withSource state index fun source =>
        state.sendAudioHeader index source settings extra dropped
  | .sendVideo index extra dropped =>
      withSource state index fun source => state.sendVideoHeader index source extra dropped
  | .destroy index => withSource state index fun source => state.mgwSourceDestroy index source

end Mgw.SourceHeaders

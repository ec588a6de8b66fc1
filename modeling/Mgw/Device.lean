import Mgw.StreamOutputs

/-!
# Devices and the requests of the application

`mgw-device.c` and the requests of `mgw-app.cc`. A device is the list of its
streams, the newest first; each stream has the outputs of its own. The settings of a
request are shared objects: what is written into one is there for the next reader.
-/

namespace Mgw.Device

open StreamOutputs

set_option autoImplicit false

def MGW_ERR_EPARAM : Int := 1
def MGW_ERR_NOT_EXIST : Int := 4
def MGW_ERR_ECREATE : Int := 5

def mgwDevErr (code : Int) : Int := 0x04000000 + code % 65536

def MSG_STATUS_SUCCESS : Int := 0
def MSG_STATUS_PARMER_INVALID : Int := -1
def MSG_STATUS_NODEVICE : Int := -10

/-- Conversions to `int16_t` and to `int`. -/
def int16 (value : Int) : Int := value.bmod 65536

def int32 (value : Int) : Int := value.bmod 4294967296

structure NamedStream where
  obj_name : List UInt8
  stream : MgwStream

structure MgwDevice where
  obj_name : List UInt8
  stream_list : List NamedStream

structure MgwCore where
  devices_list : List MgwDevice
  priv_streams_list : List NamedStream

/-- `get_context_by_name` on a list of contexts that none leaves during the walk:
the first of that name, with its place. -/
def findNamed {Object : Type} (obj_name : Object → List UInt8) (name : List UInt8) :
    List Object → Option (Nat × Object)
  | [] => none
  | first :: rest =>
      if obj_name first = name then some (0, first)
      else (findNamed obj_name name rest).map fun found => (found.1 + 1, found.2)

section Settings

/-- What comes of the settings of a source, and the answers to the starts of the
outputs that wait for one. -/
structure SourceSettings where
  answer : SourceAnswer
  starts : Nat → Bool

/-- `source` and `outputs` are the values that are there: one that is no object reads
as a null pointer. `created` is whether the memory and the locks of the stream could be had. -/
structure StreamSettings where
  is_private : Bool
  created : Bool
  unnamed_index : Nat
  source : Option (Option SourceSettings)
  outputs : Option (List OutputSettings)

structure DeviceInfo where
  sn : List UInt8
  created : Bool
  unnamed_index : Nat

structure OutputInfo where
  src_channel : Int
  out_channel : Int
  stream_created : Bool
  settings : OutputSettings

structure SourceInfo where
  src_channel : Int
  stream_created : Bool
  source : SourceSettings

/-- The `device` and `stream` objects of a request. -/
structure Request (Info : Type) where
  device : Option DeviceInfo
  stream : Option Info

end Settings

section Streams

structure DeviceOutcome where
  stream_list : List NamedStream
  priv_streams_list : List NamedStream
  progress : Progress

variable (stream_list priv_streams_list : List NamedStream)

def mgwDeviceHasStream : Bool := stream_list ≠ []

/-- `mgw_stream_add_source` with the pointer that the settings gave. -/
def addSource (stream : MgwStream) : Option SourceSettings → Outcome
  | none => stream.returns MGW_ERR_EPARAM
  | some source => mgwStreamAddSource stream source.answer source.starts

/-- The loop over the outputs, where a code is only logged. -/
def addOutputs : MgwStream → List OutputSettings → Outcome
  | stream, [] => stream.returns (mgwDevErr MGW_ERR_SUCCESS)
  | stream, output_settings :: rest =>
      (mgwStreamAddOutput stream output_settings).andThen fun added => addOutputs added rest

/-- `mgw_device_add_stream` behind the creation of the stream: its source, whose code is
cut off to `int16_t` and ends the call, then its outputs. -/
def fillStream (stream : MgwStream) (settings : StreamSettings) : Outcome :=
  let outputs := settings.outputs.getD []
  match settings.source with
  | some source =>
      if stream.source then addOutputs stream outputs
      else
        let added := addSource stream source
        match added.progress with
        | .returned code =>
            if int16 code = 0 then addOutputs added.stream outputs
            else added.stream.returns (int16 code)
        | _ => added
  | none => addOutputs stream outputs

/-- `mgw_stream_create` has put the stream at the head of its list. -/
def mgwDeviceAddStream (name : Option (List UInt8)) (settings : Option StreamSettings) :
    DeviceOutcome :=
  match name, settings with
  | some name, some settings =>
      if settings.created then
        let filled := fillStream mgwStreamCreate.stream settings
        let stream : NamedStream :=
          { obj_name := dupName name settings.unnamed_index, stream := filled.stream }
        { stream_list := if settings.is_private then stream_list else stream :: stream_list
          priv_streams_list :=
            if settings.is_private then stream :: priv_streams_list else priv_streams_list
          progress := filled.progress }
      else
        { stream_list := stream_list
          priv_streams_list := priv_streams_list
          progress := .returned (mgwDevErr MGW_ERR_ECREATE) }
  | _, _ =>
      { stream_list := stream_list
        priv_streams_list := priv_streams_list
        progress := .returned (mgwDevErr MGW_ERR_EPARAM) }

/-- A call on the stream at a place of the list. -/
def atStream (place : Nat) (outcome : Outcome) : DeviceOutcome where
  stream_list := stream_list.modify place fun named => { named with stream := outcome.stream }
  priv_streams_list := priv_streams_list
  progress := outcome.progress

def mgwDeviceAddOutputToStream (stream_name : List UInt8) (output_info : OutputSettings) :
    DeviceOutcome :=
  match findNamed NamedStream.obj_name stream_name stream_list with
  | none =>
      { stream_list := stream_list
        priv_streams_list := priv_streams_list
        progress := .returned (mgwDevErr MGW_ERR_NOT_EXIST) }
  | some (place, named) =>
      atStream stream_list priv_streams_list place (mgwStreamAddOutput named.stream output_info)

def mgwDeviceReleaseOutputFromStream (stream_name : List UInt8) (output_info : OutputSettings) :
    DeviceOutcome :=
  match findNamed NamedStream.obj_name stream_name stream_list with
  | none =>
      { stream_list := stream_list
        priv_streams_list := priv_streams_list
        progress := .returned 0 }
  | some (place, named) =>
      atStream stream_list priv_streams_list place
        (mgwStreamReleaseOutputByName named.stream output_info.output_name)

end Streams

section Requests

structure CoreOutcome where
  core : MgwCore
  progress : Progress

variable (core : MgwCore)

def MgwCore.returns (code : Int) : CoreOutcome := { core := core, progress := .returned code }

/-- A call on the device at a place of the list. -/
def MgwCore.atDevice (place : Nat) (outcome : DeviceOutcome) : CoreOutcome where
  core :=
    { devices_list := core.devices_list.modify place fun device =>
        { device with stream_list := outcome.stream_list }
      priv_streams_list := outcome.priv_streams_list }
  progress := outcome.progress

/-- `std::to_string` of an `int`. -/
def stdToString (value : Int) : List UInt8 :=
  if value < 0 then 45 :: decimal value.natAbs else decimal value.natAbs

/-- `"stream"` with the channel. -/
def streamName (channel : Int) : List UInt8 := [115, 116, 114, 101, 97, 109] ++ stdToString channel

/-- `"output"` with the channel. -/
def outputName (channel : Int) : List UInt8 := [111, 117, 116, 112, 117, 116] ++ stdToString channel

def OutputInfo.streamName (output_info : OutputInfo) : List UInt8 :=
  Device.streamName (int32 output_info.src_channel)

def OutputInfo.outputName (output_info : OutputInfo) : List UInt8 :=
  Device.outputName (int32 output_info.out_channel)

/-- `mgw_data_set_string(output_info, "output_name", ...)`. -/
def OutputInfo.setOutputName (output_info : OutputInfo) : OutputSettings :=
  { output_info.settings with output_name := output_info.outputName }

/-- The device of that serial number, or a new one at the head of the list. -/
def obtainDevice (dev_info : DeviceInfo) : Option (MgwCore × Nat × MgwDevice) :=
  match findNamed MgwDevice.obj_name dev_info.sn core.devices_list with
  | some (place, device) => some (core, place, device)
  | none =>
      if dev_info.created then
        let device : MgwDevice :=
          { obj_name := dupName dev_info.sn dev_info.unnamed_index, stream_list := [] }
        some ({ core with devices_list := device :: core.devices_list }, 0, device)
      else none

/-- The settings of the stream that is made for an output. -/
def OutputInfo.streamSettings (output_info : OutputInfo) : StreamSettings where
  is_private := false
  created := output_info.stream_created
  unnamed_index := 0
  source := none
  outputs := some [output_info.setOutputName]

/-- The code of the stream that is added is only logged; behind that a source address
is requested from the server. -/
def startOutputStream (settings : Request OutputInfo) : CoreOutcome :=
  match settings.device, settings.stream with
  | some dev_info, some output_info =>
      match obtainDevice core dev_info with
      | none => core.returns MSG_STATUS_SUCCESS
      | some (core, place, device) =>
          if mgwDeviceHasStream device.stream_list then
            core.atDevice place (mgwDeviceAddOutputToStream device.stream_list
              core.priv_streams_list output_info.streamName output_info.settings)
          else
            let added := core.atDevice place (mgwDeviceAddStream device.stream_list
              core.priv_streams_list (some output_info.streamName) (some output_info.streamSettings))
            match added.progress with
            | .returned _ => added.core.returns MSG_STATUS_SUCCESS
            | _ => added
  | _, _ => core.returns MSG_STATUS_PARMER_INVALID

def stopOutputStream (settings : Request OutputInfo) : CoreOutcome :=
  match settings.device, settings.stream with
  | some dev_info, some output_info =>
      match findNamed MgwDevice.obj_name dev_info.sn core.devices_list with
      | none => core.returns 0
      | some (place, device) =>
          core.atDevice place (mgwDeviceReleaseOutputFromStream device.stream_list
            core.priv_streams_list output_info.streamName output_info.setOutputName)
  | _, _ => core.returns 0

/-- A missing object reads as the empty serial number and as channel 0. -/
def Request.sn (settings : Request SourceInfo) : List UInt8 := settings.device.elim [] DeviceInfo.sn

def Request.sourceStreamName (settings : Request SourceInfo) : List UInt8 :=
  streamName (int32 (settings.stream.elim 0 SourceInfo.src_channel))

/-- The settings of the stream that is made for a source. -/
def Request.streamSettings (settings : Request SourceInfo) : StreamSettings where
  is_private := false
  created := settings.stream.elim true SourceInfo.stream_created
  unnamed_index := 0
  source := some (settings.stream.map SourceInfo.source)
  outputs := none

def startSourceStream (settings : Request SourceInfo) : CoreOutcome :=
  match findNamed MgwDevice.obj_name settings.sn core.devices_list with
  | none => core.returns MSG_STATUS_NODEVICE
  | some (place, device) =>
      if mgwDeviceHasStream device.stream_list then core.returns MSG_STATUS_SUCCESS
      else
        core.atDevice place (mgwDeviceAddStream device.stream_list core.priv_streams_list
          (some settings.sourceStreamName) (some settings.streamSettings))

end Requests

end Mgw.Device

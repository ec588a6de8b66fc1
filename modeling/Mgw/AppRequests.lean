import Mgw.DeviceAdding

/-!
# Requests of the application in turn

A source that was started is there behind the request; and the names that a stop
derives are those that the start gave.
-/

namespace Mgw.AppRequests

open IntrusiveList StreamOutputs StreamOutputsLinked StreamAdding StreamAddRelease Device
  DeviceAdding

set_option autoImplicit false

section Places

/-- A call on a device leaves it where it is found. -/
theorem at_device_found {core : MgwCore} {name : List UInt8} {place : Nat} {device : MgwDevice}
    (found : findNamed MgwDevice.obj_name name core.devices_list = some (place, device))
    (outcome : DeviceOutcome) :
    findNamed MgwDevice.obj_name name (core.atDevice place outcome).core.devices_list =
      some (place, { device with stream_list := outcome.stream_list }) := by
  have kept : ∀ device : MgwDevice,
      ({ device with stream_list := outcome.stream_list } : MgwDevice).obj_name = device.obj_name :=
    fun _ => rfl
  exact find_named_modify kept found

theorem at_stream_found {stream_list : List NamedStream} {name : List UInt8} {place : Nat}
    {named : NamedStream}
    (found : findNamed NamedStream.obj_name name stream_list = some (place, named))
    (priv_streams_list : List NamedStream) (outcome : Outcome) :
    findNamed NamedStream.obj_name name
        (atStream stream_list priv_streams_list place outcome).stream_list =
      some (place, { named with stream := outcome.stream }) := by
  have kept : ∀ named : NamedStream,
      ({ named with stream := outcome.stream } : NamedStream).obj_name = named.obj_name :=
    fun _ => rfl
  exact find_named_modify kept found

theorem find_named_head {Object : Type} {obj_name : Object → List UInt8} {name : List UInt8}
    {first : Object} (same : obj_name first = name) (rest : List Object) :
    findNamed obj_name name (first :: rest) = some (0, first) := by
  unfold findNamed
  exact if_pos same

end Places

section Sources

variable (core : MgwCore) (settings : Request SourceInfo)

/-- A request that reports success leaves the stream of the channel with a source. -/
def LeavesSource : Prop :=
  ∀ code, (startSourceStream core settings).progress = .returned code →
    causeOf code = MGW_ERR_SUCCESS →
      ∃ place device place' named,
        findNamed MgwDevice.obj_name settings.sn
          (startSourceStream core settings).core.devices_list = some (place, device) ∧
        findNamed NamedStream.obj_name settings.sourceStreamName device.stream_list =
          some (place', named) ∧
        named.stream.source = true

/-- The device has no stream yet, or that of the channel already has a source. -/
def SourceWelcome : Prop :=
  ∀ place device, findNamed MgwDevice.obj_name settings.sn core.devices_list = some (place, device) →
    device.stream_list = [] ∨ ∃ place' named,
      findNamed NamedStream.obj_name settings.sourceStreamName device.stream_list =
        some (place', named) ∧ named.stream.source = true

theorem has_stream_iff (stream_list : List NamedStream) :
    mgwDeviceHasStream stream_list = true ↔ stream_list ≠ [] := by
  unfold mgwDeviceHasStream
  exact decide_eq_true_iff

theorem stream_name_ne_nil (channel : Int) : streamName channel ≠ [] := by
  simp [streamName]

/-- A stream that is made for a source and reports success has it. -/
theorem added_source_stream {code : Int} (priv_streams_list : List NamedStream)
    (returned : (mgwDeviceAddStream [] priv_streams_list (some settings.sourceStreamName)
      (some settings.streamSettings)).progress = .returned code)
    (success : causeOf code = MGW_ERR_SUCCESS) :
    ∃ named : NamedStream, (mgwDeviceAddStream [] priv_streams_list (some settings.sourceStreamName)
      (some settings.streamSettings)).stream_list = [named] ∧
        named.obj_name = settings.sourceStreamName ∧ named.stream.source = true := by
  unfold mgwDeviceAddStream at returned ⊢
  dsimp only at returned ⊢
  by_cases created : settings.streamSettings.created = true
  · rw [if_pos created] at returned ⊢
    have usable : SourceUsable settings.streamSettings := by
      by_contra unusable
      obtain ⟨failure, returned', cause⟩ := fill_unusable unusable
      rw [Progress.returned.inj (returned'.symm.trans returned)] at cause
      exact cause success
    refine ⟨_, rfl, dup_name_of_ne_nil (stream_name_ne_nil _) 0, ?_⟩
    change (fillStream mgwStreamCreate.stream settings.streamSettings).stream.source = true
    rw [fill_usable usable, sourced_usable usable]
    rfl
  · rw [if_neg created] at returned
    rw [← Progress.returned.inj returned] at success
    exact absurd success (by decide)

theorem unknown_device_leaves
    (unknown : findNamed MgwDevice.obj_name settings.sn core.devices_list = none) :
    LeavesSource core settings := by
  unfold LeavesSource startSourceStream
  rw [unknown]
  intro code returned success
  rw [← Progress.returned.inj returned] at success
  exact absurd success (by decide)

/-- A device without streams gets one for the source. -/
theorem empty_device_leaves {place : Nat} {device : MgwDevice}
    (found : findNamed MgwDevice.obj_name settings.sn core.devices_list = some (place, device))
    (empty : device.stream_list = []) : LeavesSource core settings := by
  have unstreamed : ¬mgwDeviceHasStream device.stream_list = true := by
    rw [has_stream_iff]
    exact fun some => some empty
  unfold LeavesSource startSourceStream
  rw [found]
  dsimp only
  rw [if_neg unstreamed, empty]
  intro code returned success
  obtain ⟨named, only, name, has⟩ :=
    added_source_stream settings core.priv_streams_list returned success
  refine ⟨place, _, 0, named, at_device_found found _, ?_, has⟩
  dsimp only
  rw [only]
  exact find_named_head name []

/-- A device with a stream is left alone, and success reported. -/
theorem streamed_device_leaves_iff {place : Nat} {device : MgwDevice}
    (found : findNamed MgwDevice.obj_name settings.sn core.devices_list = some (place, device))
    (streamed : device.stream_list ≠ []) :
    LeavesSource core settings ↔ ∃ place' named,
      findNamed NamedStream.obj_name settings.sourceStreamName device.stream_list =
        some (place', named) ∧ named.stream.source = true := by
  unfold LeavesSource startSourceStream
  rw [found]
  dsimp only
  rw [if_pos ((has_stream_iff _).mpr streamed)]
  constructor
  · intro leaves
    obtain ⟨_, again, inner, named, same, there, has⟩ := leaves MSG_STATUS_SUCCESS rfl (by decide)
    have both := Prod.mk.inj (Option.some.inj (found.symm.trans same))
    rw [← both.2] at there
    exact ⟨inner, named, there, has⟩
  · intro welcome code _ _
    obtain ⟨inner, named, there, has⟩ := welcome
    exact ⟨place, device, inner, named, found, there, has⟩

def deviceInfo : DeviceInfo where
  sn := [49]
  created := true
  unnamed_index := 0

/-- Output 2 of source 1 of the device, and source 1 of it. -/
def outputRequest : Request OutputInfo where
  device := some deviceInfo
  stream := some
    { src_channel := 1, out_channel := 2, stream_created := true, settings := settingsNamed 97 }

def sourceRequest : Request SourceInfo where
  device := some deviceInfo
  stream := some { src_channel := 1, stream_created := true,
                   source := { answer := .usable, starts := fun _ => true } }

def emptyCore : MgwCore := { devices_list := [], priv_streams_list := [] }

end Sources

section Numbers

theorem digit_bound {digit : Char} (isDigit : digit.isDigit = true) :
    48 ≤ digit.toNat ∧ digit.toNat ≤ 57 := by
  unfold Char.isDigit at isDigit
  rw [Bool.and_eq_true, decide_eq_true_iff, decide_eq_true_iff] at isDigit
  exact ⟨UInt32.le_iff_toNat_le.mp isDigit.1, UInt32.le_iff_toNat_le.mp isDigit.2⟩

theorem byte_of_digit {digit : Char} (isDigit : digit.isDigit = true) :
    (UInt8.ofNat digit.toNat).toNat = digit.toNat := by
  have bound := digit_bound isDigit
  rw [UInt8.toNat_ofNat']
  omega

theorem digits_of_decimal (value : Nat) :
    ((decimal value).map fun byte => Char.ofNat byte.toNat) = Nat.toDigits 10 value := by
  unfold decimal
  rw [List.map_map]
  apply (List.map_congr_left _).trans (List.map_id _)
  intro digit member
  have isDigit := Nat.isDigit_of_mem_toDigits (by decide) (by decide) member
  change Char.ofNat (UInt8.ofNat digit.toNat).toNat = digit
  rw [byte_of_digit isDigit]
  exact Char.ofNat_toNat digit

theorem decimal_injective : Function.Injective decimal := by
  intro left right same
  have equal : Nat.toDigits 10 left = Nat.toDigits 10 right := by
    rw [← digits_of_decimal, ← digits_of_decimal, same]
  rw [← Nat.ofDigitChars_ten_toDigits (n := left), equal, Nat.ofDigitChars_ten_toDigits]

/-- The sign is no digit. -/
theorem minus_not_mem_decimal (value : Nat) : 45 ∉ decimal value := by
  intro member
  obtain ⟨digit, inside, same⟩ := List.mem_map.mp member
  have isDigit := Nat.isDigit_of_mem_toDigits (by decide) (by decide) inside
  have bound := digit_bound isDigit
  have value := congrArg UInt8.toNat same
  rw [byte_of_digit isDigit] at value
  change digit.toNat = 45 at value
  omega

theorem std_to_string_injective : Function.Injective stdToString := by
  intro left right same
  unfold stdToString at same
  split_ifs at same with leftNegative rightNegative rightNegative
  · have equal := decimal_injective (List.cons.inj same).2
    omega
  · exact absurd (same ▸ List.mem_cons_self) (minus_not_mem_decimal right.natAbs)
  · exact absurd (same ▸ List.mem_cons_self) (minus_not_mem_decimal left.natAbs)
  · have equal := decimal_injective same
    omega

theorem output_name_injective : Function.Injective outputName := by
  intro left right same
  exact std_to_string_injective (List.append_cancel_left same)

end Numbers

section Names

/-- Every output is one of before, under the name of before. -/
def KeepsNames (before after : MgwStream) : Prop :=
  ∀ address output, after.output address = some output →
    ∃ output', before.output address = some output' ∧ output'.obj_name = output.obj_name

variable {stream : MgwStream}

theorem keeps_names_refl : KeepsNames stream stream :=
  fun _ output held => ⟨output, held, rfl⟩

theorem keeps_names_trans {middle after : MgwStream} (first : KeepsNames stream middle)
    (second : KeepsNames middle after) : KeepsNames stream after := by
  intro address output held
  obtain ⟨output', held', same⟩ := second address output held
  obtain ⟨output'', held'', same'⟩ := first address output' held'
  exact ⟨output'', held'', same'.trans same⟩

theorem modify_keeps_names {change : MgwOutput → MgwOutput}
    (kept : ∀ output, (change output).obj_name = output.obj_name) (address : Nat) :
    KeepsNames stream (stream.modify address change) := by
  intro other output held
  rw [modify_output] at held
  split_ifs at held with same
  · obtain ⟨before, there, changed⟩ := Option.map_eq_some_iff.mp held
    rw [← same] at there
    exact ⟨before, there, (kept before).symm.trans (congrArg _ changed)⟩
  · exact ⟨output, held, rfl⟩

theorem free_keeps_names (address : Nat) :
    KeepsNames stream (mgwContextDataFree stream address) := by
  intro other output held
  rw [free_output] at held
  split_ifs at held
  exact ⟨output, held, rfl⟩

theorem start_keeps_names (address : Nat) (answer : Bool) :
    KeepsNames stream (mgwOutputStart stream address answer).2 := by
  unfold mgwOutputStart
  split
  · exact keeps_names_refl
  · split_ifs
    · apply modify_keeps_names
      exact fun _ => rfl
    · exact keeps_names_refl

theorem destroy_keeps_names (address : Nat) :
    KeepsNames stream (mgwOutputDestroy stream address).stream := by
  have stopped : KeepsNames stream (mgwOutputActualStop stream address) := by
    apply modify_keeps_names
    exact fun _ => rfl
  unfold mgwOutputDestroy
  split
  · exact keeps_names_refl
  · rename_i output _
    dsimp only
    cases output.info_impl && output.actived with
    | true => exact keeps_names_trans stopped (free_keeps_names address)
    | false =>
        simp only [Bool.false_or, Bool.false_eq_true, if_false]
        split_ifs
        · exact free_keeps_names address
        · exact keeps_names_refl

theorem release_keeps_names (address : Nat) :
    KeepsNames stream (mgwOutputRelease stream address).stream := by
  have released : KeepsNames stream (stream.modify address fun output =>
      { output with refs := output.refs - 1 }) := by
    apply modify_keeps_names
    exact fun _ => rfl
  unfold mgwOutputRelease
  split
  · exact keeps_names_refl
  · dsimp only
    split_ifs
    · exact keeps_names_trans released (destroy_keeps_names address)
    · exact released

theorem and_then_returns_stream (outcome : Outcome) (code : Int) :
    (outcome.andThen fun after => after.returns code).stream = outcome.stream := by
  unfold Outcome.andThen
  split <;> rfl

/-- An output that is new behind a call is the one allocated next, under the name that
the settings give. -/
def AddsNamed (stream : MgwStream) (settings : OutputSettings) (after : MgwStream) : Prop :=
  ∀ address output, after.output address = some output → stream.output address = none →
    address = stream.allocated ∧
      output.obj_name = dupName settings.output_name settings.unnamed_index

theorem keeps_names_adds {after : MgwStream} (keeps : KeepsNames stream after)
    (settings : OutputSettings) : AddsNamed stream settings after := by
  intro address output held absent
  obtain ⟨before, there, -⟩ := keeps address output held
  rw [absent] at there
  exact absurd there.symm (Option.some_ne_none before)

theorem refuse_adds (settings : OutputSettings) (list : OutputList) (name : List UInt8)
    {otherwise : Outcome} (adds : AddsNamed stream settings otherwise.stream) :
    AddsNamed stream settings (refuseExisting stream list name otherwise).stream := by
  unfold refuseExisting
  split
  · exact keeps_names_adds keeps_names_refl settings
  · exact adds
  · rename_i address _
    split_ifs
    · rw [and_then_returns_stream]
      apply keeps_names_adds
      apply keeps_names_trans _ (release_keeps_names address)
      apply modify_keeps_names
      exact fun _ => rfl
    · exact adds

theorem create_adds (settings : OutputSettings) :
    AddsNamed stream settings (createOutput stream settings).stream := by
  unfold createOutput
  split
  · exact keeps_names_adds keeps_names_refl settings
  · intro address output held absent
    exact absurd (absent.symm.trans held) (Option.some_ne_none output).symm
  · rename_i info_impl _
    obtain ⟨linked, inserted⟩ : ∃ linked, mgwContextDataInsert
        (newOutput stream settings info_impl) stream.allocated (initList stream)
          (some (.head (initList stream))) = some linked := ⟨_, rfl⟩
    rw [inserted]
    dsimp only
    have keeps : KeepsNames linked (startCreated linked stream.allocated settings).stream := by
      unfold startCreated
      split_ifs
      · have started : KeepsNames linked
            (mgwOutputStart linked stream.allocated settings.start).2 :=
          start_keeps_names stream.allocated settings.start
        split
        · rename_i after same
          rw [same] at started
          exact started
        · rename_i failed same
          rw [same] at started
          rw [and_then_returns_stream]
          exact keeps_names_trans started (destroy_keeps_names stream.allocated)
      · exact keeps_names_refl
    intro address output held absent
    obtain ⟨before, there, same⟩ := keeps address output held
    rw [inserted_output inserted] at there
    split_ifs at there with new
    · rw [← same, ← Option.some.inj there]
      exact ⟨new, rfl⟩
    · rw [absent] at there
      exact absurd there.symm (Option.some_ne_none before)

theorem add_output_adds (settings : OutputSettings) :
    AddsNamed stream settings (mgwStreamAddOutput stream settings).stream := by
  unfold mgwStreamAddOutput
  apply refuse_adds
  apply refuse_adds
  exact create_adds settings

end Names

section Agreement

structure OutputPlace where
  device : Nat
  stream : Nat
  output : Nat

def streamOutputAt (stream_list : List NamedStream) (place : OutputPlace) : Option MgwOutput :=
  (stream_list[place.stream]?).bind fun named => named.stream.output place.output

def outputAt (core : MgwCore) (place : OutputPlace) : Option MgwOutput :=
  (core.devices_list[place.device]?).bind fun device => streamOutputAt device.stream_list place

/-- The request of the two objects. -/
def requestOf (dev_info : DeviceInfo) (output_info : OutputInfo) : Request OutputInfo where
  device := some dev_info
  stream := some output_info

/-- The request puts an output at a place where there was none behind the obtaining of
the device. -/
def Adds (core : MgwCore) (dev_info : DeviceInfo) (output_info : OutputInfo) (place : OutputPlace)
    (output : MgwOutput) : Prop :=
  ∃ obtained index device, obtainDevice core dev_info = some (obtained, index, device) ∧
    outputAt obtained place = none ∧
      outputAt (startOutputStream core (requestOf dev_info output_info)).core place = some output

/-- The device and the stream that the stop of an equal request looks for are those of
the output, and the name that it derives is the output's. -/
def Selects (after : MgwCore) (dev_info : DeviceInfo) (output_info : OutputInfo)
    (place : OutputPlace) (output : MgwOutput) : Prop :=
  ∃ device named,
    findNamed MgwDevice.obj_name dev_info.sn after.devices_list = some (place.device, device) ∧
      findNamed NamedStream.obj_name output_info.streamName device.stream_list =
        some (place.stream, named) ∧
      named.stream.output place.output = some output ∧
        output.obj_name = output_info.setOutputName.output_name

/-- A device that is made for the request has a serial number; and on one that already
has streams, the request comes with the name that the stop will derive. -/
def NameDerived (core : MgwCore) (dev_info : DeviceInfo) (output_info : OutputInfo) : Prop :=
  (findNamed MgwDevice.obj_name dev_info.sn core.devices_list = none → dev_info.sn ≠ []) ∧
    ∀ index device,
      findNamed MgwDevice.obj_name dev_info.sn core.devices_list = some (index, device) →
        device.stream_list ≠ [] → output_info.settings.output_name = output_info.outputName

/-- What is new behind a change at one place of a list is at that place. -/
theorem new_at_modify {Object Content : Type} {content : Object → Option Content}
    {change : Object → Object} {list : List Object} {index place : Nat} {object : Object}
    {new : Content} (held : list[index]? = some object)
    (absent : (list[place]?).bind content = none)
    (present : ((list.modify index change)[place]?).bind content = some new) :
    place = index ∧ content object = none ∧ content (change object) = some new := by
  by_cases same : index = place
  · rw [← same, List.getElem?_modify_eq, held] at present
    rw [← same, held] at absent
    exact ⟨same.symm, absent, present⟩
  · rw [List.getElem?_modify_ne _ _ same, absent] at present
    exact absurd present (Option.some_ne_none new).symm

variable {dev_info : DeviceInfo} {output_info : OutputInfo} {place : OutputPlace}
  {output : MgwOutput}

theorem output_name_ne_nil (channel : Int) : outputName channel ≠ [] := by
  simp [outputName]

/-- A made-up name is none of an output with a channel. -/
theorem dup_name_output_iff (name : List UInt8) (unnamed_index : Nat) (channel : Int) :
    dupName name unnamed_index = outputName channel ↔ name = outputName channel := by
  by_cases empty : name = []
  · rw [empty]
    apply iff_of_false
    · simp [dupName, outputName]
    · exact (output_name_ne_nil channel).symm
  · rw [dup_name_of_ne_nil empty]

/-- A stream that is made for an output has it under the derived name. -/
theorem added_output_stream (priv_streams_list : List NamedStream)
    (present : streamOutputAt (mgwDeviceAddStream [] priv_streams_list (some output_info.streamName)
      (some output_info.streamSettings)).stream_list place = some output) :
    ∃ named, findNamed NamedStream.obj_name output_info.streamName
        (mgwDeviceAddStream [] priv_streams_list (some output_info.streamName)
          (some output_info.streamSettings)).stream_list = some (place.stream, named) ∧
      named.stream.output place.output = some output ∧
        output.obj_name = output_info.outputName := by
  unfold mgwDeviceAddStream at present ⊢
  dsimp only at present ⊢
  by_cases created : output_info.streamSettings.created = true
  · have filled : (fillStream mgwStreamCreate.stream output_info.streamSettings).stream =
        (mgwStreamAddOutput mgwStreamCreate.stream output_info.setOutputName).stream :=
      and_then_returns_stream _ _
    have listed : output_info.streamSettings.is_private = false := rfl
    rw [if_pos created] at present ⊢
    dsimp only at present ⊢
    rw [listed, if_neg Bool.false_ne_true] at present ⊢
    let made : NamedStream :=
      { obj_name := dupName output_info.streamName output_info.streamSettings.unnamed_index
        stream := (fillStream mgwStreamCreate.stream output_info.streamSettings).stream }
    have named : made.obj_name = output_info.streamName :=
      dup_name_of_ne_nil (stream_name_ne_nil _) 0
    unfold streamOutputAt at present
    cases at_place : place.stream with
    | zero =>
        rw [at_place] at present
        change made.stream.output place.output = some output at present
        refine ⟨made, find_named_head named [], present, ?_⟩
        change (fillStream mgwStreamCreate.stream output_info.streamSettings).stream.output
          place.output = some output at present
        rw [filled] at present
        have adds := (add_output_adds _ place.output output present rfl).2
        exact adds.trans (dup_name_of_ne_nil (output_name_ne_nil _) _)
    | succ later =>
        rw [at_place] at present
        exact absurd present.symm (Option.some_ne_none output)
  · rw [if_neg created] at present
    exact absurd present.symm (Option.some_ne_none output)

/-- An output that is new on a stream of the device is selected if its name is the derived one. -/
theorem added_to_stream {stream_list priv_streams_list : List NamedStream}
    (absent : streamOutputAt stream_list place = none)
    (present : streamOutputAt (mgwDeviceAddOutputToStream stream_list priv_streams_list
      output_info.streamName output_info.settings).stream_list place = some output) :
    output.obj_name = dupName output_info.settings.output_name output_info.settings.unnamed_index ∧
      ∃ named, findNamed NamedStream.obj_name output_info.streamName
        (mgwDeviceAddOutputToStream stream_list priv_streams_list output_info.streamName
          output_info.settings).stream_list = some (place.stream, named) ∧
        named.stream.output place.output = some output := by
  unfold mgwDeviceAddOutputToStream at present ⊢
  cases found : findNamed NamedStream.obj_name output_info.streamName stream_list with
  | none =>
      rw [found] at present
      exact absurd (absent.symm.trans present) (Option.some_ne_none output).symm
  | some both =>
      obtain ⟨index, named⟩ := both
      rw [found] at present
      dsimp only at present ⊢
      obtain ⟨same, old, new⟩ := new_at_modify (find_named_some found).1 absent present
      rw [same]
      refine ⟨(add_output_adds _ place.output output new old).2, _, ?_, new⟩
      exact at_stream_found found priv_streams_list _

theorem selects_iff {after : MgwCore} {device : MgwDevice} {named : NamedStream}
    (device_found : findNamed MgwDevice.obj_name dev_info.sn after.devices_list =
      some (place.device, device))
    (stream_found : findNamed NamedStream.obj_name output_info.streamName device.stream_list =
      some (place.stream, named))
    (there : named.stream.output place.output = some output) :
    Selects after dev_info output_info place output ↔ output.obj_name = output_info.outputName := by
  constructor
  · exact fun selects => selects.choose_spec.choose_spec.2.2.2
  · exact fun same => ⟨device, named, device_found, stream_found, there, same⟩

/-- What the request does on the device that was obtained. -/
def startOn (core : MgwCore) (device : MgwDevice) (output_info : OutputInfo) : DeviceOutcome :=
  if mgwDeviceHasStream device.stream_list then
    mgwDeviceAddOutputToStream device.stream_list core.priv_streams_list output_info.streamName
      output_info.settings
  else
    mgwDeviceAddStream device.stream_list core.priv_streams_list (some output_info.streamName)
      (some output_info.streamSettings)

theorem start_output_core {core obtained : MgwCore} {index : Nat} {device : MgwDevice}
    (obtaining : obtainDevice core dev_info = some (obtained, index, device)) :
    (startOutputStream core (requestOf dev_info output_info)).core =
      (obtained.atDevice index (startOn obtained device output_info)).core := by
  unfold startOutputStream startOn
  dsimp only [requestOf]
  rw [obtaining]
  dsimp only
  split_ifs
  · rfl
  · split <;> rfl

/-- An output that is new on a device is on a stream that its channel names, under a
name that depends on whether the device had streams. -/
theorem start_on_new {core : MgwCore} {device : MgwDevice}
    (absent : streamOutputAt device.stream_list place = none)
    (present : streamOutputAt (startOn core device output_info).stream_list place = some output) :
    (∃ named, findNamed NamedStream.obj_name output_info.streamName
        (startOn core device output_info).stream_list = some (place.stream, named) ∧
      named.stream.output place.output = some output) ∧
    (output.obj_name = output_info.outputName ↔
      (device.stream_list ≠ [] → output_info.settings.output_name = output_info.outputName)) := by
  unfold startOn at present ⊢
  by_cases empty : device.stream_list = []
  · have unstreamed : ¬mgwDeviceHasStream device.stream_list = true := by
      rw [has_stream_iff]
      exact fun some => some empty
    rw [if_neg unstreamed, empty] at present ⊢
    obtain ⟨named, found, there, name⟩ := added_output_stream core.priv_streams_list present
    exact ⟨⟨named, found, there⟩, iff_of_true name fun impossible => absurd rfl impossible⟩
  · rw [if_pos ((has_stream_iff _).mpr empty)] at present ⊢
    obtain ⟨name, named, found, there⟩ := added_to_stream absent present
    refine ⟨⟨named, found, there⟩, ?_⟩
    rw [name, OutputInfo.outputName, dup_name_output_iff]
    exact ⟨fun same _ => same, fun same => same empty⟩

/-- The start that adds an output gives it the name that the stop derives, on a device
and a stream that the stop finds, exactly under the condition. -/
theorem adds_selects_iff {core : MgwCore} (adds : Adds core dev_info output_info place output) :
    Selects (startOutputStream core (requestOf dev_info output_info)).core dev_info output_info place
        output ↔
      NameDerived core dev_info output_info := by
  obtain ⟨obtained, index, device, obtaining, absent, present⟩ := adds
  rw [start_output_core obtaining] at present ⊢
  unfold NameDerived
  unfold obtainDevice at obtaining
  cases found : findNamed MgwDevice.obj_name dev_info.sn core.devices_list with
  | some both =>
      obtain ⟨index', device'⟩ := both
      rw [found] at obtaining
      obtain ⟨rfl, both⟩ := Prod.mk.inj (Option.some.inj obtaining)
      obtain ⟨rfl, rfl⟩ := Prod.mk.inj both
      obtain ⟨same, old, new⟩ := new_at_modify (find_named_some found).1 absent present
      obtain ⟨⟨named, stream_found, there⟩, name⟩ := start_on_new old new
      rw [← same] at found ⊢
      rw [selects_iff (at_device_found found _) stream_found there, name]
      constructor
      · intro given
        refine ⟨fun impossible => absurd impossible (Option.some_ne_none _), ?_⟩
        intro index device same
        rw [← (Prod.mk.inj (Option.some.inj same)).2]
        exact given
      · exact fun derived => derived.2 _ _ rfl
  | none =>
      rw [found] at obtaining
      dsimp only at obtaining
      split_ifs at obtaining
      obtain ⟨rfl, both⟩ := Prod.mk.inj (Option.some.inj obtaining)
      obtain ⟨rfl, rfl⟩ := Prod.mk.inj both
      obtain ⟨same, old, new⟩ := new_at_modify rfl absent present
      obtain ⟨⟨named, stream_found, there⟩, name⟩ := start_on_new old new
      by_cases empty : dev_info.sn = []
      · refine iff_of_false ?_ fun derived => derived.1 rfl empty
        rintro ⟨device', named', found', -⟩
        obtain ⟨there', name'⟩ := find_named_some found'
        have member : device' ∈ _ :: core.devices_list := List.mem_of_getElem? there'
        rcases List.mem_cons.mp member with head | rest
        · rw [head, empty] at name'
          exact dup_name_ne_nil [] dev_info.unnamed_index name'
        · exact find_named_none found device' rest name'
      · let made : MgwDevice :=
          { obj_name := dupName dev_info.sn dev_info.unnamed_index, stream_list := [] }
        let started : MgwDevice :=
          { made with stream_list := (startOn { core with devices_list := made :: core.devices_list }
              made output_info).stream_list }
        have head : started.obj_name = dev_info.sn := dup_name_of_ne_nil empty _
        have device_found : findNamed MgwDevice.obj_name dev_info.sn
            (started :: core.devices_list) = some (place.device, started) :=
          same ▸ find_named_head head core.devices_list
        rw [selects_iff device_found stream_found there, name]
        refine iff_of_true (fun impossible => absurd rfl impossible) ⟨fun _ => empty, ?_⟩
        intro index device impossible
        exact absurd impossible.symm (Option.some_ne_none _)

def secondOutput : OutputInfo where
  src_channel := 1
  out_channel := 3
  stream_created := true
  settings := settingsNamed 97

def firstOutput : OutputInfo := { secondOutput with out_channel := 2 }

theorem first_output_added : Adds emptyCore deviceInfo firstOutput ⟨0, 0, 0⟩
    (insertedOutput firstOutput.setOutputName true .outputs_whitelist) :=
  ⟨_, _, _, rfl, by decide, rfl⟩

end Agreement

end Mgw.AppRequests

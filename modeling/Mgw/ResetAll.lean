import Mathlib.Data.List.Basic
import Mathlib.Data.List.Induction
import Mgw.WordArithmetic

/-!
# Restoring the saved configuration

`mgw_reset_all` and `mgw_reset_streams` of `mgw.c`, as the calls that they make.
A device is known by its place among those that are created. The counters are
`int`: where an array has more entries than such a counter can name, the next
index would be negative, as `size_t` past the end, and the loop is over.
-/

namespace Mgw.ResetAll

open WordArithmetic

set_option autoImplicit false

variable {Source Output : Type*}

/-- What `mgw_reset_streams` reads of the settings of a stream. -/
structure StreamSettings (Source Output : Type*) where
  name : List UInt8
  source : Option Source
  outputs : Option (List Output)
  deriving DecidableEq

structure DeviceSettings (Source Output : Type*) where
  type : List UInt8
  sn : List UInt8
  streams : Option (List (StreamSettings Source Output))

structure PrivateData (Source Output : Type*) where
  devices : Option (List (DeviceSettings Source Output))
  private_streams : Option (List (StreamSettings Source Output))

inductive CoreCall (Source Output : Type*) where
  | deviceCreate (type sn : List UInt8)
  | resetStreams (device : Option Nat) (stream_settings : Option (StreamSettings Source Output))
  | streamCreate (device : Option Nat) (stream_name : List UInt8)
  | streamAddSource (source_settings : Source)
  | streamAddOutput (output_settings : Output)

/-- The rounds of a loop over an `int` that is compared with a count of type `size_t`. -/
def intRounds (count : Nat) : Nat := min count 2147483648

def mgwDataArrayItem {Entry : Type*} (array : List Entry) (idx : Nat) : Option Entry := array[idx]?

/-- The return value is that of the last call. -/
def mgwResetStreams (device : Option Nat) (stream_settings : Option (StreamSettings Source Output)) :
    Int × List (CoreCall Source Output) :=
  match stream_settings with
  | none => (-1, [])
  | some settings =>
      let outputs_settings := settings.outputs.getD []
      (0, .streamCreate device settings.name ::
        (settings.source.toList.map .streamAddSource ++
          (List.range (intRounds outputs_settings.length)).flatMap fun i =>
            (mgwDataArrayItem outputs_settings i).toList.map .streamAddOutput))

/-- A call of `mgw_reset_streams` with the calls that it makes. -/
def resetStreamsCalls (device : Option Nat)
    (stream_settings : Option (StreamSettings Source Output)) : List (CoreCall Source Output) :=
  .resetStreams device stream_settings :: (mgwResetStreams device stream_settings).2

/-- The body of the loop over the devices. -/
def resetDevice (i : Nat) (dev : DeviceSettings Source Output) : List (CoreCall Source Output) :=
  let streams := dev.streams.getD []
  .deviceCreate dev.type dev.sn ::
    -- the item is taken at the index of the device, not at that of the stream
    (List.range (intRounds streams.length)).flatMap fun _ =>
      resetStreamsCalls (some i) (mgwDataArrayItem streams i)

/-- The arguments of a call of `mgw_reset_streams`. -/
def resetArguments : CoreCall Source Output →
    Option (Option Nat × Option (StreamSettings Source Output))
  | .resetStreams device stream_settings => some (device, stream_settings)
  | _ => none

/-- The calls in their order, with the return value, which is that of the last
call of `mgw_reset_streams`. -/
def mgwResetAll (private_data : PrivateData Source Output) :
    Int × List (CoreCall Source Output) :=
  let devices := private_data.devices.getD []
  let private_streams := private_data.private_streams.getD []
  let calls :=
    ((List.range (intRounds devices.length)).flatMap fun i =>
      (mgwDataArrayItem devices i).toList.flatMap (resetDevice i)) ++
    (List.range (int32 private_streams.length).toNat).flatMap fun i =>
      resetStreamsCalls none (mgwDataArrayItem private_streams i)
  let ret := match (calls.filterMap resetArguments).getLast? with
    | none => 0
    | some (device, stream_settings) => (mgwResetStreams device stream_settings).1
  (ret, calls)

/-- Each pair of a device and an entry of its streams, in order, and then each
private stream without a device. -/
def expectedResets (private_data : PrivateData Source Output) :
    List (Option Nat × Option (StreamSettings Source Output)) :=
  ((private_data.devices.getD []).zipIdx.flatMap fun (dev, i) =>
    (dev.streams.getD []).map fun entry => (some i, some entry)) ++
  (private_data.private_streams.getD []).map fun entry => (none, some entry)

/-- The entries of each device all are the one at the place of the device, and no
array has more entries than its counter can name. -/
def EntriesAtDeviceIndex (private_data : PrivateData Source Output) : Prop :=
  (∀ i dev, (private_data.devices.getD [])[i]? = some dev →
    ∀ entry ∈ dev.streams.getD [], (dev.streams.getD [])[i]? = some entry ∧
      i < 2147483648 ∧ (dev.streams.getD []).length ≤ 2147483648) ∧
  (private_data.private_streams.getD []).length < 2147483648

section Tags

variable {Tag Value : Type*}

/-- Of what the places contribute, each under its own tag, one place is read back. -/
theorem filter_tagged [DecidableEq Tag] {tag : Nat → Tag} (injective : Function.Injective tag)
    (part : Nat → List (Tag × Value)) (tagged : ∀ i, ∀ one ∈ part i, one.1 = tag i)
    (count i : Nat) :
    ((List.range count).flatMap part).filter (fun one => one.1 = tag i) =
      if i < count then part i else [] := by
  induction count with
  | zero => rfl
  | succ count ih =>
      rw [List.range_succ, List.flatMap_append, List.filter_append, ih, List.flatMap_singleton]
      by_cases same : count = i
      · have own : (part count).filter (fun one => one.1 = tag i) = part i := by
          rw [same, List.filter_eq_self]
          intro one member
          exact decide_eq_true (tagged i one member)
        rw [own, if_neg (by omega), if_pos (by omega), List.nil_append]
      · have other : (part count).filter (fun one => one.1 = tag i) = [] := by
          rw [List.filter_eq_nil_iff]
          intro one member
          rw [tagged count one member, decide_eq_true_eq]
          intro equal
          exact same (injective equal)
        rw [other, List.append_nil]
        split_ifs <;> first | rfl | omega

end Tags

section Restoring

theorem int_rounds_eq {count : Nat} : intRounds count = count ↔ count ≤ 2147483648 := by
  unfold intRounds
  omega

theorem int32_rounds_eq {count : Nat} : (int32 count).toNat = count ↔ count < 2147483648 := by
  unfold int32 u32 wordSize
  split_ifs <;> omega

theorem stream_calls_arguments (device : Option Nat)
    (stream_settings : Option (StreamSettings Source Output)) :
    (resetStreamsCalls device stream_settings).filterMap resetArguments =
      [(device, stream_settings)] := by
  have others : (mgwResetStreams device stream_settings).2.filterMap resetArguments = [] := by
    rw [List.filterMap_eq_nil_iff]
    intro call member
    cases stream_settings with
    | none => simp [mgwResetStreams] at member
    | some settings =>
        simp only [mgwResetStreams, List.mem_cons, List.mem_append, List.mem_map,
          List.mem_flatMap] at member
        rcases member with rfl | ⟨_, -, rfl⟩ | ⟨_, -, _, -, rfl⟩ <;> rfl
  exact (List.filterMap_cons_some (f := resetArguments) rfl).trans (congrArg _ others)

/-- What the loop over the streams of a device restores. -/
def deviceResets (devices : List (DeviceSettings Source Output)) (i : Nat) :
    List (Option Nat × Option (StreamSettings Source Output)) :=
  devices[i]?.toList.flatMap fun dev =>
    (List.range (intRounds (dev.streams.getD []).length)).map fun _ =>
      (some i, (dev.streams.getD [])[i]?)

/-- What it should restore. -/
def expectedOf (devices : List (DeviceSettings Source Output)) (i : Nat) :
    List (Option Nat × Option (StreamSettings Source Output)) :=
  devices[i]?.toList.flatMap fun dev =>
    (dev.streams.getD []).map fun entry => (some i, some entry)

theorem reset_all_arguments (private_data : PrivateData Source Output) :
    (mgwResetAll private_data).2.filterMap resetArguments =
      (List.range (intRounds (private_data.devices.getD []).length)).flatMap
        (deviceResets (private_data.devices.getD [])) ++
      (List.range (int32 (private_data.private_streams.getD []).length).toNat).map fun i =>
        (none, (private_data.private_streams.getD [])[i]?) := by
  unfold mgwResetAll
  dsimp only
  rw [List.filterMap_append, List.filterMap_flatMap, List.filterMap_flatMap]
  congr 1
  · apply List.flatMap_congr
    intro i _
    unfold deviceResets mgwDataArrayItem
    cases (private_data.devices.getD [])[i]? with
    | none => rfl
    | some dev =>
        simp only [Option.toList_some, List.flatMap_singleton, resetDevice]
        refine (List.filterMap_cons_none (f := resetArguments) rfl).trans ?_
        rw [List.filterMap_flatMap]
        simp only [stream_calls_arguments, ← List.map_eq_flatMap]
        rfl
  · simp only [stream_calls_arguments, ← List.map_eq_flatMap]
    rfl

theorem zip_idx_flat_map {Entry Value : Type*} (entries : List Entry)
    (part : Entry → Nat → List Value) :
    (entries.zipIdx.flatMap fun (entry, i) => part entry i) =
      (List.range entries.length).flatMap fun i => entries[i]?.toList.flatMap (part · i) := by
  induction entries using List.reverseRecOn with
  | nil => rfl
  | append_singleton entries entry ih =>
      have before : ∀ i ∈ List.range entries.length,
          ((entries ++ [entry])[i]?.toList.flatMap (part · i)) =
            entries[i]?.toList.flatMap (part · i) := by
        intro i member
        rw [List.getElem?_append_left (List.mem_range.mp member)]
      rw [List.zipIdx_append, List.flatMap_append, ih, List.length_append, List.length_singleton,
        List.range_succ, List.flatMap_append, List.flatMap_congr before]
      simp

theorem expected_parts (private_data : PrivateData Source Output) :
    expectedResets private_data =
      (List.range (private_data.devices.getD []).length).flatMap
        (expectedOf (private_data.devices.getD [])) ++
      (private_data.private_streams.getD []).map fun entry => (none, some entry) := by
  have parts := zip_idx_flat_map (private_data.devices.getD []) fun dev i =>
    (dev.streams.getD []).map fun entry => ((some i : Option Nat), some entry)
  exact congrArg (· ++ _) parts

theorem device_resets_tagged (devices : List (DeviceSettings Source Output)) (i : Nat) :
    ∀ one ∈ deviceResets devices i, one.1 = some i := by
  simp only [deviceResets, List.mem_flatMap, List.mem_map]
  rintro one ⟨dev, -, _, -, rfl⟩
  rfl

theorem expected_tagged (devices : List (DeviceSettings Source Output)) (i : Nat) :
    ∀ one ∈ expectedOf devices i, one.1 = some i := by
  simp only [expectedOf, List.mem_flatMap, List.mem_map]
  rintro one ⟨dev, -, _, -, rfl⟩
  rfl

/-- One device, where the loop over the devices gets to it. -/
theorem device_resets_iff {devices : List (DeviceSettings Source Output)} {i : Nat}
    {dev : DeviceSettings Source Output} (present : devices[i]? = some dev) :
    deviceResets devices i = expectedOf devices i ↔
      ∀ entry ∈ dev.streams.getD [], (dev.streams.getD [])[i]? = some entry ∧
        (dev.streams.getD []).length ≤ 2147483648 := by
  obtain ⟨streams, streamsDef⟩ : ∃ streams, streams = dev.streams.getD [] := ⟨_, rfl⟩
  unfold deviceResets expectedOf
  rw [present, Option.toList_some, List.flatMap_singleton, List.flatMap_singleton, ← streamsDef,
    List.map_const', List.length_range]
  constructor
  · intro same entry member
    have lengths := congrArg List.length same
    rw [List.length_replicate, List.length_map] at lengths
    refine ⟨?_, int_rounds_eq.mp lengths⟩
    have restored : (some i, some entry) ∈ streams.map fun entry => (some i, some entry) :=
      List.mem_map_of_mem member
    rw [← same] at restored
    exact (Prod.mk.inj (List.eq_of_mem_replicate restored)).2.symm
  · intro each
    symm
    rw [List.eq_replicate_iff, List.length_map]
    constructor
    · cases streams with
      | nil => rfl
      | cons entry streams => exact (int_rounds_eq.mpr (each entry List.mem_cons_self).2).symm
    · intro one member
      obtain ⟨entry, inside, rfl⟩ := List.mem_map.mp member
      rw [(each entry inside).1]

/-- Behind the last device that the counter can name there must be nothing to restore. -/
theorem range_int_rounds {Value : Type*} (part : Nat → List Value) (count : Nat)
    (behind : ∀ i, i < count → 2147483648 ≤ i → part i = []) :
    (List.range count).flatMap part = (List.range (intRounds count)).flatMap part := by
  obtain ⟨rest, parts⟩ : ∃ rest, count = intRounds count + rest :=
    ⟨count - intRounds count, by unfold intRounds; omega⟩
  conv_lhs => rw [parts, List.range_add, List.flatMap_append]
  have empty : ((List.range rest).map (intRounds count + ·)).flatMap part = [] := by
    rw [List.flatMap_eq_nil_iff]
    intro i member
    obtain ⟨offset, inside, rfl⟩ := List.mem_map.mp member
    have bound := List.mem_range.mp inside
    apply behind
    · omega
    · unfold intRounds at parts ⊢
      omega
  rw [empty, List.append_nil]

/-- What is restored with a device stands before what is restored without one. -/
theorem tagged_append {Value : Type*} {left left' right right' : List (Option Nat × Value)}
    (device : ∀ one ∈ left, one.1.isSome) (device' : ∀ one ∈ left', one.1.isSome)
    (none : ∀ one ∈ right, one.1 = none) (none' : ∀ one ∈ right', one.1 = .none) :
    left ++ right = left' ++ right' ↔ left = left' ∧ right = right' := by
  have own : ∀ {left right : List (Option Nat × Value)}, (∀ one ∈ left, one.1.isSome) →
      (∀ one ∈ right, one.1 = .none) → (left ++ right).filter (fun one => one.1.isSome) = left := by
    intro left right tagged untagged
    rw [List.filter_append, List.filter_eq_self.mpr tagged, List.filter_eq_nil_iff.mpr,
      List.append_nil]
    intro one member
    simp [untagged one member]
  constructor
  · intro same
    have lefts := congrArg (List.filter fun one => one.1.isSome) same
    rw [own device none, own device' none'] at lefts
    rw [lefts] at same
    exact ⟨lefts, List.append_cancel_left same⟩
  · rintro ⟨lefts, rights⟩
    rw [lefts, rights]

theorem devices_iff (devices : List (DeviceSettings Source Output)) :
    (List.range (intRounds devices.length)).flatMap (deviceResets devices) =
        (List.range devices.length).flatMap (expectedOf devices) ↔
      ∀ i dev, devices[i]? = some dev → ∀ entry ∈ dev.streams.getD [],
        (dev.streams.getD [])[i]? = some entry ∧
          i < 2147483648 ∧ (dev.streams.getD []).length ≤ 2147483648 := by
  constructor
  · intro same i dev present entry member
    have own := congrArg (List.filter fun one => one.1 = some i) same
    rw [filter_tagged (Option.some_injective Nat) _ (device_resets_tagged devices),
      filter_tagged (Option.some_injective Nat) _ (expected_tagged devices),
      if_pos (List.getElem?_eq_some_iff.mp present).1] at own
    have restored : (some i, some entry) ∈ expectedOf devices i := by
      unfold expectedOf
      rw [present, Option.toList_some, List.flatMap_singleton]
      exact List.mem_map_of_mem member
    split_ifs at own with reached
    · have parts := (device_resets_iff present).mp own entry member
      refine ⟨parts.1, ?_, parts.2⟩
      unfold intRounds at reached
      omega
    · rw [← own] at restored
      contradiction
  · intro each
    have behind : ∀ i, i < devices.length → 2147483648 ≤ i → expectedOf devices i = [] := by
      intro i bound far
      unfold expectedOf
      rw [List.getElem?_eq_getElem bound, Option.toList_some, List.flatMap_singleton,
        List.map_eq_nil_iff]
      apply List.eq_nil_iff_forall_not_mem.mpr
      intro entry member
      have near := (each i _ (List.getElem?_eq_getElem bound) entry member).2.1
      omega
    rw [range_int_rounds _ _ behind]
    apply List.flatMap_congr
    intro i member
    have bound : i < devices.length := by
      have inside := List.mem_range.mp member
      unfold intRounds at inside
      omega
    apply (device_resets_iff (List.getElem?_eq_getElem bound)).mpr
    intro entry inside
    have parts := each i _ (List.getElem?_eq_getElem bound) entry inside
    exact ⟨parts.1, parts.2.2⟩

theorem private_streams_iff (streams : List (StreamSettings Source Output)) :
    ((List.range (int32 streams.length).toNat).map fun i => ((none : Option Nat), streams[i]?)) =
        (streams.map fun entry => (none, some entry)) ↔
      streams.length < 2147483648 := by
  constructor
  · intro same
    have lengths := congrArg List.length same
    rw [List.length_map, List.length_map, List.length_range] at lengths
    exact int32_rounds_eq.mp lengths
  · intro few
    rw [int32_rounds_eq.mpr few]
    apply List.ext_getElem
    · simp
    · simp

end Restoring

def streamNamed (name : UInt8) : StreamSettings Nat Nat where
  name := [name]
  source := none
  outputs := none

def deviceWith (names : List UInt8) : DeviceSettings Nat Nat where
  type := []
  sn := [49]
  streams := some (names.map streamNamed)

end Mgw.ResetAll

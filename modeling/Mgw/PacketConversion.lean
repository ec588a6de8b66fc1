import Mgw.AvcKeyUnit
import Mgw.BlockHeap

/-!
# Packets between Annex B and AVCC

`mgw_avc_annexb2avcc` and `mgw_avc_avcc2annexb` of `codec-common.c` on packets whose
data lies in blocks of the heap. An access outside a live block leaves a conversion
without a result. Behind a start code of four bytes the descriptor is copied, behind
one of three bytes only the data is.
-/

namespace Mgw.PacketConversion

open AnnexB (startCode be32 be32Value)
open AvcKeyUnit (mgwAvcGetStartcodeLen stringReads)
open AvcPacket (EncoderType)
open BlockHeap WordArithmetic

set_option autoImplicit false

/-- `struct encoder_packet`; a null pointer is no block. -/
structure EncoderPacket where
  data : Option Nat
  size : Nat
  pts : Int
  dts : Int
  timebase_num : Int
  timebase_den : Int
  type : EncoderType
  keyframe : Bool
  dts_usec : Int
  sys_dts_usec : Int
  priority : Int
  drop_priority : Int
  track_idx : Nat
  refs : Int

/-- The memory, the two packets and the result of a conversion. -/
structure Conversion where
  heap : Heap
  annexb_pkt : EncoderPacket
  avcc_pkt : EncoderPacket
  result : Bool

section Conversions

variable (heap : Heap)

def mgwAvcAvcc2annexb (avcc_pkt annexb_pkt : EncoderPacket) : Option Conversion :=
  if avcc_pkt.data.isNone then some ⟨heap, annexb_pkt, avcc_pkt, false⟩
  else (heap.write avcc_pkt.data [0, 0, 0, 1]).map fun patched => ⟨patched, avcc_pkt, avcc_pkt, true⟩

/-- The length code of the start code as a `size_t`. -/
def storedCode : Option Nat → Nat
  | none => sizeRange - 1
  | some code => code

def contentsAt (pointer : Option Nat) : List UInt8 := (pointer.bind heap.blocks).getD []

def mgwAvcAnnexb2avcc (annexb_pkt avcc_pkt : EncoderPacket) : Option Conversion :=
  if annexb_pkt.data.isNone ∨ annexb_pkt.size = 0 then some ⟨heap, annexb_pkt, avcc_pkt, false⟩
  else
    (mgwAvcGetStartcodeLen (stringReads (contentsAt heap annexb_pkt.data) 0) 0).bind fun code =>
      let start_code := storedCode code
      if start_code = 3 then
        let size := addSize annexb_pkt.size 1
        let length := be32 (sub32 (u32 annexb_pkt.size) 3)
        let copied := subSize annexb_pkt.size 3
        (heap.realloc avcc_pkt.data size).bind fun grown =>
          let data := some (grown.count - 1)
          (grown.write data length).bind fun put =>
            (put.read annexb_pkt.data (3 + copied)).bind fun bytes =>
              (put.writeAt data 4 (bytes.drop 3)).bind fun filled =>
                (filled.free annexb_pkt.data).map fun freed =>
                  ⟨freed, annexb_pkt, { avcc_pkt with data := data, size := size }, true⟩
      else if start_code = 4 then
        (heap.write annexb_pkt.data (be32 (sub32 (u32 annexb_pkt.size) 4))).map fun patched =>
          ⟨patched, annexb_pkt, annexb_pkt, true⟩
      else some ⟨heap, annexb_pkt, avcc_pkt, false⟩

end Conversions

/-- The fields that are not the payload. -/
structure SameFields (left right : EncoderPacket) : Prop where
  pts : left.pts = right.pts
  dts : left.dts = right.dts
  type : left.type = right.type
  keyframe : left.keyframe = right.keyframe
  priority : left.priority = right.priority
  track_idx : left.track_idx = right.track_idx

/-- The packet has this payload and the fields of `source`. -/
structure Carries (heap : Heap) (source packet : EncoderPacket) (payload : List UInt8) : Prop where
  payload : heap.read packet.data packet.size = some payload
  fields : SameFields source packet

/-- The unit goes behind its length into `avcc_pkt`, and from there behind a start code of
four bytes into `back`. -/
def Converts (heap : Heap) (annexb_pkt avcc_pkt back : EncoderPacket) (unit : List UInt8) : Prop :=
  ∃ out restored first second third fourth,
    mgwAvcAnnexb2avcc heap annexb_pkt avcc_pkt = some out ∧ out.result = true ∧
      be32Value first second third fourth = unit.length ∧
      Carries out.heap annexb_pkt out.avcc_pkt ([first, second, third, fourth] ++ unit) ∧
    mgwAvcAvcc2annexb out.heap out.avcc_pkt back = some restored ∧ restored.result = true ∧
      Carries restored.heap annexb_pkt restored.annexb_pkt ([0, 0, 0, 1] ++ unit)

def Refuses (heap : Heap) (annexb_pkt avcc_pkt : EncoderPacket) : Prop :=
  mgwAvcAnnexb2avcc heap annexb_pkt avcc_pkt = some ⟨heap, annexb_pkt, avcc_pkt, false⟩

section Probe

theorem string_reads_zero (contents : List UInt8) (place : Nat) :
    stringReads contents 0 place = contents[place]? := by
  rw [stringReads, if_pos (Nat.zero_le place), Nat.sub_zero]

theorem probe_code (long : Bool) (rest : List UInt8) :
    mgwAvcGetStartcodeLen (stringReads (startCode long ++ rest) 0) 0 =
      some (some (startCode long).length) := by
  cases long <;> simp [mgwAvcGetStartcodeLen, string_reads_zero, startCode]

/-- The probe reads up to the byte that decides. -/
theorem probe_none {contents : List UInt8} :
    mgwAvcGetStartcodeLen (stringReads contents 0) 0 = some none ↔
      ¬contents <+: [0, 0, 0] ∧ ∀ long, ¬startCode long <+: contents := by
  simp only [mgwAvcGetStartcodeLen, string_reads_zero, startCode, Bool.forall_bool]
  rcases contents with _ | ⟨first, _ | ⟨second, _ | ⟨third, _ | ⟨fourth, rest⟩⟩⟩⟩
  · simp
  · simp
  · simp
  · simp
    grind
  · simp
    grind

end Probe

section Paths

variable {heap : Heap} {annexb_pkt avcc_pkt back : EncoderPacket} {block : Nat}
  {unit rest : List UInt8}

theorem be32_length (value : Nat) : (be32 value).length = 4 := rfl

/-- The length that goes in front of the unit. -/
theorem unit_length {length code : Nat} (bound : length < wordSize) :
    sub32 (u32 (length + code)) code = length := by
  simp only [sub32, u32, wordSize] at bound ⊢
  omega

/-- The unit is what is copied from behind a start code of three bytes. -/
theorem short_copied (unit rest : List UInt8) :
    3 + unit.length ≤ (startCode false ++ (unit ++ rest)).length ∧
      ((startCode false ++ (unit ++ rest)).take (3 + unit.length)).drop 3 = unit := by
  constructor
  · rw [List.length_append, List.length_append, AnnexB.start_code_length]
    simp
  · rw [Nat.add_comm]
    simp [startCode]

theorem contents_at {contents : List UInt8} (data : annexb_pkt.data = some block)
    (live : heap.blocks block = some contents) : contentsAt heap annexb_pkt.data = contents := by
  rw [contentsAt, data, Option.bind_some, live, Option.getD_some]

/-- Behind four bytes the descriptor is copied and the data stays where it is. -/
theorem long_converted (avcc_pkt : EncoderPacket) (data : annexb_pkt.data = some block)
    (live : heap.blocks block = some (startCode true ++ (unit ++ rest)))
    (size : annexb_pkt.size = unit.length + 4) (bound : unit.length < wordSize) :
    ∃ after, mgwAvcAnnexb2avcc heap annexb_pkt avcc_pkt =
        some ⟨after, annexb_pkt, annexb_pkt, true⟩ ∧
      after.blocks block = some (be32 unit.length ++ (unit ++ rest)) := by
  have given : ¬(annexb_pkt.data.isNone ∨ annexb_pkt.size = 0) := by
    rw [data, size]
    simp
  have room : (be32 unit.length).length ≤ (startCode true ++ (unit ++ rest)).length := by
    rw [List.length_append]
    exact Nat.le_add_right _ _
  obtain ⟨after, patched, held, -⟩ := write_block (be32 unit.length) live room
  refine ⟨after, ?_, held⟩
  unfold mgwAvcAnnexb2avcc
  rw [if_neg given, contents_at data live, probe_code, Option.bind_some]
  dsimp only [storedCode]
  have four : (startCode true).length = 4 := rfl
  rw [if_neg (by decide), if_pos four, size, unit_length bound, data, patched, Option.map_some]

/-- The output packet may be reallocated, and the input's data is still there afterwards. -/
def Own (heap : Heap) (annexb_pkt avcc_pkt : EncoderPacket) : Prop :=
  ∀ old ∈ avcc_pkt.data, annexb_pkt.data ≠ some old ∧ heap.blocks old ≠ none

/-- A new block gets the length and the unit, before the old one is released. -/
theorem unit_moved (numbered : heap.Numbered) (own : Own heap annexb_pkt avcc_pkt)
    (data : annexb_pkt.data = some block)
    (live : heap.blocks block = some (startCode false ++ (unit ++ rest))) :
    ∃ grown put bytes filled freed,
      heap.realloc avcc_pkt.data (unit.length + 4) = some grown ∧ grown.count = heap.count + 1 ∧
      grown.write (some heap.count) (be32 unit.length) = some put ∧
      put.read (some block) (3 + unit.length) = some bytes ∧
      put.writeAt (some heap.count) 4 (bytes.drop 3) = some filled ∧
      filled.free (some block) = some freed ∧
      freed.blocks heap.count = some (be32 unit.length ++ unit) := by
  have apart : block ≠ heap.count := Nat.ne_of_lt (live_numbered numbered live)
  obtain ⟨grown, fresh, moved, count, new, room, kept⟩ := realloc_live (unit.length + 4)
    fun old held => (own old held).2
  obtain ⟨put, length, worded, kept'⟩ := write_block (be32 unit.length) new
    (by rw [room]; exact Nat.le_add_left _ _)
  have whole : (be32 unit.length ++ fresh.drop (be32 unit.length).length).length =
      4 + unit.length := by
    rw [List.length_append, List.length_drop, be32_length, room]
    omega
  have source : put.blocks block = some (startCode false ++ (unit ++ rest)) := by
    rw [kept' block apart, kept block (fun held => (own block held).1 data) apart, live]
  obtain ⟨inside, behind⟩ := short_copied unit rest
  obtain ⟨filled, copy, written, kept''⟩ := write_at_block 4 unit worded (Nat.le_of_eq whole.symm)
  have remains : filled.blocks block = some (startCode false ++ (unit ++ rest)) := by
    rw [kept'' block apart, source]
  obtain ⟨freed, release⟩ : ∃ freed, filled.free (some block) = some freed :=
    ⟨_, free_live remains⟩
  obtain ⟨-, -, others⟩ := free_cases release
  refine ⟨grown, put, _, filled, freed, moved, count, length, read_live source inside,
    by rw [behind]; exact copy, release, ?_⟩
  rw [others heap.count (fun held => apart (Option.some.inj held)), written,
    List.take_left' (be32_length unit.length), List.drop_of_length_le (Nat.le_of_eq whole),
    List.append_nil]

/-- Behind three bytes the data is copied and nothing else. -/
theorem short_converted (numbered : heap.Numbered) (own : Own heap annexb_pkt avcc_pkt)
    (data : annexb_pkt.data = some block)
    (live : heap.blocks block = some (startCode false ++ (unit ++ rest)))
    (size : annexb_pkt.size = unit.length + 3) (bound : unit.length < wordSize) :
    ∃ after, mgwAvcAnnexb2avcc heap annexb_pkt avcc_pkt = some ⟨after, annexb_pkt,
        { avcc_pkt with data := some heap.count, size := unit.length + 4 }, true⟩ ∧
      after.blocks heap.count = some (be32 unit.length ++ unit) := by
  have given : ¬(annexb_pkt.data.isNone ∨ annexb_pkt.size = 0) := by
    rw [data, size]
    simp
  have added : addSize annexb_pkt.size 1 = unit.length + 4 := by
    simp only [addSize, size, sizeRange, wordSize] at bound ⊢
    omega
  have copied : subSize annexb_pkt.size 3 = unit.length := by
    simp only [subSize, size, sizeRange, wordSize] at bound ⊢
    omega
  have three : (startCode false).length = 3 := rfl
  obtain ⟨grown, put, bytes, filled, freed, moved, count, length, taken, copy, release, held⟩ :=
    unit_moved numbered own data live
  refine ⟨freed, ?_, held⟩
  unfold mgwAvcAnnexb2avcc
  rw [if_neg given, contents_at data live, probe_code, Option.bind_some]
  dsimp only [storedCode]
  rw [if_pos three, added, copied, size, unit_length bound, moved, Option.bind_some, count,
    Nat.add_sub_cancel, length, Option.bind_some, data, taken, Option.bind_some, copy,
    Option.bind_some, release, Option.map_some]

/-- A packet with a length in front of the unit has its way back. -/
theorem converts_of {after : Heap} {converted : EncoderPacket}
    (forth : mgwAvcAnnexb2avcc heap annexb_pkt avcc_pkt = some ⟨after, annexb_pkt, converted, true⟩)
    (data : converted.data = some block)
    (live : after.blocks block = some (be32 unit.length ++ (unit ++ rest)))
    (size : converted.size = unit.length + 4) (bound : unit.length < wordSize)
    (fields : SameFields annexb_pkt converted) : Converts heap annexb_pkt avcc_pkt back unit := by
  have reads : ∀ {heap' : Heap} {word : List UInt8}, word.length = 4 →
      heap'.blocks block = some (word ++ (unit ++ rest)) →
        heap'.read converted.data converted.size = some (word ++ unit) := by
    intro heap' word four held
    have whole : (word ++ unit).length = unit.length + 4 := by
      rw [List.length_append, four, Nat.add_comm]
    rw [← List.append_assoc] at held
    rw [data, size, read_live held (by rw [List.length_append, whole]; exact Nat.le_add_right _ _),
      List.take_left' whole]
  obtain ⟨patched, back', restored, -⟩ := write_block [0, 0, 0, 1] live
    (by rw [List.length_append, be32_length]; exact Nat.le_add_right _ _)
  have replaced : mgwAvcAvcc2annexb after converted back =
      some ⟨patched, converted, converted, true⟩ := by
    rw [mgwAvcAvcc2annexb, data, if_neg (by simp), back', Option.map_some]
  refine ⟨_, _, _, _, _, _, forth, rfl, AnnexB.be32_value bound, ⟨reads rfl live, fields⟩, replaced,
    rfl, reads rfl restored, fields⟩

/-- What the path of three bytes leaves in the output packet. -/
theorem short_cases {out : Conversion} (numbered : heap.Numbered) (data : annexb_pkt.data = some block)
    (live : heap.blocks block = some (startCode false ++ (unit ++ rest)))
    (size : annexb_pkt.size ≠ 0)
    (forth : mgwAvcAnnexb2avcc heap annexb_pkt avcc_pkt = some out) :
    Own heap annexb_pkt avcc_pkt ∧
      ∃ data size, out.avcc_pkt = { avcc_pkt with data := data, size := size } := by
  have given : ¬(annexb_pkt.data.isNone ∨ annexb_pkt.size = 0) := by
    rw [data]
    simp [size]
  have three : (startCode false).length = 3 := rfl
  unfold mgwAvcAnnexb2avcc at forth
  rw [if_neg given, contents_at data live, probe_code, Option.bind_some] at forth
  dsimp only [storedCode] at forth
  rw [if_pos three] at forth
  obtain ⟨grown, moved, forth⟩ := Option.bind_eq_some_iff.mp forth
  obtain ⟨put, length, forth⟩ := Option.bind_eq_some_iff.mp forth
  obtain ⟨bytes, given', forth⟩ := Option.bind_eq_some_iff.mp forth
  obtain ⟨filled, copy, forth⟩ := Option.bind_eq_some_iff.mp forth
  obtain ⟨freed, release, same⟩ := Option.map_eq_some_iff.mp forth
  refine ⟨?_, _, _, by rw [← same]⟩
  intro old held
  obtain ⟨count, gone⟩ := realloc_cases numbered moved
  obtain ⟨live', gone⟩ := gone old held
  refine ⟨?_, live'⟩
  intro shared
  have apart : old ∉ some (grown.count - 1) := by
    intro equal
    obtain ⟨contents, held'⟩ := Option.ne_none_iff_exists'.mp live'
    have before := live_numbered numbered held'
    have last := Option.some.inj equal
    omega
  rw [shared, read_released (by rw [write_kept length old apart, gone]) (by omega)] at given'
  contradiction

end Paths

/-- The packet need not be allocated for, or the output packet can be and has the fields. -/
def Prepared (heap : Heap) (annexb_pkt avcc_pkt : EncoderPacket) (long : Bool) : Prop :=
  long = true ∨ Own heap annexb_pkt avcc_pkt ∧ SameFields annexb_pkt avcc_pkt

/-- The packet is empty, or its block has the bytes that the probe reads and none of them
begin a start code. -/
def Codeless (heap : Heap) (annexb_pkt : EncoderPacket) : Prop :=
  annexb_pkt.size = 0 ∨
    ¬contentsAt heap annexb_pkt.data <+: [0, 0, 0] ∧
      ∀ long, ¬startCode long <+: contentsAt heap annexb_pkt.data

section Packets

variable {heap : Heap} {annexb_pkt avcc_pkt back : EncoderPacket} {unit : List UInt8}
  {long : Bool}

theorem converts_prepared (numbered : heap.Numbered)
    (payload : heap.read annexb_pkt.data annexb_pkt.size = some (startCode long ++ unit))
    (positive : annexb_pkt.size ≠ 0) (converts : Converts heap annexb_pkt avcc_pkt back unit) :
    Prepared heap annexb_pkt avcc_pkt long ∧ unit.length < wordSize := by
  obtain ⟨out, _, first, second, third, fourth, forth, -, length, carries, -⟩ := converts
  constructor
  · cases long with
    | true => exact Or.inl rfl
    | false =>
        obtain ⟨block, rest, data, live, -⟩ := read_block payload positive
        rw [List.append_assoc] at live
        obtain ⟨own, data', size', same⟩ := short_cases numbered data live positive forth
        have fields := carries.fields
        rw [same] at fields
        exact Or.inr ⟨own, ⟨fields.pts, fields.dts, fields.type, fields.keyframe, fields.priority,
          fields.track_idx⟩⟩
  · have top := first.toNat_lt
    have next := second.toNat_lt
    have then' := third.toNat_lt
    have last := fourth.toNat_lt
    simp only [be32Value] at length
    simp only [wordSize]
    omega

theorem prepared_converts (numbered : heap.Numbered)
    (payload : heap.read annexb_pkt.data annexb_pkt.size = some (startCode long ++ unit))
    (positive : annexb_pkt.size ≠ 0) (prepared : Prepared heap annexb_pkt avcc_pkt long)
    (bound : unit.length < wordSize) : Converts heap annexb_pkt avcc_pkt back unit := by
  obtain ⟨block, rest, data, live, size⟩ := read_block payload positive
  rw [List.append_assoc] at live
  rw [List.length_append, Nat.add_comm] at size
  cases long with
  | true =>
      obtain ⟨after, forth, held⟩ := long_converted avcc_pkt data live size.symm bound
      exact converts_of forth data held size.symm bound ⟨rfl, rfl, rfl, rfl, rfl, rfl⟩
  | false =>
      rcases prepared with impossible | ⟨own, fields⟩
      · contradiction
      obtain ⟨after, forth, held⟩ := short_converted numbered own data live size.symm bound
      have held' : after.blocks heap.count = some (be32 unit.length ++ (unit ++ [])) := by
        rw [List.append_nil]
        exact held
      exact converts_of forth rfl held' rfl bound
        ⟨fields.pts, fields.dts, fields.type, fields.keyframe, fields.priority, fields.track_idx⟩

/-- A packet behind a code is not refused, whatever becomes of it. -/
theorem refuses_no_code (refuses : Refuses heap annexb_pkt avcc_pkt)
    (given : ¬(annexb_pkt.data.isNone ∨ annexb_pkt.size = 0)) :
    mgwAvcGetStartcodeLen (stringReads (contentsAt heap annexb_pkt.data) 0) 0 = some none := by
  rw [Refuses, mgwAvcAnnexb2avcc, if_neg given] at refuses
  obtain ⟨code, probed, result⟩ := Option.bind_eq_some_iff.mp refuses
  cases code with
  | none => exact probed
  | some length =>
      have found : mgwAvcGetStartcodeLen (stringReads (contentsAt heap annexb_pkt.data) 0) (0 + 0) =
          some (some length) := probed
      obtain ⟨-, finds⟩ := AvcKeyUnit.probe_sound found
      dsimp only [storedCode] at result
      rcases finds with ⟨rfl, -⟩ | ⟨rfl, -, -⟩
      · rw [if_pos rfl] at result
        obtain ⟨grown, -, result⟩ := Option.bind_eq_some_iff.mp result
        obtain ⟨put, -, result⟩ := Option.bind_eq_some_iff.mp result
        obtain ⟨bytes, -, result⟩ := Option.bind_eq_some_iff.mp result
        obtain ⟨filled, -, result⟩ := Option.bind_eq_some_iff.mp result
        obtain ⟨freed, -, same⟩ := Option.map_eq_some_iff.mp result
        have accepted := congrArg Conversion.result same
        contradiction
      · rw [if_neg (by decide), if_pos rfl] at result
        obtain ⟨patched, -, same⟩ := Option.map_eq_some_iff.mp result
        have accepted := congrArg Conversion.result same
        contradiction

theorem refuses_codeless {bytes : List UInt8}
    (payload : heap.read annexb_pkt.data annexb_pkt.size = some bytes) :
    Refuses heap annexb_pkt avcc_pkt ↔ Codeless heap annexb_pkt := by
  by_cases empty : annexb_pkt.size = 0
  · refine ⟨fun _ => Or.inl empty, fun _ => ?_⟩
    rw [Refuses, mgwAvcAnnexb2avcc, if_pos (Or.inr empty)]
  obtain ⟨block, rest, data, -, -⟩ := read_block payload empty
  have given : ¬(annexb_pkt.data.isNone ∨ annexb_pkt.size = 0) := by
    rw [data]
    simp [empty]
  constructor
  · intro refuses
    exact Or.inr (probe_none.mp (refuses_no_code refuses given))
  · intro codeless
    have probed := probe_none.mpr (codeless.resolve_left empty)
    rw [Refuses, mgwAvcAnnexb2avcc, if_neg given, probed, Option.bind_some]
    dsimp only [storedCode]
    rw [if_neg (by decide), if_neg (by decide)]

/-- A unit is converted there and back behind a start code of four bytes, and behind one of
three bytes where the output packet had the fields before; a packet without a start code is
refused where none follows in its block. -/
theorem packets_converted_iff (numbered : heap.Numbered) {bytes : List UInt8}
    (payload : heap.read annexb_pkt.data annexb_pkt.size = some bytes) :
    (∀ long unit, bytes = startCode long ++ unit →
      (Converts heap annexb_pkt avcc_pkt back unit ↔
        Prepared heap annexb_pkt avcc_pkt long ∧ unit.length < wordSize)) ∧
    ((∀ long, ¬startCode long <+: bytes) →
      (Refuses heap annexb_pkt avcc_pkt ↔ Codeless heap annexb_pkt)) := by
  constructor
  · intro long unit same
    rw [same] at payload
    have positive : annexb_pkt.size ≠ 0 := by
      intro empty
      rw [empty, Heap.read, if_pos rfl] at payload
      have none := congrArg List.length (Option.some.inj payload)
      rw [List.length_append, AnnexB.start_code_length, List.length_nil] at none
      split_ifs at none <;> omega
    constructor
    · exact converts_prepared numbered payload positive
    · intro prepared
      exact prepared_converts numbered payload positive prepared.1 prepared.2
  · intro _
    exact refuses_codeless payload

/-- A packet of zeros. -/
def zeroPacket : EncoderPacket where
  data := none
  size := 0
  pts := 0
  dts := 0
  timebase_num := 0
  timebase_den := 0
  type := .audio
  keyframe := false
  dts_usec := 0
  sys_dts_usec := 0
  priority := 0
  drop_priority := 0
  track_idx := 0
  refs := 0

/-- A key frame in the first block. -/
def keyPacket (size : Nat) : EncoderPacket :=
  { zeroPacket with data := some 0, size := size, pts := 40, dts := 40, type := .video, keyframe := true }

theorem packets_converted_iff_long : Converts (Heap.empty.malloc [0, 0, 0, 1, 0x65, 0x88])
    (keyPacket 6) zeroPacket zeroPacket [0x65, 0x88] := by
  have numbered := malloc_numbered numbered_empty [0, 0, 0, 1, 0x65, 0x88]
  have payload : (Heap.empty.malloc [0, 0, 0, 1, 0x65, 0x88]).read (keyPacket 6).data
      (keyPacket 6).size = some [0, 0, 0, 1, 0x65, 0x88] := read_live (malloc_new _) (Nat.le_refl 6)
  exact ((packets_converted_iff numbered payload).1 true [0x65, 0x88] rfl).mpr
    ⟨Or.inl rfl, by decide⟩

theorem short_fields_lost : ¬Converts (Heap.empty.malloc [0, 0, 1, 0x65, 0x88])
    (keyPacket 5) zeroPacket zeroPacket [0x65, 0x88] := by
  intro converts
  have numbered := malloc_numbered numbered_empty [0, 0, 1, 0x65, 0x88]
  have payload : (Heap.empty.malloc [0, 0, 1, 0x65, 0x88]).read (keyPacket 5).data
      (keyPacket 5).size = some (startCode false ++ [0x65, 0x88]) :=
    read_live (malloc_new _) (Nat.le_refl 5)
  rcases (converts_prepared numbered payload (by decide) converts).1 with long | ⟨-, fields⟩
  · contradiction
  · exact absurd fields.keyframe (by decide)

end Packets

end Mgw.PacketConversion

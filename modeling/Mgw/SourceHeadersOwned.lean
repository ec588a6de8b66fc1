import Mgw.SourceHeaders
import Mgw.TransitionRuns

/-!
# Who owns a header block

What becomes of a header, told by the calls alone: it is unset, or holds the bytes
last set, or its block has been released while the source still points to it. As long
as no call touches a header of the last kind, the sources run as these slots do.
-/

namespace Mgw.SourceHeaders

open AvcPacket BlockHeap TransitionRuns

set_option autoImplicit false

inductive HeaderSlot where
  | unset
  | held (bytes : List UInt8)
  | spent
  deriving DecidableEq

/-- Nothing releases what is held. -/
def HeaderSlot.put (slot : HeaderSlot) (data : List UInt8) : HeaderSlot :=
  if data = [] then if slot = .unset then .unset else .spent else .held data

/-- The output releases what it was handed. -/
def HeaderSlot.give (slot : HeaderSlot) : HeaderSlot := if slot = .unset then .unset else .spent

def HeaderSlot.bytes : HeaderSlot → List UInt8
  | .held bytes => bytes
  | _ => []

section Slots

variable {heap : Heap} {mem : Bmem} {slot : HeaderSlot}

/-- The buffer is as the slot says. -/
def Backs (heap : Heap) (mem : Bmem) : HeaderSlot → Prop
  | .unset => mem = Bmem.init
  | .held bytes => mem.len = bytes.length ∧ ∃ block rest,
      mem.array = some block ∧ heap.blocks block = some (bytes ++ rest)
  | .spent => ∃ block < heap.count, mem.array = some block ∧ heap.blocks block = none

/-- At most the buffer's own block is released or overwritten; a new array is a new block. -/
structure OwnBlock (heap : Heap) (mem : Bmem) (after : Heap) (mem' : Bmem) : Prop where
  count : heap.count ≤ after.count
  numbered : after.Numbered
  others : ∀ block < heap.count, mem.array ≠ some block → after.blocks block = heap.blocks block
  array : mem'.array = mem.array ∨
    ∃ block, mem'.array = some block ∧ heap.count ≤ block ∧ block < after.count

theorem free_unset (unset : Backs heap mem .unset) : bmemFree heap mem = some (heap, mem) := by
  have null : mem.array = none := by
    rw [show mem = Bmem.init from unset]
    rfl
  rw [bmemFree, null]
  rfl

theorem free_spent (spent : Backs heap mem .spent) :
    heap.free mem.array = none ∧ bmemFree heap mem = none := by
  obtain ⟨block, -, array, released⟩ := spent
  have freed : heap.free mem.array = none := by rw [array, free_released released]
  refine ⟨freed, ?_⟩
  rw [bmemFree, freed, array]
  rfl

/-- The array of a held header is released and stays where it was. -/
theorem release_held {bytes : List UInt8} (numbered : heap.Numbered)
    (held : Backs heap mem (.held bytes)) :
    ∃ after, heap.free mem.array = some after ∧ OwnBlock heap mem after mem ∧
      Backs after mem .spent := by
  obtain ⟨-, block, rest, array, live⟩ := held
  have freed := free_live live
  obtain ⟨count, gone, kept⟩ := free_cases freed
  rw [array]
  refine ⟨_, freed, ⟨Nat.le_refl _, free_numbered numbered freed, ?_, Or.inl rfl⟩, ?_⟩
  · intro other _ different
    exact kept other fun same => different (array.trans same)
  · exact ⟨block, (live_numbered numbered live : block < heap.count), array, gone block rfl⟩

/-- Setting nothing. -/
theorem buffer_freed (numbered : heap.Numbered) (backs : Backs heap mem slot)
    (usable : slot ≠ .spent) :
    ∃ after mem', bmemFree heap mem = some (after, mem') ∧ OwnBlock heap mem after mem' ∧
      Backs after mem' (slot.put []) := by
  cases slot with
  | unset =>
      exact ⟨heap, mem, free_unset backs,
        ⟨Nat.le_refl _, numbered, fun _ _ _ => rfl, Or.inl rfl⟩, backs⟩
  | held bytes =>
      obtain ⟨after, freed, own, block, bound, array, released⟩ := release_held numbered backs
      refine ⟨after, { mem with len := 0 }, ?_, ⟨own.count, own.numbered, own.others, Or.inl rfl⟩,
        block, bound, array, released⟩
      rw [bmemFree, freed, array]
      rfl
  | spent => contradiction

/-- Setting bytes where there is no array yet. -/
theorem first_copy (numbered : heap.Numbered) {data : List UInt8} (some' : data ≠ []) :
    ∃ after mem', bmemCopy heap Bmem.init data = some (after, mem') ∧
      OwnBlock heap Bmem.init after mem' ∧ Backs after mem' (.held data) := by
  have positive := List.length_pos_of_ne_nil some'
  have grown : ensureBmemCapacity heap Bmem.init data.length =
      some (heap.malloc (List.replicate data.length 0), ⟨some heap.count, data.length⟩) := by
    unfold ensureBmemCapacity
    rw [if_neg (show ¬data.length ≤ Bmem.init.len from Nat.not_le.mpr positive)]
    rfl
  have filled : data.length = (List.replicate data.length (0 : UInt8)).length :=
    List.length_replicate.symm
  have written := write_new heap filled
  refine ⟨heap.malloc data, ⟨some heap.count, data.length⟩, ?_, ?_, ?_⟩
  · rw [bmemCopy, if_neg some', grown, Option.bind_some, written]
    rfl
  · refine ⟨Nat.le_succ _, malloc_numbered numbered data, ?_, Or.inr ⟨heap.count, rfl, ?_, ?_⟩⟩
    · intro block bound _
      exact malloc_other data (by omega)
    · exact Nat.le_refl _
    · exact Nat.lt_succ_self _
  · exact ⟨rfl, heap.count, [], rfl, by rw [malloc_new, List.append_nil]⟩

/-- What was there is overwritten. -/
theorem fitting_copy (numbered : heap.Numbered) {bytes data : List UInt8} (some' : data ≠ [])
    (fits : data.length ≤ mem.len) (held : Backs heap mem (.held bytes)) :
    ∃ after mem', bmemCopy heap mem data = some (after, mem') ∧
      OwnBlock heap mem after mem' ∧ Backs after mem' (.held data) := by
  obtain ⟨len, block, rest, array, live⟩ := held
  have bound := live_numbered numbered live
  have inside : (List.replicate mem.len (0 : UInt8)).length ≤ (bytes ++ rest).length := by
    rw [List.length_replicate, len, List.length_append]
    omega
  have shorter : data.length ≤ (List.replicate mem.len (0 : UInt8)).length := by
    rw [List.length_replicate]
    exact fits
  obtain ⟨left, written⟩ := write_twice live inside shorter
  obtain ⟨cleared, clearing, copying⟩ := Option.bind_eq_some_iff.mp written
  refine ⟨Heap.mk (Function.update heap.blocks block (some (data ++ left))) heap.count,
    { mem with len := data.length }, ?_, ⟨Nat.le_refl _, ?_, ?_, Or.inl rfl⟩,
    rfl, block, left, array, Function.update_self _ _ _⟩
  · rw [bmemCopy, if_neg some', ensureBmemCapacity, if_pos fits, array, clearing, Option.map_some,
      Option.bind_some]
    dsimp only
    rw [array, copying]
    rfl
  · intro other past
    change heap.count ≤ other at past
    dsimp only
    rw [Function.update_of_ne (by omega)]
    exact numbered other past
  · intro other _ different
    exact Function.update_of_ne (fun same => different (by rw [array, same])) _ _

/-- The block is moved to a larger one. -/
theorem growing_copy (numbered : heap.Numbered) {bytes data : List UInt8} (some' : data ≠ [])
    (grows : ¬data.length ≤ mem.len) (held : Backs heap mem (.held bytes)) :
    ∃ after mem', bmemCopy heap mem data = some (after, mem') ∧
      OwnBlock heap mem after mem' ∧ Backs after mem' (.held data) := by
  obtain ⟨freed, release, own, -⟩ := release_held numbered held
  obtain ⟨len, block, rest, array, live⟩ := held
  have moved : heap.realloc mem.array data.length = some (freed.malloc
      ((bytes ++ rest).take data.length ++
        List.replicate (data.length - (bytes ++ rest).length) 0)) := by
    rw [array] at release ⊢
    rw [Heap.realloc, live, Option.bind_some, release, Option.map_some]
  have filled : data.length = ((bytes ++ rest).take data.length ++
      List.replicate (data.length - (bytes ++ rest).length) 0).length := by
    rw [List.length_append, List.length_take, List.length_replicate]
    omega
  have written := write_new freed filled
  refine ⟨freed.malloc data, ⟨some freed.count, data.length⟩, ?_, ?_, ?_⟩
  · rw [bmemCopy, if_neg some', ensureBmemCapacity, if_neg grows, moved, Option.map_some,
      Option.bind_some]
    change ((freed.malloc _).write (some freed.count) data).map _ = _
    rw [written]
    rfl
  · refine ⟨Nat.le_succ_of_le own.count, malloc_numbered own.numbered data, ?_,
      Or.inr ⟨freed.count, rfl, own.count, Nat.lt_succ_self _⟩⟩
    intro other bound different
    rw [malloc_other data (by have := own.count; omega)]
    exact own.others other bound different
  · exact ⟨rfl, freed.count, [], rfl, by rw [malloc_new, List.append_nil]⟩

theorem copy_spent (spent : Backs heap mem .spent) (data : List UInt8) :
    bmemCopy heap mem data = none := by
  unfold bmemCopy
  split_ifs with nothing
  · exact (free_spent spent).2
  · obtain ⟨block, -, array, released⟩ := spent
    unfold ensureBmemCapacity
    split_ifs
    · rw [array, write_released released]
      rfl
    · rw [array, Heap.realloc, released]
      rfl

/-- `bmem_copy` on a header that is not spent. -/
theorem buffer_copied (numbered : heap.Numbered) (backs : Backs heap mem slot)
    (usable : slot ≠ .spent) (data : List UInt8) :
    ∃ after mem', bmemCopy heap mem data = some (after, mem') ∧ OwnBlock heap mem after mem' ∧
      Backs after mem' (slot.put data) := by
  by_cases nothing : data = []
  · rw [nothing, bmemCopy, if_pos rfl]
    exact buffer_freed numbered backs usable
  · have put : slot.put data = .held data := if_neg nothing
    rw [put]
    cases slot with
    | unset =>
        rw [show mem = Bmem.init from backs]
        exact first_copy numbered nothing
    | held bytes =>
        by_cases fits : data.length ≤ mem.len
        · exact fitting_copy numbered nothing fits backs
        · exact growing_copy numbered nothing fits backs
    | spent => contradiction

theorem backs_bounded (numbered : heap.Numbered) (backs : Backs heap mem slot) {block : Nat}
    (array : mem.array = some block) : block < heap.count := by
  cases slot with
  | unset =>
      rw [show mem = Bmem.init from backs] at array
      contradiction
  | held bytes =>
      obtain ⟨-, other, rest, same, live⟩ := backs
      rw [← Option.some.inj (same.symm.trans array)]
      exact live_numbered numbered live
  | spent =>
      obtain ⟨other, bound, same, -⟩ := backs
      rw [← Option.some.inj (same.symm.trans array)]
      exact bound

theorem backs_same {after : Heap} (count : heap.count ≤ after.count) (backs : Backs heap mem slot)
    (kept : ∀ block, mem.array = some block → after.blocks block = heap.blocks block) :
    Backs after mem slot := by
  cases slot with
  | unset => exact backs
  | held bytes =>
      obtain ⟨len, block, rest, array, live⟩ := backs
      exact ⟨len, block, rest, array, (kept block array).trans live⟩
  | spent =>
      obtain ⟨block, bound, array, released⟩ := backs
      exact ⟨block, Nat.lt_of_lt_of_le bound count, array, (kept block array).trans released⟩

/-- Another buffer is as it was. -/
theorem backs_kept {after : Heap} {changed changed' : Bmem} (numbered : heap.Numbered)
    (own : OwnBlock heap changed after changed') (backs : Backs heap mem slot)
    (apart : ∀ block, mem.array = some block → changed.array ≠ some block) :
    Backs after mem slot :=
  backs_same own.count backs fun block array =>
    own.others block (backs_bounded numbered backs array) (apart block array)

/-- A block that no buffer points to. -/
theorem own_malloc (numbered : heap.Numbered) (contents : List UInt8) :
    OwnBlock heap Bmem.init (heap.malloc contents) Bmem.init :=
  ⟨Nat.le_succ _, malloc_numbered numbered contents,
    fun _ bound _ => malloc_other contents (Nat.ne_of_lt bound), Or.inl rfl⟩

theorem own_refl (numbered : heap.Numbered) (mem : Bmem) : OwnBlock heap mem heap mem :=
  ⟨Nat.le_refl _, numbered, fun _ _ _ => rfl, Or.inl rfl⟩

/-- What was done to a header beside a new block, once that block is released. -/
theorem passing_released {between : Heap} {mem' : Bmem} {slot' : HeaderSlot} {bytes : List UInt8}
    (numbered : heap.Numbered) (backs : Backs heap mem slot)
    (own : OwnBlock (heap.malloc bytes) mem between mem') (changed : Backs between mem' slot') :
    ∃ after, between.free (some heap.count) = some after ∧ OwnBlock heap mem after mem' ∧
      Backs after mem' slot' ∧ after.blocks heap.count = none := by
  have other : mem.array ≠ some heap.count := by
    intro array
    exact Nat.lt_irrefl _ (backs_bounded numbered backs array)
  have live : between.blocks heap.count = some bytes := by
    rw [own.others heap.count (Nat.lt_succ_self _) other, malloc_new]
  have freed := free_live live
  obtain ⟨count, gone, kept⟩ := free_cases freed
  have apart : mem'.array ≠ some heap.count := by
    intro array
    rcases own.array with same | ⟨block, new, past, -⟩
    · exact other (same.symm.trans array)
    · rw [Option.some.inj (new.symm.trans array)] at past
      exact Nat.not_succ_le_self _ past
  refine ⟨_, freed, ⟨?_, free_numbered own.numbered freed, ?_, ?_⟩, ?_, gone heap.count rfl⟩
  · exact Nat.le_of_succ_le own.count
  · intro block bound different
    rw [kept block fun same => by
        rw [← Option.some.inj same] at bound
        exact Nat.lt_irrefl _ bound,
      own.others block (Nat.lt_succ_of_lt bound) different]
    exact malloc_other bytes (Nat.ne_of_lt bound)
  · rcases own.array with same | ⟨block, new, past, bound⟩
    · exact Or.inl same
    · exact Or.inr ⟨block, new, Nat.le_of_succ_le past, bound⟩
  · exact backs_same (Nat.le_of_eq count.symm) changed fun block array =>
      kept block fun same => apart (array.trans same.symm)

/-- `bmem_copy` from a block that is released behind it. -/
theorem header_kept (numbered : heap.Numbered) (backs : Backs heap mem slot)
    (usable : slot ≠ .spent) (header : Option Nat) (bytes : List UInt8) :
    ∃ after mem', keepHeader (getExtraData heap header (some bytes)) mem = some (after, mem') ∧
      OwnBlock heap mem after mem' ∧ Backs after mem' (slot.put bytes) ∧
      after.blocks heap.count = none := by
  obtain ⟨copied, mem', copy, own, copiedBacks⟩ := buffer_copied (malloc_numbered numbered bytes)
    (backs_kept numbered (own_malloc numbered bytes) backs fun _ _ => nofun) usable bytes
  obtain ⟨after, freed, owned, holds, gone⟩ := passing_released numbered backs own copiedBacks
  refine ⟨after, mem', ?_, owned, holds, gone⟩
  unfold keepHeader getExtraData
  change ((heap.malloc bytes).read (some heap.count) bytes.length).bind _ = _
  rw [read_live (malloc_new bytes) (Nat.le_refl _), List.take_length, Option.bind_some]
  change (bmemCopy (heap.malloc bytes) mem bytes).bind _ = _
  rw [copy, Option.bind_some]
  change (copied.free (some heap.count)).bind _ = _
  rw [freed]
  rfl

theorem header_spent (numbered : heap.Numbered) (spent : Backs heap mem .spent)
    (header : Option Nat) (bytes : List UInt8) :
    keepHeader (getExtraData heap header (some bytes)) mem = none := by
  unfold keepHeader getExtraData
  change ((heap.malloc bytes).read (some heap.count) bytes.length).bind _ = _
  rw [read_live (malloc_new bytes) (Nat.le_refl _), List.take_length, Option.bind_some]
  change (bmemCopy (heap.malloc bytes) mem bytes).bind _ = _
  rw [copy_spent (backs_kept numbered (own_malloc numbered bytes) spent fun _ _ => nofun),
    Option.bind_none]

/-- A header that is not spent is read as it is and released. -/
theorem header_released (numbered : heap.Numbered) (backs : Backs heap mem slot)
    (usable : slot ≠ .spent) :
    heap.read mem.array mem.len = some slot.bytes ∧
      ∃ after, heap.free mem.array = some after ∧ OwnBlock heap mem after mem ∧
        Backs after mem slot.give := by
  cases slot with
  | unset =>
      rw [show mem = Bmem.init from backs]
      exact ⟨rfl, heap, rfl, own_refl numbered Bmem.init, rfl⟩
  | held bytes =>
      refine ⟨?_, release_held numbered backs⟩
      obtain ⟨len, block, rest, array, live⟩ := backs
      rw [array, len, read_live live (by rw [List.length_append]; omega), List.take_left]
      rfl
  | spent => contradiction

end Slots

end Mgw.SourceHeaders

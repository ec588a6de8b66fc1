import Mathlib.Data.List.Induction
import Mgw.HeapMemory
import Mgw.TransitionRuns

/-!
# Where the contexts of one ring look

The addresses in the block of one name, as `CreateMallocMemory` lays it out and as
`CreateStreamBuff` computes them for every context. The block is that of the first
call; each context takes its own `frames` argument for the length of the table.
The registry and the counts are those of the heap contexts, here for one name, and
the allocation of a reader succeeds.
-/

namespace Mgw.StreamBuff

open HeapMemory TransitionRuns WordArithmetic

set_option autoImplicit false

/-- `sizeof(SmemoryHead)`, with pointers of eight bytes. -/
def sizeofSmemoryHead : Nat := 56

/-- The block of a name: where it begins, how many bytes were allocated, its head. -/
structure HeapBlock where
  address : Int
  uiSize : Nat
  head : SmemoryHead

/-- The pointers of `SMemoryPosition`. -/
structure Addresses where
  pstuHead : Int
  pstuFrames : Int
  pstuData : Int
  deriving DecidableEq

/-- The arguments of a call: `size` is an `unsigned int`, `frames` an `int`. The
rest is what the allocations and `list_en` answer. -/
structure CreateCall where
  size : Nat
  frames : Int
  mode : IoMode
  context : Bool
  block : Bool
  listed : Bool
  address : Int
  size_word : size < wordSize
  frames_int : -2147483648 ≤ frames ∧ frames < 2147483648

/-- One name: its block, and the addresses of the contexts in the order of their creation. -/
structure NamedRing where
  block : Option HeapBlock
  contexts : List Addresses

/-- Conversion to `unsigned int`. -/
def unsigned (value : Int) : Nat := (value % wordSize).toNat

namespace CreateCall

variable (call : CreateCall)

/-- The block that `CreateMallocMemory` allocates and `InitMemoryParam` fills. -/
def newBlock : HeapBlock where
  address := call.address
  uiSize := u32 (call.size + sizeofSmemoryHead + unsigned (sizeofSmemoryFrame * call.frames))
  head := (initMemoryParam zeroedBlock (unsigned call.frames) call.size).pstuHead

def createMallocMemory (found : Option HeapBlock) : Option HeapBlock :=
  match found with
  | some block =>
      if call.mode = .write ∧ 0 < block.head.ucWriterCount then none else some block
  | none => if call.block ∧ call.listed then some call.newBlock else none

/-- The pointers of the context, from the block's first address. -/
def positions (pHead : Int) : Addresses where
  pstuHead := pHead
  pstuFrames := pHead + sizeofSmemoryHead
  pstuData := pHead + sizeofSmemoryHead + sizeofSmemoryFrame * call.frames

end CreateCall

/-- The ring of the name behind `CreateStreamBuff`; a new context stands last. -/
def createContext (ring : NamedRing) (call : CreateCall) : NamedRing :=
  if 0 < call.size ∧ call.context then
    match call.createMallocMemory ring.block with
    | none => ring
    | some block =>
        { block := some { block with head := joined call.mode block.head }
          contexts := ring.contexts ++ [call.positions block.address] }
  else ring

/-- No context of the name yet. -/
def unused : NamedRing where
  block := none
  contexts := []

/-- A context's addresses are those of the one that created the block; the table
between them has as many entries as the head says, and from the data address to
the end of the block there are as many bytes as the head says. -/
structure LaysOut (block : HeapBlock) (creator context : Addresses) : Prop where
  head : context.pstuHead = block.address
  frames : context.pstuFrames = creator.pstuFrames
  data : context.pstuData = creator.pstuData
  table : context.pstuData = context.pstuFrames + sizeofSmemoryFrame * block.head.uiMaxValidFrames
  inside : context.pstuData + block.head.datasize = block.address + block.uiSize

/-- All contexts agree with the first one, which created the block. -/
def NamedRing.Agree (ring : NamedRing) : Prop :=
  ∀ block ∈ ring.block, ∀ creator ∈ ring.contexts.head?, ∀ context ∈ ring.contexts,
    LaysOut block creator context

/-- The call gets a context: there is memory for it, and no second writer. -/
def Admitted (ring : NamedRing) (call : CreateCall) : Prop :=
  0 < call.size ∧ call.context = true ∧
    match ring.block with
    | some block => ¬(call.mode = .write ∧ 0 < block.head.ucWriterCount)
    | none => call.block = true ∧ call.listed = true

/-- What is asked of a call that gets a context: the first one's block has a size
that its arguments do not overflow, every other one brings the capacity that the
block was created with. -/
def BringsCapacity (ring : NamedRing) (call : CreateCall) : Prop :=
  Admitted ring call →
    match ring.block with
    | some block => call.frames = block.head.uiMaxValidFrames
    | none => 0 ≤ call.frames ∧
        call.size + sizeofSmemoryHead + sizeofSmemoryFrame * call.frames < wordSize

section Steps

variable {ring : NamedRing} {call : CreateCall} {block : HeapBlock} {creator : Addresses}

theorem create_refused (refused : ¬Admitted ring call) : createContext ring call = ring := by
  unfold createContext
  by_cases enters : 0 < call.size ∧ call.context = true
  · have none : call.createMallocMemory ring.block = none := by
      unfold Admitted at refused
      unfold CreateCall.createMallocMemory
      cases found : ring.block with
      | none =>
          rw [found] at refused
          dsimp only at refused ⊢
          rw [if_neg fun new => refused ⟨enters.1, enters.2, new⟩]
      | some block =>
          rw [found] at refused
          dsimp only at refused ⊢
          rw [if_pos]
          by_contra free
          exact refused ⟨enters.1, enters.2, free⟩
    rw [if_pos enters, none]
  · rw [if_neg enters]

theorem create_first (unfounded : ring.block = none) (admitted : Admitted ring call) :
    createContext ring call =
      { block := some { call.newBlock with head := joined call.mode call.newBlock.head }
        contexts := ring.contexts ++ [call.positions call.address] } := by
  unfold Admitted at admitted
  rw [unfounded] at admitted
  obtain ⟨size, context, new⟩ := admitted
  unfold createContext CreateCall.createMallocMemory
  rw [if_pos ⟨size, context⟩, unfounded]
  dsimp only
  rw [if_pos new]
  rfl

theorem create_further (founded : ring.block = some block) (admitted : Admitted ring call) :
    createContext ring call =
      { block := some { block with head := joined call.mode block.head }
        contexts := ring.contexts ++ [call.positions block.address] } := by
  unfold Admitted at admitted
  rw [founded] at admitted
  obtain ⟨size, context, free⟩ := admitted
  unfold createContext CreateCall.createMallocMemory
  rw [if_pos ⟨size, context⟩, founded]
  dsimp only
  rw [if_neg free]

theorem joined_kept (mode : IoMode) (head : SmemoryHead) :
    (joined mode head).uiMaxValidFrames = head.uiMaxValidFrames ∧
      (joined mode head).datasize = head.datasize := by
  cases mode with
  | read => exact ⟨rfl, rfl⟩
  | write => exact ⟨rfl, rfl⟩

theorem lays_out_joined (mode : IoMode) (context : Addresses) :
    LaysOut { block with head := joined mode block.head } creator context ↔
      LaysOut block creator context := by
  obtain ⟨capacity, size⟩ := joined_kept mode block.head
  constructor
  · intro ⟨head, frames, data, table, inside⟩
    dsimp only at head table inside
    rw [capacity] at table
    rw [size] at inside
    exact ⟨head, frames, data, table, inside⟩
  · intro ⟨head, frames, data, table, inside⟩
    refine ⟨head, frames, data, ?_, ?_⟩
    · dsimp only
      rw [capacity]
      exact table
    · dsimp only
      rw [size]
      exact inside

theorem unsigned_value (value : Int) : (unsigned value : Int) = value % 4294967296 := by
  unfold unsigned wordSize
  omega

/-- `uiSize` is the sum of the parts, less what does not fit in 32 bits. -/
theorem new_block_size : (call.newBlock.uiSize : Int) =
    (call.size + 56 + (40 * call.frames) % 4294967296) % 4294967296 := by
  have table := unsigned_value (sizeofSmemoryFrame * call.frames)
  change ((u32 (call.size + 56 + unsigned (40 * call.frames)) : Nat) : Int) = _
  change (unsigned (40 * call.frames) : Int) = 40 * call.frames % 4294967296 at table
  unfold u32 wordSize
  omega

/-- The block suits its own creator when nothing in its size wraps. -/
theorem first_lays_out_iff :
    LaysOut call.newBlock (call.positions call.address) (call.positions call.address) ↔
      0 ≤ call.frames ∧
        call.size + sizeofSmemoryHead + sizeofSmemoryFrame * call.frames < wordSize := by
  have sizeWord : call.size < 4294967296 := call.size_word
  have framesInt := call.frames_int
  have allocated := @new_block_size call
  have capacity := unsigned_value call.frames
  have parts : LaysOut call.newBlock (call.positions call.address) (call.positions call.address) ↔
      call.address + 56 + 40 * call.frames = call.address + 56 + 40 * (unsigned call.frames : Int) ∧
        call.address + 56 + 40 * call.frames + call.size =
          call.address + call.newBlock.uiSize := by
    constructor
    · intro laid
      exact ⟨laid.table, laid.inside⟩
    · intro both
      constructor
      · rfl
      · rfl
      · rfl
      · exact both.1
      · exact both.2
  rw [parts]
  change _ ↔ 0 ≤ call.frames ∧ (call.size : Int) + 56 + 40 * call.frames < 4294967296
  omega

/-- The first context's pointers begin where the block does. -/
def Founded (ring : NamedRing) : Prop :=
  (ring.block = none ∧ ring.contexts = []) ∨
    ∃ block creator, ring.block = some block ∧ ring.contexts.head? = some creator ∧
      creator.pstuFrames = block.address + sizeofSmemoryHead

theorem create_founded (founded : Founded ring) (call : CreateCall) :
    Founded (createContext ring call) := by
  by_cases admitted : Admitted ring call
  · obtain ⟨none, empty⟩ | ⟨block, creator, some', first, frames⟩ := founded
    · rw [create_first none admitted, empty]
      exact Or.inr ⟨_, _, rfl, rfl, rfl⟩
    · rw [create_further some' admitted]
      refine Or.inr ⟨_, creator, rfl, ?_, frames⟩
      rw [List.head?_append, first]
      rfl
  · rw [create_refused admitted]
    exact founded

/-- A further context agrees with the creator's if it brings the recorded capacity. -/
theorem further_lays_out_iff (frames : creator.pstuFrames = block.address + sizeofSmemoryHead)
    (creators : LaysOut block creator creator) :
    LaysOut block creator (call.positions block.address) ↔
      call.frames = block.head.uiMaxValidFrames := by
  have table := creators.table
  have inside := creators.inside
  have own : (call.positions block.address).pstuData =
      block.address + sizeofSmemoryHead + 40 * call.frames := rfl
  change creator.pstuData = creator.pstuFrames + 40 * (block.head.uiMaxValidFrames : Int) at table
  constructor
  · intro laid
    have data := laid.data
    omega
  · intro same
    have data : (call.positions block.address).pstuData = creator.pstuData := by omega
    refine ⟨rfl, frames.symm, data, ?_, ?_⟩
    · change (call.positions block.address).pstuData =
        block.address + sizeofSmemoryHead + 40 * (block.head.uiMaxValidFrames : Int)
      omega
    · rw [data]
      exact inside

theorem create_agree_iff (founded : Founded ring) (call : CreateCall) :
    (createContext ring call).Agree ↔ ring.Agree ∧ BringsCapacity ring call := by
  unfold BringsCapacity
  by_cases admitted : Admitted ring call
  · obtain ⟨none, empty⟩ | ⟨block, creator, some', first, frames⟩ := founded
    · have before : ring.Agree := by
        intro block present
        rw [none] at present
        contradiction
      rw [create_first none admitted, none, empty]
      dsimp only
      rw [← first_lays_out_iff]
      constructor
      · intro agree
        refine ⟨before, fun _ => ?_⟩
        exact (lays_out_joined call.mode _).mp (agree _ rfl _ rfl _ (List.mem_singleton_self _))
      · intro ⟨_, laid⟩ block present creator head context member
        rw [List.nil_append, List.mem_singleton] at member
        rw [← Option.some.inj present, ← Option.some.inj head, member]
        exact (lays_out_joined call.mode _).mpr (laid admitted)
    · have member := List.mem_of_head? first
      rw [create_further some' admitted, some']
      dsimp only
      have all : ring.Agree ↔ ∀ context ∈ ring.contexts, LaysOut block creator context := by
        unfold NamedRing.Agree
        rw [some', first]
        simp
      have later : NamedRing.Agree
          { block := some { block with head := joined call.mode block.head }
            contexts := ring.contexts ++ [call.positions block.address] } ↔
          ∀ context ∈ ring.contexts ++ [call.positions block.address],
            LaysOut block creator context := by
        unfold NamedRing.Agree
        dsimp only
        rw [List.head?_append, first]
        simp [lays_out_joined]
      rw [all, later, List.forall_mem_append, List.forall_mem_singleton]
      constructor
      · intro ⟨earlier, new⟩
        exact ⟨earlier, fun _ => (further_lays_out_iff frames (earlier creator member)).mp new⟩
      · intro ⟨earlier, brings⟩
        exact ⟨earlier, (further_lays_out_iff frames (earlier creator member)).mpr (brings admitted)⟩
  · rw [create_refused admitted]
    exact ⟨fun agree => ⟨agree, fun enters => absurd enters admitted⟩, fun both => both.1⟩

theorem run_founded (calls : List CreateCall) : Founded (run createContext unused calls) := by
  have start : Founded unused := Or.inl ⟨rfl, rfl⟩
  exact @run_invariant _ _ createContext Founded (fun _ _ => True)
    (fun ring call founded _ => create_founded founded call) calls unused start
    (meets_of_forall (fun _ _ => trivial) calls unused)

/-- Behind any calls for one name all contexts agree on where the table and the
data area lie if and only if each call that got a context brought the capacity
of the block, and the first one a size that can be allocated. -/
theorem contexts_agree_iff (calls : List CreateCall) :
    (run createContext unused calls).Agree ↔
      Meets createContext BringsCapacity unused calls := by
  induction calls using List.reverseRecOn with
  | nil =>
      refine ⟨fun _ => trivial, fun _ block present => ?_⟩
      contradiction
  | append_singleton calls call ih =>
      rw [run_append, run_cons, run_nil, create_agree_iff (run_founded calls), meets_append, ih]
      exact and_congr Iff.rfl ⟨fun brings => ⟨brings, trivial⟩, fun meets => meets.1⟩

end Steps

section Settings

/-- A call of the writer or of a reader, with everything allocated. -/
def callOf (mode : IoMode) (capacity : Fin 100) : CreateCall where
  size := 1024
  frames := capacity.val
  mode := mode
  context := true
  block := true
  listed := true
  address := 4096
  size_word := by decide
  frames_int := by omega

/-- A reader whose settings ask for another capacity than the writer's looks for
the data 400 bytes behind where the writer puts it. -/
theorem other_capacity_disagrees :
    ¬(run createContext unused [callOf .write 50, callOf .read 60]).Agree := by
  intro agree
  have laid := agree _ rfl _ rfl ((callOf .read 60).positions 4096) (by decide)
  have data := laid.data
  revert data
  decide

end Settings

end Mgw.StreamBuff

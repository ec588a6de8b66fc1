import Mgw.DoublyLinked
import Mgw.StreamBuff

/-!
# Contexts of stream buffers on the heap

`CreateStreamBuff` and `DeleteStreamBuff` of the heap type, with the registry of
`malloc_memory.c` on the lists of `list_function.c`. Blocks and nodes are numbered
in the order of their allocation. What cannot be run on without undefined behaviour,
an access through a null pointer or to freed memory and a second free, has no result.
A name is the bytes before its terminating zero.
-/

namespace Mgw.HeapMemory

open DoublyLinked StreamBuff

set_option autoImplicit false

/-- What a node of the registry holds. -/
structure Entry where
  pbuff : Option Nat
  name : List UInt8
  deriving DecidableEq

abbrev SC_node := Link Nat Entry

/-- The name `list_init` gives the head node. -/
def list_head : List UInt8 := [108, 105, 115, 116, 95, 104, 101, 97, 100]

inductive IoMode where
  | read | write
  deriving DecidableEq, Repr

/-- Which of the allocations succeed. -/
structure Allocations where
  context : Bool
  block : Bool
  head : Bool
  node : Bool
  reader : Bool
  deriving DecidableEq, Repr

def Allocations.all : Allocations := ⟨true, true, true, true, true⟩

/-- The registry, the blocks, and the blocks freed so far. -/
structure Heap where
  g_memory_head : Option Nat
  g_memory_nu : Int
  nodes : Nodes Nat Entry
  nodeCount : Nat
  blocks : Nat → Option SMemoryPosition
  blockCount : Nat
  freed : List Nat

structure BuffContext where
  Name : List UInt8
  mode : IoMode
  pstuHead : Nat
  pReadpara : Option MemReader
  deriving DecidableEq

structure State where
  heap : Heap
  /-- The live contexts in the order of their creation. -/
  contexts : List BuffContext

/-- `snprintf` into an array of 64 bytes. -/
def copyName (name : List UInt8) : List UInt8 := name.take 63

/-- `!strncmp(left, right, 64)`. -/
def sameName (left right : List UInt8) : Bool := left.take 64 = right.take 64

namespace Heap

variable (heap : Heap)

def allocateNode (node : SC_node) : Heap :=
  { heap with
    nodes := Function.update heap.nodes heap.nodeCount (some node)
    nodeCount := heap.nodeCount + 1 }

def setBlock (block : Nat) (contents : SMemoryPosition) : Heap :=
  { heap with blocks := Function.update heap.blocks block (some contents) }

def freeBlock (block : Nat) : Option Heap :=
  (heap.blocks block).map fun _ =>
    { heap with
      blocks := Function.update heap.blocks block none
      freed := heap.freed ++ [block] }

/-- `g_memory_head = list_init(); g_memory_nu = 1`. -/
def list_init (ok : Bool) : Heap :=
  let counted := { heap with g_memory_nu := 1 }
  if ok then
    { counted.allocateNode ⟨⟨none, list_head⟩, none, none⟩ with
      g_memory_head := some heap.nodeCount }
  else { counted with g_memory_head := none }

/-- The list has at most as many nodes as were ever allocated. -/
def rounds : Nat := heap.nodeCount + 1

def list_en (ok : Bool) (pbuff : Nat) (name : List UInt8) : Option (Bool × Heap) :=
  match heap.g_memory_head with
  | none => some (false, heap)
  | some phead =>
      if ok then
        (findLast heap.nodes heap.rounds phead).map fun tail =>
          (true, { heap with
            nodes := append heap.nodes tail heap.nodeCount ⟨some pbuff, copyName name⟩
            nodeCount := heap.nodeCount + 1 })
      else some (false, heap)

def list_de (name : List UInt8) : Option (Option (Nat × Entry)) :=
  find heap.nodes (fun entry => sameName entry.name name) heap.rounds heap.g_memory_head

/-- The nodes behind `list_free` of the node at `addr`. -/
def unlink (addr : Nat) (node : SC_node) : Nodes Nat Entry :=
  let unlinked :=
    match node.prev, node.next with
    -- the head node; `g_memory_head` itself is not changed
    | none, none => heap.nodes
    | none, some next => setPrev heap.nodes next none
    | some prev, none => setNext heap.nodes prev none
    | some prev, some next => setPrev (setNext heap.nodes prev (some next)) next (some prev)
  release unlinked addr

def list_free (name : List UInt8) : Option Heap :=
  (heap.list_de name).bind fun found =>
    match found with
    | none => some heap
    | some (addr, _) =>
        (heap.nodes addr).map fun node => { heap with nodes := heap.unlink addr node }

/-- The entries behind the head node. -/
def registry : List (Nat × Entry) := (walk heap.nodes heap.rounds heap.g_memory_head).tail

end Heap

section Registration

variable (answers : Allocations) (name : List UInt8) (size frames : Nat) (mode : IoMode)
  (heap : Heap)

/-- The block of a registered name, which is refused to a second writer. -/
def foundMemory (entry : Entry) : Option (Option Nat × Heap) :=
  match mode with
  | .read => some (entry.pbuff, heap)
  | .write =>
      (entry.pbuff.bind heap.blocks).map fun contents =>
        if 0 < contents.pstuHead.ucWriterCount then (none, heap) else (entry.pbuff, heap)

def newMemory : Option (Option Nat × Heap) :=
  if answers.block then
    let block := heap.blockCount
    let allocated : Heap :=
      { heap.setBlock block (initMemoryParam zeroedBlock frames size) with blockCount := block + 1 }
    let listed :=
      if allocated.g_memory_head.isNone then allocated.list_init answers.head else allocated
    (listed.list_en answers.node block name).bind fun result =>
      if result.1 then some (some block, { result.2 with g_memory_nu := result.2.g_memory_nu + 1 })
      else (result.2.freeBlock block).map fun freed => (none, freed)
  else some (none, heap)

/-- The returned pointer, and the heap behind the call. -/
def createMallocMemory : Option (Option Nat × Heap) :=
  (heap.list_de name).bind fun found =>
    match found with
    | some (_, entry) => foundMemory mode heap entry
    | none => newMemory answers name size frames heap

def deleteMallocMemory : Option Heap :=
  match heap.g_memory_head with
  | none => some heap
  | some phead =>
      let deleted := (heap.list_de name).bind fun found =>
        match found with
        | none => some heap
        | some (_, entry) =>
            match entry.pbuff with
            | none => heap.list_free name
            | some block => (heap.freeBlock block).bind fun freed : Heap => freed.list_free name
      deleted.bind fun heap : Heap =>
        if heap.g_memory_nu - 1 = 1 then
          (heap.nodes phead).map fun _ =>
            { heap with
              g_memory_nu := 0
              nodes := release heap.nodes phead
              g_memory_head := none }
        else some { heap with g_memory_nu := heap.g_memory_nu - 1 }

end Registration

/-- An `unsigned char` counter. -/
def count8 (value : Nat) : Nat := value % 256

/-- A further reader or writer. -/
def joined (mode : IoMode) (head : SmemoryHead) : SmemoryHead :=
  match mode with
  | .read => { head with ucReaderCount := count8 (head.ucReaderCount + 1) }
  | .write => { head with ucWriterCount := count8 (head.ucWriterCount + 1) }

def left (mode : IoMode) (head : SmemoryHead) : SmemoryHead :=
  match mode with
  | .read => { head with ucReaderCount := count8 (head.ucReaderCount + 255) }
  | .write => { head with ucWriterCount := count8 (head.ucWriterCount + 255) }

namespace State

variable (state : State)

/-- The block gets a further context. A reader's own `calloc` is not checked. -/
def attach (answers : Allocations) (name : List UInt8) (mode : IoMode) (readByTime : Bool)
    (block : Nat) : Option (Option BuffContext × State) :=
  (state.heap.blocks block).bind fun contents =>
    if mode = .write ∧ 0 < contents.pstuHead.ucWriterCount then some (none, state)
    else if mode = .read ∧ !answers.reader then none
    else
      let context : BuffContext :=
        { Name := name
          mode := mode
          pstuHead := block
          pReadpara := if mode = .read then some (MemReader.attach readByTime) else none }
      some (some context,
        { heap := state.heap.setBlock block
            { contents with pstuHead := joined mode contents.pstuHead }
          contexts := state.contexts ++ [context] })

/-- `CreateStreamBuff`; the first component is the returned context. -/
def createStreamBuff (answers : Allocations) (size : Nat) (name : List UInt8) (frames : Nat)
    (mode : IoMode) (readByTime : Bool) : Option (Option BuffContext × State) :=
  if 0 < size ∧ answers.context then
    (createMallocMemory answers (copyName name) size frames mode state.heap).bind fun result =>
      match result.1 with
      | none => some (none, { state with heap := result.2 })
      | some block =>
          State.attach { state with heap := result.2 } answers (copyName name) mode readByTime block
  else some (none, state)

/-- `DeleteStreamBuff` of the live context at `index`. -/
def deleteStreamBuff (index : Nat) : Option State :=
  match state.contexts[index]? with
  | none => some state
  | some context =>
      (state.heap.blocks context.pstuHead).bind fun contents =>
        let head := left context.mode contents.pstuHead
        let counted := state.heap.setBlock context.pstuHead { contents with pstuHead := head }
        let contexts := state.contexts.eraseIdx index
        if head.ucReaderCount = 0 ∧ head.ucWriterCount = 0 then
          (deleteMallocMemory context.Name counted).map fun heap => ⟨heap, contexts⟩
        else some ⟨counted, contexts⟩

end State

inductive Action where
  | create (answers : Allocations) (size : Nat) (name : List UInt8) (frames : Nat)
      (mode : IoMode) (readByTime : Bool)
  | delete (index : Nat)

def next (state : State) : Action → Option State
  | .create answers size name frames mode readByTime =>
      (state.createStreamBuff answers size name frames mode readByTime).map Prod.snd
  | .delete index => state.deleteStreamBuff index

def initial : State where
  heap :=
    { g_memory_head := none
      g_memory_nu := 0
      nodes := fun _ => none
      nodeCount := 0
      blocks := fun _ => none
      blockCount := 0
      freed := [] }
  contexts := []

end Mgw.HeapMemory

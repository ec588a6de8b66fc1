import Mgw.HeapMemoryRegistry

/-!
# Registered names and their blocks

The registry as a list of names with the numbers of their blocks, and what
`CreateMallocMemory` and `DeleteMallocMemory` do to it.
-/

namespace Mgw.HeapMemory

open DoublyLinked StreamBuff

set_option autoImplicit false

abbrev Registration := List UInt8 × Nat

def Registration.entry (registration : Registration) : Entry :=
  ⟨some registration.2, registration.1⟩

/-- The registry holds these names, each once and none of them the head's. -/
structure Registers (heap : Heap) (names : List Registration) : Prop where
  lists : ∃ items, Lists heap items ∧ items.map Prod.snd = names.map Registration.entry
  nodup : (names.map Prod.fst).Nodup
  proper : ∀ registration ∈ names, Short registration.1 ∧ registration.1 ≠ list_head

variable {heap after : Heap} {names : List Registration} {name : List UInt8} {block : Nat}

theorem lists_of_same {items : List (Nat × Entry)} (lists : Lists heap items)
    (head : after.g_memory_head = heap.g_memory_head)
    (number : after.g_memory_nu = heap.g_memory_nu) (nodes : after.nodes = heap.nodes)
    (count : after.nodeCount = heap.nodeCount) : Lists after items := by
  rw [Lists] at lists ⊢
  rw [head]
  cases found : heap.g_memory_head with
  | none =>
      rw [found] at lists
      exact lists
  | some phead =>
      rw [found] at lists
      constructor
      · rw [nodes]
        exact lists.linked
      · exact lists.nodup
      · rw [count]
        exact lists.bound
      · rw [number]
        exact lists.number
      · rw [count]
        exact lists.few

theorem registers_of_same (registers : Registers heap names)
    (head : after.g_memory_head = heap.g_memory_head)
    (number : after.g_memory_nu = heap.g_memory_nu) (nodes : after.nodes = heap.nodes)
    (count : after.nodeCount = heap.nodeCount) : Registers after names := by
  obtain ⟨items, lists, held⟩ := registers.lists
  exact ⟨⟨items, lists_of_same lists head number nodes count, held⟩, registers.nodup,
    registers.proper⟩

theorem mem_items {items : List (Nat × Entry)} {item : Nat × Entry}
    (held : items.map Prod.snd = names.map Registration.entry) (member : item ∈ items) :
    ∃ registration ∈ names, registration.entry = item.2 := by
  apply List.mem_map.mp
  rw [← held]
  exact List.mem_map_of_mem member

/-- A name is registered for one block. -/
theorem block_unique (registers : Registers heap names) {registration : Registration}
    (member : (name, block) ∈ names) (other : registration ∈ names)
    (same : registration.1 = name) : registration = (name, block) :=
  List.inj_on_of_nodup_map registers.nodup other member same

section Finding

variable {items : List (Nat × Entry)}

theorem de_registers (registers : Registers heap names) (lists : Lists heap items)
    (held : items.map Prod.snd = names.map Registration.entry) (short : Short name)
    (other : name ≠ list_head) :
    heap.list_de name = some (items.find? fun item => decide (item.2.name = name)) := by
  apply de_lists lists short other
  intro item member
  obtain ⟨registration, registered, same⟩ := mem_items held member
  rw [← same]
  exact (registers.proper registration registered).1

theorem de_unregistered (registers : Registers heap names) (short : Short name)
    (other : name ≠ list_head) (absent : name ∉ names.map Prod.fst) :
    heap.list_de name = some none := by
  obtain ⟨items, lists, held⟩ := registers.lists
  rw [de_registers registers lists held short other]
  congr 1
  apply List.find?_eq_none.mpr
  intro item member wanted
  obtain ⟨registration, registered, same⟩ := mem_items held member
  have named : registration.1 = name := by
    have wanted := of_decide_eq_true wanted
    rw [← same] at wanted
    exact wanted
  apply absent
  rw [← named]
  exact List.mem_map_of_mem registered

/-- The node of a registered name, and the registrations around it. -/
theorem de_registered (registers : Registers heap names) (member : (name, block) ∈ names) :
    ∃ addr before behind front back, Lists heap (before ++ (addr, ⟨some block, name⟩) :: behind) ∧
      heap.list_de name = some (some (addr, ⟨some block, name⟩)) ∧
      names = front ++ (name, block) :: back ∧
      (before ++ behind).map Prod.snd = (front ++ back).map Registration.entry := by
  obtain ⟨items, lists, held⟩ := registers.lists
  obtain ⟨short, other⟩ := registers.proper _ member
  rw [de_registers registers lists held short other]
  obtain ⟨item, inItems, same⟩ : ∃ item ∈ items, item.2 = ⟨some block, name⟩ := by
    apply List.mem_map.mp
    rw [held]
    exact List.mem_map_of_mem member
  cases found : items.find? fun item => decide (item.2.name = name) with
  | none =>
      have unwanted := List.find?_eq_none.mp found item inItems
      rw [same] at unwanted
      exact absurd (decide_eq_true rfl) unwanted
  | some first =>
      obtain ⟨registration, registered, entry⟩ := mem_items held (List.mem_of_find?_eq_some found)
      have named : registration.1 = name := by
        have wanted : first.2.name = name := by simpa using List.find?_some found
        rw [← entry] at wanted
        exact wanted
      have unique := block_unique registers member registered named
      rw [unique] at entry
      obtain ⟨before, behind, parts⟩ := List.append_of_mem (List.mem_of_find?_eq_some found)
      rw [parts, List.map_append, List.map_cons] at held
      obtain ⟨front, rest, whole, early, late⟩ := List.map_eq_append_iff.mp held.symm
      obtain ⟨middle, back, seam, here, last⟩ := List.map_eq_cons_iff.mp late
      have middleIs : middle = (name, block) := by
        have named : middle.1 = name := by
          have names := congrArg Entry.name (here.trans entry.symm)
          exact names
        apply block_unique registers member _ named
        rw [whole, seam]
        exact List.mem_append_right _ List.mem_cons_self
      have firstIs : first = (first.1, ⟨some block, name⟩) := Prod.ext rfl entry.symm
      refine ⟨first.1, before, behind, front, back, ?_, ?_, ?_, ?_⟩
      · rw [← firstIs, ← parts]
        exact lists
      · rw [← firstIs]
      · rw [whole, seam, middleIs]
      · rw [List.map_append, List.map_append, early, last]

end Finding

section Entering

variable {answers : Allocations} {size frames : Nat}

theorem registers_empty (registers : Registers heap names) (head : heap.g_memory_head = none) :
    names = [] := by
  obtain ⟨items, lists, held⟩ := registers.lists
  rw [Lists, head] at lists
  rw [lists] at held
  exact List.map_eq_nil_iff.mp held.symm

theorem registers_nil {phead : Nat} (head : heap.g_memory_head = some phead)
    (listed : Listed heap phead []) : Registers heap [] := by
  refine ⟨⟨[], lists_of_head head listed, rfl⟩, List.nodup_nil, ?_⟩
  intro registration impossible
  exact absurd impossible List.not_mem_nil

theorem no_head_registers (head : heap.g_memory_head = none) : Registers heap [] := by
  refine ⟨⟨[], ?_, rfl⟩, List.nodup_nil, ?_⟩
  · rw [Lists, head]
  · intro registration impossible
    exact absurd impossible List.not_mem_nil

theorem en_registers {phead : Nat} (registers : Registers heap names)
    (head : heap.g_memory_head = some phead) (short : Short name) (other : name ≠ list_head)
    (absent : name ∉ names.map Prod.fst) :
    ∃ nodes count, heap.list_en true block name =
        some (true, { heap with nodes := nodes, nodeCount := count }) ∧
      Registers { heap with
        nodes := nodes
        nodeCount := count
        g_memory_nu := heap.g_memory_nu + 1 } (names ++ [(name, block)]) := by
  obtain ⟨items, lists, held⟩ := registers.lists
  rw [Lists, head] at lists
  obtain ⟨tail, result, listed⟩ := @en_listed heap phead block items name lists head short
  refine ⟨_, _, result, ⟨items ++ [(heap.nodeCount, ⟨some block, name⟩)], ?_, ?_⟩, ?_, ?_⟩
  · exact lists_of_head head listed
  · rw [List.map_append, List.map_append, held]
    rfl
  · rw [List.map_append]
    exact nodup_behind registers.nodup absent
  · intro registration member
    rcases List.mem_append.mp member with old | new
    · exact registers.proper registration old
    · rw [List.mem_singleton.mp new]
      exact ⟨short, other⟩

/-- What a failed call leaves behind: at most a block that was freed again. -/
def Failed (heap after : Heap) : Prop :=
  after.blocks = heap.blocks ∧ after.freed = heap.freed ∧ after.blockCount = heap.blockCount ∨
  after.blocks = Function.update heap.blocks heap.blockCount none ∧
    after.freed = heap.freed ++ [heap.blockCount] ∧ after.blockCount = heap.blockCount + 1

structure Entered (heap after : Heap) (contents : SMemoryPosition) : Prop where
  blocks : after.blocks = Function.update heap.blocks heap.blockCount (some contents)
  freed : after.freed = heap.freed
  blockCount : after.blockCount = heap.blockCount + 1

/-- The heap with a new block. -/
def withNewBlock (heap : Heap) (frames size : Nat) : Heap :=
  { heap.setBlock heap.blockCount (initMemoryParam zeroedBlock frames size) with
    blockCount := heap.blockCount + 1 }

/-- The heap with which `list_en` is called. -/
def readied (answers : Allocations) (heap : Heap) : Heap :=
  if heap.g_memory_head.isNone then heap.list_init answers.head else heap

theorem readied_blocks (answers : Allocations) (heap : Heap) :
    (readied answers heap).blocks = heap.blocks ∧ (readied answers heap).freed = heap.freed ∧
      (readied answers heap).blockCount = heap.blockCount := by
  rw [readied, Heap.list_init]
  split_ifs <;> exact ⟨rfl, rfl, rfl⟩

theorem readied_registers (registers : Registers heap names) :
    Registers (readied answers heap) names := by
  rw [readied]
  cases head : heap.g_memory_head with
  | some phead => exact registers
  | none =>
      rw [registers_empty registers head]
      cases ok : answers.head with
      | true => exact registers_nil rfl init_listed
      | false => exact no_head_registers rfl

/-- There is a head node unless one was needed and could not be allocated. -/
theorem readied_head_none_iff (answers : Allocations) (heap : Heap) :
    (readied answers heap).g_memory_head = none ↔
      heap.g_memory_head = none ∧ answers.head = false := by
  rw [readied, Heap.list_init]
  cases head : heap.g_memory_head <;> cases answers.head <;> simp [head]

/-- The allocations that a new name needs. -/
def Allocations.Suffice (answers : Allocations) (heap : Heap) : Prop :=
  answers.block = true ∧ answers.node = true ∧ (heap.g_memory_head = none → answers.head = true)

theorem suffice_iff (ok : answers.block = true) :
    answers.Suffice heap ↔ answers.node = true ∧
      (readied answers (withNewBlock heap frames size)).g_memory_head ≠ none := by
  unfold Allocations.Suffice
  rw [and_iff_right ok, Ne, readied_head_none_iff, not_and, Bool.not_eq_false]
  rfl

theorem new_memory_en (ok : answers.block = true) :
    newMemory answers name size frames heap =
      ((readied answers (withNewBlock heap frames size)).list_en answers.node
        heap.blockCount name).bind fun result =>
          if result.1 then
            some (some heap.blockCount, { result.2 with g_memory_nu := result.2.g_memory_nu + 1 })
          else (result.2.freeBlock heap.blockCount).map fun freed => (none, freed) := by
  rw [newMemory, if_pos ok]
  rfl

theorem failed_refused :
    Failed heap (withoutBlock (readied answers (withNewBlock heap frames size))
      heap.blockCount) := by
  obtain ⟨blocks, freed, count⟩ := readied_blocks answers (withNewBlock heap frames size)
  right
  refine ⟨?_, ?_, count⟩
  · change Function.update (readied answers (withNewBlock heap frames size)).blocks _ _ = _
    rw [blocks]
    exact Function.update_idem ..
  · change (readied answers (withNewBlock heap frames size)).freed ++ _ = _
    rw [freed]
    rfl

/-- The block that could not be entered is freed. -/
theorem refused_new_memory (registers : Registers heap names) (ok : answers.block = true)
    (refused : (readied answers (withNewBlock heap frames size)).list_en answers.node
      heap.blockCount name = some (false, readied answers (withNewBlock heap frames size))) :
    ∃ after, newMemory answers name size frames heap = some (none, after) ∧
      Registers after names ∧ Failed heap after := by
  have ready : Registers (readied answers (withNewBlock heap frames size)) names :=
    readied_registers (registers_of_same registers rfl rfl rfl rfl)
  have present : (readied answers (withNewBlock heap frames size)).blocks heap.blockCount =
      some (initMemoryParam zeroedBlock frames size) := by
    rw [(readied_blocks answers _).1]
    exact Function.update_self ..
  refine ⟨withoutBlock (readied answers (withNewBlock heap frames size)) heap.blockCount, ?_,
    registers_of_same ready rfl rfl rfl rfl, failed_refused⟩
  rw [new_memory_en ok, refused, Option.bind_some]
  dsimp only
  rw [if_neg Bool.false_ne_true, free_block_present present, Option.map_some]

/-- The block that is entered under its name. -/
theorem entered_new_memory {phead : Nat} (registers : Registers heap names)
    (ok : answers.block = true) (node : answers.node = true)
    (head : (readied answers (withNewBlock heap frames size)).g_memory_head = some phead)
    (short : Short name) (other : name ≠ list_head) (absent : name ∉ names.map Prod.fst) :
    ∃ after, newMemory answers name size frames heap = some (some heap.blockCount, after) ∧
      Registers after (names ++ [(name, heap.blockCount)]) ∧
      Entered heap after (initMemoryParam zeroedBlock frames size) := by
  have ready : Registers (readied answers (withNewBlock heap frames size)) names :=
    readied_registers (registers_of_same registers rfl rfl rfl rfl)
  obtain ⟨blocks, freed, count⟩ := readied_blocks answers (withNewBlock heap frames size)
  obtain ⟨nodes, nodeCount, result, entered⟩ :=
    @en_registers _ _ name heap.blockCount phead ready head short other absent
  refine ⟨_, ?_, entered, ⟨blocks, freed, count⟩⟩
  rw [new_memory_en ok, node, result, Option.bind_some]
  rfl

/-- A name that is not registered gets a new block, or the call fails for want of memory. -/
theorem new_memory_registers (registers : Registers heap names) (short : Short name)
    (other : name ≠ list_head) (absent : name ∉ names.map Prod.fst) :
    (∃ after, newMemory answers name size frames heap = some (some heap.blockCount, after) ∧
      Registers after (names ++ [(name, heap.blockCount)]) ∧
      Entered heap after (initMemoryParam zeroedBlock frames size) ∧ answers.Suffice heap) ∨
    ∃ after, newMemory answers name size frames heap = some (none, after) ∧
      Registers after names ∧ Failed heap after ∧ ¬answers.Suffice heap := by
  cases ok : answers.block with
  | false =>
      right
      refine ⟨heap, ?_, registers, Or.inl ⟨rfl, rfl, rfl⟩, ?_⟩
      · rw [newMemory, ok]
        rfl
      · intro suffice
        exact Bool.false_ne_true (ok.symm.trans suffice.1)
  | true =>
      rw [@suffice_iff heap answers size frames ok]
      cases head : (readied answers (withNewBlock heap frames size)).g_memory_head with
      | none =>
          right
          obtain ⟨after, result, kept, failed⟩ := @refused_new_memory heap names name answers size
            frames registers ok (by rw [Heap.list_en, head])
          exact ⟨after, result, kept, failed, fun suffice => suffice.2 rfl⟩
      | some phead =>
          cases node : answers.node with
          | false =>
              right
              obtain ⟨after, result, kept, failed⟩ := @refused_new_memory heap names name answers
                size frames registers ok (by rw [Heap.list_en, head, node]; rfl)
              exact ⟨after, result, kept, failed, fun suffice => Bool.false_ne_true suffice.1⟩
          | true =>
              left
              obtain ⟨after, result, kept, entered⟩ :=
                entered_new_memory registers ok node head short other absent
              exact ⟨after, result, kept, entered, rfl, Option.some_ne_none _⟩

end Entering

/-- `DeleteMallocMemory` of a registered name takes its registration out. -/
theorem delete_registers (registers : Registers heap names) (member : (name, block) ∈ names)
    {contents : SMemoryPosition} (present : heap.blocks block = some contents) :
    ∃ after front back, names = front ++ (name, block) :: back ∧
      deleteMallocMemory name heap = some after ∧ Registers after (front ++ back) ∧
      after.blocks = Function.update heap.blocks block none ∧
      after.freed = heap.freed ++ [block] ∧ after.blockCount = heap.blockCount := by
  obtain ⟨addr, before, behind, front, back, lists, found, parts, held⟩ :=
    de_registered registers member
  obtain ⟨after, result, taken, blocks, freed, count⟩ := delete_lists lists found rfl present
  have fewer : (front ++ back).Sublist names := by
    rw [parts]
    exact List.Sublist.append_left (List.sublist_cons_self _ _) _
  refine ⟨after, front, back, parts, result, ⟨⟨before ++ behind, taken, held⟩, ?_, ?_⟩, blocks,
    freed, count⟩
  · exact registers.nodup.sublist (fewer.map _)
  · intro registration registered
    exact registers.proper registration (fewer.subset registered)

end Mgw.HeapMemory

import Mathlib.Data.List.Nodup
import Mgw.HeapMemory

/-!
# The registry of blocks as a list of entries

The nodes of the registry are linked behind a head node, and `g_memory_nu` counts
the head and the others. Entering, finding and taking out a name do to the entries
what their names say, as long as the name is not the head's.
-/

namespace Mgw.HeapMemory

open DoublyLinked StreamBuff

set_option autoImplicit false

def headItem (phead : Nat) : Nat × Entry := (phead, ⟨none, list_head⟩)

/-- A registry with this head node and these items behind it. -/
structure Listed (heap : Heap) (phead : Nat) (items : List (Nat × Entry)) : Prop where
  linked : Linked heap.nodes none (headItem phead :: items) none
  nodup : ((headItem phead :: items).map Prod.fst).Nodup
  bound : ∀ addr ∈ (headItem phead :: items).map Prod.fst, addr < heap.nodeCount
  number : heap.g_memory_nu = items.length + 1
  few : items.length < heap.nodeCount

/-- Without a head node there are no items. -/
def Lists (heap : Heap) (items : List (Nat × Entry)) : Prop :=
  match heap.g_memory_head with
  | none => items = []
  | some phead => Listed heap phead items

theorem lists_of_head {heap : Heap} {phead : Nat} {items : List (Nat × Entry)}
    (head : heap.g_memory_head = some phead) (listed : Listed heap phead items) :
    Lists heap items := by
  rw [Lists, head]
  exact listed

/-- Names that fit the array of a node. -/
def Short (name : List UInt8) : Prop := name.length ≤ 63

theorem copy_name_short (name : List UInt8) : Short (copyName name) := by
  rw [Short, copyName, List.length_take]
  exact Nat.min_le_left _ _

theorem copy_name_of_short {name : List UInt8} (short : Short name) : copyName name = name :=
  List.take_of_length_le short

theorem same_name_iff {name other : List UInt8} (short : Short name) (short' : Short other) :
    sameName other name = decide (other = name) := by
  rw [sameName, List.take_of_length_le (Nat.le_succ_of_le short'),
    List.take_of_length_le (Nat.le_succ_of_le short)]

theorem list_head_short : Short list_head := show list_head.length ≤ 63 by decide

section Finding

variable {heap : Heap} {items : List (Nat × Entry)} {name : List UInt8}

theorem find_same (short : Short name) (names : ∀ item ∈ items, Short item.2.name) :
    (items.find? fun item => sameName item.2.name name) =
      items.find? fun item => decide (item.2.name = name) := by
  induction items with
  | nil => rfl
  | cons item rest ih =>
      rw [List.find?_cons, List.find?_cons, same_name_iff short (names item List.mem_cons_self),
        ih fun other member => names other (List.mem_cons_of_mem _ member)]

/-- A name other than the head's is found among the items. -/
theorem de_lists (lists : Lists heap items) (short : Short name) (other : name ≠ list_head)
    (names : ∀ item ∈ items, Short item.2.name) :
    heap.list_de name = some (items.find? fun item => decide (item.2.name = name)) := by
  rw [Lists] at lists
  rw [Heap.list_de]
  cases head : heap.g_memory_head with
  | none =>
      rw [head] at lists
      rw [lists]
      rfl
  | some phead =>
      rw [head] at lists
      have found := @find_linked _ _ heap.nodes none (headItem phead :: items)
        (fun entry => sameName entry.name name) heap.rounds lists.linked
        (Nat.succ_lt_succ lists.few)
      have passed : sameName list_head name = false := by
        rw [same_name_iff short list_head_short]
        exact decide_eq_false fun same => other same.symm
      change find heap.nodes _ _ (first (headItem phead :: items) none) = _
      rw [found, List.find?_cons]
      change some (match sameName list_head name with
        | true => some (headItem phead)
        | false => items.find? fun item => sameName item.2.name name) = _
      rw [passed, find_same short names]

theorem registry_lists (lists : Lists heap items) : heap.registry = items := by
  rw [Lists] at lists
  rw [Heap.registry]
  cases head : heap.g_memory_head with
  | none =>
      rw [head] at lists
      rw [lists]
      rfl
  | some phead =>
      rw [head] at lists
      have walked := @walk_linked _ _ heap.nodes none (headItem phead :: items) heap.rounds
        lists.linked (Nat.succ_lt_succ lists.few)
      exact congrArg List.tail walked

end Finding

section Entering

theorem nodup_behind {Item : Type*} {items : List Item} {item : Item} (nodup : items.Nodup)
    (new : item ∉ items) : (items ++ [item]).Nodup := by
  rw [← List.concat_eq_append]
  exact nodup.concat new

variable {heap : Heap} {phead block : Nat} {items : List (Nat × Entry)} {name : List UInt8}

/-- The heap with the head node that `list_init` allocates. -/
theorem init_listed : Listed (heap.list_init true) heap.nodeCount [] where
  linked := ⟨Function.update_self .., trivial⟩
  nodup := List.nodup_singleton _
  bound := by
    intro addr member
    rw [List.mem_singleton.mp member]
    exact Nat.lt_succ_self _
  number := rfl
  few := Nat.succ_pos _

/-- The heap with a further node at the end of the registry. -/
def entered (heap : Heap) (tail block : Nat) (name : List UInt8) : Heap :=
  { heap with
    nodes := append heap.nodes tail heap.nodeCount ⟨some block, name⟩
    nodeCount := heap.nodeCount + 1
    g_memory_nu := heap.g_memory_nu + 1 }

theorem exists_last (phead : Nat) (items : List (Nat × Entry)) :
    ∃ left tail entry, headItem phead :: items = left ++ [(tail, entry)] := by
  rcases List.eq_nil_or_concat (headItem phead :: items) with none | ⟨left, item, parts⟩
  · exact absurd none (List.cons_ne_nil _ _)
  · exact ⟨left, item.1, item.2, by rw [parts, List.concat_eq_append]⟩

theorem en_listed (listed : Listed heap phead items) (head : heap.g_memory_head = some phead)
    (short : Short name) :
    ∃ tail, heap.list_en true block name = some (true,
        { heap with
          nodes := append heap.nodes tail heap.nodeCount ⟨some block, name⟩
          nodeCount := heap.nodeCount + 1 }) ∧
      Listed (entered heap tail block name) phead
        (items ++ [(heap.nodeCount, ⟨some block, name⟩)]) := by
  obtain ⟨linked, nodup, bound, number, few⟩ := listed
  obtain ⟨left, tail, entry, parts⟩ := exists_last phead items
  have ends : findLast heap.nodes heap.rounds phead = some tail := by
    have found := @find_last_linked _ _ heap.nodes none phead ⟨none, list_head⟩ items heap.rounds
      linked (Nat.lt_succ_of_lt few)
    change findLast heap.nodes heap.rounds phead = last none (headItem phead :: items) at found
    rw [found, parts, last_append]
  have fresh : heap.nodeCount ∉ (headItem phead :: items).map Prod.fst :=
    fun member => Nat.lt_irrefl _ (bound _ member)
  have longer : headItem phead :: (items ++ [(heap.nodeCount, ⟨some block, name⟩)]) =
      (headItem phead :: items) ++ [(heap.nodeCount, ⟨some block, name⟩)] := rfl
  refine ⟨tail, ?_, ?_, ?_, ?_, ?_, ?_⟩
  · rw [Heap.list_en, head]
    dsimp only
    rw [if_pos rfl, ends, copy_name_of_short short]
    rfl
  · rw [longer]
    rw [parts] at linked nodup fresh ⊢
    exact linked_append_new linked nodup fresh
  · rw [longer, List.map_append]
    exact nodup_behind nodup fresh
  · intro addr member
    rw [longer, List.map_append] at member
    rcases List.mem_append.mp member with old | new
    · exact Nat.lt_succ_of_lt (bound addr old)
    · rw [List.mem_singleton.mp new]
      exact Nat.lt_succ_self _
  · change heap.g_memory_nu + 1 = _
    rw [number, List.length_append, List.length_singleton]
    rfl
  · rw [List.length_append, List.length_singleton]
    exact Nat.succ_lt_succ few

end Entering

section TakingOut

variable {heap : Heap} {phead addr block : Nat} {before behind : List (Nat × Entry)}
  {entry : Entry} {name : List UInt8}

/-- The node behind which an item stands. -/
theorem exists_tail (phead : Nat) (before : List (Nat × Entry)) (addr : Nat) (entry : Entry)
    (behind : List (Nat × Entry)) :
    ∃ front tail held, headItem phead :: before = front ++ [(tail, held)] ∧
      headItem phead :: (before ++ (addr, entry) :: behind) =
        front ++ [(tail, held)] ++ (addr, entry) :: behind := by
  obtain ⟨front, tail, held, parts⟩ := exists_last phead before
  exact ⟨front, tail, held, parts, by rw [← parts]; rfl⟩

/-- What `list_free` unlinks, whichever of its branches is taken. -/
theorem unlink_linked {heap : Heap} {node : SC_node}
    (linked : Linked heap.nodes none
      (headItem phead :: (before ++ (addr, entry) :: behind)) none)
    (nodup : ((headItem phead :: (before ++ (addr, entry) :: behind)).map Prod.fst).Nodup)
    (present : heap.nodes addr = some node) :
    Linked (heap.unlink addr node) none (headItem phead :: (before ++ behind)) none := by
  obtain ⟨front, tail, held, parts, whole⟩ := exists_tail phead before addr entry behind
  have shorter : headItem phead :: (before ++ behind) = front ++ [(tail, held)] ++ behind := by
    rw [← parts]
    rfl
  rw [whole] at linked nodup
  rw [shorter]
  have here := (linked_append.mp linked).2.1
  rw [last_append, present] at here
  rw [Option.some.inj here, Heap.unlink]
  cases behind with
  | nil =>
      rw [List.append_nil]
      exact linked_unlink_last linked nodup
  | cons item rest => exact linked_unlink linked nodup

theorem free_lists (lists : Listed heap phead (before ++ (addr, entry) :: behind))
    (found : heap.list_de name = some (some (addr, entry))) :
    ∃ nodes, heap.list_free name = some { heap with nodes := nodes } ∧
      Listed { heap with nodes := nodes, g_memory_nu := heap.g_memory_nu - 1 } phead
        (before ++ behind) := by
  obtain ⟨linked, nodup, bound, number, few⟩ := lists
  obtain ⟨node, present⟩ : ∃ node, heap.nodes addr = some node := by
    apply linked_present linked
    exact List.mem_map_of_mem (List.mem_cons_of_mem _
      (List.mem_append_right _ List.mem_cons_self))
  have shorter : (headItem phead :: (before ++ behind)).Sublist
      (headItem phead :: (before ++ (addr, entry) :: behind)) := by
    apply List.Sublist.cons_cons
    exact List.Sublist.append_left (List.sublist_cons_self _ _) _
  have length : (before ++ (addr, entry) :: behind).length = (before ++ behind).length + 1 := by
    rw [List.length_append, List.length_append, List.length_cons, Nat.add_assoc]
  refine ⟨heap.unlink addr node, ?_, ?_⟩
  · rw [Heap.list_free, found, Option.bind_some]
    dsimp only
    rw [present, Option.map_some]
  · refine ⟨unlink_linked linked nodup present, nodup.sublist (shorter.map _), ?_, ?_, ?_⟩
    · intro other member
      exact bound other ((shorter.map _).subset member)
    · change heap.g_memory_nu - 1 = _
      rw [number, length]
      omega
    · rw [length] at few
      exact Nat.lt_of_succ_lt few

/-- The blocks behind a free. -/
def withoutBlock (heap : Heap) (block : Nat) : Heap :=
  { heap with
    blocks := Function.update heap.blocks block none
    freed := heap.freed ++ [block] }

theorem free_block_present {contents : SMemoryPosition} (present : heap.blocks block = some contents) :
    heap.freeBlock block = some (withoutBlock heap block) := by
  rw [Heap.freeBlock, present]
  rfl

/-- `DeleteMallocMemory` of a registered name takes out its entry, frees its block,
and with the last entry also the head node. -/
theorem delete_lists (lists : Lists heap (before ++ (addr, entry) :: behind))
    (found : heap.list_de name = some (some (addr, entry))) (block_eq : entry.pbuff = some block)
    {contents : SMemoryPosition} (present : heap.blocks block = some contents) :
    ∃ after, deleteMallocMemory name heap = some after ∧ Lists after (before ++ behind) ∧
      after.blocks = Function.update heap.blocks block none ∧
      after.freed = heap.freed ++ [block] ∧ after.blockCount = heap.blockCount := by
  rw [Lists] at lists
  cases head : heap.g_memory_head with
  | none =>
      rw [head] at lists
      exact absurd lists (List.append_ne_nil_of_right_ne_nil _ (List.cons_ne_nil _ _))
  | some phead =>
      rw [head] at lists
      have listedFreed : Listed (withoutBlock heap block) phead
          (before ++ (addr, entry) :: behind) :=
        ⟨lists.linked, lists.nodup, lists.bound, lists.number, lists.few⟩
      obtain ⟨nodes, freed, taken⟩ := free_lists listedFreed found
      rw [deleteMallocMemory, head]
      dsimp only
      rw [found, Option.bind_some]
      dsimp only
      rw [block_eq]
      dsimp only
      rw [free_block_present present, Option.bind_some, freed, Option.bind_some]
      split_ifs with last
      · -- the head is the only node left
        have alone : before ++ behind = [] := by
          have number := taken.number
          change (withoutBlock heap block).g_memory_nu - 1 = _ at number
          change (withoutBlock heap block).g_memory_nu - 1 = 1 at last
          have zero : (before ++ behind).length = 0 := by omega
          exact List.length_eq_zero_iff.mp zero
        have present := taken.linked.1
        change nodes phead = _ at present
        dsimp only
        rw [present, Option.map_some]
        exact ⟨_, rfl, alone, rfl, rfl, rfl⟩
      · exact ⟨_, rfl, lists_of_head head taken, rfl, rfl, rfl⟩

end TakingOut

end Mgw.HeapMemory

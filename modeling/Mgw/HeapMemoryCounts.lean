import Mathlib.Data.List.Perm.Basic
import Mgw.HeapMemoryNames

/-!
# Counters and contexts of the heap memory

A registered block carries the number of its live writers, and that of its live
readers as far as eight bits hold it. Between the steps of a call one registration
may be without a context.
-/

namespace Mgw.HeapMemory

open DoublyLinked StreamBuff

set_option autoImplicit false

/-- The contexts of a name that read or write. -/
def users (mode : IoMode) (name : List UInt8) (contexts : List BuffContext) : Nat :=
  contexts.countP fun context => decide (context.Name = name ∧ context.mode = mode)

/-- Every allocated block is registered or has been freed once. -/
structure Owned (heap : Heap) (names : List Registration) : Prop where
  nodup : (names.map Prod.snd).Nodup
  allocated : ∀ block, block < heap.blockCount ↔
    block ∈ heap.freed ∨ block ∈ names.map Prod.snd
  once : heap.freed.Nodup
  kept : ∀ block ∈ heap.freed, block ∉ names.map Prod.snd

def Counts (contents : SMemoryPosition) (readers writers : Nat) : Prop :=
  contents.pstuHead.ucReaderCount = readers % 256 ∧ contents.pstuHead.ucWriterCount = writers

def Counted (heap : Heap) (contexts : List BuffContext) (names : List Registration) : Prop :=
  ∀ registration ∈ names, ∃ contents, heap.blocks registration.2 = some contents ∧
    Counts contents (users .read registration.1 contexts) (users .write registration.1 contexts)

/-- What is registered is what the contexts use, `extra` apart. -/
def Used (contexts : List BuffContext) (names : List Registration) (extra : Option Registration) :
    Prop :=
  ∀ registration, registration ∈ names ↔
    (∃ context ∈ contexts, (context.Name, context.pstuHead) = registration) ∨
      extra = some registration

structure Sound (heap : Heap) (contexts : List BuffContext) (names : List Registration)
    (extra : Option Registration) : Prop where
  registers : Registers heap names
  owned : Owned heap names
  counted : Counted heap contexts names
  used : Used contexts names extra
  writer : ∀ name, users .write name contexts ≤ 1

theorem used_none_iff {contexts : List BuffContext} {names : List Registration} :
    Used contexts names none ↔ ∀ registration, registration ∈ names ↔
      ∃ context ∈ contexts, (context.Name, context.pstuHead) = registration := by
  simp only [Used, reduceCtorEq, or_false]

variable {heap after : Heap} {contexts more : List BuffContext} {names : List Registration}
  {name : List UInt8} {block readers writers : Nat} {mode : IoMode} {contents : SMemoryPosition}
  {context : BuffContext}

section Blocks

theorem fresh_block (owned : Owned heap names) :
    heap.blockCount ∉ heap.freed ∧ heap.blockCount ∉ names.map Prod.snd := by
  apply not_or.mp
  rw [← owned.allocated]
  exact Nat.lt_irrefl _

/-- A registered block is not the next one to be allocated. -/
theorem registered_old (owned : Owned heap names) {registration : Registration}
    (registered : registration ∈ names) : registration.2 ≠ heap.blockCount := by
  intro same
  apply (fresh_block owned).2
  rw [← same]
  exact List.mem_map_of_mem registered

theorem owned_failed (owned : Owned heap names) (failed : Failed heap after) :
    Owned after names := by
  obtain ⟨nodup, allocated, once, kept⟩ := owned
  rcases failed with ⟨-, freed, count⟩ | ⟨-, freed, count⟩
  · refine ⟨nodup, ?_, ?_, ?_⟩
    · rw [freed, count]
      exact allocated
    · rw [freed]
      exact once
    · rw [freed]
      exact kept
  · have fresh := fresh_block ⟨nodup, allocated, once, kept⟩
    refine ⟨nodup, ?_, ?_, ?_⟩
    · intro block
      rw [freed, count, Nat.lt_succ_iff_lt_or_eq, allocated, List.mem_append, List.mem_singleton]
      tauto
    · rw [freed]
      exact nodup_behind once fresh.1
    · intro block member
      rw [freed] at member
      rcases List.mem_append.mp member with old | new
      · exact kept block old
      · rw [List.mem_singleton.mp new]
        exact fresh.2

theorem owned_entered (owned : Owned heap names) (entered : Entered heap after contents)
    (name : List UInt8) : Owned after (names ++ [(name, heap.blockCount)]) := by
  obtain ⟨nodup, allocated, once, kept⟩ := owned
  obtain ⟨-, freed, count⟩ := entered
  have fresh := fresh_block ⟨nodup, allocated, once, kept⟩
  have blocks : (names ++ [(name, heap.blockCount)]).map Prod.snd =
      names.map Prod.snd ++ [heap.blockCount] := List.map_append
  constructor
  · rw [blocks]
    exact nodup_behind nodup fresh.2
  · intro block
    rw [freed, count, blocks, Nat.lt_succ_iff_lt_or_eq, allocated, List.mem_append,
      List.mem_singleton, or_assoc]
  · rw [freed]
    exact once
  · intro block member again
    rw [freed] at member
    rw [blocks] at again
    rcases List.mem_append.mp again with old | new
    · exact kept block member old
    · rw [List.mem_singleton.mp new] at member
      exact fresh.1 member

theorem owned_taken {front back : List Registration}
    (owned : Owned heap (front ++ (name, block) :: back))
    (freed : after.freed = heap.freed ++ [block]) (count : after.blockCount = heap.blockCount) :
    Owned after (front ++ back) := by
  obtain ⟨nodup, allocated, once, kept⟩ := owned
  have fewer : (front ++ back).Sublist (front ++ (name, block) :: back) :=
    List.Sublist.append_left (List.sublist_cons_self _ _) _
  have gone : block ∉ (front ++ back).map Prod.snd := by
    have first := nodup
    rw [List.map_append, List.map_cons, List.nodup_middle] at first
    rw [List.map_append]
    exact (List.nodup_cons.mp first).1
  have registered : ∀ other, other ∈ (front ++ (name, block) :: back).map Prod.snd ↔
      other = block ∨ other ∈ (front ++ back).map Prod.snd := by
    intro other
    rw [List.map_append, List.map_append, List.map_cons, List.mem_append, List.mem_append,
      List.mem_cons]
    tauto
  have held := (registered block).mpr (Or.inl rfl)
  constructor
  · exact nodup.sublist (fewer.map _)
  · intro other
    rw [freed, count, allocated, registered, List.mem_append, List.mem_singleton, or_assoc]
  · rw [freed]
    exact nodup_behind once fun member => kept block member held
  · intro other member again
    rw [freed] at member
    rcases List.mem_append.mp member with old | new
    · exact kept other old ((registered other).mpr (Or.inr again))
    · rw [List.mem_singleton.mp new] at again
      exact gone again

end Blocks

section Counters

theorem counts_joined (counts : Counts contents readers writers)
    (free : mode = .write → writers = 0) :
    Counts { contents with pstuHead := joined mode contents.pstuHead }
      (readers + if mode = .read then 1 else 0) (writers + if mode = .write then 1 else 0) := by
  obtain ⟨reading, writing⟩ := counts
  cases mode with
  | read =>
      refine ⟨?_, writing⟩
      change count8 (contents.pstuHead.ucReaderCount + 1) = (readers + 1) % 256
      rw [reading, count8, Nat.mod_add_mod]
  | write =>
      refine ⟨reading, ?_⟩
      change count8 (contents.pstuHead.ucWriterCount + 1) = writers + 1
      rw [writing, free rfl]
      rfl

theorem counts_left (counts : Counts contents (readers + if mode = .read then 1 else 0)
      (writers + if mode = .write then 1 else 0))
    (single : (writers + if mode = .write then 1 else 0) ≤ 1) :
    Counts { contents with pstuHead := left mode contents.pstuHead } readers writers := by
  obtain ⟨reading, writing⟩ := counts
  cases mode with
  | read =>
      refine ⟨?_, writing⟩
      change contents.pstuHead.ucReaderCount = (readers + 1) % 256 at reading
      change count8 (contents.pstuHead.ucReaderCount + 255) = readers % 256
      rw [reading, count8]
      omega
  | write =>
      refine ⟨reading, ?_⟩
      change contents.pstuHead.ucWriterCount = writers + 1 at writing
      change writers + 1 ≤ 1 at single
      change count8 (contents.pstuHead.ucWriterCount + 255) = writers
      rw [writing, count8]
      omega

theorem users_own (perm : more.Perm (context :: contexts)) (mode : IoMode) :
    users mode context.Name more =
      users mode context.Name contexts + if context.mode = mode then 1 else 0 := by
  rw [users, perm.countP_eq, List.countP_cons, ← users]
  congr 1
  apply if_congr _ rfl rfl
  rw [decide_eq_true_iff]
  exact and_iff_right rfl

theorem users_other (perm : more.Perm (context :: contexts)) (mode : IoMode)
    (other : name ≠ context.Name) : users mode name more = users mode name contexts := by
  rw [users, perm.countP_eq, List.countP_cons, ← users, if_neg, Nat.add_zero]
  intro same
  exact other (of_decide_eq_true same).1.symm

theorem users_le (perm : more.Perm (context :: contexts)) (mode : IoMode) (name : List UInt8) :
    users mode name contexts ≤ users mode name more := by
  rw [users, users, perm.countP_eq, List.countP_cons]
  exact Nat.le_add_right _ _

theorem users_pos_iff : 0 < users .read name contexts ∨ 0 < users .write name contexts ↔
    ∃ context ∈ contexts, context.Name = name := by
  rw [users, users, List.countP_pos_iff, List.countP_pos_iff]
  constructor
  · rintro (⟨context, member, same⟩ | ⟨context, member, same⟩) <;>
      exact ⟨context, member, (of_decide_eq_true same).1⟩
  · intro given
    obtain ⟨context, member, same⟩ := given
    cases kind : context.mode with
    | read => exact Or.inl ⟨context, member, decide_eq_true ⟨same, kind⟩⟩
    | write => exact Or.inr ⟨context, member, decide_eq_true ⟨same, kind⟩⟩

/-- One block's counters change with the contexts of its name. -/
theorem counted_changed (counted : Counted heap contexts names) (registers : Registers heap names)
    (owned : Owned heap names) (member : (name, block) ∈ names)
    (counts : Counts contents (users .read name more) (users .write name more))
    (others : ∀ mode other, other ≠ name → users mode other more = users mode other contexts) :
    Counted (heap.setBlock block contents) more names := by
  intro registration registered
  by_cases same : registration.1 = name
  · rw [block_unique registers member registered same]
    exact ⟨contents, Function.update_self .., counts⟩
  · have apart : registration.2 ≠ block := by
      intro sameBlock
      have pair := List.inj_on_of_nodup_map owned.nodup registered member sameBlock
      exact same (congrArg Prod.fst pair)
    obtain ⟨old, present, before⟩ := counted registration registered
    refine ⟨old, ?_, ?_⟩
    · exact (Function.update_of_ne apart ..).trans present
    · rw [others .read _ same, others .write _ same]
      exact before

end Counters

end Mgw.HeapMemory

import Mgw.HeapMemoryCalls
import Mgw.TransitionRuns

/-!
# The lifecycle of the heap memory

A block is registered as long as a context uses it and freed when the last one is
deleted, over every run in which the name of the head node is not asked for, the
eight bits of a reader count do not hide readers, and a reader's own memory is there.
-/

namespace Mgw.HeapMemory

open StreamBuff TransitionRuns

set_option autoImplicit false

/-- The registry, the blocks and the live contexts are in agreement. -/
structure Agrees (state : State) : Prop where
  /-- A block is registered under a name exactly when a live context uses it. -/
  registered : ∀ entry, (∃ item ∈ state.heap.registry, item.2 = entry) ↔
    ∃ context ∈ state.contexts, entry = ⟨some context.pstuHead, context.Name⟩
  one_entry : (state.heap.registry.map fun item => item.2.name).Nodup
  freed_once : state.heap.freed.Nodup
  freed_iff : ∀ block < state.heap.blockCount,
    block ∈ state.heap.freed ↔ ∀ context ∈ state.contexts, context.pstuHead ≠ block
  in_use : ∀ context ∈ state.contexts, context.pstuHead < state.heap.blockCount ∧
    ∃ contents, state.heap.blocks context.pstuHead = some contents
  one_writer : ∀ name, users .write name state.contexts ≤ 1

/-- A writer gets its context when its allocations succeed and there is none yet. -/
def Accepted (state : State) : Action → Prop
  | .create answers size name frames mode readByTime =>
      mode = .write → 0 < size → answers.context = true →
        Supplied answers (copyName name) state.heap state.contexts →
        users .write (copyName name) state.contexts = 0 →
        ∃ context after, state.createStreamBuff answers size name frames mode readByTime =
          some (some context, after)
  | .delete _ => True

/-- A name other than the head's and memory for a reader; no readers that the counter
hides when the last context that it shows is deleted. -/
def Safe (state : State) : Action → Prop
  | .create answers size name _ mode _ =>
      copyName name ≠ list_head ∧ (mode = .read → 0 < size → answers.context = true →
        Supplied answers (copyName name) state.heap state.contexts → answers.reader = true)
  | .delete index =>
      ∀ context ∈ state.contexts[index]?, Visible (state.contexts.eraseIdx index) context.Name

section Decidability

instance suffice_decidable (answers : Allocations) (heap : Heap) :
    Decidable (answers.Suffice heap) :=
  inferInstanceAs (Decidable (_ ∧ _ ∧ (_ → _)))

instance supplied_decidable (answers : Allocations) (name : List UInt8) (heap : Heap)
    (contexts : List BuffContext) : Decidable (Supplied answers name heap contexts) :=
  inferInstanceAs (Decidable (_ ∨ _))

instance visible_decidable (contexts : List BuffContext) (name : List UInt8) :
    Decidable (Visible contexts name) :=
  inferInstanceAs (Decidable (_ → _ → _))

instance safe_decidable (state : State) : (action : Action) → Decidable (Safe state action)
  | .create _ _ _ _ _ _ => inferInstanceAs (Decidable (_ ∧ (_ → _ → _ → _ → _)))
  | .delete _ => inferInstanceAs (Decidable (∀ _ ∈ _, _))

end Decidability

/-- The agreement with its counters, which every safe step keeps. -/
def Invariant (state : State) : Prop := ∃ names, Sound state.heap state.contexts names none

theorem initial_sound : Invariant initial := by
  refine ⟨[], no_head_registers rfl, ⟨List.nodup_nil, ?_, List.nodup_nil, ?_⟩, ?_, ?_, ?_⟩
  · intro block
    exact ⟨fun impossible => absurd impossible (Nat.not_lt_zero _), fun impossible => by
      rcases impossible with freed | registered
      · exact absurd freed List.not_mem_nil
      · exact absurd registered List.not_mem_nil⟩
  · exact fun _ impossible => absurd impossible List.not_mem_nil
  · exact fun _ impossible => absurd impossible List.not_mem_nil
  · apply used_none_iff.mpr
    intro registration
    exact ⟨fun impossible => absurd impossible List.not_mem_nil,
      fun ⟨_, impossible, _⟩ => absurd impossible List.not_mem_nil⟩
  · exact fun _ => Nat.zero_le 1

theorem block_used_iff {heap : Heap} {contexts : List BuffContext} {names : List Registration}
    (sound : Sound heap contexts names none) (block : Nat) :
    block ∈ names.map Prod.snd ↔ ∃ context ∈ contexts, context.pstuHead = block := by
  have used := used_none_iff.mp sound.used
  constructor
  · intro registered
    obtain ⟨registration, member, rfl⟩ := List.mem_map.mp registered
    obtain ⟨context, live, same⟩ := (used registration).mp member
    exact ⟨context, live, congrArg Prod.snd same⟩
  · intro inUse
    obtain ⟨context, live, rfl⟩ := inUse
    exact List.mem_map.mpr ⟨_, (used _).mpr ⟨context, live, rfl⟩, rfl⟩

/-- The entries of the registry, and their names. -/
theorem registry_registers {heap : Heap} {names : List Registration}
    (registers : Registers heap names) :
    heap.registry.map Prod.snd = names.map Registration.entry ∧
      (heap.registry.map fun item => item.2.name) = names.map Prod.fst := by
  obtain ⟨items, lists, held⟩ := registers.lists
  rw [registry_lists lists]
  refine ⟨held, ?_⟩
  have entries := congrArg (List.map Entry.name) held
  rw [List.map_map, List.map_map] at entries
  exact entries

theorem invariant_agrees {state : State} (invariant : Invariant state) : Agrees state := by
  obtain ⟨names, sound⟩ := invariant
  have used := used_none_iff.mp sound.used
  have blocks := block_used_iff sound
  obtain ⟨entries, entryNames⟩ := registry_registers sound.registers
  refine ⟨?_, ?_, sound.owned.once, ?_, ?_, sound.writer⟩
  · intro entry
    rw [← List.mem_map, entries, List.mem_map]
    constructor
    · intro found
      obtain ⟨registration, registered, rfl⟩ := found
      obtain ⟨context, live, pair⟩ := (used registration).mp registered
      refine ⟨context, live, ?_⟩
      rw [← pair]
      rfl
    · intro found
      obtain ⟨context, live, rfl⟩ := found
      exact ⟨_, (used _).mpr ⟨context, live, rfl⟩, rfl⟩
  · rw [entryNames]
    exact sound.registers.nodup
  · intro block bound
    constructor
    · intro freed context live same
      exact sound.owned.kept block freed ((blocks block).mpr ⟨context, live, same⟩)
    · intro unused
      rcases (sound.owned.allocated block).mp bound with freed | registered
      · exact freed
      · obtain ⟨context, live, same⟩ := (blocks block).mp registered
        exact absurd same (unused context live)
  · intro context live
    obtain ⟨contents, present, -⟩ := sound.counted _ ((used _).mpr ⟨context, live, rfl⟩)
    refine ⟨?_, contents, present⟩
    exact (sound.owned.allocated _).mpr (Or.inr ((blocks _).mpr ⟨context, live, rfl⟩))

theorem safe_step {state : State} {action : Action} (invariant : Invariant state)
    (safe : Safe state action) : ∃ after, next state action = some after ∧ Invariant after := by
  obtain ⟨names, sound⟩ := invariant
  cases action with
  | create answers size name frames mode readByTime =>
      obtain ⟨result, after, more, created, kept, -⟩ := @create_sound names size frames mode answers
        state sound name safe.1 readByTime safe.2
      refine ⟨after, ?_, more, kept⟩
      rw [next, created]
      rfl
  | delete index =>
      obtain ⟨after, fewer, deleted, kept⟩ := delete_sound sound index safe
      exact ⟨after, deleted, fewer, kept⟩

theorem safe_accepted {state : State} {action : Action} (invariant : Invariant state)
    (safe : Safe state action) : Accepted state action := by
  obtain ⟨names, sound⟩ := invariant
  cases action with
  | create answers size name frames mode readByTime =>
      intro kind positive ok supplied free
      obtain ⟨result, after, -, created, -, accepted⟩ := @create_sound names size frames mode
        answers state sound name safe.1 readByTime safe.2
      obtain ⟨context, found⟩ :=
        Option.isSome_iff_exists.mp (accepted kind positive ok supplied free)
      exact ⟨context, after, by rw [created, found]⟩
  | delete index => trivial

/-- Every run of safe steps ends, with the blocks as the contexts have them, and each
of its writers that finds none live was accepted. -/
theorem blocks_follow_contexts (actions : List Action) (safe : TryMeets next Safe initial actions) :
    (∃ final, tryRun next initial actions = some final ∧ Agrees final) ∧
      ∀ before action after state, actions = before ++ action :: after →
        tryRun next initial before = some state → Accepted state action := by
  constructor
  · obtain ⟨final, reached, invariant⟩ := try_run_invariant
      (fun _ _ invariant safe => safe_step invariant safe) actions initial initial_sound safe
    exact ⟨final, reached, invariant_agrees invariant⟩
  · intro before action after state parts reached
    rw [parts] at safe
    obtain ⟨early, late⟩ := try_meets_append before (action :: after) initial state safe reached
    obtain ⟨same, there, invariant⟩ := try_run_invariant
      (fun _ _ invariant safe => safe_step invariant safe) before initial initial_sound early
    rw [reached] at there
    rw [← Option.some.inj there] at invariant
    exact safe_accepted invariant late.1

/-- A call for the buffer `name` that is given all its memory. -/
def openBuff (name : List UInt8) (mode : IoMode) : Action :=
  .create .all 64 name 4 mode false

/-- A reader that stays behind its writer, a second name, a refused writer, one that
gets no node, and the next writer of the first name. -/
def sharedBuff : List Action :=
  [openBuff [97] .write, openBuff [97] .read, openBuff [98] .write, openBuff [98] .write,
    .create { Allocations.all with node := false } 64 [99] 4 .write false,
    .delete 0, openBuff [97] .write, .delete 1, .delete 0, .delete 0]

theorem blocks_follow_contexts_shared : TryMeets next Safe initial sharedBuff ∧
    (∃ final, tryRun next initial sharedBuff = some final ∧ Agrees final) ∧
      ∀ before action after state, sharedBuff = before ++ action :: after →
        tryRun next initial before = some state → Accepted state action :=
  have safe : TryMeets next Safe initial sharedBuff := by decide
  ⟨safe, blocks_follow_contexts sharedBuff safe⟩

/-- A writer and 256 readers, of which the writer is deleted. -/
def crowdedBuff : List Action :=
  openBuff [97] .write :: (List.replicate 256 (openBuff [97] .read) ++ [.delete 0])

/-- A writer of a buffer with the name of the head node. -/
def headBuff : List Action := [openBuff list_head .write, .delete 0]

set_option maxRecDepth 20000 in
theorem crowded_buff_freed : (∃ final, tryRun next initial crowdedBuff = some final ∧
    (∃ user ∈ final.contexts, user.pstuHead ∈ final.heap.freed) ∧ ¬Agrees final) ∧
      tryRun next initial headBuff = none := by
  have lost : ∃ final ∈ tryRun next initial crowdedBuff,
      ∃ user ∈ final.contexts, user.pstuHead ∈ final.heap.freed := by decide +kernel
  obtain ⟨final, reached, user, live, freed⟩ := lost
  refine ⟨⟨final, reached, ⟨user, live, freed⟩, ?_⟩, ?_⟩
  · intro agrees
    have bound := (agrees.in_use user live).1
    exact (agrees.freed_iff _ bound).mp freed user live rfl
  · exact Option.isNone_iff_eq_none.mp (by decide)

/-- Readers that the counter hides lose their block with the last context it shows. -/
theorem hidden_readers_lose_block {state : State} {index : Nat} {context : BuffContext}
    (invariant : Invariant state) (live : state.contexts[index]? = some context)
    (hidden : ¬Visible (state.contexts.eraseIdx index) context.Name) :
    ∃ after, state.deleteStreamBuff index = some after ∧
      ∃ user ∈ after.contexts, user.pstuHead ∈ after.heap.freed := by
  obtain ⟨names, sound⟩ := invariant
  obtain ⟨contents, present, kept, reading, writing⟩ := leave_sound sound live
  have member : (context.Name, context.pstuHead) ∈ names := (kept.used _).mpr (Or.inr rfl)
  obtain ⟨noWriter, hidden⟩ := Classical.not_imp.mp hidden
  obtain ⟨wrapped, readers⟩ := Classical.not_imp.mp hidden
  obtain ⟨after, front, back, -, deleted, -, -, freed, -⟩ :=
    delete_registers kept.registers member (Function.update_self ..)
  dsimp only at reading writing
  refine ⟨⟨after, state.contexts.eraseIdx index⟩, ?_, ?_⟩
  · rw [State.deleteStreamBuff, live]
    dsimp only
    rw [present, Option.bind_some, reading, writing, if_pos ⟨wrapped, noWriter⟩, deleted]
    rfl
  · obtain ⟨user, left, named⟩ := users_pos_iff.mp (Or.inl (Nat.pos_of_ne_zero readers))
    have registered := (kept.used _).mpr (Or.inl ⟨user, left, rfl⟩)
    have unique := block_unique kept.registers member registered named
    have block : user.pstuHead = context.pstuHead := congrArg Prod.snd unique
    refine ⟨user, left, ?_⟩
    dsimp only
    rw [freed, block]
    exact List.mem_append_right _ List.mem_cons_self

end Mgw.HeapMemory

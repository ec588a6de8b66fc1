import Mgw.HeapMemoryCounts

/-!
# Creating and deleting contexts

Each call in its parts: a block is found or made, a context joins it, a context
leaves it, and the block of the last one is freed.
-/

namespace Mgw.HeapMemory

open StreamBuff

set_option autoImplicit false

variable {heap after : Heap} {contexts more : List BuffContext} {names : List Registration}
  {name : List UInt8} {block size frames : Nat} {mode : IoMode} {contents : SMemoryPosition}
  {context : BuffContext} {answers : Allocations} {state : State}

section Parts

theorem users_unregistered (sound : Sound heap contexts names none)
    (absent : name ∉ names.map Prod.fst) (mode : IoMode) : users mode name contexts = 0 := by
  apply List.countP_eq_zero.mpr
  intro context member matching
  have same := (of_decide_eq_true matching).1
  have registered := (used_none_iff.mp sound.used _).mpr ⟨context, member, rfl⟩
  apply absent
  rw [← same]
  exact List.mem_map_of_mem registered

/-- The block of a registered name is there for a further context. -/
theorem sound_found (sound : Sound heap contexts names none) (member : (name, block) ∈ names) :
    Sound heap contexts names (some (name, block)) := by
  refine ⟨sound.registers, sound.owned, sound.counted, ?_, sound.writer⟩
  intro registration
  rw [← used_none_iff.mp sound.used registration]
  refine ⟨Or.inl, ?_⟩
  intro known
  rcases known with registered | same
  · exact registered
  · rw [← Option.some.inj same]
    exact member

theorem sound_failed (sound : Sound heap contexts names none) (registers : Registers after names)
    (failed : Failed heap after) : Sound after contexts names none := by
  refine ⟨registers, owned_failed sound.owned failed, ?_, sound.used, sound.writer⟩
  intro registration registered
  obtain ⟨contents, present, counts⟩ := sound.counted registration registered
  refine ⟨contents, ?_, counts⟩
  rcases failed with ⟨blocks, -, -⟩ | ⟨blocks, -, -⟩
  · rw [blocks]
    exact present
  · rw [blocks, Function.update_of_ne (registered_old sound.owned registered)]
    exact present

theorem sound_entered (sound : Sound heap contexts names none) (absent : name ∉ names.map Prod.fst)
    (registers : Registers after (names ++ [(name, heap.blockCount)]))
    (entered : Entered heap after (initMemoryParam zeroedBlock frames size)) :
    Sound after contexts (names ++ [(name, heap.blockCount)]) (some (name, heap.blockCount)) := by
  refine ⟨registers, owned_entered sound.owned entered name, ?_, ?_, sound.writer⟩
  · intro registration registered
    rw [entered.blocks]
    rcases List.mem_append.mp registered with old | new
    · obtain ⟨contents, present, counts⟩ := sound.counted registration old
      have before := registered_old sound.owned old
      exact ⟨contents, (Function.update_of_ne before ..).trans present, counts⟩
    · rw [List.mem_singleton.mp new]
      refine ⟨_, Function.update_self .., ?_, ?_⟩
      · rw [users_unregistered sound absent]
        rfl
      · rw [users_unregistered sound absent]
        rfl
  · intro registration
    rw [List.mem_append, used_none_iff.mp sound.used registration, List.mem_singleton,
      Option.some_inj]
    exact or_congr_right eq_comm

/-- With one context more, its own registration is no exception. -/
theorem used_perm (perm : more.Perm (context :: contexts)) (registration : Registration) :
    (∃ user ∈ more, (user.Name, user.pstuHead) = registration) ↔
      (∃ user ∈ contexts, (user.Name, user.pstuHead) = registration) ∨
        some (context.Name, context.pstuHead) = some registration := by
  constructor
  · intro given
    obtain ⟨user, member, same⟩ := given
    rcases List.mem_cons.mp (perm.mem_iff.mp member) with new | old
    · rw [new] at same
      exact Or.inr (congrArg some same)
    · exact Or.inl ⟨user, old, same⟩
  · intro known
    rcases known with ⟨user, old, same⟩ | same
    · exact ⟨user, perm.mem_iff.mpr (List.mem_cons_of_mem _ old), same⟩
    · exact ⟨context, perm.mem_iff.mpr List.mem_cons_self, Option.some.inj same⟩

/-- The counters of the block that a context joins or leaves. -/
theorem counts_present {extra : Option Registration} (sound : Sound heap contexts names extra)
    (member : (name, block) ∈ names) (present : heap.blocks block = some contents) :
    Counts contents (users .read name contexts) (users .write name contexts) := by
  obtain ⟨held, found, counts⟩ := sound.counted _ member
  rw [Option.some.inj (present.symm.trans found)]
  exact counts

/-- A context that joins the block it found. -/
theorem sound_joined (sound : Sound heap contexts names (some (context.Name, context.pstuHead)))
    (present : heap.blocks context.pstuHead = some contents)
    (free : context.mode = .write → users .write context.Name contexts = 0) :
    Sound (heap.setBlock context.pstuHead
        { contents with pstuHead := joined context.mode contents.pstuHead })
      (contexts ++ [context]) names none := by
  have perm : (contexts ++ [context]).Perm (context :: contexts) := List.perm_append_singleton _ _
  have member : (context.Name, context.pstuHead) ∈ names := (sound.used _).mpr (Or.inr rfl)
  have counts := counts_present sound member present
  refine ⟨registers_of_same sound.registers rfl rfl rfl rfl, ?_, ?_, ?_, ?_⟩
  · exact ⟨sound.owned.nodup, sound.owned.allocated, sound.owned.once, sound.owned.kept⟩
  · apply counted_changed sound.counted sound.registers sound.owned member
    · rw [users_own perm, users_own perm]
      exact counts_joined counts free
    · intro mode other different
      exact users_other perm mode different
  · exact used_none_iff.mpr fun registration =>
      (sound.used registration).trans (used_perm perm registration).symm
  · intro name
    by_cases same : name = context.Name
    · rw [same, users_own perm]
      split_ifs with kind
      · rw [free kind]
      · exact sound.writer _
    · rw [users_other perm _ same]
      exact sound.writer name

/-- A context that leaves its block, whose registration may then be without one. -/
theorem sound_left (sound : Sound heap contexts names none) (perm : contexts.Perm (context :: more))
    (present : heap.blocks context.pstuHead = some contents) :
    Sound (heap.setBlock context.pstuHead
        { contents with pstuHead := left context.mode contents.pstuHead })
      more names (some (context.Name, context.pstuHead)) := by
  have member : (context.Name, context.pstuHead) ∈ names :=
    (used_none_iff.mp sound.used _).mpr ⟨context, perm.mem_iff.mpr List.mem_cons_self, rfl⟩
  have counts := counts_present sound member present
  have single := sound.writer context.Name
  rw [users_own perm, users_own perm] at counts
  rw [users_own perm] at single
  refine ⟨registers_of_same sound.registers rfl rfl rfl rfl, ?_, ?_, ?_, ?_⟩
  · exact ⟨sound.owned.nodup, sound.owned.allocated, sound.owned.once, sound.owned.kept⟩
  · apply counted_changed sound.counted sound.registers sound.owned member
    · exact counts_left counts single
    · intro mode other different
      exact (users_other perm mode different).symm
  · intro registration
    exact (used_none_iff.mp sound.used registration).trans (used_perm perm registration)
  · intro name
    exact Nat.le_trans (users_le perm _ name) (sound.writer name)

/-- The block is still in use. -/
theorem sound_in_use (sound : Sound heap contexts names (some (name, block)))
    (inUse : ∃ context ∈ contexts, context.Name = name) : Sound heap contexts names none := by
  refine ⟨sound.registers, sound.owned, sound.counted, ?_, sound.writer⟩
  apply used_none_iff.mpr
  intro registration
  rw [sound.used registration]
  refine ⟨?_, Or.inl⟩
  intro known
  rcases known with used | same
  · exact used
  · obtain ⟨user, member, named⟩ := inUse
    have registered := (sound.used _).mpr (Or.inl ⟨user, member, rfl⟩)
    have extra := (sound.used (name, block)).mpr (Or.inr rfl)
    refine ⟨user, member, ?_⟩
    rw [block_unique sound.registers extra registered named]
    exact Option.some.inj same

theorem mem_taken {front back : List Registration} {taken registration : Registration}
    (nodup : (front ++ taken :: back).Nodup) : registration ∈ front ++ back ↔
      registration ∈ front ++ taken :: back ∧ registration ≠ taken := by
  rw [List.nodup_middle, List.nodup_cons] at nodup
  rw [List.mem_append, List.mem_append, List.mem_cons]
  constructor
  · intro kept
    refine ⟨by tauto, ?_⟩
    intro same
    rw [same] at kept
    exact nodup.1 (List.mem_append.mpr kept)
  · tauto

/-- The last context of a name has left, so its block is freed. -/
theorem sound_deleted (sound : Sound heap contexts names (some (name, block)))
    (unused : ¬∃ context ∈ contexts, context.Name = name) :
    ∃ after fewer, deleteMallocMemory name heap = some after ∧ Sound after contexts fewer none := by
  have member : (name, block) ∈ names := (sound.used _).mpr (Or.inr rfl)
  obtain ⟨contents, present, -⟩ := sound.counted _ member
  obtain ⟨after, front, back, parts, result, registers, blocks, freed, count⟩ :=
    delete_registers sound.registers member present
  have owned := sound.owned
  rw [parts] at owned
  have others : ∀ registration, registration ∈ front ++ back ↔
      registration ∈ names ∧ registration ≠ (name, block) := by
    intro registration
    have nodup := sound.registers.nodup.of_map
    rw [parts] at nodup ⊢
    exact mem_taken nodup
  refine ⟨after, front ++ back, result, registers, owned_taken owned freed count, ?_, ?_,
    sound.writer⟩
  · intro registration registered
    obtain ⟨old, different⟩ := (others registration).mp registered
    obtain ⟨contents, present, counts⟩ := sound.counted registration old
    have apart : registration.2 ≠ block := by
      intro same
      exact different (List.inj_on_of_nodup_map sound.owned.nodup old member same)
    refine ⟨contents, ?_, counts⟩
    rw [blocks, Function.update_of_ne apart]
    exact present
  · apply used_none_iff.mpr
    intro registration
    rw [others, sound.used]
    constructor
    · intro given
      rcases given with ⟨inUse | same, different⟩
      · exact inUse
      · exact absurd (Option.some.inj same).symm different
    · intro given
      obtain ⟨user, member, same⟩ := given
      refine ⟨Or.inl ⟨user, member, same⟩, ?_⟩
      intro last
      exact unused ⟨user, member, congrArg Prod.fst (same.trans last)⟩

end Parts

section Calls

theorem found_memory_sound (sound : Sound heap contexts names none) (member : (name, block) ∈ names)
    (mode : IoMode) :
    foundMemory mode heap ⟨some block, name⟩ = some (some block, heap) ∧
        (mode = .write → users .write name contexts = 0) ∨
      foundMemory mode heap ⟨some block, name⟩ = some (none, heap) ∧ mode = .write ∧
        users .write name contexts ≠ 0 := by
  cases mode with
  | read => exact Or.inl ⟨rfl, fun impossible => nomatch impossible⟩
  | write =>
      obtain ⟨contents, present, -, writing⟩ := sound.counted _ member
      rw [foundMemory]
      dsimp only
      rw [Option.bind_some, present, Option.map_some, writing]
      split_ifs with occupied
      · exact Or.inr ⟨rfl, rfl, Nat.ne_of_gt occupied⟩
      · exact Or.inl ⟨rfl, fun _ => Nat.eq_zero_of_not_pos occupied⟩

/-- The allocations that a block for this name needs. -/
def Supplied (answers : Allocations) (name : List UInt8) (heap : Heap)
    (contexts : List BuffContext) : Prop :=
  (∃ context ∈ contexts, context.Name = name) ∨ answers.Suffice heap

/-- `CreateMallocMemory` finds or makes a block, or it refuses a second writer, or it
fails for want of memory. -/
theorem create_memory_sound (sound : Sound heap contexts names none) (short : Short name)
    (other : name ≠ list_head) :
    (∃ block after more,
        createMallocMemory answers name size frames mode heap = some (some block, after) ∧
        Sound after contexts more (some (name, block)) ∧
        (mode = .write → users .write name contexts = 0) ∧ Supplied answers name heap contexts) ∨
      ∃ after more, createMallocMemory answers name size frames mode heap = some (none, after) ∧
        Sound after contexts more none ∧
        (mode = .write ∧ users .write name contexts ≠ 0 ∨ ¬Supplied answers name heap contexts) := by
  rw [createMallocMemory]
  by_cases registered : name ∈ names.map Prod.fst
  · obtain ⟨⟨same, block⟩, member, rfl⟩ := List.mem_map.mp registered
    obtain ⟨addr, -, -, -, -, -, found, -, -⟩ := de_registered sound.registers member
    rw [found, Option.bind_some]
    rcases found_memory_sound sound member mode with ⟨result, free⟩ | ⟨result, refused⟩
    · obtain ⟨user, live, used⟩ := (used_none_iff.mp sound.used _).mp member
      have named := congrArg Prod.fst used
      exact Or.inl ⟨block, heap, names, result, sound_found sound member, free,
        Or.inl ⟨user, live, named⟩⟩
    · exact Or.inr ⟨heap, names, result, sound, Or.inl refused⟩
  · rw [de_unregistered sound.registers short other registered, Option.bind_some]
    have unused : ¬∃ context ∈ contexts, context.Name = name := by
      intro given
      obtain ⟨user, live, named⟩ := given
      have member := (used_none_iff.mp sound.used _).mpr ⟨user, live, rfl⟩
      apply registered
      rw [← named]
      exact List.mem_map_of_mem member
    rcases @new_memory_registers heap names name answers size frames sound.registers short other
      registered with ⟨after, result, registers, entered, suffice⟩ |
        ⟨after, result, registers, failed, scarce⟩
    · exact Or.inl ⟨heap.blockCount, after, _, result,
        sound_entered sound registered registers entered,
        fun _ => users_unregistered sound registered .write, Or.inr suffice⟩
    · exact Or.inr ⟨after, names, result, sound_failed sound registers failed,
        Or.inr fun supplied => supplied.elim unused scarce⟩

/-- A context for the block that was found or made. -/
theorem attach_sound (sound : Sound state.heap state.contexts names (some (name, block)))
    (free : mode = .write → users .write name state.contexts = 0)
    (reader : mode = .read → answers.reader = true) (readByTime : Bool) :
    ∃ context after, state.attach answers name mode readByTime block = some (some context, after) ∧
      Sound after.heap after.contexts names none := by
  have member : (name, block) ∈ names := (sound.used _).mpr (Or.inr rfl)
  obtain ⟨contents, present, reading, writing⟩ := sound.counted _ member
  rw [State.attach, present, Option.bind_some, if_neg, if_neg]
  · refine ⟨_, _, rfl, ?_⟩
    exact @sound_joined state.heap state.contexts names contents ⟨name, mode, block, _⟩ sound present
      free
  · intro given
    obtain ⟨kind, missing⟩ := given
    rw [reader kind] at missing
    exact Bool.false_ne_true missing
  · intro given
    obtain ⟨kind, occupied⟩ := given
    rw [writing, free kind] at occupied
    exact Nat.lt_irrefl _ occupied

/-- `CreateStreamBuff` with a name other than the head's. -/
theorem create_sound (sound : Sound state.heap state.contexts names none)
    (given : List UInt8) (other : copyName given ≠ list_head) (readByTime : Bool)
    (reader : mode = .read → 0 < size → answers.context = true →
      Supplied answers (copyName given) state.heap state.contexts → answers.reader = true) :
    ∃ result after more,
      state.createStreamBuff answers size given frames mode readByTime = some (result, after) ∧
      Sound after.heap after.contexts more none ∧
      (mode = .write → 0 < size → answers.context = true →
        Supplied answers (copyName given) state.heap state.contexts →
        users .write (copyName given) state.contexts = 0 → result.isSome = true) := by
  rw [State.createStreamBuff]
  split_ifs with called
  · rcases @create_memory_sound state.heap state.contexts names (copyName given) size frames mode
      answers sound (copy_name_short given) other with
        ⟨block, after, more, result, kept, free, supplied⟩ | ⟨after, more, result, kept, refused⟩
    · rw [result, Option.bind_some]
      obtain ⟨context, final, attached, done⟩ := @attach_sound more (copyName given) block mode
        answers ⟨after, state.contexts⟩ kept free
        (fun kind => reader kind called.1 called.2 supplied) readByTime
      exact ⟨some context, final, more, attached, done, fun _ _ _ _ _ => rfl⟩
    · rw [result, Option.bind_some]
      refine ⟨none, _, more, rfl, kept, ?_⟩
      intro _ _ _ supplied free
      rcases refused with ⟨-, occupied⟩ | scarce
      · exact absurd free occupied
      · exact absurd supplied scarce
  · refine ⟨none, state, names, rfl, sound, ?_⟩
    intro _ positive ok
    exact absurd ⟨positive, ok⟩ called

/-- The eight bits of the reader count do not hide the readers that are left. -/
def Visible (contexts : List BuffContext) (name : List UInt8) : Prop :=
  users .write name contexts = 0 → users .read name contexts % 256 = 0 →
    users .read name contexts = 0

/-- The counters behind the context that is deleted, before its block is freed. -/
theorem leave_sound {index : Nat} (sound : Sound heap contexts names none)
    (live : contexts[index]? = some context) :
    ∃ contents, heap.blocks context.pstuHead = some contents ∧
      Sound (heap.setBlock context.pstuHead
          { contents with pstuHead := left context.mode contents.pstuHead })
        (contexts.eraseIdx index) names (some (context.Name, context.pstuHead)) ∧
      Counts { contents with pstuHead := left context.mode contents.pstuHead }
        (users .read context.Name (contexts.eraseIdx index))
        (users .write context.Name (contexts.eraseIdx index)) := by
  obtain ⟨bound, same⟩ := List.getElem?_eq_some_iff.mp live
  have perm : contexts.Perm (context :: contexts.eraseIdx index) := by
    rw [← same]
    exact (List.getElem_cons_eraseIdx_perm bound).symm
  have member : (context.Name, context.pstuHead) ∈ names :=
    (used_none_iff.mp sound.used _).mpr ⟨context, List.mem_of_getElem? live, rfl⟩
  obtain ⟨contents, present, -⟩ := sound.counted _ member
  have kept := sound_left sound perm present
  exact ⟨contents, present, kept, counts_present kept member (Function.update_self ..)⟩

theorem delete_sound (sound : Sound state.heap state.contexts names none) (index : Nat)
    (visible : ∀ context ∈ state.contexts[index]?,
      Visible (state.contexts.eraseIdx index) context.Name) :
    ∃ after fewer, state.deleteStreamBuff index = some after ∧
      Sound after.heap after.contexts fewer none := by
  rw [State.deleteStreamBuff]
  cases live : state.contexts[index]? with
  | none => exact ⟨state, names, rfl, sound⟩
  | some context =>
      obtain ⟨contents, present, kept, reading, writing⟩ := leave_sound sound live
      dsimp only at reading writing ⊢
      rw [present, Option.bind_some, reading, writing]
      split_ifs with last
      · have unused : ¬∃ user ∈ state.contexts.eraseIdx index, user.Name = context.Name := by
          rw [← users_pos_iff, last.2, visible context live last.2 last.1]
          decide
        obtain ⟨after, fewer, result, done⟩ := sound_deleted kept unused
        rw [result, Option.map_some]
        exact ⟨_, fewer, rfl, done⟩
      · refine ⟨_, names, rfl, sound_in_use kept ?_⟩
        apply users_pos_iff.mp
        rcases not_and_or.mp last with reading | writing
        · left
          apply Nat.pos_of_ne_zero
          intro zero
          rw [zero] at reading
          exact reading rfl
        · exact Or.inr (Nat.pos_of_ne_zero writing)

end Calls

end Mgw.HeapMemory

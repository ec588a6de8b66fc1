import Mathlib.Data.List.Nodup
import Mathlib.Data.List.Perm.Subperm
import Mgw.StreamOutputs
import Mgw.TransitionRuns

/-!
# Every output is on one list

As long as no source is added while outputs wait for one on the whitelist, each
live output is on exactly one of the two lists. Inserting, removing and every call
of the stream keep that; the runs follow.
-/

namespace Mgw.StreamOutputsLinked

open IntrusiveList StreamOutputs TransitionRuns

set_option autoImplicit false

/-- The addresses on the two lists, which are well formed and share no output; each
live output is on one of them. -/
structure OnOneList (stream : MgwStream) (lists : OutputList → List Nat) : Prop where
  linked : Linked layout stream.links fun list => (lists list).map .output
  once : (lists .outputs_list ++ lists .outputs_whitelist).Nodup
  live : ∀ address, stream.output address ≠ none ↔
    address ∈ lists .outputs_list ++ lists .outputs_whitelist

/-- What the operations rely on beside the lists. -/
structure Consistent (stream : MgwStream) (lists : OutputList → List Nat) : Prop where
  linked : Linked layout stream.links fun list => (lists list).map .output
  live : ∀ address, stream.output address ≠ none ↔ ∃ list, address ∈ lists list
  locked : ∀ list, ∀ address ∈ lists list,
    (stream.output address).bind MgwOutput.mutex = some list
  allocated : ∀ address, stream.output address ≠ none → address < stream.allocated

section Operations

variable {stream : MgwStream} {lists : OutputList → List Nat} {address : Nat}

theorem consistent_nodup (consistent : Consistent stream lists) (list : OutputList) :
    (lists list).Nodup :=
  List.Nodup.of_map _ (consistent.linked.nodup list)

theorem consistent_on_one_list (consistent : Consistent stream lists) : OnOneList stream lists where
  linked := consistent.linked
  once := by
    apply List.nodup_append.mpr
    refine ⟨consistent_nodup consistent _, consistent_nodup consistent _, ?_⟩
    intro left here right there same
    have one := consistent.linked.root_unique (List.mem_map_of_mem here)
      (List.mem_map_of_mem (same ▸ there))
    contradiction
  live := by
    intro address
    rw [consistent.live, List.mem_append]
    constructor
    · rintro ⟨list, member⟩
      cases list with
      | outputs_list => exact Or.inl member
      | outputs_whitelist => exact Or.inr member
    · rintro (member | member)
      · exact ⟨_, member⟩
      · exact ⟨_, member⟩

theorem modify_output (change : MgwOutput → MgwOutput) (other : Nat) :
    (stream.modify address change).output other =
      if other = address then (stream.output address).map change else stream.output other := by
  unfold MgwStream.modify
  by_cases same : other = address
  · rw [if_pos same, same]
    exact Function.update_self ..
  · rw [if_neg same]
    exact Function.update_of_ne same ..

theorem modify_live (change : MgwOutput → MgwOutput) (other : Nat) :
    (stream.modify address change).output other ≠ none ↔ stream.output other ≠ none := by
  rw [modify_output]
  split_ifs with same
  · rw [same, Ne, Option.map_eq_none_iff]
  · rfl

/-- A change that leaves the mutex alone. -/
theorem modify_consistent (consistent : Consistent stream lists) {change : MgwOutput → MgwOutput}
    (kept : ∀ output, (change output).mutex = output.mutex) :
    Consistent (stream.modify address change) lists where
  linked := consistent.linked
  live := fun other => (modify_live change other).trans (consistent.live other)
  locked := by
    intro list other member
    have locked := consistent.locked list other member
    rw [modify_output]
    split_ifs with same
    · rw [same] at locked
      cases held : stream.output address with
      | none =>
          rw [held] at locked
          contradiction
      | some output =>
          rw [held] at locked
          exact (kept output).trans locked
    · exact locked
  allocated := fun other live => consistent.allocated other ((modify_live change other).mp live)

theorem start_consistent (consistent : Consistent stream lists) (answer : Bool) :
    Consistent (mgwOutputStart stream address answer).2 lists := by
  unfold mgwOutputStart
  cases stream.output address with
  | none => exact consistent
  | some output =>
      dsimp only
      split_ifs
      · exact modify_consistent consistent fun _ => rfl
      · exact consistent

theorem actual_stop_consistent (consistent : Consistent stream lists) :
    Consistent (mgwOutputActualStop stream address) lists :=
  modify_consistent consistent fun _ => rfl

theorem stop_consistent (consistent : Consistent stream lists) :
    Consistent (mgwOutputStop stream address) lists := by
  unfold mgwOutputStop
  cases stream.output address with
  | none => exact consistent
  | some output =>
      dsimp only
      split_ifs
      · exact actual_stop_consistent consistent
      · exact consistent

theorem free_output (other : Nat) :
    (mgwContextDataFree stream address).output other =
      if other = address then none else stream.output other := by
  unfold mgwContextDataFree mgwContextDataRemove
  by_cases same : other = address
  · rw [if_pos same, same]
    exact Function.update_self ..
  · rw [if_neg same]
    apply (Function.update_of_ne same ..).trans
    split
    · rfl
    · dsimp only
      rw [modify_output, if_neg same]

theorem free_links {list : OutputList}
    (locked : (stream.output address).bind MgwOutput.mutex = some list) :
    (mgwContextDataFree stream address).links = remove layout stream.links (.output address) := by
  unfold mgwContextDataFree mgwContextDataRemove
  rw [locked]

@[simp] theorem free_allocated :
    (mgwContextDataFree stream address).allocated = stream.allocated := by
  unfold mgwContextDataFree mgwContextDataRemove
  split <;> rfl

/-- Taken off the list whose lock it remembers, an output leaves the lists linked. -/
theorem free_linked {list : OutputList}
    (linked : Linked layout stream.links fun list => (lists list).map Context.output)
    (locked : (stream.output address).bind MgwOutput.mutex = some list)
    (member : address ∈ lists list) :
    Linked layout (mgwContextDataFree stream address).links fun list =>
      ((lists list).erase address).map Context.output := by
  have removed := linked.remove (List.mem_map_of_mem member)
  rw [free_links locked]
  intro list'
  have erased : ((lists list').erase address).map Context.output =
      ((lists list').map Context.output).erase (.output address) :=
    List.map_erase (fun _ _ => Context.output.inj) ..
  change Chain _ _ _ (((lists list').erase address).map Context.output)
  rw [erased]
  exact removed list'

/-- The output of a list is unlinked and freed. -/
theorem free_consistent (consistent : Consistent stream lists)
    (live : stream.output address ≠ none) :
    Consistent (mgwContextDataFree stream address) fun list => (lists list).erase address := by
  obtain ⟨list, member⟩ := (consistent.live address).mp live
  have outside : ∀ list', ∀ other ∈ (lists list').erase address, other ≠ address := by
    intro list' other inside
    exact ((List.Nodup.mem_erase_iff (consistent_nodup consistent list')).mp inside).1
  constructor
  · exact free_linked consistent.linked (consistent.locked list address member) member
  · intro other
    rw [free_output]
    split_ifs with same
    · rw [same]
      constructor
      · exact fun impossible => absurd rfl impossible
      · rintro ⟨list', inside⟩
        exact absurd rfl (outside list' address inside)
    · rw [consistent.live]
      constructor
      · rintro ⟨list', inside⟩
        exact ⟨list', (List.mem_erase_of_ne same).mpr inside⟩
      · rintro ⟨list', inside⟩
        exact ⟨list', List.mem_of_mem_erase inside⟩
  · intro list' other inside
    rw [free_output, if_neg (outside list' other inside)]
    exact consistent.locked list' other (List.mem_of_mem_erase inside)
  · intro other present
    rw [free_output] at present
    rw [free_allocated]
    split_ifs at present
    · contradiction
    · exact consistent.allocated other present

/-- A call that ends, or waits, with the lists in order. -/
def KeepsLists (outcome : Outcome) : Prop :=
  outcome.progress ≠ .aborted ∧ ∃ lists, Consistent outcome.stream lists

theorem destroy_keeps (consistent : Consistent stream lists)
    (live : stream.output address ≠ none) : KeepsLists (mgwOutputDestroy stream address) := by
  have stopped : Consistent (mgwOutputActualStop stream address) lists :=
    actual_stop_consistent consistent
  have stays : (mgwOutputActualStop stream address).output address ≠ none :=
    (modify_live _ address).mpr live
  unfold mgwOutputDestroy
  cases held : stream.output address with
  | none => exact absurd held live
  | some output =>
      cases active : output.info_impl && output.actived with
      | true =>
          simp only [active, if_true, Bool.true_or]
          exact ⟨Progress.noConfusion, _, free_consistent stopped stays⟩
      | false =>
          simp only [active, Bool.false_or, Bool.false_eq_true, if_false]
          split_ifs
          · exact ⟨Progress.noConfusion, _, free_consistent consistent live⟩
          · exact ⟨Progress.noConfusion, _, consistent⟩

theorem release_keeps (consistent : Consistent stream lists)
    (live : stream.output address ≠ none) : KeepsLists (mgwOutputRelease stream address) := by
  unfold mgwOutputRelease
  cases held : stream.output address with
  | none => exact absurd held live
  | some output =>
      have released : Consistent (stream.modify address fun output =>
          { output with refs := output.refs - 1 }) lists := modify_consistent consistent fun _ => rfl
      dsimp only
      split_ifs
      · exact destroy_keeps released ((modify_live _ address).mpr live)
      · exact ⟨Progress.noConfusion, _, released⟩

theorem stop_live (other : Nat) :
    (mgwOutputStop stream address).output other ≠ none ↔ stream.output other ≠ none := by
  unfold mgwOutputStop
  split
  · rfl
  · split_ifs
    · exact modify_live _ other
    · rfl

theorem release_output_keeps (consistent : Consistent stream lists)
    (live : stream.output address ≠ none) : KeepsLists (mgwStreamReleaseOutput stream address) :=
  release_keeps (stop_consistent consistent) ((stop_live address).mpr live)

theorem and_then_keeps {outcome : Outcome} {continuation : MgwStream → Outcome}
    (keeps : KeepsLists outcome)
    (continues : ∀ stream lists, Consistent stream lists → KeepsLists (continuation stream)) :
    KeepsLists (outcome.andThen continuation) := by
  obtain ⟨running, lists, consistent⟩ := keeps
  unfold Outcome.andThen
  split
  · exact continues _ _ consistent
  · exact ⟨running, lists, consistent⟩

end Operations

section Search

variable {stream : MgwStream} {lists : OutputList → List Nat}

/-- A list has no more outputs than were ever allocated. -/
theorem list_length (consistent : Consistent stream lists) (list : OutputList) :
    (lists list).length ≤ stream.allocated := by
  have inside : lists list ⊆ List.range stream.allocated := by
    intro address member
    apply List.mem_range.mpr
    exact consistent.allocated address ((consistent.live address).mpr ⟨list, member⟩)
  have bound := ((consistent_nodup consistent list).subperm inside).length_le
  rwa [List.length_range] at bound

/-- The search ends, and finds an output of the list. -/
theorem get_context_by_name (consistent : Consistent stream lists) (list : OutputList)
    (name : List UInt8) :
    getContextByName stream list name = .missing ∨
      ∃ address ∈ lists list, getContextByName stream list name = .output address := by
  have walk : search layout stream.links (named stream name) stream.allocated
      (stream.links.pointee (.head list)) =
        some (((lists list).map Context.output).find? (named stream name)) :=
    search_chain (consistent.linked list) (by simpa using list_length consistent list)
  unfold getContextByName
  rw [walk]
  cases found : ((lists list).map Context.output).find? (named stream name) with
  | none => exact Or.inl rfl
  | some context =>
      have member := List.mem_of_find?_eq_some found
      obtain ⟨address, inside, same⟩ := List.mem_map.mp member
      rw [← same]
      exact Or.inr ⟨address, inside, rfl⟩

theorem refuse_keeps (consistent : Consistent stream lists) (list : OutputList)
    (name : List UInt8) {otherwise : Outcome} (keeps : KeepsLists otherwise) :
    KeepsLists (refuseExisting stream list name otherwise) := by
  unfold refuseExisting
  rcases get_context_by_name consistent list name with missing | ⟨address, member, found⟩
  · rw [missing]
    exact keeps
  · rw [found]
    dsimp only
    have live := (consistent.live address).mpr ⟨list, member⟩
    split_ifs
    · apply and_then_keeps
      · exact release_keeps (modify_consistent consistent fun _ => rfl)
          ((modify_live _ address).mpr live)
      · intro after others kept
        exact ⟨Progress.noConfusion, others, kept⟩
    · exact keeps

theorem release_by_name_keeps (consistent : Consistent stream lists) (name : List UInt8) :
    KeepsLists (mgwStreamReleaseOutputByName stream name) := by
  unfold mgwStreamReleaseOutputByName
  rcases get_context_by_name consistent .outputs_list name with missing | ⟨address, member, found⟩
  · rw [missing]
    exact ⟨Progress.noConfusion, lists, consistent⟩
  · rw [found]
    exact release_output_keeps consistent ((consistent.live address).mpr ⟨_, member⟩)

end Search

section Creation

variable {stream : MgwStream} {lists : OutputList → List Nat}

/-- What the lists depend on. -/
theorem consistent_congr {stream' : MgwStream} (consistent : Consistent stream lists)
    (links : stream'.links = stream.links) (output : stream'.output = stream.output)
    (allocated : stream.allocated ≤ stream'.allocated) : Consistent stream' lists where
  linked := links ▸ consistent.linked
  live := output ▸ consistent.live
  locked := output ▸ consistent.locked
  allocated := by
    intro address live
    rw [output] at live
    exact Nat.lt_of_lt_of_le (consistent.allocated address live) allocated

theorem new_output_pointee (settings : OutputSettings) (info_impl : Bool) {cell : Cell}
    (different : cell ≠ .obj_name stream.allocated) :
    (newOutput stream settings info_impl).links.pointee cell = stream.links.pointee cell :=
  Function.update_of_ne different ..

theorem allocated_fresh (consistent : Consistent stream lists) (list : OutputList) :
    stream.allocated ∉ lists list := by
  intro member
  have bound := consistent.allocated _ ((consistent.live _).mpr ⟨list, member⟩)
  exact absurd bound (Nat.lt_irrefl _)

theorem new_output_linked
    (linked : Linked layout stream.links fun list => (lists list).map Context.output)
    (settings : OutputSettings) (info_impl : Bool) :
    Linked layout (newOutput stream settings info_impl).links
      fun list => (lists list).map Context.output := by
  apply linked.frame
  · intro root
    exact new_output_pointee settings info_impl (by simp [layout])
  · intro node
    exact new_output_pointee settings info_impl (by simp [layout])
  · rfl

theorem mem_put {list list' : OutputList} {new other : Nat} :
    other ∈ Function.update lists list (new :: lists list) list' ↔
      (other = new ∧ list' = list) ∨ other ∈ lists list' := by
  by_cases same : list' = list
  · rw [same, Function.update_self, List.mem_cons, and_iff_left rfl]
  · rw [Function.update_of_ne same, or_iff_right fun both => same both.2]

theorem map_put (list : OutputList) (new : Nat) :
    (fun list' => (Function.update lists list (new :: lists list) list').map Context.output) =
      Function.update (fun list' => (lists list').map Context.output) list
        (.output new :: (lists list).map Context.output) := by
  funext list'
  by_cases same : list' = list
  · rw [same, Function.update_self, Function.update_self, List.map_cons]
  · rw [Function.update_of_ne same, Function.update_of_ne same]

/-- A new output under the lock of a list. -/
def insertedOutput (settings : OutputSettings) (info_impl : Bool) (list : OutputList) : MgwOutput where
  obj_name := dupName settings.output_name settings.unnamed_index
  refs := 0
  info_impl := info_impl
  actived := false
  stopping_event := false
  mutex := some list

section Insertion

variable {settings : OutputSettings} {info_impl : Bool} {list : OutputList} {linked : MgwStream}
  (inserted : mgwContextDataInsert (newOutput stream settings info_impl) stream.allocated list
    (some (.head list)) = some linked)
include inserted

theorem inserted_linked
    (before : Linked layout stream.links fun list => (lists list).map Context.output)
    (fresh : ∀ list, stream.allocated ∉ lists list) :
    Linked layout linked.links fun list' =>
      (Function.update lists list (stream.allocated :: lists list) list').map Context.output := by
  rw [← Option.some.inj inserted, map_put]
  apply (new_output_linked before settings info_impl).insert list
  intro list' member
  obtain ⟨address, inside, same⟩ := List.mem_map.mp member
  exact fresh list' (Context.output.inj same ▸ inside)

/-- The new output is under the lock of its list; the other outputs are as before. -/
theorem inserted_output (other : Nat) : linked.output other =
    if other = stream.allocated then some (insertedOutput settings info_impl list)
    else stream.output other := by
  rw [← Option.some.inj inserted]
  change ((newOutput stream settings info_impl).modify _ _).output other = _
  rw [modify_output]
  unfold newOutput
  split_ifs with same
  · exact congrArg _ (Function.update_self ..)
  · exact Function.update_of_ne same ..

/-- A new output, inserted at the head of a list. -/
theorem insert_consistent (consistent : Consistent stream lists) :
    Consistent linked (Function.update lists list (stream.allocated :: lists list)) ∧
      linked.output stream.allocated ≠ none := by
  have outputs := inserted_output inserted
  have live : ∀ other, linked.output other ≠ none ↔
      other = stream.allocated ∨ stream.output other ≠ none := by
    intro other
    rw [outputs]
    split_ifs with new
    · exact iff_of_true (Option.some_ne_none _) (Or.inl new)
    · rw [or_iff_right new]
  refine ⟨⟨inserted_linked inserted consistent.linked (allocated_fresh consistent), ?_, ?_, ?_⟩,
    (live _).mpr (Or.inl rfl)⟩
  · intro other
    simp only [live, consistent.live, mem_put, exists_or, exists_and_left, exists_eq, and_true]
  · intro list' other member
    rw [outputs]
    rcases mem_put.mp member with ⟨new, there⟩ | old
    · rw [if_pos new, there]
      rfl
    · have notNew : other ≠ stream.allocated := fun new =>
        allocated_fresh consistent list' (new ▸ old)
      rw [if_neg notNew]
      exact consistent.locked list' other old
  · intro other present
    have bound : linked.allocated = stream.allocated + 1 := by
      rw [← Option.some.inj inserted]
      rfl
    rcases (live other).mp present with new | old
    · omega
    · have before := consistent.allocated other old
      omega

end Insertion

theorem start_live (address : Nat) (answer : Bool) (other : Nat) :
    (mgwOutputStart stream address answer).2.output other ≠ none ↔ stream.output other ≠ none := by
  unfold mgwOutputStart
  split
  · rfl
  · split_ifs
    · exact modify_live _ other
    · rfl

theorem start_created_keeps (consistent : Consistent stream lists) {address : Nat}
    (live : stream.output address ≠ none) (settings : OutputSettings) :
    KeepsLists (startCreated stream address settings) := by
  have started : Consistent (mgwOutputStart stream address settings.start).2 lists :=
    start_consistent consistent settings.start
  have stays := (start_live address settings.start address).mpr live
  unfold startCreated
  split_ifs
  · generalize mgwOutputStart stream address settings.start = result at started stays
    obtain ⟨success, after⟩ := result
    cases success with
    | true => exact ⟨Progress.noConfusion, _, started⟩
    | false =>
        apply and_then_keeps (destroy_keeps started stays)
        intro destroyed others kept
        exact ⟨Progress.noConfusion, others, kept⟩
  · exact ⟨Progress.noConfusion, _, consistent⟩

theorem create_keeps (consistent : Consistent stream lists) (settings : OutputSettings) :
    KeepsLists (createOutput stream settings) := by
  unfold createOutput
  cases settings.creation with
  | noProtocol => exact ⟨Progress.noConfusion, _, consistent⟩
  | initFailed =>
      exact ⟨Progress.noConfusion, _, consistent_congr consistent rfl rfl (Nat.le_succ _)⟩
  | created info_impl =>
      obtain ⟨linked, inserted⟩ : ∃ linked, mgwContextDataInsert
          (newOutput stream settings info_impl) stream.allocated (initList stream)
            (some (.head (initList stream))) = some linked := ⟨_, rfl⟩
      obtain ⟨kept, live⟩ := insert_consistent inserted consistent
      dsimp only
      rw [inserted]
      exact start_created_keeps kept live settings

theorem add_output_keeps (consistent : Consistent stream lists) (settings : OutputSettings) :
    KeepsLists (mgwStreamAddOutput stream settings) := by
  unfold mgwStreamAddOutput
  apply refuse_keeps consistent
  apply refuse_keeps consistent
  exact create_keeps consistent settings

/-- With an empty whitelist there is nothing to relink. -/
theorem add_source_consistent (consistent : Consistent stream lists) (answer : SourceAnswer)
    (starts : Nat → Bool) (empty : stream.source = false → answer = .usable →
      stream.links.pointee (.head .outputs_whitelist) = none) :
    (∃ code, (mgwStreamAddSource stream answer starts).progress = .returned code) ∧
      Consistent (mgwStreamAddSource stream answer starts).stream lists := by
  have set : ∀ source actived, Consistent { stream with source := source, actived := actived } lists :=
    fun _ _ => consistent_congr consistent rfl rfl (Nat.le_refl _)
  unfold mgwStreamAddSource
  split_ifs with source
  · exact ⟨⟨_, rfl⟩, consistent⟩
  · cases answer with
    | failed => exact ⟨⟨_, rfl⟩, consistent⟩
    | startFailed => exact ⟨⟨_, rfl⟩, set true stream.actived⟩
    | usable =>
        have none := empty (by simpa using source) rfl
        dsimp only
        rw [none]
        unfold relinkWhitelist Outcome.andThen MgwStream.returns
        dsimp only
        rw [set_pointee_same none]
        exact ⟨⟨_, rfl⟩, set true true⟩

end Creation

section Runs

/-- A caller hands in a pointer to a live output only. -/
def PointerLive (outcome : Outcome) (call : Call) : Prop :=
  match call with
  | .releaseOutput address => outcome.stream.output address ≠ none
  | _ => True

/-- No source comes about while outputs are on the whitelist. -/
def NothingWaits (outcome : Outcome) (call : Call) : Prop :=
  match call with
  | .addSource answer _ => outcome.stream.source = false → answer = .usable →
      outcome.stream.links.pointee (.head .outputs_whitelist) = none
  | _ => True

instance pointer_live_decidable (outcome : Outcome) : ∀ call, Decidable (PointerLive outcome call)
  | .releaseOutput address => inferInstanceAs (Decidable (outcome.stream.output address ≠ none))
  | .addOutput _ | .addSource _ _ | .releaseSource | .releaseOutputByName _ =>
      inferInstanceAs (Decidable True)

instance nothing_waits_decidable (outcome : Outcome) : ∀ call, Decidable (NothingWaits outcome call)
  | .addSource answer _ => inferInstanceAs (Decidable (outcome.stream.source = false →
      answer = .usable → outcome.stream.links.pointee (.head .outputs_whitelist) = none))
  | .addOutput _ | .releaseSource | .releaseOutput _ | .releaseOutputByName _ =>
      inferInstanceAs (Decidable True)

theorem next_keeps {outcome : Outcome} {call : Call} (keeps : KeepsLists outcome)
    (pointer : PointerLive outcome call) (nothing : NothingWaits outcome call) :
    KeepsLists (next outcome call) := by
  obtain ⟨running, lists, consistent⟩ := keeps
  unfold next Outcome.andThen
  split
  · cases call with
    | addOutput settings => exact add_output_keeps consistent settings
    | addSource answer starts =>
        obtain ⟨⟨code, returned⟩, kept⟩ := add_source_consistent consistent answer starts nothing
        refine ⟨?_, lists, kept⟩
        unfold execute
        rw [returned]
        exact Progress.noConfusion
    | releaseSource =>
        exact ⟨Progress.noConfusion, lists, consistent_congr consistent rfl rfl (Nat.le_refl _)⟩
    | releaseOutput address => exact release_output_keeps consistent pointer
    | releaseOutputByName name => exact release_by_name_keeps consistent name
  · exact ⟨running, lists, consistent⟩

theorem create_consistent : Consistent mgwStreamCreate.stream fun _ => [] where
  linked := fun _ => rfl
  live := by
    intro address
    simp [mgwStreamCreate, MgwStream.returns]
  locked := by simp
  allocated := by
    intro address live
    exact absurd rfl live

theorem run_keeps (calls : List Call) (pointers : Meets next PointerLive mgwStreamCreate calls)
    (nothing : Meets next NothingWaits mgwStreamCreate calls) :
    KeepsLists (run next mgwStreamCreate calls) := by
  have step : ∀ outcome call, KeepsLists outcome →
      PointerLive outcome call ∧ NothingWaits outcome call → KeepsLists (next outcome call) := by
    intro outcome call keeps both
    exact next_keeps keeps both.1 both.2
  apply run_invariant step calls mgwStreamCreate
  · exact ⟨Progress.noConfusion, _, create_consistent⟩
  · exact meets_and pointers nothing

/-- A source that is added leaves the outputs where they are. -/
theorem add_source_success {outcome : Outcome} {lists : OutputList → List Nat}
    (consistent : Consistent outcome.stream lists) {answer : SourceAnswer} {starts : Nat → Bool}
    (nothing : NothingWaits outcome (.addSource answer starts))
    (success : (next outcome (.addSource answer starts)).progress =
      .returned (mgwSrcErr MGW_ERR_SUCCESS)) :
    lists .outputs_whitelist = [] ∧
      Consistent (next outcome (.addSource answer starts)).stream lists := by
  unfold next Outcome.andThen at success ⊢
  cases progress : outcome.progress with
  | returned code =>
      rw [progress] at success
      have kept := add_source_consistent consistent answer starts nothing
      refine ⟨?_, kept.2⟩
      have usable : outcome.stream.source = false ∧ answer = .usable := by
        change (mgwStreamAddSource outcome.stream answer starts).progress = _ at success
        unfold mgwStreamAddSource at success
        split_ifs at success with source
        · exact absurd (Progress.returned.inj success) (by decide)
        · refine ⟨by simpa using source, ?_⟩
          cases answer with
          | failed => exact absurd (Progress.returned.inj success) (by decide)
          | startFailed => exact absurd (Progress.returned.inj success) (by decide)
          | usable => rfl
      have head := nothing usable.1 usable.2
      have chain := consistent.linked .outputs_whitelist
      have empty : Chain layout outcome.stream.links (.head .outputs_whitelist) [] := head
      simpa using chain_unique chain empty
  | waiting =>
      rw [progress] at success
      exact absurd (progress.symm.trans success) Progress.noConfusion
  | aborted =>
      rw [progress] at success
      exact absurd (progress.symm.trans success) Progress.noConfusion

def settingsNamed (name : UInt8) : OutputSettings where
  output_name := [name]
  unnamed_index := 0
  creation := .created true
  start := true
  last_error_status := 0

def usableSource : Call := .addSource .usable fun _ => true

end Runs

end Mgw.StreamOutputsLinked

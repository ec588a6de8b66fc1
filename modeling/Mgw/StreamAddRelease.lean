import Mgw.StreamAdding

/-!
# A release by name behind an addition

The release looks on one list only, for the name that the caller has: it undoes the
addition where the new output is on that list, under that name, and was started.
-/

namespace Mgw.StreamAddRelease

open IntrusiveList StreamOutputs StreamOutputsLinked StreamInOrder StreamAdding

set_option autoImplicit false

/-- The call has returned, the lists are what they were, and the output is gone; it is
gone once, since another destruction would have been of an output that is not there. -/
def Undone (lists : OutputList → List Nat) (before : MgwStream) (released : Outcome) : Prop :=
  (∃ code, released.progress = .returned code) ∧ InOrder released.stream lists ∧
    released.stream.output before.allocated = none

section Names

theorem dup_name_ne_nil (name : List UInt8) (unnamed_index : Nat) :
    dupName name unnamed_index ≠ [] := by
  unfold dupName
  split_ifs with empty
  · simp
  · exact empty

theorem dup_name_of_ne_nil {name : List UInt8} (nonempty : name ≠ []) (unnamed_index : Nat) :
    dupName name unnamed_index = name := by
  unfold dupName
  exact if_neg nonempty

variable {stream after : MgwStream} {lists : OutputList → List Nat} {name : List UInt8}

/-- The other outputs are still not of that name. -/
theorem named_other (outputs : ∀ other, other ≠ stream.allocated →
    after.output other = stream.output other)
    (absent : ¬Present stream lists name) {list : OutputList} {address : Nat}
    (member : address ∈ lists list) (other : address ≠ stream.allocated) :
    ¬named after name (.output address) = true := by
  intro same
  unfold named at same
  dsimp only at same
  rw [outputs address other] at same
  exact absent ⟨list, address, member, same⟩

theorem named_new {output : MgwOutput} (held : after.output stream.allocated = some output) :
    named after name (.output stream.allocated) = true ↔ output.obj_name = name := by
  unfold named
  dsimp only
  rw [held]
  exact decide_eq_true_iff

/-- A release that finds nothing leaves the stream alone. -/
theorem release_missing {lists' : OutputList → List Nat} (inOrder : InOrder after lists')
    (missing : ∀ address ∈ lists' .outputs_list, ¬named after name (.output address) = true) :
    mgwStreamReleaseOutputByName after name = after.returns 0 := by
  unfold mgwStreamReleaseOutputByName
  rw [get_context_missing inOrder missing]

/-- The first output of the list is found. -/
theorem release_first {lists' : OutputList → List Nat} {address : Nat} {rest : List Nat}
    (inOrder : InOrder after lists') (first : lists' .outputs_list = address :: rest)
    (same : named after name (.output address) = true) :
    mgwStreamReleaseOutputByName after name = mgwStreamReleaseOutput after address := by
  unfold mgwStreamReleaseOutputByName
  rw [get_context_find inOrder, first, List.find?_cons]
  simp only [same]

end Names

section Release

variable {stream linked : MgwStream} {lists : OutputList → List Nat} {settings : OutputSettings}
  {info_impl : Bool}

/-- An output that is not started is not released but waited for. -/
theorem release_unstarted (inserted : Inserted stream lists settings info_impl linked) :
    (mgwStreamReleaseOutput linked stream.allocated).progress = .waiting := by
  have new := inserted_new inserted
  have idle : mgwOutputStop linked stream.allocated = linked := by
    unfold mgwOutputStop
    rw [new]
    rfl
  have taken : (linked.modify stream.allocated fun output =>
      { output with refs := output.refs - 1 }).output stream.allocated =
        some { insertedOutput settings info_impl (initList stream) with refs := -1 } := by
    rw [modify_output, if_pos rfl, new]
    rfl
  unfold mgwStreamReleaseOutput mgwOutputRelease
  rw [idle, new]
  dsimp only [insertedOutput]
  rw [if_pos (by decide), destroy_unsignalled taken rfl rfl]

/-- A started output is stopped, unlinked and freed. -/
theorem release_started (inserted : Inserted stream lists settings true linked) :
    mgwStreamReleaseOutput (startedStream stream linked true) stream.allocated =
      (mgwContextDataFree linked stream.allocated).returns 0 := by
  have held := started_new inserted true
  have stopped : mgwOutputStop (startedStream stream linked true) stream.allocated =
      (startedStream stream linked true).modify stream.allocated fun output =>
        { output with stopping_event := true, actived := false } := by
    unfold mgwOutputStop
    rw [held]
    rfl
  have idle : (mgwOutputStop (startedStream stream linked true) stream.allocated).output
      stream.allocated = some { insertedOutput settings true (initList stream) with
        stopping_event := true, actived := false } := by
    rw [stopped, modify_output, if_pos rfl, held]
    rfl
  have taken : ((mgwOutputStop (startedStream stream linked true) stream.allocated).modify
      stream.allocated fun output => { output with refs := output.refs - 1 }).output
        stream.allocated = some { insertedOutput settings true (initList stream) with
          refs := -1, stopping_event := true, actived := false } := by
    rw [modify_output, if_pos rfl, idle]
    rfl
  unfold mgwStreamReleaseOutput mgwOutputRelease
  rw [idle]
  dsimp only [insertedOutput]
  rw [if_pos (by decide), destroy_signalled taken rfl rfl, stopped, startedStream, free_modify,
    free_modify, free_modify]
  · exact fun _ => rfl
  · exact fun _ => rfl
  · exact fun _ => rfl

/-- The new output is still there. -/
theorem kept_not_undone {after : MgwStream} (held : after.output stream.allocated ≠ none) :
    ¬Undone lists stream (after.returns 0) :=
  fun undone => held undone.2.2

end Release

section Undoing

variable {stream : MgwStream} {lists : OutputList → List Nat} {settings : OutputSettings}

/-- On the whitelist the new output is not looked for. -/
theorem release_whitelisted {info_impl : Bool} {linked : MgwStream}
    (inOrder : InOrder stream lists) (absent : ¬Present stream lists settings.output_name)
    (inserted : Inserted stream lists settings info_impl linked) (noSource : stream.source = false) :
    ¬Undone lists stream (mgwStreamReleaseOutputByName linked settings.output_name) := by
  have others : ∀ other, other ≠ stream.allocated → linked.output other = stream.output other :=
    fun other notNew => (inserted.output other).trans (if_neg notNew)
  rw [release_missing inserted.inOrder]
  · exact kept_not_undone (inserted_new inserted ▸ Option.some_ne_none _)
  · intro address member
    unfold initList at member
    rw [noSource, if_neg Bool.false_ne_true, Function.update_of_ne (by decide)] at member
    have notNew : address ≠ stream.allocated := fun new => in_order_fresh inOrder _ (new ▸ member)
    exact named_other others absent member notNew

/-- What the release makes of an output at the head of the list depends on the name. -/
theorem release_listed {after : MgwStream} (inOrder : InOrder stream lists)
    (absent : ¬Present stream lists settings.output_name)
    (placed : InOrder after
      (Function.update lists .outputs_list (stream.allocated :: lists .outputs_list)))
    (others : ∀ other, other ≠ stream.allocated → after.output other = stream.output other)
    {output : MgwOutput} (held : after.output stream.allocated = some output)
    (name : output.obj_name = dupName settings.output_name settings.unnamed_index) :
    Undone lists stream (mgwStreamReleaseOutputByName after settings.output_name) ↔
      settings.output_name ≠ [] ∧
        Undone lists stream (mgwStreamReleaseOutput after stream.allocated) := by
  by_cases empty : settings.output_name = []
  · refine iff_of_false ?_ fun both => both.1 empty
    rw [release_missing placed]
    · exact kept_not_undone (held ▸ Option.some_ne_none _)
    · intro address member
      rw [Function.update_self] at member
      rcases List.mem_cons.mp member with new | old
      · rw [new, named_new held, name, empty]
        exact dup_name_ne_nil _ _
      · have notNew : address ≠ stream.allocated := fun new =>
          in_order_fresh inOrder _ (new ▸ old)
        exact named_other others absent old notNew
  · rw [and_iff_right empty, release_first placed (Function.update_self ..)]
    rw [named_new held, name, dup_name_of_ne_nil empty]

/-- An output that was not started is left on the whitelist, or its release waits. -/
theorem idle_not_undone {info_impl : Bool} {linked : MgwStream} (inOrder : InOrder stream lists)
    (absent : ¬Present stream lists settings.output_name)
    (inserted : Inserted stream lists settings info_impl linked) :
    ¬Undone lists stream (mgwStreamReleaseOutputByName linked settings.output_name) := by
  cases has : stream.source with
  | false => exact release_whitelisted inOrder absent inserted has
  | true =>
      have listed : initList stream = .outputs_list := by
        unfold initList
        rw [has]
        rfl
      intro undone
      have both := (release_listed inOrder absent (listed ▸ inserted.inOrder)
        (fun other notNew => (inserted.output other).trans (if_neg notNew))
        (inserted_new inserted) rfl).mp undone
      obtain ⟨-, ⟨code, finished⟩, -⟩ := both
      rw [release_unstarted inserted] at finished
      contradiction

/-- A started output is found under its name unless that was made up. -/
theorem started_undone_iff {linked : MgwStream} (inOrder : InOrder stream lists)
    (absent : ¬Present stream lists settings.output_name) (source : stream.source = true)
    (inserted : Inserted stream lists settings true linked) :
    Undone lists stream
        (mgwStreamReleaseOutputByName (startedStream stream linked true) settings.output_name) ↔
      settings.output_name ≠ [] := by
  have listed : initList stream = .outputs_list := by
    unfold initList
    rw [source]
    rfl
  have others : ∀ other, other ≠ stream.allocated →
      (startedStream stream linked true).output other = stream.output other := by
    intro other notNew
    unfold startedStream
    rw [modify_output, if_neg notNew, inserted.output, if_neg notNew]
  have undone : Undone lists stream
      (mgwStreamReleaseOutput (startedStream stream linked true) stream.allocated) := by
    rw [release_started inserted]
    refine ⟨⟨_, rfl⟩, free_inserted inOrder inserted, ?_⟩
    exact (free_inserted_output inserted _).trans (if_pos rfl)
  have listing := release_listed inOrder absent (listed ▸ started_in_order inserted true) others
    (started_new inserted true) rfl
  exact listing.trans (and_iff_left undone)

/-- An output that was refused is gone already, and the release finds none. -/
theorem refused_undone {linked : MgwStream} (inOrder : InOrder stream lists)
    (absent : ¬Present stream lists settings.output_name)
    (inserted : Inserted stream lists settings true linked) :
    Undone lists stream (mgwStreamReleaseOutputByName
      (mgwContextDataFree (startedStream stream linked false) stream.allocated)
      settings.output_name) := by
  obtain ⟨kept, outputs⟩ := refused_in_order inOrder inserted
  have missing : ∀ address ∈ lists .outputs_list, ¬named
      (mgwContextDataFree (startedStream stream linked false) stream.allocated)
        settings.output_name (.output address) = true := by
    intro address member
    have notNew : address ≠ stream.allocated := fun new =>
      in_order_fresh inOrder _ (new ▸ member)
    exact named_other (fun other different => (outputs other).trans (if_neg different))
      absent member notNew
  rw [release_missing kept missing]
  exact ⟨⟨_, rfl⟩, kept, (outputs _).trans (if_pos rfl)⟩

/-- A stream without outputs. -/
def emptyStream (source actived : Bool) : MgwStream :=
  { mgwStreamCreate.stream with source := source, actived := actived }

theorem empty_in_order (source actived : Bool) : InOrder (emptyStream source actived) fun _ => [] where
  linked := fun _ => rfl
  locked := by
    intro list address
    exact iff_of_false List.not_mem_nil (Option.some_ne_none list).symm
  referenced := by
    intro address output held
    exact absurd held (Option.some_ne_none output).symm
  allocated := by
    intro address live
    exact absurd rfl live

end Undoing

end Mgw.StreamAddRelease

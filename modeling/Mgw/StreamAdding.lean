import Mgw.StreamInOrder

/-!
# Adding an output and removing it again

What an addition leaves behind at each of its exits: the state, the code, and what
a release by the same name makes of it.
-/

namespace Mgw.StreamAdding

open IntrusiveList StreamOutputs StreamOutputsLinked StreamInOrder

set_option autoImplicit false

/-- The stream with its new output on a list. -/
structure Inserted (stream : MgwStream) (lists : OutputList → List Nat)
    (settings : OutputSettings) (info_impl : Bool) (linked : MgwStream) : Prop where
  inOrder : InOrder linked
    (Function.update lists (initList stream) (stream.allocated :: lists (initList stream)))
  output : ∀ other, linked.output other =
    if other = stream.allocated then some (insertedOutput settings info_impl (initList stream))
    else stream.output other
  source : linked.source = stream.source
  actived : linked.actived = stream.actived
  names : ∀ address, linked.links.pointee (.obj_name address) =
    if address = stream.allocated then some (.obj_name address)
    else stream.links.pointee (.obj_name address)

section Creation

variable {stream : MgwStream} {lists : OutputList → List Nat} {settings : OutputSettings}
  {info_impl : Bool}

theorem create_inserted (inOrder : InOrder stream lists)
    (created : settings.creation = .created info_impl) :
    ∃ linked, Inserted stream lists settings info_impl linked ∧
      createOutput stream settings = startCreated linked stream.allocated settings := by
  obtain ⟨linked, inserted⟩ : ∃ linked, mgwContextDataInsert
      (newOutput stream settings info_impl) stream.allocated (initList stream)
        (some (.head (initList stream))) = some linked := ⟨_, rfl⟩
  have outputs := inserted_output inserted
  have live : ∀ other, linked.output other ≠ none →
      other = stream.allocated ∨ stream.output other ≠ none := by
    intro other present
    rw [outputs] at present
    split_ifs at present with new
    · exact Or.inl new
    · exact Or.inr present
  have bound : linked.allocated = stream.allocated + 1 := by
    rw [← Option.some.inj inserted]
    rfl
  refine ⟨linked, ⟨⟨?_, ?_, ?_, ?_⟩, outputs, ?_, ?_, ?_⟩, ?_⟩
  · exact inserted_linked inserted inOrder.linked (in_order_fresh inOrder)
  · intro list other
    rw [mem_put, outputs, inOrder.locked]
    split_ifs with new
    · have fresh : (stream.output other).bind MgwOutput.mutex ≠ some list := by
        rw [new]
        exact fun locked => in_order_fresh inOrder list ((inOrder.locked list _).mpr locked)
      rw [and_iff_right new, or_iff_left fresh]
      exact ⟨fun same => congrArg some same.symm, fun same => (Option.some.inj same).symm⟩
    · rw [or_iff_right fun both => new both.1]
  · intro other output held
    rw [outputs] at held
    split_ifs at held
    · rw [← Option.some.inj held]
      exact Int.le_refl 0
    · exact inOrder.referenced other output held
  · intro other present
    rcases live other present with new | old
    · omega
    · have before := inOrder.allocated other old
      omega
  · rw [← Option.some.inj inserted]
    rfl
  · rw [← Option.some.inj inserted]
    rfl
  · intro address
    rw [← Option.some.inj inserted]
    apply (insert_pointee (by simp) (by simp [layout])).trans
    split_ifs with new
    · rw [new]
      exact Function.update_self ..
    · exact new_output_pointee settings info_impl (fun same => new (Cell.obj_name.inj same))
  · unfold createOutput
    rw [created]
    dsimp only
    rw [inserted]

variable {linked : MgwStream}

theorem inserted_new (inserted : Inserted stream lists settings info_impl linked) :
    linked.output stream.allocated =
      some (insertedOutput settings info_impl (initList stream)) := by
  rw [inserted.output, if_pos rfl]

/-- Without an active source the output is left where it was put. -/
theorem start_created_idle (inserted : Inserted stream lists settings info_impl linked)
    (idle : (stream.actived && stream.source) = false) :
    startCreated linked stream.allocated settings = linked.returns (mgwOutErr MGW_ERR_SUCCESS) := by
  unfold startCreated
  rw [inserted.actived, inserted.source, idle]
  rfl

theorem destroy_unsignalled {address : Nat} {output : MgwOutput}
    (held : linked.output address = some output) (idle : output.actived = false)
    (unsignalled : output.stopping_event = false) :
    mgwOutputDestroy linked address = { stream := linked, progress := .waiting } := by
  unfold mgwOutputDestroy
  rw [held]
  dsimp only
  rw [idle, unsignalled, Bool.and_false]
  rfl

theorem destroy_signalled {address : Nat} {output : MgwOutput}
    (held : linked.output address = some output) (idle : output.actived = false)
    (signalled : output.stopping_event = true) :
    mgwOutputDestroy linked address = (mgwContextDataFree linked address).returns 0 := by
  unfold mgwOutputDestroy
  rw [held]
  dsimp only
  rw [idle, signalled, Bool.and_false]
  rfl

/-- An output without an instance is waited for in vain. -/
theorem start_created_waits (inserted : Inserted stream lists settings false linked)
    (active : (stream.actived && stream.source) = true) :
    startCreated linked stream.allocated settings = { stream := linked, progress := .waiting } := by
  have new := inserted_new inserted
  have refused : mgwOutputStart linked stream.allocated settings.start = (false, linked) := by
    unfold mgwOutputStart
    rw [new]
    rfl
  unfold startCreated
  rw [inserted.actived, inserted.source, if_pos active, refused]
  dsimp only
  rw [destroy_unsignalled new rfl rfl]
  rfl

/-- The stream with the output that a plugin with an instance was asked to start. -/
def startedStream (stream linked : MgwStream) (answer : Bool) : MgwStream :=
  linked.modify stream.allocated fun output =>
    { output with stopping_event := true, actived := answer }

theorem started_new (inserted : Inserted stream lists settings info_impl linked) (answer : Bool) :
    (startedStream stream linked answer).output stream.allocated = some
      { insertedOutput settings info_impl (initList stream) with
        stopping_event := true, actived := answer } := by
  unfold startedStream
  rw [modify_output, if_pos rfl, inserted_new inserted]
  rfl

theorem start_inserted (inserted : Inserted stream lists settings true linked) (answer : Bool) :
    mgwOutputStart linked stream.allocated answer =
      (answer, startedStream stream linked answer) := by
  unfold mgwOutputStart
  rw [inserted_new inserted]
  rfl

theorem start_created_started (inserted : Inserted stream lists settings true linked)
    (active : (stream.actived && stream.source) = true) (start : settings.start = true) :
    startCreated linked stream.allocated settings =
      (startedStream stream linked true).returns (mgwOutErr MGW_ERR_SUCCESS) := by
  unfold startCreated
  rw [inserted.actived, inserted.source, if_pos active, start, start_inserted inserted]

/-- A refused output is unlinked and freed. -/
theorem start_created_refused (inserted : Inserted stream lists settings true linked)
    (active : (stream.actived && stream.source) = true) (start : settings.start = false) :
    startCreated linked stream.allocated settings =
      (mgwContextDataFree (startedStream stream linked false) stream.allocated).returns
        (mgwOutErr settings.last_error_status) := by
  unfold startCreated
  rw [inserted.actived, inserted.source, if_pos active, start, start_inserted inserted]
  dsimp only
  rw [destroy_signalled (started_new inserted false) rfl rfl]
  rfl

theorem started_in_order (inserted : Inserted stream lists settings info_impl linked)
    (answer : Bool) : InOrder (startedStream stream linked answer)
      (Function.update lists (initList stream) (stream.allocated :: lists (initList stream))) :=
  modify_in_order inserted.inOrder (fun _ => rfl) (fun _ => id)

/-- A change of an output that is freed leaves no trace. -/
theorem free_modify {address : Nat} {change : MgwOutput → MgwOutput}
    (kept : ∀ output, (change output).mutex = output.mutex) :
    mgwContextDataFree (stream.modify address change) address = mgwContextDataFree stream address := by
  unfold mgwContextDataFree mgwContextDataRemove
  rw [modify_mutex kept]
  cases (stream.output address).bind MgwOutput.mutex with
  | none =>
      unfold MgwStream.modify
      dsimp only
      rw [Function.update_idem]
  | some list =>
      unfold MgwStream.modify
      dsimp only
      simp only [Function.update_idem]

/-- Taken out again, the output leaves the lists as they were. -/
theorem erase_new (inOrder : InOrder stream lists) (list : OutputList) :
    (fun list' => (Function.update lists list (stream.allocated :: lists list) list').erase
      stream.allocated) = lists := by
  funext list'
  by_cases same : list' = list
  · rw [same, Function.update_self, List.erase_cons_head]
  · rw [Function.update_of_ne same, List.erase_of_not_mem (in_order_fresh inOrder list')]

theorem free_source (stream : MgwStream) (address : Nat) :
    (mgwContextDataFree stream address).source = stream.source := by
  unfold mgwContextDataFree mgwContextDataRemove
  split <;> rfl

theorem free_actived (stream : MgwStream) (address : Nat) :
    (mgwContextDataFree stream address).actived = stream.actived := by
  unfold mgwContextDataFree mgwContextDataRemove
  split <;> rfl

theorem free_inserted (inOrder : InOrder stream lists)
    (inserted : Inserted stream lists settings info_impl linked) :
    InOrder (mgwContextDataFree linked stream.allocated) lists := by
  have freed : InOrder (mgwContextDataFree linked stream.allocated) _ :=
    free_in_order inserted.inOrder
  rwa [erase_new inOrder] at freed

theorem free_inserted_output (inserted : Inserted stream lists settings info_impl linked)
    (other : Nat) : (mgwContextDataFree linked stream.allocated).output other =
      if other = stream.allocated then none else stream.output other := by
  rw [free_output, inserted.output]
  split_ifs <;> rfl

end Creation

/-- Every exit of an addition: what led there, and what is left. -/
inductive AddResult (stream : MgwStream) (lists : OutputList → List Nat)
    (settings : OutputSettings) : Outcome → Prop
  | existed (present : Present stream lists settings.output_name) :
      AddResult stream lists settings (stream.returns (mgwOutErr MGW_ERR_EXISTED))
  | noProtocol (absent : ¬Present stream lists settings.output_name)
      (creation : settings.creation = .noProtocol) :
      AddResult stream lists settings (stream.returns (mgwOutErr MGW_ERR_INVALID_RES))
  | initFailed (absent : ¬Present stream lists settings.output_name)
      (creation : settings.creation = .initFailed) :
      AddResult stream lists settings
        { stream := { stream with allocated := stream.allocated + 1 }, progress := .waiting }
  | idle (absent : ¬Present stream lists settings.output_name) (info_impl : Bool)
      (creation : settings.creation = .created info_impl)
      (idle : (stream.actived && stream.source) = false)
      (linked : MgwStream) (inserted : Inserted stream lists settings info_impl linked) :
      AddResult stream lists settings (linked.returns (mgwOutErr MGW_ERR_SUCCESS))
  | noInstance (absent : ¬Present stream lists settings.output_name)
      (creation : settings.creation = .created false)
      (active : (stream.actived && stream.source) = true)
      (linked : MgwStream) (inserted : Inserted stream lists settings false linked) :
      AddResult stream lists settings { stream := linked, progress := .waiting }
  | started (absent : ¬Present stream lists settings.output_name)
      (creation : settings.creation = .created true)
      (active : (stream.actived && stream.source) = true) (start : settings.start = true)
      (linked : MgwStream) (inserted : Inserted stream lists settings true linked) :
      AddResult stream lists settings
        ((startedStream stream linked true).returns (mgwOutErr MGW_ERR_SUCCESS))
  | refused (absent : ¬Present stream lists settings.output_name)
      (creation : settings.creation = .created true)
      (active : (stream.actived && stream.source) = true) (start : settings.start = false)
      (linked : MgwStream) (inserted : Inserted stream lists settings true linked) :
      AddResult stream lists settings
        ((mgwContextDataFree (startedStream stream linked false) stream.allocated).returns
          (mgwOutErr settings.last_error_status))

section Addition

variable {stream : MgwStream} {lists : OutputList → List Nat}

theorem add_output_result (inOrder : InOrder stream lists) (settings : OutputSettings) :
    AddResult stream lists settings (mgwStreamAddOutput stream settings) := by
  by_cases present : Present stream lists settings.output_name
  · rw [add_output_present inOrder present]
    exact .existed present
  · rw [add_output_absent inOrder present]
    cases creation : settings.creation with
    | noProtocol =>
        unfold createOutput
        rw [creation]
        exact .noProtocol present creation
    | initFailed =>
        unfold createOutput
        rw [creation]
        exact .initFailed present creation
    | created info_impl =>
        obtain ⟨linked, inserted, result⟩ := create_inserted inOrder creation
        rw [result]
        cases active : stream.actived && stream.source with
        | false =>
            rw [start_created_idle inserted active]
            exact .idle present info_impl creation active linked inserted
        | true =>
            cases info_impl with
            | false =>
                rw [start_created_waits inserted active]
                exact .noInstance present creation active linked inserted
            | true =>
                cases start : settings.start with
                | true =>
                    rw [start_created_started inserted active start]
                    exact .started present creation active start linked inserted
                | false =>
                    rw [start_created_refused inserted active start]
                    exact .refused present creation active start linked inserted

/-- A refused output leaves the stream as it was but for its memory. -/
theorem refused_in_order (inOrder : InOrder stream lists) {settings : OutputSettings}
    {linked : MgwStream} (inserted : Inserted stream lists settings true linked) :
    InOrder (mgwContextDataFree (startedStream stream linked false) stream.allocated) lists ∧
      ∀ other, (mgwContextDataFree (startedStream stream linked false) stream.allocated).output other =
        if other = stream.allocated then none else stream.output other := by
  have same : mgwContextDataFree (startedStream stream linked false) stream.allocated =
      mgwContextDataFree linked stream.allocated := free_modify fun _ => rfl
  rw [same]
  exact ⟨free_inserted inOrder inserted, free_inserted_output inserted⟩

end Addition

section Atomicity

variable {stream : MgwStream} {lists : OutputList → List Nat}

/-- Source, flag and lists are what they were, the lists with the same outputs. -/
structure Unchanged (lists : OutputList → List Nat) (before after : MgwStream) : Prop where
  source : after.source = before.source
  actived : after.actived = before.actived
  inOrder : InOrder after lists
  outputs : ∀ list, ∀ address ∈ lists list, after.output address = before.output address

theorem unchanged_refl (inOrder : InOrder stream lists) : Unchanged lists stream stream where
  source := rfl
  actived := rfl
  inOrder := inOrder
  outputs := fun _ _ _ => rfl

/-- A call that has returned and left the stream as it was. -/
def Restores (lists : OutputList → List Nat) (stream : MgwStream) (outcome : Outcome) : Prop :=
  (∃ code, outcome.progress = .returned code) ∧ Unchanged lists stream outcome.stream

/-- The name is present, the creation fails or the start is refused. -/
def AddOutputFails (stream : MgwStream) (lists : OutputList → List Nat)
    (settings : OutputSettings) : Prop :=
  Present stream lists settings.output_name ∨
    (∀ info_impl, settings.creation ≠ .created info_impl) ∨
      (stream.actived && stream.source) = true ∧
        ¬(settings.creation = .created true ∧ settings.start = true)

def OutputAtomic (stream : MgwStream) (lists : OutputList → List Nat)
    (settings : OutputSettings) : Prop :=
  AddOutputFails stream lists settings →
    Restores lists stream (mgwStreamAddOutput stream settings)

/-- Neither an initialisation that fails nor the start of an output without an
instance, unless the name is refused first. -/
def OutputFailureReturns (stream : MgwStream) (lists : OutputList → List Nat)
    (settings : OutputSettings) : Prop :=
  Present stream lists settings.output_name ∨
    settings.creation ≠ .initFailed ∧
      ¬((stream.actived && stream.source) = true ∧ settings.creation = .created false)

theorem output_atomic_iff (inOrder : InOrder stream lists) (settings : OutputSettings) :
    OutputAtomic stream lists settings ↔ OutputFailureReturns stream lists settings := by
  unfold OutputAtomic OutputFailureReturns
  have result := add_output_result inOrder settings
  generalize mgwStreamAddOutput stream settings = outcome at result
  cases result with
  | existed present =>
      exact iff_of_true (fun _ => ⟨⟨_, rfl⟩, unchanged_refl inOrder⟩) (Or.inl present)
  | noProtocol absent creation =>
      rw [creation]
      refine iff_of_true (fun _ => ⟨⟨_, rfl⟩, unchanged_refl inOrder⟩) (Or.inr ⟨?_, ?_⟩)
      · exact Creation.noConfusion
      · exact fun both => Creation.noConfusion both.2
  | initFailed absent creation =>
      apply iff_of_false
      · intro atomic
        have fails : AddOutputFails stream lists settings := by
          refine Or.inr (Or.inl fun info_impl created => ?_)
          rw [creation] at created
          contradiction
        obtain ⟨⟨code, returned⟩, -⟩ := atomic fails
        contradiction
      · intro known
        rcases known with present | ⟨other, -⟩
        · exact absent present
        · exact other creation
  | idle absent info_impl creation idle linked inserted =>
      apply iff_of_true
      · intro known
        rcases known with present | uncreated | ⟨active, -⟩
        · exact absurd present absent
        · exact absurd creation (uncreated info_impl)
        · rw [idle] at active
          contradiction
      · rw [creation, idle]
        exact Or.inr ⟨Creation.noConfusion, fun both => Bool.noConfusion both.1⟩
  | noInstance absent creation active linked inserted =>
      apply iff_of_false
      · intro atomic
        have fails : AddOutputFails stream lists settings := by
          refine Or.inr (Or.inr ⟨active, fun both => ?_⟩)
          rw [creation] at both
          exact Bool.noConfusion (Creation.created.inj both.1)
        obtain ⟨⟨code, returned⟩, -⟩ := atomic fails
        contradiction
      · intro known
        rcases known with present | ⟨-, instanced⟩
        · exact absent present
        · exact instanced ⟨active, creation⟩
  | started absent creation active start linked inserted =>
      apply iff_of_true
      · intro known
        rcases known with present | uncreated | ⟨-, unstarted⟩
        · exact absurd present absent
        · exact absurd creation (uncreated true)
        · exact absurd ⟨creation, start⟩ unstarted
      · rw [creation]
        refine Or.inr ⟨Creation.noConfusion, fun both => ?_⟩
        exact Bool.noConfusion (Creation.created.inj both.2)
  | refused absent creation active start linked inserted =>
      obtain ⟨kept, outputs⟩ := refused_in_order inOrder inserted
      apply iff_of_true
      · refine fun _ => ⟨⟨_, rfl⟩, ⟨?_, ?_, kept, ?_⟩⟩
        · exact (free_source _ _).trans inserted.source
        · exact (free_actived _ _).trans inserted.actived
        · intro list address member
          have notNew : address ≠ stream.allocated := fun new =>
            in_order_fresh inOrder list (new ▸ member)
          exact (outputs address).trans (if_neg notNew)
      · rw [creation]
        refine Or.inr ⟨Creation.noConfusion, fun both => ?_⟩
        exact Bool.noConfusion (Creation.created.inj both.2)

/-- The stream has a source, or none comes about, or it is not started. -/
def AddSourceFails (stream : MgwStream) (answer : SourceAnswer) : Prop :=
  stream.source = true ∨ answer ≠ .usable

/-- Behind a failed addition the stream is as it was; and where it had no source,
a correct one is not refused. -/
def SourceAtomic (stream : MgwStream) (lists : OutputList → List Nat) (answer : SourceAnswer)
    (starts : Nat → Bool) : Prop :=
  AddSourceFails stream answer →
    Restores lists stream (mgwStreamAddSource stream answer starts) ∧
      (stream.source = false → ∀ starts',
        (mgwStreamAddSource (mgwStreamAddSource stream answer starts).stream .usable starts').progress ≠
          .returned (mgwSrcErr MGW_ERR_INVALID_RES))

theorem usable_accepted (empty : stream.source = false) (starts : Nat → Bool) :
    (mgwStreamAddSource stream .usable starts).progress ≠
      .returned (mgwSrcErr MGW_ERR_INVALID_RES) := by
  unfold mgwStreamAddSource
  rw [empty, if_neg Bool.false_ne_true]
  dsimp only
  generalize relinkWhitelist starts stream.allocated _ _ = relinked
  unfold Outcome.andThen
  split
  · exact fun same => absurd (Progress.returned.inj same) (by decide)
  · rename_i unreturned
    exact unreturned _

theorem source_atomic_iff (inOrder : InOrder stream lists) (answer : SourceAnswer)
    (starts : Nat → Bool) : SourceAtomic stream lists answer starts ↔
      (stream.source = true ∨ answer ≠ .startFailed) := by
  unfold SourceAtomic
  cases source : stream.source with
  | true =>
      refine iff_of_true (fun _ => ⟨?_, fun impossible => Bool.noConfusion impossible⟩) (Or.inl rfl)
      unfold mgwStreamAddSource
      rw [source, if_pos rfl]
      exact ⟨⟨_, rfl⟩, unchanged_refl inOrder⟩
  | false =>
      rw [or_iff_right Bool.false_ne_true]
      cases answer with
      | failed =>
          have refused : mgwStreamAddSource stream .failed starts =
              stream.returns (mgwSrcErr MGW_ERR_INVALID_RES) := by
            unfold mgwStreamAddSource
            rw [source, if_neg Bool.false_ne_true]
          rw [refused]
          apply iff_of_true
          · exact fun _ => ⟨⟨⟨_, rfl⟩, unchanged_refl inOrder⟩, fun _ => usable_accepted source⟩
          · exact SourceAnswer.noConfusion
      | startFailed =>
          refine iff_of_false (fun atomic => ?_) (fun different => different rfl)
          obtain ⟨⟨-, unchanged⟩, -⟩ := atomic (Or.inr SourceAnswer.noConfusion)
          have kept := unchanged.source
          unfold mgwStreamAddSource at kept
          rw [source, if_neg Bool.false_ne_true] at kept
          contradiction
      | usable =>
          apply iff_of_true
          · intro known
            rcases known with had | different
            · rw [source] at had
              contradiction
            · exact absurd rfl different
          · exact SourceAnswer.noConfusion

end Atomicity

section Codes

variable {stream : MgwStream} {lists : OutputList → List Nat}

/-- The low 16 bits. -/
def causeOf (code : Int) : Int := code % 65536

theorem cause_of_out (code : Int) : causeOf (mgwOutErr code) = causeOf code := by
  unfold causeOf mgwOutErr
  omega

/-- The new output is on a list, and started where there is an active source. -/
def Added (before after : MgwStream) : Prop :=
  (∃ lists, InOrder after lists ∧ ∃ list, before.allocated ∈ lists list) ∧
    ((before.actived && before.source) = true →
      (after.output before.allocated).any MgwOutput.actived = true)

theorem not_added_unchanged {after : MgwStream} (inOrder : InOrder stream lists)
    (same : InOrder after lists) : ¬Added stream after := by
  intro given
  obtain ⟨⟨lists', inOrder', list, member⟩, -⟩ := given
  rw [in_order_unique inOrder' same] at member
  exact in_order_fresh inOrder list member

theorem new_mem (list : OutputList) : stream.allocated ∈
    Function.update lists list (stream.allocated :: lists list) list := by
  rw [Function.update_self]
  exact List.mem_cons_self

/-- The cause of a code that is returned is that of success exactly for an output
that is added. -/
def CodeTells (stream : MgwStream) (outcome : Outcome) : Prop :=
  ∀ code, outcome.progress = .returned code →
    (causeOf code = MGW_ERR_SUCCESS ↔ Added stream outcome.stream)

theorem code_tells_returned {after : MgwStream} {code : Int} :
    CodeTells stream (after.returns code) ↔
      (causeOf code = MGW_ERR_SUCCESS ↔ Added stream after) := by
  constructor
  · exact fun tells => tells code rfl
  · rintro same other returned
    rw [← Progress.returned.inj returned]
    exact same

/-- The plugin refuses to start the new output. -/
def StartRefused (stream : MgwStream) (lists : OutputList → List Nat)
    (settings : OutputSettings) : Prop :=
  ¬Present stream lists settings.output_name ∧ settings.creation = .created true ∧
    (stream.actived && stream.source) = true ∧ settings.start = false

theorem code_tells_iff (inOrder : InOrder stream lists) (settings : OutputSettings) :
    CodeTells stream (mgwStreamAddOutput stream settings) ↔
      (StartRefused stream lists settings → causeOf settings.last_error_status ≠ MGW_ERR_SUCCESS) := by
  have result := add_output_result inOrder settings
  generalize mgwStreamAddOutput stream settings = outcome at result
  cases result with
  | existed present =>
      apply iff_of_true
      · exact code_tells_returned.mpr (iff_of_false (by decide) (not_added_unchanged inOrder inOrder))
      · exact fun refused => absurd present refused.1
  | noProtocol absent creation =>
      apply iff_of_true
      · exact code_tells_returned.mpr (iff_of_false (by decide) (not_added_unchanged inOrder inOrder))
      · intro given
        obtain ⟨-, created, -, -⟩ := given
        rw [creation] at created
        contradiction
  | initFailed absent creation =>
      apply iff_of_true
      · exact fun code returned => Progress.noConfusion returned
      · intro given
        obtain ⟨-, created, -, -⟩ := given
        rw [creation] at created
        contradiction
  | idle absent info_impl creation idle linked inserted =>
      apply iff_of_true
      · apply code_tells_returned.mpr
        refine iff_of_true (by decide) ⟨⟨_, inserted.inOrder, _, new_mem _⟩, ?_⟩
        intro active
        rw [idle] at active
        contradiction
      · intro given
        obtain ⟨-, -, active, -⟩ := given
        rw [idle] at active
        contradiction
  | noInstance absent creation active linked inserted =>
      apply iff_of_true
      · exact fun code returned => Progress.noConfusion returned
      · intro given
        obtain ⟨-, created, -, -⟩ := given
        rw [creation] at created
        exact Bool.noConfusion (Creation.created.inj created)
  | started absent creation active start linked inserted =>
      apply iff_of_true
      · apply code_tells_returned.mpr
        refine iff_of_true (by decide) ⟨⟨_, started_in_order inserted true, _, new_mem _⟩, ?_⟩
        intro _
        rw [started_new inserted]
        rfl
      · intro given
        obtain ⟨-, -, -, unstarted⟩ := given
        rw [start] at unstarted
        contradiction
  | refused absent creation active start linked inserted =>
      rw [code_tells_returned, cause_of_out,
        iff_false_right (not_added_unchanged inOrder (refused_in_order inOrder inserted).1)]
      constructor
      · exact fun different _ => different
      · exact fun different => different ⟨absent, creation, active, start⟩

end Codes

end Mgw.StreamAdding

import Mgw.Device
import Mgw.StreamAddRelease

/-!
# What an addition tells its caller, and what it leaves

Sources, outputs and whole streams: when a failed addition leaves what it found, and
when the code that is returned tells a failure from a success.
-/

namespace Mgw.DeviceAdding

open IntrusiveList StreamOutputs StreamOutputsLinked StreamInOrder StreamAdding StreamAddRelease
  Device

set_option autoImplicit false

section Places

variable {Object : Type} {obj_name : Object → List UInt8} {name : List UInt8}

theorem find_named_some : ∀ {list : List Object} {place : Nat} {object : Object},
    findNamed obj_name name list = some (place, object) →
      list[place]? = some object ∧ obj_name object = name
  | [], _, _, found => absurd found (Option.some_ne_none _).symm
  | first :: rest, place, object, found => by
      unfold findNamed at found
      split_ifs at found with same
      · have both := Prod.mk.inj (Option.some.inj found)
        rw [← both.1, ← both.2]
        exact ⟨rfl, same⟩
      · obtain ⟨⟨later, there⟩, further, both⟩ := Option.map_eq_some_iff.mp found
        have both := Prod.mk.inj both
        obtain ⟨here, same⟩ := find_named_some further
        rw [← both.1, ← both.2]
        exact ⟨here, same⟩

theorem find_named_none {list : List Object} (none : findNamed obj_name name list = none) :
    ∀ object ∈ list, obj_name object ≠ name := by
  induction list with
  | nil => simp
  | cons first rest ih =>
      unfold findNamed at none
      split_ifs at none with same
      intro object member
      rcases List.mem_cons.mp member with here | there
      · rw [here]
        exact same
      · exact ih (Option.map_eq_none_iff.mp none) object there

/-- A change that keeps the names is where the object was found. -/
theorem find_named_modify {change : Object → Object} (kept : ∀ object, obj_name (change object) =
    obj_name object) : ∀ {list : List Object} {place : Nat} {object : Object},
    findNamed obj_name name list = some (place, object) →
      findNamed obj_name name (list.modify place change) = some (place, change object)
  | [], _, _, found => absurd found (Option.some_ne_none _).symm
  | first :: rest, place, object, found => by
      unfold findNamed at found
      split_ifs at found with same
      · have both := Prod.mk.inj (Option.some.inj found)
        rw [← both.1, ← both.2, List.modify_zero_cons, findNamed, if_pos ((kept first).trans same)]
      · obtain ⟨⟨later, there⟩, further, both⟩ := Option.map_eq_some_iff.mp found
        have both := Prod.mk.inj both
        rw [← both.1, ← both.2, List.modify_succ_cons, findNamed, if_neg same,
          find_named_modify kept further]
        rfl

end Places

section Filling

theorem add_outputs_code {stream : MgwStream} {outputs : List OutputSettings} {code : Int}
    (returned : (addOutputs stream outputs).progress = .returned code) :
    code = mgwDevErr MGW_ERR_SUCCESS := by
  induction outputs generalizing stream with
  | nil => exact (Progress.returned.inj returned).symm
  | cons output_settings rest ih =>
      unfold addOutputs Outcome.andThen at returned
      split at returned
      · exact ih returned
      · rename_i unreturned
        exact absurd returned (unreturned code)

/-- The source that the settings ask for comes about, and is started. -/
def SourceUsable (settings : StreamSettings) : Prop :=
  ∀ source, settings.source = some source → source.map SourceSettings.answer = some .usable

/-- What the new stream is behind its source. -/
def sourced (settings : StreamSettings) : MgwStream :=
  match settings.source with
  | none => mgwStreamCreate.stream
  | some source => (addSource mgwStreamCreate.stream source).stream

theorem add_source_usable {source : Option SourceSettings}
    (usable : source.map SourceSettings.answer = some .usable) :
    addSource mgwStreamCreate.stream source =
      (emptyStream true true).returns (mgwSrcErr MGW_ERR_SUCCESS) := by
  obtain ⟨⟨answer, starts⟩, rfl, same⟩ := Option.map_eq_some_iff.mp usable
  change answer = .usable at same
  rw [same]
  have empty : mgwStreamCreate.stream.links.pointee (.head .outputs_whitelist) = none := rfl
  unfold addSource mgwStreamAddSource
  dsimp only
  rw [empty]
  unfold relinkWhitelist Outcome.andThen MgwStream.returns
  dsimp only
  rw [set_pointee_same empty]
  rfl

/-- A source that does not come about, or is not started, leaves a cause in the code. -/
theorem add_source_unusable {source : Option SourceSettings}
    (unusable : source.map SourceSettings.answer ≠ some .usable) :
    ∃ code, (addSource mgwStreamCreate.stream source).progress = .returned code ∧
      causeOf (int16 code) ≠ MGW_ERR_SUCCESS := by
  cases source with
  | none => exact ⟨_, rfl, by decide⟩
  | some source =>
      obtain ⟨answer, starts⟩ := source
      cases answer with
      | failed => exact ⟨_, rfl, by decide⟩
      | startFailed => exact ⟨_, rfl, by decide⟩
      | usable => exact absurd rfl unusable

theorem fill_usable {settings : StreamSettings} (usable : SourceUsable settings) :
    fillStream mgwStreamCreate.stream settings =
      addOutputs (sourced settings) (settings.outputs.getD []) := by
  unfold fillStream sourced
  cases asked : settings.source with
  | none => rfl
  | some source =>
      dsimp only
      rw [add_source_usable (usable source asked)]
      rfl

theorem fill_unusable {settings : StreamSettings} (unusable : ¬SourceUsable settings) :
    ∃ code, (fillStream mgwStreamCreate.stream settings).progress = .returned code ∧
      causeOf code ≠ MGW_ERR_SUCCESS := by
  obtain ⟨source, unusable⟩ := not_forall.mp unusable
  obtain ⟨asked, failing⟩ := Classical.not_imp.mp unusable
  obtain ⟨code, returned, cause⟩ := add_source_unusable failing
  have cut : int16 code ≠ 0 := by
    intro zero
    rw [zero] at cause
    exact cause rfl
  refine ⟨int16 code, ?_, cause⟩
  unfold fillStream
  rw [asked]
  dsimp only
  rw [if_neg (by decide), returned]
  dsimp only
  rw [if_neg cut]
  rfl

end Filling

section Atomicity

/-- An error leaves the list of the device as it was. -/
def StreamAtomic (stream_list priv_streams_list : List NamedStream) (name : Option (List UInt8))
    (settings : Option StreamSettings) : Prop :=
  ∀ code, (mgwDeviceAddStream stream_list priv_streams_list name settings).progress =
      .returned code → causeOf code ≠ MGW_ERR_SUCCESS →
    (mgwDeviceAddStream stream_list priv_streams_list name settings).stream_list = stream_list

/-- A stream that is put on the list of the device has a usable source, if one is asked for. -/
def ListedSourceUsable (name : Option (List UInt8)) (settings : Option StreamSettings) : Prop :=
  ∀ settings' ∈ settings, name ≠ none → settings'.created = true →
    settings'.is_private = false → SourceUsable settings'

theorem stream_atomic_iff (stream_list priv_streams_list : List NamedStream)
    (name : Option (List UInt8)) (settings : Option StreamSettings) :
    StreamAtomic stream_list priv_streams_list name settings ↔ ListedSourceUsable name settings := by
  unfold StreamAtomic ListedSourceUsable mgwDeviceAddStream
  cases name with
  | none => exact iff_of_true (fun _ _ _ => rfl) (fun _ _ impossible => absurd rfl impossible)
  | some name =>
      cases settings with
      | none => exact iff_of_true (fun _ _ _ => rfl) (fun _ member => absurd member (by simp))
      | some settings =>
          have named : some name ≠ none := Option.some_ne_none name
          simp only [Option.mem_some, forall_eq', named, ne_eq, not_false_eq_true, true_imp_iff]
          cases settings.created with
          | false => exact iff_of_true (fun _ _ _ => rfl) (fun impossible => Bool.noConfusion impossible)
          | true =>
              simp only [if_true, true_imp_iff]
              cases settings.is_private with
              | true => exact iff_of_true (fun _ _ _ => rfl) (fun impossible => Bool.noConfusion impossible)
              | false =>
                  simp only [Bool.false_eq_true, if_false, true_imp_iff]
                  constructor
                  · intro atomic
                    by_contra unusable
                    obtain ⟨code, returned, cause⟩ := fill_unusable unusable
                    exact absurd (atomic code returned cause) (List.cons_ne_self _ _)
                  · intro usable code returned cause
                    rw [fill_usable usable] at returned
                    rw [add_outputs_code returned] at cause
                    exact absurd (by decide) cause

/-- A stream whose source comes about as the answer says. -/
def streamWithSource (answer : SourceAnswer) : StreamSettings where
  is_private := false
  created := true
  unnamed_index := 0
  source := some (some { answer := answer, starts := fun _ => true })
  outputs := none

end Atomicity

section Codes

/-- The creation of an output succeeds; and where it is started, it has an instance
that starts. -/
def CanAdd (active : Bool) (settings : OutputSettings) : Prop :=
  (∃ info_impl, settings.creation = .created info_impl) ∧
    (active = true → settings.creation = .created true ∧ settings.start = true)

/-- Outputs that are added before have other names. -/
def NamesFree (outputs : List OutputSettings) : Prop :=
  outputs.Pairwise fun earlier later =>
    dupName earlier.output_name earlier.unnamed_index ≠ later.output_name

/-- Every addition in turn adds its output. -/
def AllAdded : MgwStream → List OutputSettings → Prop
  | _, [] => True
  | stream, settings :: rest =>
      Added stream (mgwStreamAddOutput stream settings).stream ∧
        AllAdded (mgwStreamAddOutput stream settings).stream rest

variable {stream : MgwStream} {lists : OutputList → List Nat}

theorem inserted_present {settings : OutputSettings} {info_impl : Bool} {linked after : MgwStream}
    (inOrder : InOrder stream lists) (inserted : Inserted stream lists settings info_impl linked)
    (others : ∀ other, other ≠ stream.allocated → after.output other = linked.output other)
    {output : MgwOutput} (held : after.output stream.allocated = some output)
    (registered : output.obj_name = dupName settings.output_name settings.unnamed_index)
    (name : List UInt8) :
    Present after (Function.update lists (initList stream)
        (stream.allocated :: lists (initList stream))) name ↔
      Present stream lists name ∨ dupName settings.output_name settings.unnamed_index = name := by
  have old : ∀ list, ∀ address ∈ lists list, (named after name (.output address) = true ↔
      named stream name (.output address) = true) := by
    intro list address member
    have notNew : address ≠ stream.allocated := fun new => in_order_fresh inOrder list (new ▸ member)
    unfold named
    dsimp only
    rw [others address notNew, inserted.output, if_neg notNew]
  constructor
  · intro given
    obtain ⟨list, address, member, same⟩ := given
    rcases mem_put.mp member with ⟨new, -⟩ | before
    · rw [new, named_new held, registered] at same
      exact Or.inr same
    · exact Or.inl ⟨list, address, before, (old list address before).mp same⟩
  · intro known
    rcases known with ⟨list, address, member, same⟩ | same
    · exact ⟨list, address, mem_put.mpr (Or.inr member), (old list address member).mpr same⟩
    · exact ⟨initList stream, stream.allocated, new_mem _,
        (named_new held).mpr (registered.trans same)⟩

/-- What an addition that adds its output leaves for the next one. -/
structure AddedOne (stream : MgwStream) (lists : OutputList → List Nat)
    (settings : OutputSettings) (after : MgwStream) : Prop where
  absent : ¬Present stream lists settings.output_name
  can : CanAdd (stream.actived && stream.source) settings
  active : (after.actived && after.source) = (stream.actived && stream.source)
  next : ∃ lists', InOrder after lists' ∧ ∀ name, Present after lists' name ↔
    Present stream lists name ∨ dupName settings.output_name settings.unnamed_index = name

theorem added_one (inOrder : InOrder stream lists) {settings : OutputSettings}
    (added : Added stream (mgwStreamAddOutput stream settings).stream) :
    AddedOne stream lists settings (mgwStreamAddOutput stream settings).stream := by
  have result := add_output_result inOrder settings
  generalize mgwStreamAddOutput stream settings = outcome at result added
  cases result with
  | existed present => exact absurd added (not_added_unchanged inOrder inOrder)
  | noProtocol absent creation => exact absurd added (not_added_unchanged inOrder inOrder)
  | initFailed absent creation =>
      exact absurd added (not_added_unchanged inOrder (in_order_congr inOrder rfl rfl (Nat.le_succ _)))
  | idle absent info_impl creation idle linked inserted =>
      have active : (linked.actived && linked.source) = (stream.actived && stream.source) := by
        rw [inserted.actived, inserted.source]
      refine ⟨absent, ⟨⟨info_impl, creation⟩, ?_⟩, active, _, inserted.inOrder, ?_⟩
      · intro active
        rw [idle] at active
        contradiction
      · exact inserted_present inOrder inserted (fun _ _ => rfl) (inserted_new inserted) rfl
  | noInstance absent creation active linked inserted =>
      have unstarted := added.2 active
      rw [inserted_new inserted] at unstarted
      contradiction
  | started absent creation active start linked inserted =>
      have kept : ((startedStream stream linked true).actived &&
          (startedStream stream linked true).source) = (stream.actived && stream.source) := by
        rw [← inserted.actived, ← inserted.source]
        rfl
      refine ⟨absent, ⟨⟨true, creation⟩, fun _ => ⟨creation, start⟩⟩, kept, _,
        started_in_order inserted true, ?_⟩
      apply inserted_present inOrder inserted _ (started_new inserted true) rfl
      intro other notNew
      exact (modify_output _ other).trans (if_neg notNew)
  | refused absent creation active start linked inserted =>
      exact absurd added (not_added_unchanged inOrder (refused_in_order inOrder inserted).1)

theorem can_added (inOrder : InOrder stream lists) {settings : OutputSettings}
    (absent : ¬Present stream lists settings.output_name)
    (can : CanAdd (stream.actived && stream.source) settings) :
    Added stream (mgwStreamAddOutput stream settings).stream := by
  have result := add_output_result inOrder settings
  generalize mgwStreamAddOutput stream settings = outcome at result
  obtain ⟨⟨info_impl, created⟩, starting⟩ := can
  cases result with
  | existed present => exact absurd present absent
  | noProtocol _ creation =>
      rw [creation] at created
      contradiction
  | initFailed _ creation =>
      rw [creation] at created
      contradiction
  | idle _ info_impl creation idle linked inserted =>
      refine ⟨⟨_, inserted.inOrder, _, new_mem _⟩, fun active => ?_⟩
      rw [idle] at active
      contradiction
  | noInstance _ creation active linked inserted =>
      have instanced := (starting active).1
      rw [creation] at instanced
      exact Bool.noConfusion (Creation.created.inj instanced)
  | started _ creation active start linked inserted =>
      refine ⟨⟨_, started_in_order inserted true, _, new_mem _⟩, fun _ => ?_⟩
      change ((startedStream stream linked true).output stream.allocated).any _ = true
      rw [started_new inserted]
      rfl
  | refused _ creation active start linked inserted =>
      have started := (starting active).2
      rw [start] at started
      contradiction

/-- All outputs are added exactly if each can be, under a name that is still free. -/
theorem all_added_iff : ∀ {stream : MgwStream} {lists : OutputList → List Nat}
    (outputs : List OutputSettings), InOrder stream lists →
      (AllAdded stream outputs ↔
        (∀ settings ∈ outputs, CanAdd (stream.actived && stream.source) settings ∧
          ¬Present stream lists settings.output_name) ∧ NamesFree outputs)
  | _, _, [], _ => iff_of_true trivial ⟨fun _ member => absurd member List.not_mem_nil, .nil⟩
  | stream, lists, settings :: rest, inOrder => by
      unfold AllAdded NamesFree
      rw [List.pairwise_cons]
      constructor
      · intro given
        obtain ⟨added, later⟩ := given
        obtain ⟨absent, can, active, lists', inOrder', present⟩ := added_one inOrder added
        obtain ⟨each, free⟩ := (all_added_iff rest inOrder').mp later
        rw [active] at each
        refine ⟨?_, ?_, free⟩
        · intro other member
          rcases List.mem_cons.mp member with here | there
          · rw [here]
            exact ⟨can, absent⟩
          · obtain ⟨able, missing⟩ := each other there
            exact ⟨able, fun before => missing ((present _).mpr (Or.inl before))⟩
        · intro other there same
          exact (each other there).2 ((present _).mpr (Or.inr same))
      · intro given
        obtain ⟨each, first, free⟩ := given
        obtain ⟨can, absent⟩ := each settings List.mem_cons_self
        have added := can_added inOrder absent can
        obtain ⟨-, -, active, lists', inOrder', present⟩ := added_one inOrder added
        refine ⟨added, (all_added_iff rest inOrder').mpr ⟨?_, free⟩⟩
        intro other there
        rw [active]
        obtain ⟨able, missing⟩ := each other (List.mem_cons_of_mem _ there)
        refine ⟨able, fun after => ?_⟩
        rcases (present _).mp after with before | same
        · exact missing before
        · exact first other there same

/-- The stream has the source that was asked for, started, and all its outputs. -/
def Complete (settings : StreamSettings) : Prop :=
  settings.created = true ∧
    (settings.source ≠ none → (sourced settings).source = true ∧ (sourced settings).actived = true) ∧
      AllAdded (sourced settings) (settings.outputs.getD [])

/-- The cause of a code that `mgw_device_add_stream` returns is that of success exactly
for a complete stream. -/
def StreamCodeTells (stream_list priv_streams_list : List NamedStream)
    (name : Option (List UInt8)) (settings : Option StreamSettings) : Prop :=
  ∀ code, (mgwDeviceAddStream stream_list priv_streams_list name settings).progress =
    .returned code →
      (causeOf code = MGW_ERR_SUCCESS ↔ name ≠ none ∧ ∃ settings' ∈ settings, Complete settings')

def OutputsAddable (settings : StreamSettings) : Prop :=
  (∀ output_settings ∈ settings.outputs.getD [], CanAdd settings.source.isSome output_settings) ∧
    NamesFree (settings.outputs.getD [])

theorem sourced_usable {settings : StreamSettings} (usable : SourceUsable settings) :
    sourced settings = emptyStream settings.source.isSome settings.source.isSome := by
  unfold sourced
  cases asked : settings.source with
  | none => rfl
  | some source =>
      dsimp only
      rw [add_source_usable (usable source asked)]
      rfl

/-- A source that was asked for is there and started exactly if it is usable. -/
theorem sourced_started_iff (settings : StreamSettings) :
    (settings.source ≠ none → (sourced settings).source = true ∧ (sourced settings).actived = true) ↔
      SourceUsable settings := by
  constructor
  · intro started source asked
    have actived := (started (asked ▸ Option.some_ne_none source)).2
    unfold sourced at actived
    rw [asked] at actived
    cases source with
    | none => contradiction
    | some source =>
        obtain ⟨answer, starts⟩ := source
        cases answer with
        | failed => contradiction
        | startFailed => contradiction
        | usable => rfl
  · intro usable asked
    rw [sourced_usable usable, Option.isSome_iff_ne_none.mpr asked]
    exact ⟨rfl, rfl⟩

theorem complete_iff (settings : StreamSettings) :
    Complete settings ↔
      settings.created = true ∧ SourceUsable settings ∧ OutputsAddable settings := by
  unfold Complete
  rw [sourced_started_iff]
  apply and_congr_right
  intro _
  apply and_congr_right
  intro usable
  have nothing : ∀ name, ¬Present (emptyStream settings.source.isSome settings.source.isSome)
      (fun _ => []) name := by
    rintro name ⟨list, address, member, -⟩
    exact List.not_mem_nil member
  have both : ((emptyStream settings.source.isSome settings.source.isSome).actived &&
      (emptyStream settings.source.isSome settings.source.isSome).source) =
        settings.source.isSome := Bool.and_self _
  rw [sourced_usable usable, all_added_iff _ (empty_in_order _ _), both]
  apply and_congr_left
  intro _
  constructor
  · exact fun each output_settings member => (each output_settings member).1
  · exact fun each output_settings member => ⟨each output_settings member, nothing _⟩

theorem stream_code_tells_iff (stream_list priv_streams_list : List NamedStream)
    (name : Option (List UInt8)) (settings : Option StreamSettings) {code : Int}
    (returned : (mgwDeviceAddStream stream_list priv_streams_list name settings).progress =
      .returned code) :
    StreamCodeTells stream_list priv_streams_list name settings ↔
      (name ≠ none → ∀ settings' ∈ settings, settings'.created = true → SourceUsable settings' →
        OutputsAddable settings') := by
  have tells : StreamCodeTells stream_list priv_streams_list name settings ↔
      (causeOf code = MGW_ERR_SUCCESS ↔ name ≠ none ∧ ∃ settings' ∈ settings, Complete settings') := by
    constructor
    · exact fun tells => tells code returned
    · intro same other returned'
      rw [← Progress.returned.inj (returned.symm.trans returned')]
      exact same
  rw [tells]
  unfold mgwDeviceAddStream at returned
  cases name with
  | none =>
      rw [← Progress.returned.inj returned]
      exact iff_of_true (iff_of_false (by decide) fun both => both.1 rfl)
        fun impossible => absurd rfl impossible
  | some name =>
      cases settings with
      | none =>
          rw [← Progress.returned.inj returned]
          refine iff_of_true (iff_of_false (by decide) ?_) ?_
          · intro given
            obtain ⟨-, settings', member, -⟩ := given
            contradiction
          · intro _ settings' member
            contradiction
      | some settings =>
          have named : some name ≠ none := Option.some_ne_none name
          simp only [Option.mem_some, forall_eq', exists_eq_left', named, ne_eq, not_false_eq_true,
            true_imp_iff, true_and, complete_iff]
          dsimp only at returned
          cases created : settings.created with
          | false =>
              rw [created] at returned
              rw [← Progress.returned.inj returned]
              exact iff_of_true (iff_of_false (by decide) fun both => Bool.noConfusion both.1)
                fun impossible => Bool.noConfusion impossible
          | true =>
              rw [created, if_pos rfl] at returned
              dsimp only at returned
              simp only [true_and, true_imp_iff]
              by_cases usable : SourceUsable settings
              · have success : causeOf (mgwDevErr MGW_ERR_SUCCESS) = MGW_ERR_SUCCESS := by decide
                rw [fill_usable usable] at returned
                rw [add_outputs_code returned, and_iff_right usable, iff_true_left success]
                exact ⟨fun addable _ => addable, fun addable => addable usable⟩
              · obtain ⟨failure, returned', cause⟩ := fill_unusable usable
                rw [← Progress.returned.inj (returned'.symm.trans returned)]
                exact iff_of_true (iff_of_false cause fun both => usable both.1)
                  fun impossible => absurd impossible usable

/-- The cause of a code that `mgw_device_add_output_to_stream` returns is that of
success exactly for an output that is added to the stream of that name. -/
def DeviceCodeTells (stream_list priv_streams_list : List NamedStream) (stream_name : List UInt8)
    (settings : OutputSettings) : Prop :=
  let outcome := mgwDeviceAddOutputToStream stream_list priv_streams_list stream_name settings
  ∀ code, outcome.progress = .returned code →
    (causeOf code = MGW_ERR_SUCCESS ↔ ∃ place named named',
      findNamed NamedStream.obj_name stream_name stream_list = some (place, named) ∧
        outcome.stream_list[place]? = some named' ∧ Added named.stream named'.stream)

theorem device_code_tells (stream_list priv_streams_list : List NamedStream)
    (stream_name : List UInt8) (settings : OutputSettings) :
    DeviceCodeTells stream_list priv_streams_list stream_name settings ↔
      ∀ place named, findNamed NamedStream.obj_name stream_name stream_list = some (place, named) →
        CodeTells named.stream (mgwStreamAddOutput named.stream settings) := by
  unfold DeviceCodeTells mgwDeviceAddOutputToStream
  dsimp only
  cases found : findNamed NamedStream.obj_name stream_name stream_list with
  | none =>
      apply iff_of_true
      · intro code returned
        rw [← Progress.returned.inj returned]
        refine iff_of_false (by decide) ?_
        intro given
        obtain ⟨place, named, named', impossible, -⟩ := given
        contradiction
      · intro place named impossible
        contradiction
  | some both =>
      obtain ⟨place, named⟩ := both
      have reached : ∀ after, (∃ place' named' named'', some (place, named) = some (place', named') ∧
          (stream_list.modify place fun before => { before with stream := after })[place']? =
            some named'' ∧ Added named'.stream named''.stream) ↔ Added named.stream after := by
        intro after
        have there : (stream_list.modify place fun before =>
            { before with stream := after })[place]? = some { named with stream := after } := by
          rw [List.getElem?_modify_eq, (find_named_some found).1]
          rfl
        constructor
        · intro given
          obtain ⟨place', named', named'', same, held, added⟩ := given
          have both := Prod.mk.inj (Option.some.inj same)
          rw [← both.1, there] at held
          rw [← Option.some.inj held, ← both.2] at added
          exact added
        · exact fun added => ⟨place, named, _, rfl, there, added⟩
      constructor
      · intro tells place' named' same
        have both := Prod.mk.inj (Option.some.inj same)
        intro code returned
        rw [← both.2] at returned ⊢
        exact (tells code returned).trans (reached _)
      · intro tells code returned
        exact (tells place named rfl code returned).trans (reached _).symm

/-- A stream for one output. -/
def streamWithOutput (settings : OutputSettings) : StreamSettings where
  is_private := false
  created := true
  unnamed_index := 0
  source := none
  outputs := some [settings]

end Codes

end Mgw.DeviceAdding

import Mgw.StreamAdding

/-!
# The lists are in order in every state that is reached

Whatever is called, as long as the calls come back: also behind a source that was
added over a whitelist, which takes the outputs off that list without putting them
on the other one.
-/

namespace Mgw.StreamReachable

open IntrusiveList StreamOutputs StreamOutputsLinked StreamInOrder StreamAdding TransitionRuns

set_option autoImplicit false

/-- No name pointer has come to point at an output. -/
def NamesApart (links : Heap Context Cell) : Prop :=
  ∀ address other, links.pointee (.obj_name address) ≠ some (.output other)

structure Reached (stream : MgwStream) (lists : OutputList → List Nat) : Prop where
  inOrder : InOrder stream lists
  names : NamesApart stream.links

section Operations

variable {stream : MgwStream} {lists : OutputList → List Nat} {address : Nat}

/-- A member of a list remembers a cell that is no name pointer. -/
theorem prev_next_cell (reached : Reached stream lists) {list : OutputList}
    (member : address ∈ lists list) :
    ∃ cell, stream.links.prevNext (.output address) = some cell ∧ ∀ other, cell ≠ .obj_name other := by
  obtain ⟨left, right, parts⟩ := List.append_of_mem (List.mem_map_of_mem (f := Context.output) member)
  have chain : Chain layout stream.links (.head list) ((lists list).map Context.output) :=
    reached.inOrder.linked list
  rw [parts] at chain
  refine ⟨_, chain_back chain, ?_⟩
  intro other
  rcases last_cell_cases layout (.head list) left with head | ⟨last, -, behind⟩
  · rw [head]
    exact Cell.noConfusion
  · rw [behind]
    exact Cell.noConfusion

theorem free_reached (reached : Reached stream lists) :
    Reached (mgwContextDataFree stream address) fun list => (lists list).erase address where
  inOrder := free_in_order reached.inOrder
  names := by
    cases lock : (stream.output address).bind MgwOutput.mutex with
    | none =>
        rw [free_links_unlocked lock]
        exact reached.names
    | some list =>
        obtain ⟨cell, back, apart⟩ :=
          prev_next_cell reached ((reached.inOrder.locked list address).mpr lock)
        intro name other
        rw [free_links lock, remove_pointee back (apart name).symm]
        exact reached.names name other

/-- A destruction that comes back has freed the output. -/
theorem destroy_returned {code : Int} (live : stream.output address ≠ none)
    (returned : (mgwOutputDestroy stream address).progress = .returned code) :
    (mgwOutputDestroy stream address).stream = mgwContextDataFree stream address := by
  have stopped : mgwContextDataFree (mgwOutputActualStop stream address) address =
      mgwContextDataFree stream address := free_modify fun _ => rfl
  obtain ⟨output, held⟩ := Option.ne_none_iff_exists'.mp live
  unfold mgwOutputDestroy at returned ⊢
  rw [held] at returned ⊢
  dsimp only at returned ⊢
  cases active : output.info_impl && output.actived with
  | true => exact stopped
  | false =>
      rw [active] at returned
      simp only [Bool.false_or, Bool.false_eq_true, if_false] at returned ⊢
      split_ifs at returned ⊢
      rfl

theorem release_reached (reached : Reached stream lists) (live : stream.output address ≠ none)
    {code : Int} (returned : (mgwOutputRelease stream address).progress = .returned code) :
    ∃ lists, Reached (mgwOutputRelease stream address).stream lists := by
  obtain ⟨output, held⟩ := Option.ne_none_iff_exists'.mp live
  have referenced := reached.inOrder.referenced address output held
  unfold mgwOutputRelease at returned ⊢
  rw [held] at returned ⊢
  dsimp only at returned ⊢
  split_ifs at returned ⊢ with last
  · rw [destroy_returned ((modify_live _ address).mpr live) returned, free_modify]
    · exact ⟨_, free_reached reached⟩
    · exact fun _ => rfl
  · refine ⟨lists, ?_, reached.names⟩
    apply change_in_order reached.inOrder
    · exact fun _ => rfl
    · intro output' held'
      rw [held] at held'
      rw [← Option.some.inj held']
      change 0 ≤ output.refs - 1
      omega

theorem release_output_reached (reached : Reached stream lists)
    (live : stream.output address ≠ none) {code : Int}
    (returned : (mgwStreamReleaseOutput stream address).progress = .returned code) :
    ∃ lists, Reached (mgwStreamReleaseOutput stream address).stream lists := by
  have stopped : Reached (mgwOutputStop stream address) lists := by
    refine ⟨stop_in_order reached.inOrder, ?_⟩
    have links : (mgwOutputStop stream address).links = stream.links := by
      unfold mgwOutputStop
      split
      · rfl
      · split_ifs <;> rfl
    rw [links]
    exact reached.names
  exact release_reached stopped ((stop_live address).mpr live) returned

theorem inserted_names {settings : OutputSettings} {info_impl : Bool} {linked : MgwStream}
    (names : NamesApart stream.links)
    (inserted : Inserted stream lists settings info_impl linked) : NamesApart linked.links := by
  intro name other
  rw [inserted.names]
  split_ifs
  · simp
  · exact names name other

theorem add_output_reached (reached : Reached stream lists) (settings : OutputSettings)
    {code : Int} (returned : (mgwStreamAddOutput stream settings).progress = .returned code) :
    ∃ lists, Reached (mgwStreamAddOutput stream settings).stream lists := by
  have result := add_output_result reached.inOrder settings
  generalize mgwStreamAddOutput stream settings = outcome at result returned
  cases result with
  | existed present => exact ⟨lists, reached⟩
  | noProtocol absent creation => exact ⟨lists, reached⟩
  | initFailed absent creation => contradiction
  | idle absent info_impl creation idle linked inserted =>
      exact ⟨_, inserted.inOrder, inserted_names reached.names inserted⟩
  | noInstance absent creation active linked inserted => contradiction
  | started absent creation active start linked inserted =>
      have names : NamesApart linked.links := inserted_names reached.names inserted
      exact ⟨_, started_in_order inserted true, names⟩
  | refused absent creation active start linked inserted =>
      have linkedReached : Reached linked _ :=
        ⟨inserted.inOrder, inserted_names reached.names inserted⟩
      have same : mgwContextDataFree (startedStream stream linked false) stream.allocated =
          mgwContextDataFree linked stream.allocated := free_modify fun _ => rfl
      change ∃ lists, Reached (mgwContextDataFree (startedStream stream linked false) _) lists
      rw [same]
      exact ⟨_, free_reached linkedReached⟩

theorem release_by_name_reached (reached : Reached stream lists) (name : List UInt8) {code : Int}
    (returned : (mgwStreamReleaseOutputByName stream name).progress = .returned code) :
    ∃ lists, Reached (mgwStreamReleaseOutputByName stream name).stream lists := by
  unfold mgwStreamReleaseOutputByName at returned ⊢
  rw [get_context_find reached.inOrder] at returned ⊢
  cases found : (lists .outputs_list).find? fun address => named stream name (.output address) with
  | none => exact ⟨lists, reached⟩
  | some address =>
      rw [found] at returned
      exact release_output_reached reached
        (in_order_live reached.inOrder (List.mem_of_find?_eq_some found)) returned

end Operations

section Relinking

/-- The outputs that the walk still has before it. -/
def Walk (links : Heap Context Cell) : Option Context → List Nat → Prop
  | next, [] => next = none
  | next, address :: rest =>
      next = some (.output address) ∧ Walk links (links.pointee (.next (.output address))) rest

/-- In the loop over the whitelist: the one list is whole, the walk has the outputs
before it that are still locked for the other. -/
structure Relinking (stream : MgwStream) (outputs rest : List Nat) (next : Option Context) :
    Prop where
  chain : Chain layout stream.links (.head .outputs_list) (outputs.map .output)
  walk : Walk stream.links next rest
  nodup : rest.Nodup
  listed : ∀ address, address ∈ outputs ↔
    (stream.output address).bind MgwOutput.mutex = some .outputs_list
  waiting : ∀ address, address ∈ rest ↔
    (stream.output address).bind MgwOutput.mutex = some .outputs_whitelist
  referenced : ∀ address output, stream.output address = some output → 0 ≤ output.refs
  allocated : ∀ address, stream.output address ≠ none → address < stream.allocated
  names : NamesApart stream.links

variable {stream : MgwStream} {lists : OutputList → List Nat}

theorem chain_walk {links : Heap Context Cell} {cell : Cell} {rest : List Nat}
    (chain : Chain layout links cell (rest.map .output)) : Walk links (links.pointee cell) rest := by
  induction rest generalizing cell with
  | nil => exact chain
  | cons address rest ih => exact ⟨chain.1, ih chain.2.2⟩

theorem walk_frame {links links' : Heap Context Cell} {next : Option Context} {rest : List Nat}
    (walk : Walk links next rest) (cells : ∀ address ∈ rest,
      links'.pointee (.next (.output address)) = links.pointee (.next (.output address))) :
    Walk links' next rest := by
  induction rest generalizing next with
  | nil => exact walk
  | cons address rest ih =>
      refine ⟨walk.1, ?_⟩
      rw [cells address List.mem_cons_self]
      apply ih walk.2
      intro other member
      exact cells other (List.mem_cons_of_mem _ member)

theorem reached_relinking (reached : Reached stream lists) :
    Relinking stream (lists .outputs_list) (lists .outputs_whitelist)
      (stream.links.pointee (.head .outputs_whitelist)) where
  chain := reached.inOrder.linked .outputs_list
  walk := chain_walk (reached.inOrder.linked .outputs_whitelist)
  nodup := in_order_nodup reached.inOrder .outputs_whitelist
  listed := reached.inOrder.locked .outputs_list
  waiting := reached.inOrder.locked .outputs_whitelist
  referenced := reached.inOrder.referenced
  allocated := reached.inOrder.allocated
  names := reached.names

theorem start_relinking {outputs rest : List Nat} {next : Option Context} {address : Nat}
    (relinking : Relinking stream outputs rest next) (answer : Bool) :
    Relinking (mgwOutputStart stream address answer).2 outputs rest next := by
  unfold mgwOutputStart
  cases held : stream.output address with
  | none => exact relinking
  | some output =>
      dsimp only
      split_ifs
      · have kept : ∀ other, ((stream.modify address fun output =>
            { output with stopping_event := true, actived := answer }).output other).bind
              MgwOutput.mutex = (stream.output other).bind MgwOutput.mutex :=
          modify_mutex fun _ => rfl
        refine ⟨relinking.chain, relinking.walk, relinking.nodup, ?_, ?_, ?_, ?_, relinking.names⟩
        · intro other
          rw [relinking.listed, ← kept]
        · intro other
          rw [relinking.waiting, ← kept]
        · intro other output' held'
          rw [modify_output] at held'
          split_ifs at held'
          · obtain ⟨before, there, rfl⟩ := Option.map_eq_some_iff.mp held'
            exact relinking.referenced address before there
          · exact relinking.referenced other output' held'
        · exact fun other live => relinking.allocated other ((modify_live _ other).mp live)
      · exact relinking

/-- An output that is put behind a name pointer and taken out again is on no list; its
next pointer leads to the name. -/
def passed (stream : MgwStream) (address name : Nat) : MgwStream :=
  { stream.modify address fun output => { output with mutex := none } with
    links := remove layout (insert layout stream.links (.obj_name name) (.output address))
      (.output address) }

theorem insert_remove_passed {address name : Nat} {inserted : MgwStream}
    (live : stream.output address ≠ none)
    (inserting : mgwContextDataInsert stream address .outputs_list (some (.obj_name name)) =
      some inserted) : mgwContextDataRemove inserted address = passed stream address name := by
  obtain ⟨output, held⟩ := Option.ne_none_iff_exists'.mp live
  have new : inserted.output address = some { output with mutex := some .outputs_list } := by
    rw [← Option.some.inj inserting]
    change (stream.modify address _).output address = _
    rw [modify_output, if_pos rfl, held]
    rfl
  unfold mgwContextDataRemove
  rw [new]
  rw [← Option.some.inj inserting]
  unfold passed MgwStream.modify
  dsimp only [Option.bind]
  rw [Function.update_self, Function.update_idem, Option.map_map]
  rfl

theorem passed_relinking {outputs rest : List Nat} {next : Option Context} {address : Nat}
    (name : Nat) (relinking : Relinking stream outputs (address :: rest) next) :
    Relinking (passed stream address name) outputs rest
      (stream.links.pointee (.next (.output address))) := by
  have locked := (relinking.waiting address).mp List.mem_cons_self
  have notListed : address ∉ outputs := by
    intro member
    rw [(relinking.listed address).mp member] at locked
    contradiction
  have notAgain : address ∉ rest := (List.nodup_cons.mp relinking.nodup).1
  have apart : layout.next (Context.output address) ≠ .obj_name name := Cell.noConfusion
  have cells : ∀ cell, cell ≠ .next (.output address) →
      (passed stream address name).links.pointee cell = stream.links.pointee cell :=
    fun cell different => insert_remove_pointee apart (relinking.names name address) different
  have outside : ∀ other, other ≠ address →
      Cell.next (Context.output other) ≠ .next (.output address) :=
    fun other different same => different (Context.output.inj (Cell.next.inj same))
  have outputs' : ∀ other, (passed stream address name).output other =
      if other = address then (stream.output address).map fun output => { output with mutex := none }
      else stream.output other := fun other => modify_output _ other
  refine ⟨?_, ?_, (List.nodup_cons.mp relinking.nodup).2, ?_, ?_, ?_, ?_, ?_⟩
  · apply chain_frame relinking.chain
    · exact cells _ Cell.noConfusion
    · intro node member
      obtain ⟨other, inside, rfl⟩ := List.mem_map.mp member
      exact cells _ (outside other fun same => notListed (same ▸ inside))
    · intro node member
      obtain ⟨other, inside, rfl⟩ := List.mem_map.mp member
      apply insert_remove_prevNext apart (relinking.names name address)
      · exact fun same => notListed (Context.output.inj same ▸ inside)
      · exact relinking.names name other
  · apply walk_frame relinking.walk.2
    intro other member
    exact cells _ (outside other fun same => notAgain (same ▸ member))
  · intro other
    rw [outputs']
    split_ifs with same
    · rw [same]
      refine iff_of_false notListed ?_
      cases stream.output address <;> simp
    · exact relinking.listed other
  · intro other
    rw [outputs']
    split_ifs with same
    · rw [same]
      refine iff_of_false notAgain ?_
      cases stream.output address <;> simp
    · rw [← relinking.waiting, List.mem_cons, or_iff_right same]
  · intro other output held
    rw [outputs'] at held
    split_ifs at held
    · obtain ⟨before, there, rfl⟩ := Option.map_eq_some_iff.mp held
      exact relinking.referenced address before there
    · exact relinking.referenced other output held
  · exact fun other live => relinking.allocated other ((modify_live _ other).mp live)
  · intro other output
    rw [cells _ Cell.noConfusion]
    exact relinking.names other output

/-- Behind the loop every output is on `outputs_list`. -/
def relinkedLists (outputs : List Nat) : OutputList → List Nat
  | .outputs_list => outputs
  | .outputs_whitelist => []

/-- When the walk is through, the whitelist is emptied. -/
theorem relinked_reached {outputs : List Nat} {next : Option Context}
    (relinking : Relinking stream outputs [] next) :
    ∃ lists, Reached
      { stream with links := stream.links.setPointee (.head .outputs_whitelist) none } lists := by
  refine ⟨relinkedLists outputs, ⟨?_, ?_, relinking.referenced, relinking.allocated⟩, ?_⟩
  · intro list
    cases list with
    | outputs_list =>
        apply chain_frame relinking.chain
        · exact set_pointee_other (by decide) none
        · intro node _
          exact set_pointee_other Cell.noConfusion none
        · intro node _
          rfl
    | outputs_whitelist => exact set_pointee_self none
  · intro list address
    cases list with
    | outputs_list => exact relinking.listed address
    | outputs_whitelist => exact relinking.waiting address
  · intro address other
    rw [set_pointee_other Cell.noConfusion]
    exact relinking.names address other

/-- A loop that comes back has taken every output off the whitelist. -/
theorem relink_reached {outputs : List Nat} (starts : Nat → Bool) (rounds : Nat) {code : Int} :
    ∀ {stream : MgwStream} {rest : List Nat} {next : Option Context},
      Relinking stream outputs rest next →
        (relinkWhitelist starts rounds stream next).progress = .returned code →
          ∃ next', Relinking (relinkWhitelist starts rounds stream next).stream outputs [] next' := by
  induction rounds with
  | zero =>
      intro stream rest next relinking returned
      cases rest with
      | nil =>
          obtain rfl : next = none := relinking.walk
          exact ⟨none, relinking⟩
      | cons address rest =>
          rw [relinking.walk.1] at returned
          contradiction
  | succ rounds ih =>
      intro stream rest next relinking returned
      cases rest with
      | nil =>
          obtain rfl : next = none := relinking.walk
          exact ⟨none, relinking⟩
      | cons address rest =>
          rw [relinking.walk.1] at returned ⊢
          have started : Relinking (mgwOutputStart stream address (starts address)).2 outputs
              (address :: rest) next := start_relinking relinking _
          have links : (mgwOutputStart stream address (starts address)).2.links = stream.links := by
            unfold mgwOutputStart
            split
            · rfl
            · split_ifs <;> rfl
          unfold relinkWhitelist at returned ⊢
          dsimp only at returned ⊢
          rw [← links] at returned ⊢
          generalize (mgwOutputStart stream address (starts address)).2 = started' at *
          cases outputs with
          | nil =>
              have empty : started'.links.pointee (.head .outputs_list) = none := started.chain
              unfold outputsListAsFirst at returned
              rw [empty] at returned
              contradiction
          | cons first others =>
              have head : started'.links.pointee (.head .outputs_list) = some (.output first) :=
                started.chain.1
              have live : started'.output address ≠ none := by
                intro none
                have locked := (started.waiting address).mp List.mem_cons_self
                rw [none] at locked
                contradiction
              obtain ⟨inserted, inserting⟩ : ∃ inserted, mgwContextDataInsert started' address
                  .outputs_list (some (.obj_name first)) = some inserted := ⟨_, rfl⟩
              unfold outputsListAsFirst at returned ⊢
              rw [head] at returned ⊢
              dsimp only at returned ⊢
              rw [inserting] at returned ⊢
              dsimp only at returned ⊢
              rw [insert_remove_passed live inserting] at returned ⊢
              exact ih (passed_relinking first started) returned

theorem add_source_reached (reached : Reached stream lists) (answer : SourceAnswer)
    (starts : Nat → Bool) {code : Int}
    (returned : (mgwStreamAddSource stream answer starts).progress = .returned code) :
    ∃ lists, Reached (mgwStreamAddSource stream answer starts).stream lists := by
  unfold mgwStreamAddSource at returned ⊢
  split_ifs at returned ⊢
  · exact ⟨lists, reached⟩
  · cases answer with
    | failed => exact ⟨lists, reached⟩
    | startFailed =>
        exact ⟨lists, in_order_congr reached.inOrder rfl rfl (Nat.le_refl _), reached.names⟩
    | usable =>
        dsimp only at returned ⊢
        have begun : Reached { stream with source := true, actived := true } lists :=
          ⟨in_order_congr reached.inOrder rfl rfl (Nat.le_refl _), reached.names⟩
        have relinking := reached_relinking begun
        change ∃ lists, Reached (Outcome.andThen (relinkWhitelist starts stream.allocated
          { stream with source := true, actived := true }
            (stream.links.pointee (.head .outputs_whitelist))) _).stream lists
        cases ended : (relinkWhitelist starts stream.allocated
            { stream with source := true, actived := true }
              (stream.links.pointee (.head .outputs_whitelist))).progress with
        | returned code' =>
            obtain ⟨next, relinked⟩ := relink_reached starts stream.allocated relinking ended
            unfold Outcome.andThen
            rw [ended]
            exact relinked_reached relinked
        | waiting =>
            unfold Outcome.andThen at returned
            rw [ended] at returned
            exact absurd (ended.symm.trans returned) Progress.noConfusion
        | aborted =>
            unfold Outcome.andThen at returned
            rw [ended] at returned
            exact absurd (ended.symm.trans returned) Progress.noConfusion

end Relinking

section Runs

/-- A call that came back left its lists in order. -/
def ReachedOnReturn (outcome : Outcome) : Prop :=
  ∀ code, outcome.progress = .returned code → ∃ lists, Reached outcome.stream lists

theorem next_reached {outcome : Outcome} {call : Call} (before : ReachedOnReturn outcome)
    (pointer : PointerLive outcome call) : ReachedOnReturn (next outcome call) := by
  intro code returned
  unfold next Outcome.andThen at returned ⊢
  cases progress : outcome.progress with
  | returned earlier =>
      rw [progress] at returned
      obtain ⟨lists, reached⟩ := before earlier progress
      cases call with
      | addOutput settings => exact add_output_reached reached settings returned
      | addSource answer starts => exact add_source_reached reached answer starts returned
      | releaseSource =>
          exact ⟨lists, in_order_congr reached.inOrder rfl rfl (Nat.le_refl _), reached.names⟩
      | releaseOutput address => exact release_output_reached reached pointer returned
      | releaseOutputByName name => exact release_by_name_reached reached name returned
  | waiting =>
      rw [progress] at returned
      exact absurd (progress.symm.trans returned) Progress.noConfusion
  | aborted =>
      rw [progress] at returned
      exact absurd (progress.symm.trans returned) Progress.noConfusion

/-- In every run whose callers hand in pointers to live outputs, the lists are in order
whenever a call has come back. -/
theorem run_in_order (calls : List Call)
    (pointers : Meets next PointerLive mgwStreamCreate calls) {code : Int}
    (returned : (run next mgwStreamCreate calls).progress = .returned code) :
    ∃ lists, InOrder (run next mgwStreamCreate calls).stream lists := by
  have start : ReachedOnReturn mgwStreamCreate := by
    intro _ _
    refine ⟨fun _ => [], ⟨fun _ => rfl, ?_, ?_, ?_⟩, ?_⟩
    · intro list address
      exact iff_of_false List.not_mem_nil (Option.some_ne_none list).symm
    · intro address output held
      exact absurd held (Option.some_ne_none output).symm
    · intro address live
      exact absurd rfl live
    · intro address other
      exact (Option.some_ne_none (Context.output other)).symm
  obtain ⟨lists, reached⟩ := run_invariant (fun _ _ before pointer => next_reached before pointer)
    calls mgwStreamCreate start pointers code returned
  exact ⟨lists, reached.inOrder⟩

end Runs

end Mgw.StreamReachable

import Mgw.StreamOutputsLinked

/-!
# Streams whose lists are in order

What every call of a stream can rely on, also behind a source that was added over a
whitelist: an output is on the list whose lock it remembers, and one without a lock
is on none. From there, what a search by name and an addition come to.
-/

namespace Mgw.StreamInOrder

open IntrusiveList StreamOutputs StreamOutputsLinked

set_option autoImplicit false

structure InOrder (stream : MgwStream) (lists : OutputList → List Nat) : Prop where
  linked : Linked layout stream.links fun list => (lists list).map .output
  locked : ∀ list address, address ∈ lists list ↔
    (stream.output address).bind MgwOutput.mutex = some list
  referenced : ∀ address output, stream.output address = some output → 0 ≤ output.refs
  allocated : ∀ address, stream.output address ≠ none → address < stream.allocated

section Operations

variable {stream : MgwStream} {lists : OutputList → List Nat} {address : Nat}

theorem in_order_nodup (inOrder : InOrder stream lists) (list : OutputList) : (lists list).Nodup :=
  List.Nodup.of_map _ (inOrder.linked.nodup list)

theorem in_order_live (inOrder : InOrder stream lists) {list : OutputList}
    (member : address ∈ lists list) : stream.output address ≠ none := by
  intro none
  have locked := (inOrder.locked list address).mp member
  rw [none] at locked
  contradiction

theorem in_order_fresh (inOrder : InOrder stream lists) (list : OutputList) :
    stream.allocated ∉ lists list := by
  intro member
  exact absurd (inOrder.allocated _ (in_order_live inOrder member)) (Nat.lt_irrefl _)

/-- A list is what its links say. -/
theorem in_order_unique {lists' : OutputList → List Nat} (inOrder : InOrder stream lists)
    (inOrder' : InOrder stream lists') : lists = lists' := by
  funext list
  have maps := congrFun (inOrder.linked.unique inOrder'.linked) list
  exact List.map_injective_iff.mpr (fun _ _ => Context.output.inj) maps

/-- What the order of the lists depends on. -/
theorem in_order_congr {stream' : MgwStream} (inOrder : InOrder stream lists)
    (links : stream'.links = stream.links) (output : stream'.output = stream.output)
    (allocated : stream.allocated ≤ stream'.allocated) : InOrder stream' lists where
  linked := links ▸ inOrder.linked
  locked := output ▸ inOrder.locked
  referenced := output ▸ inOrder.referenced
  allocated := by
    intro address live
    rw [output] at live
    exact Nat.lt_of_lt_of_le (inOrder.allocated address live) allocated

theorem modify_mutex {change : MgwOutput → MgwOutput}
    (kept : ∀ output, (change output).mutex = output.mutex) (other : Nat) :
    ((stream.modify address change).output other).bind MgwOutput.mutex =
      (stream.output other).bind MgwOutput.mutex := by
  rw [modify_output]
  split_ifs with same
  · rw [same, Option.bind_map]
    exact congrArg _ (funext kept)
  · rfl

/-- A change that leaves the mutex alone, and the output with a reference. -/
theorem change_in_order (inOrder : InOrder stream lists) {change : MgwOutput → MgwOutput}
    (kept : ∀ output, (change output).mutex = output.mutex)
    (referenced : ∀ output, stream.output address = some output → 0 ≤ (change output).refs) :
    InOrder (stream.modify address change) lists where
  linked := inOrder.linked
  locked := fun list other => (inOrder.locked list other).trans (by rw [modify_mutex kept])
  referenced := by
    intro other output held
    rw [modify_output] at held
    split_ifs at held with same
    · obtain ⟨before, there, rfl⟩ := Option.map_eq_some_iff.mp held
      exact referenced before there
    · exact inOrder.referenced other output held
  allocated := fun other live => inOrder.allocated other ((modify_live change other).mp live)

theorem modify_in_order (inOrder : InOrder stream lists) {change : MgwOutput → MgwOutput}
    (kept : ∀ output, (change output).mutex = output.mutex)
    (referenced : ∀ output, 0 ≤ output.refs → 0 ≤ (change output).refs) :
    InOrder (stream.modify address change) lists := by
  apply change_in_order inOrder kept
  intro output held
  exact referenced output (inOrder.referenced address output held)

theorem actual_stop_in_order (inOrder : InOrder stream lists) :
    InOrder (mgwOutputActualStop stream address) lists :=
  modify_in_order inOrder (fun _ => rfl) (fun _ => id)

theorem stop_in_order (inOrder : InOrder stream lists) :
    InOrder (mgwOutputStop stream address) lists := by
  unfold mgwOutputStop
  cases stream.output address with
  | none => exact inOrder
  | some output =>
      dsimp only
      split_ifs
      · exact actual_stop_in_order inOrder
      · exact inOrder

theorem free_links_unlocked (unlocked : (stream.output address).bind MgwOutput.mutex = none) :
    (mgwContextDataFree stream address).links = stream.links := by
  unfold mgwContextDataFree mgwContextDataRemove
  rw [unlocked]

/-- An output that is freed is on no list behind that. -/
theorem free_in_order (inOrder : InOrder stream lists) :
    InOrder (mgwContextDataFree stream address) fun list => (lists list).erase address where
  linked := by
    cases lock : (stream.output address).bind MgwOutput.mutex with
    | none =>
        rw [free_links_unlocked lock]
        intro list
        have absent : address ∉ lists list := by
          intro member
          have locked := (inOrder.locked list address).mp member
          rw [lock] at locked
          contradiction
        dsimp only
        rw [List.erase_of_not_mem absent]
        exact inOrder.linked list
    | some list =>
        have member := (inOrder.locked list address).mpr lock
        exact free_linked inOrder.linked lock member
  locked := by
    intro list other
    rw [(in_order_nodup inOrder list).mem_erase_iff, free_output]
    split_ifs with same
    · constructor
      · exact fun both => absurd same both.1
      · exact fun none => absurd none (Option.some_ne_none list).symm
    · rw [inOrder.locked, and_iff_right same]
  referenced := by
    intro other output held
    rw [free_output] at held
    split_ifs at held
    exact inOrder.referenced other output held
  allocated := by
    intro other live
    rw [free_output] at live
    rw [free_allocated]
    split_ifs at live
    · contradiction
    · exact inOrder.allocated other live

end Operations

section Search

variable {stream : MgwStream} {lists : OutputList → List Nat}

theorem in_order_length (inOrder : InOrder stream lists) (list : OutputList) :
    (lists list).length ≤ stream.allocated := by
  have inside : lists list ⊆ List.range stream.allocated := by
    intro address member
    exact List.mem_range.mpr (inOrder.allocated address (in_order_live inOrder member))
  have bound := ((in_order_nodup inOrder list).subperm inside).length_le
  rwa [List.length_range] at bound

/-- The search ends, at the first output of that name. -/
theorem get_context_find (inOrder : InOrder stream lists) (list : OutputList)
    (name : List UInt8) : getContextByName stream list name =
      match (lists list).find? fun address => named stream name (.output address) with
      | none => .missing
      | some address => .output address := by
  have walk : search layout stream.links (named stream name) stream.allocated
      (stream.links.pointee (.head list)) =
        some (((lists list).map Context.output).find? (named stream name)) :=
    search_chain (inOrder.linked list) (by simpa using in_order_length inOrder list)
  unfold getContextByName
  rw [walk, List.find?_map]
  change _ = match (lists list).find? (named stream name ∘ Context.output) with
    | none => Found.missing
    | some address => Found.output address
  cases (lists list).find? (named stream name ∘ Context.output) with
  | none => rfl
  | some address => rfl

/-- An output of that name is on a list. -/
def Present (stream : MgwStream) (lists : OutputList → List Nat) (name : List UInt8) : Prop :=
  ∃ list, ∃ address ∈ lists list, named stream name (.output address) = true

theorem get_context_missing (inOrder : InOrder stream lists) {list : OutputList}
    {name : List UInt8}
    (absent : ∀ address ∈ lists list, ¬named stream name (.output address) = true) :
    getContextByName stream list name = .missing := by
  rw [get_context_find inOrder, List.find?_eq_none.mpr absent]

theorem modify_back {address : Nat} {change back : MgwOutput → MgwOutput}
    (undone : ∀ output, back (change output) = output) :
    (stream.modify address change).modify address back = stream := by
  unfold MgwStream.modify
  dsimp only
  rw [Function.update_self, Function.update_idem, Option.map_map]
  have same : back ∘ change = id := funext undone
  rw [same, Option.map_id, id, Function.update_eq_self]

/-- The reference that a refusal takes it gives back. -/
theorem refuse_present (inOrder : InOrder stream lists) {list : OutputList} {name : List UInt8}
    (present : ∃ address ∈ lists list, named stream name (.output address) = true)
    (otherwise : Outcome) :
    refuseExisting stream list name otherwise = stream.returns (mgwOutErr MGW_ERR_EXISTED) := by
  obtain ⟨address, found⟩ := Option.isSome_iff_exists.mp (List.find?_isSome.mpr present)
  have member := List.mem_of_find?_eq_some found
  obtain ⟨output, held⟩ := Option.ne_none_iff_exists'.mp (in_order_live inOrder member)
  have referenced := inOrder.referenced address output held
  have valid : (stream.output address).any (fun output => -1 < output.refs) = true := by
    rw [held]
    exact decide_eq_true (by omega)
  have taken : (stream.modify address fun output =>
      { output with refs := output.refs + 1 }).output address =
        some { output with refs := output.refs + 1 } := by
    rw [modify_output, if_pos rfl, held]
    rfl
  unfold refuseExisting
  rw [get_context_find inOrder, found]
  dsimp only
  rw [if_pos valid]
  unfold mgwOutputRelease
  rw [taken]
  dsimp only
  have positive : ¬output.refs + 1 - 1 = -1 := by omega
  rw [if_neg positive, modify_back]
  · rfl
  · intro before
    rw [Int.add_sub_cancel]

theorem refuse_absent (inOrder : InOrder stream lists) {list : OutputList} {name : List UInt8}
    (absent : ∀ address ∈ lists list, ¬named stream name (.output address) = true)
    (otherwise : Outcome) : refuseExisting stream list name otherwise = otherwise := by
  unfold refuseExisting
  rw [get_context_missing inOrder absent]

theorem add_output_present (inOrder : InOrder stream lists) {settings : OutputSettings}
    (present : Present stream lists settings.output_name) :
    mgwStreamAddOutput stream settings = stream.returns (mgwOutErr MGW_ERR_EXISTED) := by
  unfold mgwStreamAddOutput
  by_cases first : ∃ address ∈ lists .outputs_list,
      named stream settings.output_name (.output address) = true
  · exact refuse_present inOrder first _
  · obtain ⟨list, there⟩ := present
    cases list with
    | outputs_list => exact absurd there first
    | outputs_whitelist =>
        rw [refuse_absent inOrder fun address member same => first ⟨address, member, same⟩]
        exact refuse_present inOrder there _

theorem add_output_absent (inOrder : InOrder stream lists) {settings : OutputSettings}
    (absent : ¬Present stream lists settings.output_name) :
    mgwStreamAddOutput stream settings = createOutput stream settings := by
  unfold mgwStreamAddOutput
  rw [refuse_absent inOrder fun address member same => absent ⟨_, address, member, same⟩,
    refuse_absent inOrder fun address member same => absent ⟨_, address, member, same⟩]

end Search

end Mgw.StreamInOrder

import Mathlib.Algebra.BigOperators.Group.Finset.Basic
import Mathlib.Algebra.Order.BigOperators.Group.Finset
import Mathlib.Logic.Function.Basic

/-!
Nodes that are counted by the references to them. A node whose last reference is given
up is destroyed, and gives up the references it holds itself, and so on. The references
are those that are held from outside and those of the nodes that are not destroyed.
-/

namespace Mgw.RefCounts

set_option autoImplicit false

/-- Gives up one reference after the other, as far as the fuel goes. A count of zero is a
node that is not there. `out` are the references that a node holds, none where they
cannot be read. -/
def releaseRefs (out : Nat → Option (List Nat)) :
    Nat → (Nat → Nat) → List Nat → Option (Nat → Nat)
  | _, ref, [] => some ref
  | 0, _, _ :: _ => none
  | fuel + 1, ref, id :: rest =>
      if ref id = 0 then none
      else if ref id = 1 then
        (out id).bind fun refs => releaseRefs out fuel (Function.update ref id 0) (refs ++ rest)
      else releaseRefs out fuel (Function.update ref id (ref id - 1)) rest

/-- The counts after references are added. -/
def addRefs (ref : Nat → Nat) : List Nat → Nat → Nat
  | [] => ref
  | id :: rest => addRefs (Function.update ref id (ref id + 1)) rest

section Counting

variable (out : Nat → Option (List Nat)) (ref : Nat → Nat) (count : Nat)

def refsOf (id : Nat) : List Nat := (out id).getD []

/-- How often the nodes that are there hold a node. -/
def holders (id : Nat) : Nat :=
  ∑ owner ∈ Finset.range count, if ref owner = 0 then 0 else (refsOf out owner).count id

/-- How many references the nodes that are there hold. -/
def load : Nat :=
  ∑ owner ∈ Finset.range count, if ref owner = 0 then 0 else (refsOf out owner).length

/-- The counts are right, but for the references in `work`, which are about to be given
up, and those in `debt`, which are held and not counted. -/
structure Balanced (held : Nat → Nat) (work debt : List Nat) : Prop where
  counted : ∀ id, ref id + debt.count id = held id + holders out ref count id + work.count id
  bounded : ∀ id, count ≤ id → ref id = 0
  readable : ∀ id, ref id ≠ 0 → ∃ refs, out id = some refs

/-- What is not counted is held by a node that is held from outside. -/
def Owed (held : Nat → Nat) (debt : List Nat) : Prop :=
  debt = [] ∨ ∃ owner, 0 < held owner ∧ ref owner ≠ 0 ∧
    ∀ id, debt.count id ≤ (refsOf out owner).count id

end Counting

/-- Sums that differ in one place. -/
theorem sum_range_change {count place : Nat} (inside : place < count) {before after : Nat → Nat}
    (same : ∀ index, index ≠ place → after index = before index) :
    ∑ index ∈ Finset.range count, after index + before place =
      ∑ index ∈ Finset.range count, before index + after place := by
  have member := Finset.mem_range.mpr inside
  have others : ∑ index ∈ (Finset.range count).erase place, after index =
      ∑ index ∈ (Finset.range count).erase place, before index :=
    Finset.sum_congr rfl fun index other => same index (Finset.ne_of_mem_erase other)
  rw [← Finset.add_sum_erase _ after member, ← Finset.add_sum_erase _ before member, others]
  omega

section Laws

variable {out : Nat → Option (List Nat)} {ref held : Nat → Nat} {count : Nat}
  {work debt : List Nat}

theorem holders_congr {after : Nat → Nat} (same : ∀ id, after id = 0 ↔ ref id = 0) (id : Nat) :
    holders out after count id = holders out ref count id := by
  unfold holders
  apply Finset.sum_congr rfl
  intro owner _
  simp only [same owner]

theorem load_congr {after : Nat → Nat} (same : ∀ id, after id = 0 ↔ ref id = 0) :
    load out after count = load out ref count := by
  unfold load
  apply Finset.sum_congr rfl
  intro owner _
  simp only [same owner]

theorem holders_destroyed (out : Nat → Option (List Nat)) {id : Nat} (inside : id < count)
    (live : ref id ≠ 0) (other : Nat) :
    holders out (Function.update ref id 0) count other + (refsOf out id).count other =
      holders out ref count other := by
  have change := @sum_range_change count id inside
    (fun owner => if ref owner = 0 then 0 else (refsOf out owner).count other)
    (fun owner => if Function.update ref id 0 owner = 0 then 0
      else (refsOf out owner).count other)
    fun index different => by rw [Function.update_of_ne different]
  rw [if_neg live, Function.update_self, if_pos rfl] at change
  exact change

theorem load_destroyed (out : Nat → Option (List Nat)) {id : Nat} (inside : id < count)
    (live : ref id ≠ 0) :
    load out (Function.update ref id 0) count + (refsOf out id).length = load out ref count := by
  have change := @sum_range_change count id inside
    (fun owner => if ref owner = 0 then 0 else (refsOf out owner).length)
    (fun owner => if Function.update ref id 0 owner = 0 then 0 else (refsOf out owner).length)
    fun index different => by rw [Function.update_of_ne different]
  rw [if_neg live, Function.update_self, if_pos rfl] at change
  exact change

theorem live_inside (balanced : Balanced out ref count held work debt) {id : Nat}
    (live : ref id ≠ 0) : id < count := by
  by_contra outside
  exact live (balanced.bounded id (Nat.not_lt.mp outside))

/-- What a node holds is counted among what all nodes hold. -/
theorem holder_counted (out : Nat → Option (List Nat)) {owner : Nat} (inside : owner < count)
    (live : ref owner ≠ 0) (id : Nat) :
    (refsOf out owner).count id ≤ holders out ref count id := by
  have split := Finset.add_sum_erase (Finset.range count)
    (fun owner => if ref owner = 0 then 0 else (refsOf out owner).count id)
    (Finset.mem_range.mpr inside)
  rw [if_neg live] at split
  exact le_of_le_of_eq (Nat.le_add_right _ _) split

theorem debt_held (balanced : Balanced out ref count held work debt)
    (owed : Owed out ref held debt) (id : Nat) : debt.count id ≤ holders out ref count id := by
  rcases owed with none | ⟨owner, -, live, covers⟩
  · rw [none]
    exact Nat.zero_le _
  · exact le_trans (covers id) (holder_counted out (live_inside balanced live) live id)

/-- A reference that is given up is one that is counted. -/
theorem released_live {id : Nat} {rest : List Nat}
    (balanced : Balanced out ref count held (id :: rest) debt) (owed : Owed out ref held debt) :
    held id + rest.count id < ref id := by
  have counted := balanced.counted id
  have covers := debt_held balanced owed id
  rw [List.count_cons_self] at counted
  omega

theorem balanced_congr {work' debt' : List Nat} (balanced : Balanced out ref count held work debt)
    (same : ∀ id, debt'.count id + work.count id = debt.count id + work'.count id) :
    Balanced out ref count held work' debt' where
  counted := by
    intro id
    have counted := balanced.counted id
    have change := same id
    omega
  bounded := balanced.bounded
  readable := balanced.readable

theorem update_positive {id refs : Nat} (live : ref id ≠ 0) (positive : refs ≠ 0) (other : Nat) :
    Function.update ref id refs other = 0 ↔ ref other = 0 := by
  by_cases here : other = id
  · rw [here, Function.update_self]
    exact ⟨fun none => absurd none positive, fun none => absurd none live⟩
  · rw [Function.update_of_ne here]

/-- One count changes with what is given up or owed, and no node comes or goes. -/
theorem recounted {id refs : Nat} {work' debt' : List Nat}
    (balanced : Balanced out ref count held work debt) (live : ref id ≠ 0) (positive : refs ≠ 0)
    (change : ∀ other, Function.update ref id refs other + debt'.count other + work.count other =
      ref other + debt.count other + work'.count other) :
    Balanced out (Function.update ref id refs) count held work' debt' where
  counted := by
    intro other
    have counted := balanced.counted other
    have changed := change other
    rw [holders_congr (update_positive live positive)]
    omega
  bounded := fun other outside =>
    (update_positive live positive other).mpr (balanced.bounded other outside)
  readable := fun other remains =>
    balanced.readable other fun none => remains ((update_positive live positive other).mpr none)

/-- One of several references is given up. -/
theorem release_shared {id : Nat} {rest : List Nat}
    (balanced : Balanced out ref count held (id :: rest) debt) (shared : 1 < ref id) :
    Balanced out (Function.update ref id (ref id - 1)) count held rest debt := by
  refine recounted balanced (by omega) (by omega) fun other => ?_
  by_cases here : other = id
  · rw [here, Function.update_self, List.count_cons_self]
    omega
  · rw [Function.update_of_ne here, List.count_cons_of_ne (Ne.symm here)]

/-- The last reference is given up, and with it those of the node. -/
theorem release_last {id : Nat} {rest refs : List Nat}
    (balanced : Balanced out ref count held (id :: rest) debt) (last : ref id = 1)
    (read : out id = some refs) :
    Balanced out (Function.update ref id 0) count held (refs ++ rest) debt := by
  have live : ref id ≠ 0 := by omega
  have inside := live_inside balanced live
  have own : refsOf out id = refs := by rw [refsOf, read, Option.getD_some]
  refine ⟨?_, ?_, ?_⟩
  · intro other
    have counted := balanced.counted other
    have destroyed := holders_destroyed out inside live other
    rw [own] at destroyed
    rw [List.count_append]
    by_cases here : other = id
    · rw [here, List.count_cons_self] at counted
      rw [here] at destroyed ⊢
      rw [Function.update_self]
      omega
    · rw [List.count_cons_of_ne (Ne.symm here)] at counted
      rw [Function.update_of_ne here]
      omega
  · intro other outside
    by_cases here : other = id
    · rw [here, Function.update_self]
    · rw [Function.update_of_ne here]
      exact balanced.bounded other outside
  · intro other remains
    by_cases here : other = id
    · rw [here, Function.update_self] at remains
      contradiction
    · rw [Function.update_of_ne here] at remains
      exact balanced.readable other remains

/-- Giving up references that are counted comes to an end, with every count right again
and with every node still there that is held from outside. -/
theorem release_balanced (fuel : Nat) (balanced : Balanced out ref count held work debt)
    (owed : Owed out ref held debt) (enough : work.length + load out ref count ≤ fuel) :
    ∃ after, releaseRefs out fuel ref work = some after ∧
      Balanced out after count held [] debt ∧ (∀ id, after id ≠ 0 → ref id ≠ 0) ∧
      ∀ id, 0 < held id → ref id ≠ 0 → after id ≠ 0 := by
  induction fuel generalizing ref work with
  | zero =>
      have none : work = [] := List.length_eq_zero_iff.mp (by omega)
      rw [none] at balanced ⊢
      exact ⟨ref, by rw [releaseRefs], balanced, fun _ live => live, fun _ _ live => live⟩
  | succ fuel ih =>
      cases work with
      | nil => exact ⟨ref, by rw [releaseRefs], balanced, fun _ live => live, fun _ _ live => live⟩
      | cons id rest =>
          have counted := released_live balanced owed
          have live : ref id ≠ 0 := by omega
          rw [List.length_cons] at enough
          rw [releaseRefs, if_neg live]
          split_ifs with last
          · obtain ⟨refs, read⟩ := balanced.readable id live
            have own : refsOf out id = refs := by rw [refsOf, read, Option.getD_some]
            have destroyed := load_destroyed out (live_inside balanced live) live
            rw [own] at destroyed
            have unheld : ∀ other, 0 < held other → other ≠ id := by
              intro other heldOutside here
              rw [here] at heldOutside
              omega
            rw [read, Option.bind_some]
            have stillOwed : Owed out (Function.update ref id 0) held debt := by
              rcases owed with none | ⟨owner, heldOutside, ownerLive, covers⟩
              · exact Or.inl none
              · refine Or.inr ⟨owner, heldOutside, ?_, covers⟩
                rw [Function.update_of_ne (unheld owner heldOutside)]
                exact ownerLive
            obtain ⟨after, released, kept, survives, stays⟩ :=
              ih (release_last balanced last read) stillOwed (by rw [List.length_append]; omega)
            refine ⟨after, released, kept, ?_, ?_⟩
            · intro other remains
              have before := survives other remains
              by_cases here : other = id
              · rw [here]
                exact live
              · rw [Function.update_of_ne here] at before
                exact before
            · intro other heldOutside remains
              apply stays other heldOutside
              rw [Function.update_of_ne (unheld other heldOutside)]
              exact remains
          · have shared := release_shared balanced (by omega)
            have same := @update_positive ref id (ref id - 1) live (by omega)
            have stillOwed : Owed out (Function.update ref id (ref id - 1)) held debt := by
              rcases owed with none | ⟨owner, heldOutside, ownerLive, covers⟩
              · exact Or.inl none
              · exact Or.inr ⟨owner, heldOutside, fun none => ownerLive ((same owner).mp none),
                  covers⟩
            obtain ⟨after, released, kept, survives, stays⟩ :=
              ih shared stillOwed (by rw [load_congr same]; omega)
            refine ⟨after, released, kept, ?_, ?_⟩
            · intro other remains none
              exact survives other remains ((same other).mpr none)
            · intro other heldOutside remains
              apply stays other heldOutside
              intro none
              exact remains ((same other).mp none)

/-- A reference that was not counted is counted. -/
theorem addref_balanced {id : Nat} {rest : List Nat}
    (balanced : Balanced out ref count held work (id :: rest)) (live : ref id ≠ 0) :
    Balanced out (Function.update ref id (ref id + 1)) count held work rest := by
  refine recounted balanced live (by omega) fun other => ?_
  by_cases here : other = id
  · rw [here, Function.update_self, List.count_cons_self]
    omega
  · rw [Function.update_of_ne here, List.count_cons_of_ne (Ne.symm here)]

/-- What one node holds changes. -/
theorem holders_changed {out' : Nat → Option (List Nat)} {owner : Nat} (inside : owner < count)
    (live : ref owner ≠ 0) (same : ∀ other, other ≠ owner → out' other = out other) (id : Nat) :
    holders out' ref count id + (refsOf out owner).count id =
      holders out ref count id + (refsOf out' owner).count id := by
  have change := @sum_range_change count owner inside
    (fun index => if ref index = 0 then 0 else (refsOf out index).count id)
    (fun index => if ref index = 0 then 0 else (refsOf out' index).count id)
    fun index different => by rw [refsOf, refsOf, same index different]
  rw [if_neg live, if_neg live] at change
  exact change

theorem update_live {id other : Nat} (live : ref other ≠ 0) :
    Function.update ref id (ref id + 1) other ≠ 0 := by
  by_cases here : other = id
  · rw [here, Function.update_self]
    exact Nat.succ_ne_zero _
  · rw [Function.update_of_ne here]
    exact live

theorem add_refs_live (ids : List Nat) {id : Nat} (live : ref id ≠ 0) : addRefs ref ids id ≠ 0 := by
  induction ids generalizing ref with
  | nil => exact live
  | cons other rest ih => exact ih (update_live live)

theorem add_refs_other (ids : List Nat) {id : Nat} (outside : id ∉ ids) :
    addRefs ref ids id = ref id := by
  induction ids generalizing ref with
  | nil => rfl
  | cons other rest ih =>
      obtain ⟨different, further⟩ := not_or.mp fun member => outside (List.mem_cons.mpr member)
      rw [addRefs, ih further, Function.update_of_ne different]

/-- References that were not counted are counted. -/
theorem add_refs_balanced (ids : List Nat)
    (balanced : Balanced out ref count held work (ids ++ debt)) (live : ∀ id ∈ ids, ref id ≠ 0) :
    Balanced out (addRefs ref ids) count held work debt := by
  induction ids generalizing ref with
  | nil => exact balanced
  | cons id rest ih =>
      apply ih (addref_balanced balanced (live id List.mem_cons_self))
      intro other member
      exact update_live (live other (List.mem_cons_of_mem _ member))

/-- One node comes to hold other references. -/
theorem replaced_balanced {owner : Nat} {refs work' debt' : List Nat}
    (balanced : Balanced out ref count held work debt) (live : ref owner ≠ 0)
    (change : ∀ id, debt'.count id + work.count id + (refsOf out owner).count id =
      debt.count id + work'.count id + refs.count id) :
    Balanced (Function.update out owner (some refs)) ref count held work' debt' where
  counted := by
    intro id
    have counted := balanced.counted id
    have changed := change id
    have holding := @holders_changed out ref count (Function.update out owner (some refs)) owner
      (live_inside balanced live) live (fun other different => Function.update_of_ne different ..) id
    have own : refsOf (Function.update out owner (some refs)) owner = refs := by
      rw [refsOf, Function.update_self, Option.getD_some]
    rw [own] at holding
    omega
  bounded := balanced.bounded
  readable := by
    intro id there
    by_cases here : id = owner
    · rw [here, Function.update_self]
      exact ⟨refs, rfl⟩
    · rw [Function.update_of_ne here]
      exact balanced.readable id there

/-- A node that holds nothing comes into being, with one reference from outside. -/
theorem created_balanced {id : Nat} (balanced : Balanced out ref count held [] [])
    (unused : ref id = 0) :
    held id = 0 ∧ Balanced (Function.update out id (some [])) (Function.update ref id 1)
      (max count (id + 1)) (Function.update held id 1) [] [] := by
  have none := balanced.counted id
  rw [unused, List.count_nil] at none
  have holding : ∀ other, holders (Function.update out id (some [])) (Function.update ref id 1)
      (max count (id + 1)) other = holders out ref count other := by
    intro other
    unfold holders
    rw [← Finset.sum_subset (Finset.range_mono (le_max_left count (id + 1)))]
    · apply Finset.sum_congr rfl
      intro owner _
      by_cases here : owner = id
      · rw [here, Function.update_self, if_neg one_ne_zero, if_pos unused, refsOf,
          Function.update_self, Option.getD_some, List.count_nil]
      · rw [Function.update_of_ne here, refsOf, refsOf, Function.update_of_ne here]
    · intro owner _ outside
      have beyond := Nat.not_lt.mp fun inside => outside (Finset.mem_range.mpr inside)
      by_cases here : owner = id
      · rw [here, Function.update_self, if_neg one_ne_zero, refsOf, Function.update_self,
          Option.getD_some, List.count_nil]
      · rw [Function.update_of_ne here, if_pos (balanced.bounded owner beyond)]
  refine ⟨by omega, ?_, ?_, ?_⟩
  · intro other
    have counted := balanced.counted other
    rw [holding]
    by_cases here : other = id
    · rw [here, Function.update_self, Function.update_self, List.count_nil]
      omega
    · rw [Function.update_of_ne here, Function.update_of_ne here]
      exact counted
  · intro other outside
    have notHere : other ≠ id := by omega
    rw [Function.update_of_ne notHere]
    exact balanced.bounded other (by omega)
  · intro other there
    by_cases here : other = id
    · rw [here, Function.update_self]
      exact ⟨[], rfl⟩
    · rw [Function.update_of_ne here] at there ⊢
      exact balanced.readable other there

/-- A reference that was held from outside is about to be given up. -/
theorem dropped_balanced {id : Nat} (balanced : Balanced out ref count held work debt)
    (owned : 0 < held id) :
    Balanced out ref count (Function.update held id (held id - 1)) (id :: work) debt where
  counted := by
    intro other
    have counted := balanced.counted other
    by_cases here : other = id
    · rw [here, Function.update_self, List.count_cons_self]
      rw [here] at counted
      omega
    · rw [Function.update_of_ne here, List.count_cons_of_ne (Ne.symm here)]
      exact counted
  bounded := balanced.bounded
  readable := balanced.readable

/-- A reference that is counted comes to be held from outside. -/
theorem taken_balanced {id : Nat} (balanced : Balanced out ref count held (id :: work) debt) :
    Balanced out ref count (Function.update held id (held id + 1)) work debt where
  counted := by
    intro other
    have counted := balanced.counted other
    by_cases here : other = id
    · rw [here, Function.update_self]
      rw [here, List.count_cons_self] at counted
      omega
    · rw [Function.update_of_ne here]
      rw [List.count_cons_of_ne (Ne.symm here)] at counted
      exact counted
  bounded := balanced.bounded
  readable := balanced.readable

/-- What a node that is there holds is there. -/
theorem referenced_live (balanced : Balanced out ref count held work []) {owner id : Nat}
    (live : ref owner ≠ 0) (member : id ∈ refsOf out owner) : ref id ≠ 0 := by
  have counted := balanced.counted id
  have covers := holder_counted out (live_inside balanced live) live id
  have positive := List.count_pos_iff.mpr member
  rw [List.count_nil] at counted
  omega

theorem owned_live (balanced : Balanced out ref count held work []) {id : Nat}
    (owned : 0 < held id) : ref id ≠ 0 := by
  have counted := balanced.counted id
  rw [List.count_nil] at counted
  omega

theorem load_out_congr {out' : Nat → Option (List Nat)}
    (same : ∀ id, ref id ≠ 0 → out id = out' id) : load out ref count = load out' ref count := by
  unfold load
  apply Finset.sum_congr rfl
  intro owner _
  split_ifs with none
  · rfl
  · rw [refsOf, refsOf, same owner none]

theorem holders_out_congr {out' : Nat → Option (List Nat)}
    (same : ∀ id, ref id ≠ 0 → out id = out' id) (id : Nat) :
    holders out ref count id = holders out' ref count id := by
  unfold holders
  apply Finset.sum_congr rfl
  intro owner _
  split_ifs with none
  · rfl
  · rw [refsOf, refsOf, same owner none]

/-- Only nodes that are there are asked for what they hold. -/
theorem release_refs_congr {out' : Nat → Option (List Nat)} (fuel : Nat)
    (same : ∀ id, ref id ≠ 0 → out id = out' id) :
    releaseRefs out fuel ref work = releaseRefs out' fuel ref work := by
  induction fuel generalizing ref work with
  | zero => cases work <;> rfl
  | succ fuel ih =>
      cases work with
      | nil => rfl
      | cons id rest =>
          rw [releaseRefs, releaseRefs]
          split_ifs with none last
          · rfl
          · rw [same id none]
            congr 1
            funext refs
            apply ih
            intro other there
            by_cases here : other = id
            · rw [here, Function.update_self] at there
              contradiction
            · rw [Function.update_of_ne here] at there
              exact same other there
          · apply ih
            intro other there
            by_cases here : other = id
            · rw [here]
              exact same id none
            · rw [Function.update_of_ne here] at there
              exact same other there

end Laws

end Mgw.RefCounts

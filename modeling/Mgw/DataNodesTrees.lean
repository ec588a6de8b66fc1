import Mgw.DataNodesCalls

/-!
# The contents of an object, all the way down

What the members of an object are, with the objects and arrays among them read in turn.
Members that are null pointers are left out. A reading keeps clear of some objects, and
is then the same after these have changed.
-/

namespace Mgw.DataNodes

open DataItems DataValues RefCounts

set_option autoImplicit false

/-- A member with what it refers to. -/
inductive Deep where
  | scalar (value : Value)
  | object (members : Name → Option Deep)
  | array (objects : List (Name → Option Deep))

/-- The values that `mgw_data_apply` copies. -/
def NotNull : Value → Prop
  | .object obj => obj ≠ 0
  | .array arr => arr ≠ 0
  | _ => True

instance (value : Value) : Decidable (NotNull value) :=
  match value with
  | .string _ => inferInstanceAs (Decidable True)
  | .number _ _ => inferInstanceAs (Decidable True)
  | .boolean _ => inferInstanceAs (Decidable True)
  | .object obj => inferInstanceAs (Decidable (obj ≠ 0))
  | .array arr => inferInstanceAs (Decidable (arr ≠ 0))

/-- The value of an item, unless it is a null pointer. -/
def memberOf (entry : Option Entry) : Option Value :=
  (entry.map Entry.value).filter fun value => NotNull value

section Reading

variable (heap : Heap) (avoid : Nat → Prop)

/-- A value is read, with objects read by `reads`. -/
def ReadsValue (reads : Nat → (Name → Option Deep) → Prop) : Value → Deep → Prop
  | .object obj, .object members => reads obj.toNat members
  | .array arr, .array objects =>
      ¬avoid arr.toNat ∧ ∃ ids, heap arr.toNat = .array ids ∧ List.Forall₂ reads ids objects
  | .object _, _ => False
  | .array _, _ => False
  | value, .scalar value' => value = value'
  | _, _ => False

/-- The members of an object, nested at most so deep. -/
def ReadsObject : Nat → Nat → (Name → Option Deep) → Prop
  | 0, _, _ => False
  | depth + 1, id, members =>
      ¬avoid id ∧ ∃ items, heap id = .data items ∧ ∀ name,
        Option.Rel (ReadsValue heap avoid (ReadsObject depth)) (memberOf (getItem name items))
          (members name)

end Reading

section Stability

variable {state after : State} {heap heap' : Heap} {avoid avoid' : Nat → Prop}

theorem member_some {entry : Option Entry} {value : Value} (found : memberOf entry = some value) :
    ∃ present, entry = some present ∧ present.value = value ∧ NotNull value := by
  obtain ⟨mapped, kept⟩ := Option.filter_eq_some_iff.mp found
  obtain ⟨present, same, equal⟩ := Option.map_eq_some_iff.mp mapped
  exact ⟨present, same, equal, of_decide_eq_true kept⟩

theorem pointee_object {obj : UInt64} (notNull : obj ≠ 0) :
    obj.toNat ∈ pointees (.object obj) := by
  rw [pointees, if_neg notNull]
  exact List.mem_singleton_self _

theorem pointee_array {arr : UInt64} (notNull : arr ≠ 0) : arr.toNat ∈ pointees (.array arr) := by
  rw [pointees, if_neg notNull]
  exact List.mem_singleton_self _

theorem item_pointees {items : Entries} {item : Name × Entry} (member : item ∈ items) {id : Nat}
    (inside : id ∈ pointees item.2.value) : id ∈ (Holding.data items).refs :=
  List.mem_flatMap.mpr ⟨item, member, inside⟩

theorem held_by (good : Good state heap [] []) {owner id : Nat} (live : state.ref owner ≠ 0)
    (inside : id ∈ (heap owner).refs) : state.ref id ≠ 0 :=
  referenced_live good.balanced live inside

/-- Whether a reading of values is kept, where it is kept for what they refer to. -/
theorem reads_value_kept {reads reads' : Nat → (Name → Option Deep) → Prop} {value : Value}
    {deep : Deep} (notNull : NotNull value)
    (objects : ∀ obj, value = .object obj → ∀ members, reads obj.toNat members →
      reads' obj.toNat members)
    (arrays : ∀ arr ids, value = .array arr → ¬avoid arr.toNat → heap arr.toNat = .array ids →
      ¬avoid' arr.toNat ∧ heap' arr.toNat = .array ids ∧
        ∀ id ∈ ids, ∀ members, reads id members → reads' id members)
    (read : ReadsValue heap avoid reads value deep) : ReadsValue heap' avoid' reads' value deep := by
  cases value with
  | string val => cases deep <;> exact read
  | number num padding => cases deep <;> exact read
  | boolean val => cases deep <;> exact read
  | object obj =>
      cases deep with
      | scalar value => exact read
      | object members => exact objects obj rfl members read
      | array objects => exact read
  | array arr =>
      cases deep with
      | scalar value => exact read
      | object members => exact read
      | array objects =>
          obtain ⟨outside, ids, found, each⟩ := read
          obtain ⟨outside', found', kept⟩ := arrays arr ids rfl outside found
          refine ⟨outside', ids, found', ?_⟩
          clear found found'
          induction each with
          | nil => exact List.Forall₂.nil
          | cons first rest ih =>
              exact List.Forall₂.cons (kept _ List.mem_cons_self _ first)
                (ih fun id member => kept id (List.mem_cons_of_mem _ member))

/-- What is there before and after is the same, where the reading goes. -/
structure Unchanged (state after : State) (heap heap' : Heap) (avoid avoid' : Nat → Prop) : Prop
    where
  before : Good state heap [] []
  behind : Good after heap' [] []
  same : ∀ id, state.ref id ≠ 0 → after.ref id ≠ 0 → ¬avoid id → heap' id = heap id
  clear : ∀ id, state.ref id ≠ 0 → avoid' id → avoid id

theorem reads_value_step (unchanged : Unchanged state after heap heap' avoid avoid') {depth : Nat}
    (objects : ∀ id, state.ref id ≠ 0 → after.ref id ≠ 0 → ∀ members,
      ReadsObject heap avoid depth id members → ReadsObject heap' avoid' depth id members)
    {value : Value} {deep : Deep} (notNull : NotNull value)
    (inside : ∀ id ∈ pointees value, state.ref id ≠ 0 ∧ after.ref id ≠ 0)
    (read : ReadsValue heap avoid (ReadsObject heap avoid depth) value deep) :
    ReadsValue heap' avoid' (ReadsObject heap' avoid' depth) value deep := by
  apply reads_value_kept notNull _ _ read
  · intro obj isObject members read
    rw [isObject] at notNull inside
    obtain ⟨live, live'⟩ := inside _ (pointee_object notNull)
    exact objects _ live live' members read
  · intro arr ids isArray outside holding
    rw [isArray] at notNull inside
    obtain ⟨live, live'⟩ := inside _ (pointee_array notNull)
    have same := unchanged.same _ live live' outside
    refine ⟨fun avoided => outside (unchanged.clear _ live avoided), same.trans holding, ?_⟩
    intro id member
    apply objects
    · apply held_by unchanged.before live
      rw [holding]
      exact member
    · apply held_by unchanged.behind live'
      rw [same, holding]
      exact member

/-- What an object refers to is there with it. -/
theorem entry_live (good : Good state heap [] []) {id : Nat} (there : state.ref id ≠ 0)
    {items : Entries} (found : heap id = .data items) {name : Name} {entry : Entry}
    (present : getItem name items = some entry) :
    ∀ referred ∈ pointees entry.value, state.ref referred ≠ 0 := by
  intro referred pointee
  apply held_by good there
  rw [found]
  exact item_pointees (get_member present) pointee

theorem reads_object_kept (unchanged : Unchanged state after heap heap' avoid avoid') (depth : Nat)
    {id : Nat} (there : state.ref id ≠ 0) (stays : after.ref id ≠ 0)
    {members : Name → Option Deep} (read : ReadsObject heap avoid depth id members) :
    ReadsObject heap' avoid' depth id members := by
  induction depth generalizing id members with
  | zero => exact read
  | succ depth ih =>
      obtain ⟨outside, items, found, each⟩ := read
      have same := (unchanged.same id there stays outside).trans found
      refine ⟨fun inside => outside (unchanged.clear id there inside), items, same, ?_⟩
      intro name
      have member := each name
      generalize members name = deep at member ⊢
      generalize value : memberOf (getItem name items) = stored at member ⊢
      cases member with
      | none => exact Option.Rel.none
      | some read =>
          obtain ⟨entry, present, equal, notNull⟩ := member_some value
          apply Option.Rel.some
          apply reads_value_step unchanged _ notNull _ read
          · intro id' live live' members' read'
            exact ih live live' read'
          · intro referred pointee
            rw [← equal] at pointee
            exact ⟨entry_live unchanged.before there found present referred pointee,
              entry_live unchanged.behind stays same present referred pointee⟩

theorem reads_value_unchanged (unchanged : Unchanged state after heap heap' avoid avoid')
    {depth : Nat} {value : Value} {deep : Deep} (notNull : NotNull value)
    (inside : ∀ id ∈ pointees value, state.ref id ≠ 0 ∧ after.ref id ≠ 0)
    (read : ReadsValue heap avoid (ReadsObject heap avoid depth) value deep) :
    ReadsValue heap' avoid' (ReadsObject heap' avoid' depth) value deep :=
  reads_value_step unchanged
    (fun _ live live' _ read => reads_object_kept unchanged depth live live' read) notNull inside read

end Stability

end Mgw.DataNodes

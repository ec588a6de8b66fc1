import Mgw.DataNodesApply

/-!
# An object along the calls of a program

A program creates objects and arrays, holds references to them and calls what it likes on
those that it holds. Each object stays the sorted map of the values that its names were
last given, whatever is inserted, moved, shared or released meanwhile.
-/

namespace Mgw.DataNodes

open DataItems DataValues LinkedCells RefCounts

set_option autoImplicit false

inductive Call where
  | createData
  | createArray
  | addref (id : Nat)
  | release (id : Nat)
  | set (data : Nat) (name : Name) (value : Value)
  | erase (data : Nat) (name : Name)
  | apply (target apply_data : Nat)
  | getObj (data : Nat) (name : Name)
  | getArray (data : Nat) (name : Name)
  | pushBack (array obj : Nat)
  | item (array idx : Nat)

namespace State

variable (state : State)

def perform (alloc : Allocator) : Call → Attempt State
  | .createData => do
      let created ← state.createObject alloc (.data none)
      return created.1
  | .createArray => do
      let created ← state.createObject alloc (.array [])
      return created.1
  | .addref id => state.handOut id
  | .release id => state.giveBack id
  | .set data name value => state.dataSet alloc data name value
  | .erase data name => state.dataErase data name
  | .apply target apply_data => state.dataApply alloc alloc.stack target apply_data
  | .getObj data name => state.getReference objGetter data name
  | .getArray data name => state.getReference arrayGetter data name
  | .pushBack array obj => state.arrayPushBack array obj
  | .item array idx => state.arrayItem array idx

def isData (id : Nat) : Bool :=
  match state.contents id with
  | .data _ => true
  | .array _ => false

/-- A pointer that the program may pass: null, or to what it holds a reference to. -/
def Passes (kind : Bool) (id : Nat) : Prop := id = 0 ∨ 0 < state.held id ∧ state.isData id = kind

/-- The calls that a program may make. -/
def Usable : Call → Prop
  | .createData => True
  | .createArray => True
  | .addref id => 0 < state.held id
  | .release id => 0 < state.held id
  | .set data _ value =>
      state.Passes true data ∧ (∀ id ∈ pointees value, 0 < state.held id) ∧
        HasKind state.isData value
  | .erase data _ => state.Passes true data
  | .apply target apply_data => state.Passes true target ∧ state.Passes true apply_data
  | .getObj data _ => state.Passes true data
  | .getArray data _ => state.Passes true data
  | .pushBack array obj => state.Passes false array ∧ state.Passes true obj
  | .item array _ => state.Passes false array

end State

abbrev Values := Name → Option Value

def Holding.values : Holding → Values
  | .data items => fun name => (getItem name items).map Entry.value
  | .array _ => fun _ => none

/-- The value of a name that is applied to another object. -/
def Holding.applied (holding : Holding) (name : Name) : Option Value :=
  (holding.values name).filter fun value => NotNull value

/-- What a call makes of the values of an object. What is copied from an object that is
applied shares nothing with what the program holds. -/
def Effect (state : State) (data : Nat) (heap heap' : Heap) (call : Call) (values values' : Values) :
    Prop :=
  match call with
  | .set target name value =>
      values' = if target = data then Function.update values name (some value) else values
  | .erase target name =>
      values' = if target = data then Function.update values name none else values
  | .apply target apply_data =>
      if target = data ∧ apply_data ≠ 0 ∧ apply_data ≠ data then
        ∀ name, Merged heap heap' (data = ·) (0 < state.held ·) ((heap apply_data).applied name)
          (values name) (values' name)
      else values' = values
  | _ => values' = values

/-- A call gives up only where what it applies is nested deeper than the stack allows, or
comes back to the target. -/
def MayAbort (alloc : Allocator) (heap : Heap) : Call → Prop
  | .apply target apply_data =>
      ¬∃ members, ReadsObject heap (target = ·) alloc.stack apply_data members
  | _ => False

/-- What a call leaves, for everything that was held. -/
structure Performed (state after : State) (heap heap' : Heap) (call : Call) : Prop where
  good : Good after heap' [] []
  kinds : ∀ id, 0 < state.held id → kindsOf heap' id = kindsOf heap id
  effect : ∀ data, 0 < state.held data →
    Effect state data heap heap' call (heap data).values (heap' data).values

section Steps

variable {state after : State} {heap heap' : Heap} {call : Call} {data : Nat}

theorem is_data_shown (good : Good state heap [] []) {id : Nat} (live : state.ref id ≠ 0) :
    state.isData id = kindsOf heap id := by
  have shown := good.shown id live
  unfold State.isData kindsOf
  cases found : heap id with
  | data items =>
      rw [found] at shown
      rw [show state.contents id = _ from Listed.first shown]
      rfl
  | array objects =>
      rw [found] at shown
      rw [show state.contents id = _ from shown]
      rfl

/-- What is passed and not null is held and of its kind. -/
theorem passed {kind : Bool} {id : Nat} (good : Good state heap [] []) (passes : state.Passes kind id)
    (notNull : id ≠ 0) : 0 < state.held id ∧ kindsOf heap id = kind := by
  obtain ⟨held, same⟩ := passes.resolve_left notNull
  refine ⟨held, ?_⟩
  rw [← same, is_data_shown good (owned_live good.balanced held)]

/-- A call that leaves every object and array as it was. -/
theorem performed_same (good : Good after heap [] [])
    (effect : ∀ data, 0 < state.held data →
      Effect state data heap heap call (heap data).values (heap data).values) :
    Performed state after heap heap call :=
  ⟨good, fun _ _ => rfl, effect⟩

/-- A call that changes one object or array. -/
theorem performed_update {owner : Nat} {holding : Holding}
    (good : Good after (Function.update heap owner holding) [] [])
    (kind : holding.isData = (heap owner).isData)
    (own : Effect state owner heap (Function.update heap owner holding) call (heap owner).values
      holding.values)
    (others : ∀ other, other ≠ owner → ∀ values,
      Effect state other heap (Function.update heap owner holding) call values values) :
    Performed state after heap (Function.update heap owner holding) call where
  good := good
  kinds := fun id _ => by rw [kinds_update kind]
  effect := by
    intro other _
    by_cases same : other = owner
    · rw [same, Function.update_self]
      exact own
    · rw [Function.update_of_ne same]
      exact others other same _

theorem perform_created (alloc : Allocator) (good : Good state heap [] []) {contents : Contents}
    (holding : Holding) (empty : holding.refs = []) (typed : ∀ kinds, holding.Typed kinds)
    (shown : ∀ (after : State) (id : Nat), after.contents id = contents → holding.Shown after id)
    (unchanged : ∀ data heap heap' values, Effect state data heap heap' call values values) :
    (state.createObject alloc contents >>= fun created => Attempt.done created.1).Returns False
      fun after => ∃ heap', Performed state after heap heap' call := by
  apply Attempt.returns_bind (create_object alloc good empty typed shown)
  rintro ⟨after, id⟩ created
  have different : ∀ other, 0 < state.held other → other ≠ id := by
    intro other held same
    rw [same, created.unheld] at held
    exact Nat.lt_irrefl 0 held
  refine ⟨_, created.good, ?_, ?_⟩
  · intro other held
    rw [kindsOf, Function.update_of_ne (different other held), kindsOf]
  · intro data held
    rw [Function.update_of_ne (different data held)]
    exact unchanged data _ _ _

theorem perform_set (alloc : Allocator) (good : Good state heap [] []) {name : Name}
    {value : Value} (usable : state.Usable (.set data name value)) :
    (state.dataSet alloc data name value).Returns False fun after =>
      ∃ heap', Performed state after heap heap' (.set data name value) := by
  obtain ⟨passes, owned, kind⟩ := usable
  by_cases null : data = 0
  · rw [State.dataSet, State.setItem, if_pos null]
    refine ⟨heap, performed_same good fun other held => ?_⟩
    have different : data ≠ other := by
      rw [null]
      exact Ne.symm (held_not_null good held)
    exact (if_neg different).symm
  · obtain ⟨held, isData⟩ := passed good passes null
    obtain ⟨items, found⟩ := is_data isData
    have kind' : HasKind (kindsOf heap) value := by
      apply kind_congr kind
      intro id member
      rw [is_data_shown good (owned_live good.balanced (owned id member))]
    apply Attempt.returns_mono (data_set alloc good held found name owned kind')
    rintro after ⟨items', done⟩
    refine ⟨_, performed_update done.good ?_ ?_ fun other different values => ?_⟩
    · rw [found]
      rfl
    · rw [found]
      change (Holding.data items').values = if data = data then _ else _
      rw [if_pos rfl]
      funext other
      change (getItem other items').map Entry.value = _
      rw [done.found other, Function.update_apply]
      rfl
    · exact (if_neg (Ne.symm different)).symm

theorem perform_erase (good : Good state heap [] []) {name : Name}
    (usable : state.Usable (.erase data name)) :
    (state.dataErase data name).Returns False fun after =>
      ∃ heap', Performed state after heap heap' (.erase data name) := by
  by_cases null : data = 0
  · rw [State.dataErase, State.getItem, if_pos null]
    refine ⟨heap, performed_same good fun other held => ?_⟩
    have different : data ≠ other := by
      rw [null]
      exact Ne.symm (held_not_null good held)
    exact (if_neg different).symm
  · obtain ⟨held, isData⟩ := passed good usable null
    obtain ⟨items, found⟩ := is_data isData
    obtain ⟨after, items', result, done⟩ := data_erase good held found name
    rw [result]
    refine ⟨_, performed_update done.good ?_ ?_ fun other different values => ?_⟩
    · rw [found]
      rfl
    · rw [found]
      change (Holding.data items').values = if data = data then _ else _
      rw [if_pos rfl]
      funext other
      change (getItem other items').map Entry.value = _
      rw [done.found other, Function.update_apply]
      split_ifs
      · rfl
      · rfl
    · exact (if_neg (Ne.symm different)).symm

theorem perform_apply (alloc : Allocator) (good : Good state heap [] []) {apply_data : Nat}
    (usable : state.Usable (.apply data apply_data)) :
    (state.dataApply alloc alloc.stack data apply_data).Returns
      (MayAbort alloc heap (.apply data apply_data)) fun after =>
        ∃ heap', Performed state after heap heap' (.apply data apply_data) := by
  by_cases nothing : data = 0 ∨ apply_data = 0 ∨ data = apply_data
  · cases enough : alloc.stack with
    | zero =>
        rintro ⟨members, read⟩
        rw [enough] at read
        exact read
    | succ frames =>
        rw [State.dataApply, if_pos nothing]
        refine ⟨heap, performed_same good fun other held => ?_⟩
        have notHere : ¬(data = other ∧ apply_data ≠ 0 ∧ apply_data ≠ other) := by
          rintro ⟨same, notNull, different⟩
          rcases nothing with null | null | equal
          · exact held_not_null good held (same.symm.trans null)
          · exact notNull null
          · exact different (equal.symm.trans same)
        change if _ then _ else _
        rw [if_neg notHere]
  · rw [not_or, not_or] at nothing
    obtain ⟨notNull, notNullSrc, different⟩ := nothing
    obtain ⟨held, isData⟩ := passed good usable.1 notNull
    obtain ⟨heldSrc, isSrc⟩ := passed good usable.2 notNullSrc
    obtain ⟨items, found⟩ := is_data isData
    obtain ⟨others, foundSrc⟩ := is_data isSrc
    apply Attempt.returns_mono
      (data_apply good held found heldSrc foundSrc (Ne.symm different))
    rintro after ⟨heap', items', applied⟩
    refine ⟨heap', applied.good, ?_, ?_⟩
    · intro id heldId
      by_cases same : id = data
      · rw [same, kindsOf, kindsOf, applied.own, found]
        rfl
      · rw [kindsOf, applied.same id heldId same, kindsOf]
    · intro other heldOther
      change if _ then _ else _
      by_cases same : other = data
      · rw [same, if_pos ⟨rfl, notNullSrc, Ne.symm different⟩, applied.own, found, foundSrc]
        exact applied.found
      · rw [if_neg fun here => same here.1.symm, applied.same other heldOther same]

/-- What a getter answers where this is the value. -/
def answer {α : Type} (getter : Getter α) (value : Option Value) : α :=
  match value with
  | none => getter.nothing
  | some value => if value.type = getter.type then getter.payload value else getter.nothing

theorem get_answer {α : Type} (good : Good state heap [] []) (held : 0 < state.held data)
    (isData : kindsOf heap data = true) (getter : Getter α) (name : Name) :
    state.dataGet getter data name = .done (answer getter ((heap data).values name)) := by
  obtain ⟨items, found⟩ := is_data isData
  have listed := good_listed good (owned_live good.balanced held) found
  rw [State.dataGet, get_entry good held found, Attempt.bind_done, found]
  cases present : getItem name items with
  | none =>
      rw [show (Holding.data items).values name = none from congrArg (Option.map _) present]
      rfl
  | some entry =>
      obtain ⟨next, here⟩ := listed_cell listed (get_member present)
      rw [show (Holding.data items).values name = some entry.value from
        congrArg (Option.map _) present]
      change (state.load entry.addr >>= _) = _
      rw [load_here here, Attempt.bind_done,
        holds_answer getter (listed.each _ (get_member present)).holds, Attempt.read_some]
      rfl

/-- A pointer that a getter answers is one that the object holds. -/
theorem answer_live (good : Good state heap [] []) (held : 0 < state.held data) {name : Name}
    (getter : Getter UInt64) (nothing : getter.nothing = 0)
    (points : ∀ value, getter.payload value ≠ 0 → (getter.payload value).toNat ∈ pointees value) :
    (answer getter ((heap data).values name)).toNat = 0 ∨
      state.ref (answer getter ((heap data).values name)).toNat ≠ 0 := by
  cases found : (heap data).values name with
  | none =>
      left
      rw [answer, nothing]
      rfl
  | some value =>
      rw [answer]
      split_ifs
      · by_cases null : getter.payload value = 0
        · left
          rw [null]
          rfl
        · right
          cases holding : heap data with
          | data items =>
              rw [holding] at found
              obtain ⟨entry, present, same⟩ := Option.map_eq_some_iff.mp found
              apply entry_live good (owned_live good.balanced held) holding present
              rw [same]
              exact points value null
          | array objects =>
              rw [holding] at found
              contradiction
      · left
        rw [nothing]
        rfl

theorem obj_points (value : Value) (notNull : objGetter.payload value ≠ 0) :
    (objGetter.payload value).toNat ∈ pointees value := by
  cases value with
  | object obj => exact pointee_object notNull
  | _ => exact absurd rfl notNull

theorem array_points (value : Value) (notNull : arrayGetter.payload value ≠ 0) :
    (arrayGetter.payload value).toNat ∈ pointees value := by
  cases value with
  | array arr => exact pointee_array notNull
  | _ => exact absurd rfl notNull

theorem perform_get (good : Good state heap [] []) (passes : state.Passes true data) (name : Name)
    (getter : Getter UInt64) (nothing : getter.nothing = 0)
    (points : ∀ value, getter.payload value ≠ 0 → (getter.payload value).toNat ∈ pointees value) :
    ∃ after, state.getReference getter data name = .done after ∧ Good after heap [] [] := by
  by_cases null : data = 0
  · refine ⟨state, ?_, good⟩
    rw [State.getReference, State.dataGet, State.getItem, if_pos null]
    change state.handOut getter.nothing.toNat = _
    rw [nothing]
    rfl
  · obtain ⟨held, isData⟩ := passed good passes null
    obtain ⟨after, result, good', -⟩ := hand_out good (answer_live good held getter nothing points)
    refine ⟨after, ?_, good'⟩
    rw [State.getReference, get_answer good held isData getter name, Attempt.bind_done]
    exact result

theorem perform_push (good : Good state heap [] []) {array obj : Nat}
    (usable : state.Usable (.pushBack array obj)) :
    ∃ after heap', state.arrayPushBack array obj = .done after ∧
      Performed state after heap heap' (.pushBack array obj) := by
  by_cases null : array = 0 ∨ obj = 0
  · rw [State.arrayPushBack, if_pos null]
    exact ⟨state, heap, rfl, performed_same good fun _ _ => rfl⟩
  · rw [not_or] at null
    obtain ⟨held, isArray⟩ := passed good usable.1 null.1
    obtain ⟨heldObj, isData⟩ := passed good usable.2 null.2
    obtain ⟨objects, found⟩ := is_array isArray
    obtain ⟨after, result, good', -⟩ := array_push_back good (owned_live good.balanced held) found
      (owned_live good.balanced heldObj) isData
    refine ⟨after, _, result, performed_update good' ?_ ?_ fun _ _ _ => rfl⟩
    · rw [found]
      rfl
    · rw [found]
      rfl

theorem perform_item (good : Good state heap [] []) {array : Nat} (idx : Nat)
    (passes : state.Passes false array) :
    ∃ after, state.arrayItem array idx = .done after ∧ Good after heap [] [] := by
  by_cases null : array = 0
  · rw [State.arrayItem, if_pos null]
    exact ⟨state, rfl, good⟩
  · obtain ⟨held, isArray⟩ := passed good passes null
    obtain ⟨objects, found⟩ := is_array isArray
    have live := owned_live good.balanced held
    have entry : (objects[idx]?).getD 0 = 0 ∨ state.ref ((objects[idx]?).getD 0) ≠ 0 := by
      cases here : objects[idx]? with
      | none => exact Or.inl rfl
      | some obj =>
          right
          apply held_by good live
          rw [found]
          exact List.mem_of_getElem? here
    obtain ⟨after, result, good', -⟩ := hand_out good entry
    refine ⟨after, ?_, good'⟩
    rw [State.arrayItem, if_neg null, objects_here good live found, Attempt.bind_done]
    exact result

/-- What any call leaves that a program may make. -/
theorem perform_effect (alloc : Allocator) (good : Good state heap [] []) (usable : state.Usable call) :
    (state.perform alloc call).Returns (MayAbort alloc heap call) fun after =>
      ∃ heap', Performed state after heap heap' call := by
  cases call with
  | createData =>
      exact perform_created alloc good (.data []) rfl (fun _ => nofun)
        (fun _ _ begins => ⟨begins, trivial, List.Pairwise.nil, nofun⟩) fun _ _ _ _ => rfl
  | createArray =>
      exact perform_created alloc good (.array []) rfl (fun _ => nofun)
        (fun _ _ begins => begins) fun _ _ _ _ => rfl
  | addref id =>
      obtain ⟨after, result, good', -⟩ :=
        hand_out good (Or.inr (owned_live good.balanced usable))
      rw [State.perform, result]
      exact ⟨heap, performed_same good' fun _ _ => rfl⟩
  | release id =>
      obtain ⟨after, result, good', -⟩ := give_back good usable
      rw [State.perform, result]
      exact ⟨heap, performed_same good' fun _ _ => rfl⟩
  | set data name value => exact perform_set alloc good usable
  | erase data name => exact perform_erase good usable
  | apply target apply_data => exact perform_apply alloc good usable
  | getObj data name =>
      obtain ⟨after, result, good'⟩ := perform_get good usable name objGetter rfl obj_points
      rw [State.perform, result]
      exact ⟨heap, performed_same good' fun _ _ => rfl⟩
  | getArray data name =>
      obtain ⟨after, result, good'⟩ := perform_get good usable name arrayGetter rfl array_points
      rw [State.perform, result]
      exact ⟨heap, performed_same good' fun _ _ => rfl⟩
  | pushBack array obj =>
      obtain ⟨after, heap', result, performed⟩ := perform_push good usable
      rw [State.perform, result]
      exact ⟨heap', performed⟩
  | item array idx =>
      obtain ⟨after, result, good'⟩ := perform_item good idx usable
      rw [State.perform, result]
      exact ⟨heap, performed_same good' fun _ _ => rfl⟩

end Steps

/-- The list of the object is in the order of its names, and getters answer the values. -/
structure IsMap (state : State) (data : Nat) (values : Values) : Prop where
  listed : ∃ first items, state.firstItem data = .done first ∧
    walk state.nodes state.space first = some items ∧
    items.Pairwise (fun item other => item.2.name < other.2.name) ∧
    (∀ item ∈ items, item.2.parent = some data) ∧
    ∀ name, values name ≠ none ↔ ∃ item ∈ items, item.2.name = name
  answers : ∀ {α : Type} (getter : Getter α) (name : Name),
    state.dataGet getter data name = .done (answer getter (values name))

/-- Along calls of which each is one that the program may make, the object is the map of
its values, and the values change as the calls say, as long as the object is held. -/
def MapAlong (data : Nat) : State → Heap → Values → List (Allocator × Call) → Prop
  | state, _, values, [] => IsMap state data values
  | state, heap, values, (alloc, call) :: calls =>
      IsMap state data values ∧ (state.Usable call →
        (state.perform alloc call).Returns (MayAbort alloc heap call) fun after =>
          0 < after.held data → ∃ heap' values', Good after heap' [] [] ∧
            Effect state data heap heap' call values values' ∧ MapAlong data after heap' values' calls)

/-- The states that a program comes to. -/
inductive Reached : State → Prop where
  | begins : Reached initial
  | performed {state after : State} {alloc : Allocator} {call : Call} :
      Reached state → state.Usable call → state.perform alloc call = .done after → Reached after

section Runs

variable {state after : State} {heap : Heap} {data : Nat}

theorem is_map (good : Good state heap [] []) (held : 0 < state.held data)
    (isData : kindsOf heap data = true) : IsMap state data (heap data).values := by
  obtain ⟨items, found⟩ := is_data isData
  have live := owned_live good.balanced held
  have listed := good_listed good live found
  refine ⟨⟨_, cellsOf items, first_item live listed,
    walk_chained listed.chained (listed_length good.bounded listed), ?_, ?_, ?_⟩, get_answer good held isData⟩
  · apply List.pairwise_map.mpr
    apply List.Pairwise.imp_of_mem _ listed.sorted
    intro item other member member' less
    change item.2.node.name < other.2.node.name
    rw [(listed.each item member).name, (listed.each other member').name]
    exact less
  · intro cell member
    obtain ⟨item, itemMember, same⟩ := List.mem_map.mp member
    rw [← same]
    exact (listed.each item itemMember).parent
  · intro name
    rw [found]
    change (getItem name items).map Entry.value ≠ none ↔ _
    rw [ne_eq, Option.map_eq_none_iff, get_absent]
    push Not
    constructor
    · rintro ⟨item, member, same⟩
      refine ⟨(item.2.addr, item.2.node), List.mem_map_of_mem member, ?_⟩
      exact (listed.each item member).name.trans same
    · rintro ⟨cell, member, same⟩
      obtain ⟨item, itemMember, equal⟩ := List.mem_map.mp member
      rw [← equal] at same
      exact ⟨item, itemMember, (listed.each item itemMember).name.symm.trans same⟩

theorem initial_good : Good initial (fun _ => .array []) [] [] where
  balanced := by
    refine ⟨fun id => ?_, fun _ _ => rfl, fun _ live => absurd rfl live⟩
    rw [holders]
    rfl
  shown := fun _ live => absurd rfl live
  typed := fun _ live => absurd rfl live
  bounded := nofun
  null := rfl
  small := Nat.zero_le _

theorem reached_good (reached : Reached state) : ∃ heap, Good state heap [] [] := by
  induction reached with
  | begins => exact ⟨_, initial_good⟩
  | @performed state after alloc call _ usable result ih =>
      obtain ⟨heap, good⟩ := ih
      have returns := perform_effect alloc good usable
      rw [result] at returns
      obtain ⟨heap', performed⟩ := returns
      exact ⟨heap', performed.good⟩

theorem map_along (good : Good state heap [] []) (held : 0 < state.held data)
    (isData : kindsOf heap data = true) (calls : List (Allocator × Call)) :
    MapAlong data state heap (heap data).values calls := by
  induction calls generalizing state heap with
  | nil => exact is_map good held isData
  | cons step calls ih =>
      refine ⟨is_map good held isData, fun usable => ?_⟩
      apply Attempt.returns_mono (perform_effect step.1 good usable)
      rintro after ⟨heap', performed⟩ stillHeld
      exact ⟨heap', _, performed.good, performed.effect data held,
        ih performed.good stillHeld ((performed.kinds data held).trans isData)⟩

end Runs

section Programs

instance (state : State) (kind : Bool) (id : Nat) : Decidable (state.Passes kind id) :=
  inferInstanceAs (Decidable (id = 0 ∨ 0 < state.held id ∧ state.isData id = kind))

instance (kinds : Nat → Bool) (value : Value) : Decidable (HasKind kinds value) :=
  match value with
  | .string _ => inferInstanceAs (Decidable True)
  | .number _ _ => inferInstanceAs (Decidable True)
  | .boolean _ => inferInstanceAs (Decidable True)
  | .object obj => inferInstanceAs (Decidable (obj = 0 ∨ kinds obj.toNat = true))
  | .array arr => inferInstanceAs (Decidable (arr = 0 ∨ kinds arr.toNat = false))

instance (state : State) (call : Call) : Decidable (state.Usable call) :=
  match call with
  | .createData => inferInstanceAs (Decidable True)
  | .createArray => inferInstanceAs (Decidable True)
  | .addref id => inferInstanceAs (Decidable (0 < state.held id))
  | .release id => inferInstanceAs (Decidable (0 < state.held id))
  | .set data _ value =>
      inferInstanceAs (Decidable (state.Passes true data ∧
        (∀ id ∈ pointees value, 0 < state.held id) ∧ HasKind state.isData value))
  | .erase data _ => inferInstanceAs (Decidable (state.Passes true data))
  | .apply target apply_data =>
      inferInstanceAs (Decidable (state.Passes true target ∧ state.Passes true apply_data))
  | .getObj data _ => inferInstanceAs (Decidable (state.Passes true data))
  | .getArray data _ => inferInstanceAs (Decidable (state.Passes true data))
  | .pushBack array obj =>
      inferInstanceAs (Decidable (state.Passes false array ∧ state.Passes true obj))
  | .item array _ => inferInstanceAs (Decidable (state.Passes false array))

/-- Calls in turn, as far as the program may make them. -/
def performAll (alloc : Allocator) : State → List Call → Attempt State
  | state, [] => .done state
  | state, call :: calls =>
      if state.Usable call then state.perform alloc call >>= fun after => performAll alloc after calls
      else .stuck

theorem perform_all_reached {alloc : Allocator} {calls : List Call} {state after : State}
    (reached : Reached state) (ran : performAll alloc state calls = .done after) : Reached after := by
  induction calls generalizing state with
  | nil =>
      rw [← Attempt.done.inj ran]
      exact reached
  | cons call calls ih =>
      rw [performAll] at ran
      split_ifs at ran with usable
      obtain ⟨middle, first, rest⟩ := Attempt.bind_eq_done ran
      exact ih (.performed reached usable first) rest

/-- Addresses in turn, and every item that grows moves. -/
def bump : Allocator where
  stack := 2
  object state :=
    let id := max state.count 1
    if 0 < id ∧ id < 2 ^ 64 ∧ state.ref id = 0 then some id else none
  node state := if (state.nodes state.space).isNone then some state.space else none
  moved state _ := if (state.nodes state.space).isNone then some state.space else none
  fresh _ _ := 0
  object_new := by
    intro state id answer
    dsimp only at answer
    split_ifs at answer with free
    rw [← Option.some.inj answer]
    exact free
  node_new := by
    intro state addr answer
    split_ifs at answer with free
    rw [← Option.some.inj answer]
    exact Option.isNone_iff_eq_none.mp free
  moved_new := by
    intro state old addr answer
    split_ifs at answer with free
    rw [← Option.some.inj answer]
    exact Or.inr (Option.isNone_iff_eq_none.mp free)

def letter (byte : UInt8) (filled : byte ≠ 0) : Name where
  bytes := [byte]
  ended := fun member => filled (List.mem_singleton.mp member).symm

/-- An object with another one in it. -/
def nested : List Call :=
  [.createData, .set 1 (letter 98 (by decide)) (.boolean true),
    .set 1 (letter 97 (by decide)) (.boolean false),
    .set 1 (letter 98 (by decide)) (.string (letter 99 (by decide))),
    .createData, .set 2 (letter 100 (by decide)) (.object 1), .release 1]

example : (performAll bump initial (nested ++ [.createData, .apply 3 2]) >>= fun state =>
    state.dataGet stringGetter 4 (letter 98 (by decide))) = .done [99] := by decide +kernel

theorem nested_reached : ∃ state, Reached state ∧ performAll bump initial nested = .done state ∧
    0 < state.held 2 ∧ state.isData 2 = true := by
  have runs : (performAll bump initial nested >>= fun state =>
      Attempt.done (0 < state.held 2 ∧ state.isData 2 = true : Bool)) = .done true := by decide +kernel
  obtain ⟨state, ran, holds⟩ := Attempt.bind_eq_done runs
  exact ⟨state, perform_all_reached .begins ran, ran, of_decide_eq_true (Attempt.done.inj holds)⟩

end Programs

section Results

variable {state after : State} {data : Nat}

/-- In every state that is reached the reference counts are exact, and no call that the
program may make reads or writes what is not there. -/
theorem references_counted (reached : Reached state) :
    (∀ id, state.ref id = state.held id + holders state.out state.ref state.count id) ∧
      ∀ alloc call, state.Usable call → state.perform alloc call ≠ .stuck := by
  obtain ⟨heap, good⟩ := reached_good reached
  have same : ∀ id, state.ref id ≠ 0 → state.out id = outOf heap id :=
    fun id live => out_shown good.bounded (good.shown id live)
  constructor
  · intro id
    have counted := good.balanced.counted id
    rw [List.count_nil] at counted
    rw [holders_out_congr same]
    omega
  · intro alloc call usable stuck
    have returns := perform_effect alloc good usable
    rw [stuck] at returns
    exact returns

theorem references_counted_nested : ∃ state, performAll bump initial nested = .done state ∧
    (∀ id, state.ref id = state.held id + holders state.out state.ref state.count id) ∧
      ∀ alloc call, state.Usable call → state.perform alloc call ≠ .stuck := by
  obtain ⟨state, reached, ran, -⟩ := nested_reached
  exact ⟨state, ran, references_counted reached⟩

/-- A copy that is made with `mgw_data_apply` reads as the object, all the way down, and
shares nothing with anything that was there. -/
theorem copies_are_deep (alloc : Allocator) {obj : Nat} (reached : Reached state)
    (held : 0 < state.held obj) (isData : state.isData obj = true) :
    ∃ heap, Good state heap [] [] ∧
      (state.copyOf (State.dataApply alloc alloc.stack) alloc obj).Returns
        (¬∃ members, ReadsObject heap (fun _ => False) alloc.stack obj members) fun made =>
          ∃ heap', Good made.1 heap' [] [] ∧ (∀ id, state.ref id ≠ 0 → heap' id = heap id) ∧
            ∀ depth members, ReadsObject heap (fun _ => False) depth obj members →
              ReadsObject heap' (state.ref · ≠ 0) depth made.2 members := by
  obtain ⟨heap, good⟩ := reached_good reached
  have live := owned_live good.balanced held
  rw [is_data_shown good live] at isData
  obtain ⟨items, found⟩ := is_data isData
  refine ⟨heap, good, ?_⟩
  apply Attempt.returns_mono (made_object alloc (data_apply_empty alloc alloc.stack) good live found
    fun id inside => inside.resolve_left not_false)
  rintro made ⟨heap', made', -, reads⟩
  exact ⟨heap', made'.good, made'.others, reads⟩

theorem copies_are_deep_nested : ∃ state heap, performAll bump initial nested = .done state ∧
    Good state heap [] [] ∧
      (state.copyOf (State.dataApply bump bump.stack) bump 2).Returns
        (¬∃ members, ReadsObject heap (fun _ => False) bump.stack 2 members) fun made =>
          ∃ heap', Good made.1 heap' [] [] ∧ (∀ id, state.ref id ≠ 0 → heap' id = heap id) ∧
            ∀ depth members, ReadsObject heap (fun _ => False) depth 2 members →
              ReadsObject heap' (state.ref · ≠ 0) depth made.2 members := by
  obtain ⟨state, reached, ran, held, isData⟩ := nested_reached
  obtain ⟨heap, good, copied⟩ := copies_are_deep bump reached held isData
  exact ⟨state, heap, ran, good, copied⟩

/-- An object that is created is the sorted map of what it is given, along every sequence
of calls on this and other objects. -/
theorem data_is_sorted_map {alloc : Allocator} (reached : Reached state)
    (created : state.createObject alloc (.data none) = .done (after, data))
    (calls : List (Allocator × Call)) :
    ∃ heap, Good after heap [] [] ∧ MapAlong data after heap (fun _ => none) calls := by
  obtain ⟨heap, good⟩ := reached_good reached
  have returns := @create_object state heap alloc good (.data none) (.data []) rfl
    (fun _ => nofun) (fun _ _ begins => ⟨begins, trivial, List.Pairwise.nil, nofun⟩)
  rw [created] at returns
  have fresh : Created state after heap data (.data []) := returns
  refine ⟨_, fresh.good, ?_⟩
  have held : 0 < after.held data := by
    rw [fresh.held, Function.update_self]
    exact Nat.one_pos
  have isData : kindsOf (Function.update heap data (.data [])) data = true := by
    rw [kindsOf, Function.update_self]
    rfl
  have along := map_along fresh.good held isData calls
  rw [Function.update_self] at along
  exact along

theorem data_is_sorted_map_applied : ∃ state after heap, performAll bump initial nested = .done state ∧
    state.createObject bump (.data none) = .done (after, 3) ∧ Good after heap [] [] ∧
      MapAlong 3 after heap (fun _ => none)
        [(bump, .apply 3 2), (bump, .erase 3 (letter 100 (by decide)))] := by
  have runs : (performAll bump initial nested >>= fun state =>
      state.createObject bump (.data none) >>= fun created => Attempt.done created.2) = .done 3 := by
    decide +kernel
  obtain ⟨state, ran, rest⟩ := Attempt.bind_eq_done runs
  obtain ⟨⟨after, data⟩, created, same⟩ := Attempt.bind_eq_done rest
  rw [show data = 3 from Attempt.done.inj same] at created
  obtain ⟨heap, good, along⟩ := data_is_sorted_map (perform_all_reached .begins ran) created
    [(bump, .apply 3 2), (bump, .erase 3 (letter 100 (by decide)))]
  exact ⟨state, after, heap, ran, created, good, along⟩

end Results

end Mgw.DataNodes

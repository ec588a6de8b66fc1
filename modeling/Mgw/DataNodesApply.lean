import Mgw.DataNodesCopies

/-!
# Applying one object to another

The loop of `mgw_data_apply` copies one member after the other. What was copied stays as
it was copied while the others follow, so that in the end each name of the applied object
has the copy of its value, and every other name what it had.
-/

namespace Mgw.DataNodes

open DataItems DataValues LinkedCells RefCounts

set_option autoImplicit false

/-- What a name has behind the copies: the copy of what is applied to it, if anything is. -/
def Merged (heap heap' : Heap) (avoid old : Nat → Prop) (applied before result : Option Value) :
    Prop :=
  match applied with
  | none => result = before
  | some value => ∃ copy, result = some copy ∧ CopyOf heap heap' avoid old value copy

/-- What the loop leaves with the copies of `rest`. -/
structure Applied (state after : State) (heap heap' : Heap) (avoid old : Nat → Prop)
    (target : Nat) (rest items items' : Entries) : Prop where
  good : Good after heap' [] []
  held : after.held = state.held
  own : heap' target = .data items'
  same : ∀ id, 0 < state.held id → id ≠ target → heap' id = heap id
  kept : (∀ item ∈ rest, getItem item.1 items = none) → ∀ id, state.ref id ≠ 0 →
    after.ref id = state.ref id ∧ (id ≠ target → heap' id = heap id)
  lasting : ∀ name value, (getItem name items).map Entry.value = some value →
    getItem name rest = none → NotNull value → ∀ depth deep,
      ReadsValue heap old (ReadsObject heap old depth) value deep →
      ReadsValue heap' old (ReadsObject heap' old depth) value deep
  found : ∀ name, Merged heap heap' avoid old (memberOf (getItem name rest))
    ((getItem name items).map Entry.value) ((getItem name items').map Entry.value)

section Members

variable {heap heap' : Heap} {avoid : Nat → Prop} {depth : Nat} {name : Name} {entry : Entry}
  {items rest : Entries}

theorem member_of_some (notNull : NotNull entry.value) :
    memberOf (some entry) = some entry.value := by
  rw [memberOf, Option.map_some, Option.filter_some, if_pos (decide_eq_true notNull)]

theorem member_of_null (null : ¬NotNull entry.value) : memberOf (some entry) = none := by
  rw [memberOf, Option.map_some, Option.filter_some, if_neg]
  rw [decide_eq_true_iff]
  exact null

/-- Every member of an object that is read is read. -/
theorem reads_member {id : Nat} (isData : heap id = .data items) (sorted : Sorted items)
    {item : Name × Entry} (member : item ∈ items) (notNull : NotNull item.2.value)
    (read : ∃ members, ReadsObject heap avoid (depth + 1) id members) :
    ∃ deep, ReadsValue heap avoid (ReadsObject heap avoid depth) item.2.value deep := by
  obtain ⟨members, -, items', found, each⟩ := read
  rw [isData] at found
  have here := each item.1
  rw [← Holding.data.inj found, get_of_member sorted member, member_of_some notNull] at here
  generalize members item.1 = deep at here
  cases here with
  | some read => exact ⟨_, read⟩

end Members

section Copies

variable {heap middle heap' : Heap} {avoid old : Nat → Prop} {value copy : Value}

/-- What is copied later was the same before. -/
theorem copy_of_before (copyOf : CopyOf middle heap' avoid old value copy)
    (before : ∀ depth deep, ReadsValue heap avoid (ReadsObject heap avoid depth) value deep →
      ReadsValue middle avoid (ReadsObject middle avoid depth) value deep) :
    CopyOf heap heap' avoid old value copy :=
  ⟨copyOf.type, copyOf.notNull, fun depth deep read =>
    copyOf.reads depth deep (before depth deep read)⟩

/-- What was copied stays as it is. -/
theorem copy_of_behind (copyOf : CopyOf heap middle avoid old value copy)
    (behind : ∀ depth deep, ReadsValue middle old (ReadsObject middle old depth) copy deep →
      ReadsValue heap' old (ReadsObject heap' old depth) copy deep) :
    CopyOf heap heap' avoid old value copy :=
  ⟨copyOf.type, copyOf.notNull, fun depth deep read =>
    behind depth deep (copyOf.reads depth deep read)⟩

end Copies

section Loop

variable {state mid : State} {heap middle : Heap} {avoid old : Nat → Prop} {alloc : Allocator}
  {depth target src : Nat} {apply : State → Nat → Nat → Attempt State}
  {items items₁ others before rest : Entries} {item : Name × Entry} {result : Option Value}

theorem copied_unchanged (good : Good state heap [] []) (avoided : avoid target)
    (copied : Copied state mid heap middle target items items₁ item.1 result) :
    Unchanged state mid heap middle avoid avoid where
  before := good
  behind := copied.good
  same := by
    intro id live live' outside
    apply copied.same id live live'
    intro same
    rw [same] at outside
    exact outside avoided
  clear := fun _ _ inside => inside

/-- What is held, and where nothing is replaced what is there, outlasts a copy. -/
theorem copied_live (copied : Copied state mid heap middle target items items₁ item.1 result)
    {id : Nat} (live : state.ref id ≠ 0)
    (stays : 0 < state.held id ∨ ∀ other ∈ item :: rest, getItem other.1 items = none) :
    mid.ref id ≠ 0 := by
  rcases stays with held | absent
  · apply owned_live copied.good.balanced
    rw [copied.held]
    exact held
  · rw [copied.kept (absent item List.mem_cons_self) id live]
    exact live

theorem copied_absent (copied : Copied state mid heap middle target items items₁ item.1 result)
    (fresh : ∀ other ∈ rest, item.1 < other.1)
    (absent : ∀ other ∈ item :: rest, getItem other.1 items = none) :
    ∀ other ∈ rest, getItem other.1 items₁ = none := by
  intro other member
  have found := copied.found other.1
  rw [if_neg (ne_of_gt (fresh other member)), absent other (List.mem_cons_of_mem _ member)] at found
  exact Option.map_eq_none_iff.mp found

/-- The cell of an item is followed by the rest of the list. -/
theorem listed_rest (listed : Listed state src (before ++ item :: rest)) :
    state.nodes item.2.addr = some ⟨item.2.node, firstAddr rest⟩ := by
  have chained := listed.chained
  rw [cells_append] at chained
  exact (chained_append.mp chained).2.1

/-- A value that a list holds before and after a copy reads the same. -/
theorem copied_reads (good : Good state heap [] []) (held : 0 < state.held target)
    (isTarget : heap target = .data items) (avoided : avoid target)
    (copied : Copied state mid heap middle target items items₁ item.1 result) {name : Name}
    {value : Value} (present : (getItem name items).map Entry.value = some value)
    (different : name ≠ item.1) (notNull : NotNull value) {deep : Deep}
    (read : ReadsValue heap avoid (ReadsObject heap avoid depth) value deep) :
    ReadsValue middle avoid (ReadsObject middle avoid depth) value deep := by
  have live := owned_live good.balanced held
  have live' : mid.ref target ≠ 0 := by
    apply owned_live copied.good.balanced
    rw [copied.held]
    exact held
  have found := copied.found name
  rw [if_neg different, present] at found
  obtain ⟨entry, here, equal⟩ := Option.map_eq_some_iff.mp present
  obtain ⟨entry', here', equal'⟩ := Option.map_eq_some_iff.mp found
  apply reads_value_unchanged (copied_unchanged good avoided copied) notNull _ read
  intro id pointee
  constructor
  · rw [← equal] at pointee
    exact entry_live good live isTarget here id pointee
  · rw [← equal'] at pointee
    exact entry_live copied.good live' copied.own here' id pointee

/-- The name that is copied first has its copy in the end. -/
theorem merged_first {heap' : Heap} {known found found' : Option Value}
    (resultOf : ResultOf heap middle avoid old item.2.value result) (set : found = result.or known)
    (stays : found' = found)
    (lasting : ∀ value, found = some value → NotNull value → ∀ depth deep,
      ReadsValue middle old (ReadsObject middle old depth) value deep →
      ReadsValue heap' old (ReadsObject heap' old depth) value deep) :
    Merged heap heap' avoid old (memberOf (some item.2)) known found' := by
  cases result with
  | none =>
      rw [member_of_null resultOf]
      exact stays.trans set
  | some copy =>
      obtain ⟨notNull, copyOf⟩ := resultOf
      rw [member_of_some notNull]
      exact ⟨copy, stays.trans set, copy_of_behind copyOf (lasting copy set copyOf.notNull)⟩

/-- One copy and the copies behind it. -/
theorem applied_cons {after : State} {heap' : Heap} {items' : Entries}
    (good : Good state heap [] []) (held : 0 < state.held target)
    (isTarget : heap target = .data items) (avoided : avoid target) (aged : old target)
    (liveEach : ∀ other ∈ rest, ∀ id ∈ pointees other.2.value,
      state.ref id ≠ 0 ∧ mid.ref id ≠ 0)
    (fresh : ∀ other ∈ rest, item.1 < other.1)
    (copied : Copied state mid heap middle target items items₁ item.1 result)
    (resultOf : ResultOf heap middle avoid old item.2.value result)
    (applied : Applied mid after middle heap' avoid old target rest items₁ items') :
    Applied state after heap heap' avoid old target (item :: rest) items items' := by
  have unchanged := copied_unchanged good avoided copied
  have notAgain : getItem item.1 rest = none :=
    get_absent.mpr fun other member => ne_of_gt (fresh other member)
  refine ⟨applied.good, applied.held.trans copied.held, applied.own, ?_, ?_, ?_, ?_⟩
  · intro id heldId different
    have heldMid : 0 < mid.held id := by
      rw [copied.held]
      exact heldId
    rw [applied.same id heldMid different]
    exact copied.same id (owned_live good.balanced heldId)
      (owned_live copied.good.balanced heldMid) different
  · intro absent id live
    have ref := copied.kept (absent item List.mem_cons_self) id live
    have liveMid : mid.ref id ≠ 0 := by
      rw [ref]
      exact live
    obtain ⟨ref', same⟩ := applied.kept (copied_absent copied fresh absent) id liveMid
    refine ⟨ref'.trans ref, fun different => ?_⟩
    rw [same different, copied.same id live liveMid different]
  · intro name value present absent notNull depth deep read
    rw [getItem] at absent
    split_ifs at absent with here
    have found := copied.found name
    rw [if_neg (Ne.symm here), present] at found
    apply applied.lasting name value found absent notNull depth deep
    exact copied_reads good held isTarget aged copied present (Ne.symm here) notNull read
  · intro name
    have found := copied.found name
    have behind := applied.found name
    rw [getItem]
    split_ifs with here
    · rw [← here] at found behind ⊢
      rw [notAgain] at behind
      rw [if_pos rfl] at found
      exact merged_first resultOf found behind (applied.lasting item.1 · · notAgain)
    · rw [if_neg (Ne.symm here)] at found
      rw [found] at behind
      cases member : memberOf (getItem name rest) with
      | none =>
          rw [member] at behind
          exact behind
      | some value =>
          rw [member] at behind
          obtain ⟨copy, present, copyOf⟩ := behind
          obtain ⟨entry, inside, equal, notNull⟩ := member_some member
          refine ⟨copy, present, copy_of_before copyOf fun depth deep read => ?_⟩
          apply reads_value_unchanged unchanged notNull _ read
          rw [← equal]
          exact liveEach _ (get_member inside)

/-- What the loop needs until its end: nothing is given up, or it is held. -/
def Lasts (state : State) (avoid old : Nat → Prop) (src : Nat) (rest items : Entries) : Prop :=
  (0 < state.held src ∧ ∀ id, avoid id ∨ old id → 0 < state.held id) ∨
    ∀ other ∈ rest, getItem other.1 items = none

theorem copied_lasts (copied : Copied state mid heap middle target items items₁ item.1 result)
    (fresh : ∀ other ∈ rest, item.1 < other.1)
    (lasts : Lasts state avoid old src (item :: rest) items) : Lasts mid avoid old src rest items₁ := by
  rcases lasts with held | absent
  · left
    rw [copied.held]
    exact held
  · exact Or.inr (copied_absent copied fresh absent)

theorem copy_items (alloc : Allocator) (applies : Applies depth apply) {rounds : Nat}
    (good : Good state heap [] []) (held : 0 < state.held target)
    (isTarget : heap target = .data items) (avoided : avoid target) (aged : old target)
    (there : ∀ id, avoid id ∨ old id → state.ref id ≠ 0) (live : state.ref src ≠ 0)
    (isSrc : heap src = .data others) (different : src ≠ target) (parts : others = before ++ rest)
    (enough : rest.length ≤ rounds) (lasts : Lasts state avoid old src rest items) :
    (State.copyItems apply alloc target rounds state (firstAddr rest)).Returns
      (∃ item ∈ rest, NotNull item.2.value ∧
        ¬∃ deep, ReadsValue heap avoid (ReadsObject heap avoid depth) item.2.value deep)
      fun after => ∃ heap' items', Applied state after heap heap' avoid old target rest items items' := by
  induction rest generalizing state heap items before rounds with
  | nil =>
      rw [show firstAddr [] = none from rfl, State.copyItems]
      refine ⟨heap, items, good, rfl, isTarget, fun _ _ _ => rfl, fun _ _ _ => ⟨rfl, fun _ => rfl⟩,
        fun _ _ _ _ _ _ _ read => read, fun name => rfl⟩
  | cons item rest ih =>
      cases rounds with
      | zero => contradiction
      | succ rounds =>
          have member : item ∈ others := by
            rw [parts]
            exact List.mem_append_right _ List.mem_cons_self
          have sorted := (good_listed good live isSrc).sorted
          rw [parts] at sorted
          have fresh := (sorted_cons.mp (List.pairwise_append.mp sorted).2.1).1
          rw [show firstAddr (item :: rest) = some item.2.addr from rfl, State.copyItems]
          have copied := copy_item alloc applies good held isTarget aged there live isSrc member
          apply Attempt.returns_bind (Attempt.returns_abort copied _)
          · rintro mid ⟨middle, items₁, result, copied, resultOf⟩
            have liveMid := copied_live copied live (lasts.imp_left And.left)
            have thereMid : ∀ id, avoid id ∨ old id → mid.ref id ≠ 0 := fun id inside =>
              copied_live copied (there id inside) (lasts.imp_left fun held => held.2 id inside)
            have heldMid : 0 < mid.held target := by
              rw [copied.held]
              exact held
            have isSrcMid := (copied.same src live liveMid different).trans isSrc
            have listed := good_listed copied.good liveMid isSrcMid
            rw [parts] at listed
            have liveEach : ∀ other ∈ item :: rest, ∀ id ∈ pointees other.2.value,
                state.ref id ≠ 0 ∧ mid.ref id ≠ 0 := by
              intro other inside id pointee
              have member : other ∈ others := by
                rw [parts]
                exact List.mem_append_right _ inside
              have referred : id ∈ (Holding.data others).refs := item_pointees member pointee
              constructor
              · apply held_by good live
                rw [isSrc]
                exact referred
              · apply held_by copied.good liveMid
                rw [isSrcMid]
                exact referred
            have tail := ih copied.good heldMid copied.own thereMid liveMid isSrcMid
              (show others = (before ++ [item]) ++ rest by rw [parts, List.append_assoc]; rfl)
              (Nat.le_of_succ_le_succ enough) (copied_lasts copied fresh lasts)
            have tailEach := fun other inside => liveEach other (List.mem_cons_of_mem _ inside)
            rw [load_here (listed_rest listed), Attempt.bind_done]
            apply Attempt.returns_abort (Attempt.returns_mono tail _)
            · rintro ⟨other, inside, notNull, unread⟩
              refine ⟨other, List.mem_cons_of_mem _ inside, notNull, ?_⟩
              rintro ⟨deep, read⟩
              exact unread ⟨deep, reads_value_unchanged (copied_unchanged good avoided copied)
                notNull (tailEach other inside) read⟩
            · rintro after ⟨heap', items', applied⟩
              exact ⟨heap', items',
                applied_cons good held isTarget avoided aged tailEach fresh copied resultOf applied⟩
          · exact fun unread => ⟨item, List.mem_cons_self, unread⟩

end Loop

section Recursion

variable {state : State} {heap : Heap} {avoid old : Nat → Prop} {alloc : Allocator}
  {stack target src : Nat} {items others : Entries}

/-- `mgw_data_apply` where the recursive calls do what they should. -/
theorem apply_step (applies : Applies stack (State.dataApply alloc stack))
    (good : Good state heap [] []) (held : 0 < state.held target)
    (isTarget : heap target = .data items) (avoided : avoid target) (aged : old target)
    (there : ∀ id, avoid id ∨ old id → state.ref id ≠ 0) (live : state.ref src ≠ 0)
    (isSrc : heap src = .data others) (different : src ≠ target)
    (lasts : Lasts state avoid old src others items) :
    (State.dataApply alloc (stack + 1) state target src).Returns
      (∃ item ∈ others, NotNull item.2.value ∧
        ¬∃ deep, ReadsValue heap avoid (ReadsObject heap avoid stack) item.2.value deep)
      fun after => ∃ heap' items', Applied state after heap heap' avoid old target others items items' := by
  have listed := good_listed good live isSrc
  have notNull : src ≠ 0 := by
    intro null
    rw [null] at live
    exact live good.null
  have proceeds : ¬(target = 0 ∨ src = 0 ∨ target = src) := by
    rintro (null | null | same)
    · exact held_not_null good held null
    · exact notNull null
    · exact different same.symm
  have short := listed_length good.bounded listed
  rw [cellsOf, List.length_map] at short
  rw [State.dataApply, if_neg proceeds, first_item live listed, Attempt.bind_done]
  exact copy_items alloc applies good held isTarget avoided aged there live isSrc different
    (List.nil_append others).symm short lasts

/-- The members that are read of the applied object are those of the one that was empty. -/
theorem reads_merged {heap' : Heap} {items' : Entries} {depth : Nat} (isSrc : heap src = .data others)
    (found : ∀ name, Merged heap heap' avoid old (memberOf (getItem name others)) none
      ((getItem name items').map Entry.value))
    {members : Name → Option Deep} (read : ReadsObject heap avoid (depth + 1) src members) :
    ReadsMembers heap' old depth items' members := by
  obtain ⟨-, others', same, each⟩ := read
  rw [isSrc] at same
  rw [← Holding.data.inj same] at each
  intro name
  have member := each name
  have merged := found name
  generalize memberOf (getItem name others) = applied at member merged
  generalize members name = deep at member ⊢
  cases member with
  | none =>
      rw [memberOf, show (getItem name items').map Entry.value = none from merged]
      exact Option.Rel.none
  | some read =>
      obtain ⟨copy, present, copyOf⟩ := merged
      obtain ⟨entry, here, equal⟩ := Option.map_eq_some_iff.mp present
      rw [here, member_of_some (by rw [equal]; exact copyOf.notNull), equal]
      exact Option.Rel.some (copyOf.reads depth _ read)

theorem data_apply_empty (alloc : Allocator) (stack : Nat) :
    Applies stack (State.dataApply alloc stack) := by
  induction stack with
  | zero =>
      intro state heap new src items avoid old _ _ _ _ _ _ _ _ _
      exact fun ⟨members, read⟩ => read
  | succ stack ih =>
      intro state heap new src items avoid old good held isNew live isSrc different avoided aged there
      have lasts : Lasts state avoid old src items [] := Or.inr fun _ _ => rfl
      have applied := apply_step ih good held isNew avoided aged there live isSrc different lasts
      have listed := good_listed good live isSrc
      apply Attempt.returns_abort (Attempt.returns_mono applied _)
      · rintro ⟨item, member, notNull, unread⟩ read
        exact unread (reads_member isSrc listed.sorted member notNull read)
      · rintro after ⟨heap', items', applied⟩
        refine ⟨heap', items', ⟨applied.good, applied.held, applied.own, ?_, ?_⟩, ?_⟩
        · exact fun id live => (applied.kept (fun _ _ => rfl) id live).1
        · exact fun id live => (applied.kept (fun _ _ => rfl) id live).2
        · exact fun depth members read => reads_merged isSrc applied.found read

/-- What `mgw_data_apply` leaves, for two objects that are held. The copies share nothing
with what is held. -/
theorem data_apply (good : Good state heap [] []) (held : 0 < state.held target)
    (isTarget : heap target = .data items) (heldSrc : 0 < state.held src)
    (isSrc : heap src = .data others) (different : src ≠ target) :
    (State.dataApply alloc alloc.stack state target src).Returns
      (¬∃ members, ReadsObject heap (target = ·) alloc.stack src members)
      fun after => ∃ heap' items', Applied state after heap heap' (target = ·) (0 < state.held ·)
        target others items items' := by
  have live := owned_live good.balanced heldSrc
  have lasts : Lasts state (target = ·) (0 < state.held ·) src others items := by
    refine Or.inl ⟨heldSrc, ?_⟩
    rintro id (same | heldId)
    · rw [← same]
      exact held
    · exact heldId
  have there : ∀ id, target = id ∨ 0 < state.held id → state.ref id ≠ 0 := by
    rintro id (same | heldId)
    · rw [← same]
      exact owned_live good.balanced held
    · exact owned_live good.balanced heldId
  cases enough : alloc.stack with
  | zero => exact fun ⟨members, read⟩ => read
  | succ frames =>
      have applied := apply_step (data_apply_empty alloc frames) good held isTarget rfl held there
        live isSrc different lasts
      apply Attempt.returns_abort applied
      rintro ⟨item, member, notNull, unread⟩ read
      exact unread (reads_member isSrc (good_listed good live isSrc).sorted member notNull read)

end Recursion

end Mgw.DataNodes

import Mgw.DataNodesTrees

/-!
# The copy of a member

`copy_item` makes a new object or array for a member that is one, fills it, and hands it
to the target. Nothing else that is there is touched, except by what the target gives up
for it.
-/

namespace Mgw.DataNodes

open DataItems DataValues PackedItem RefCounts

set_option autoImplicit false

/-- The members that are read off a list. -/
def ReadsMembers (heap : Heap) (avoid : Nat → Prop) (depth : Nat) (items : Entries)
    (members : Name → Option Deep) : Prop :=
  ∀ name, Option.Rel (ReadsValue heap avoid (ReadsObject heap avoid depth))
    (memberOf (getItem name items)) (members name)

/-- One object or array grows, and nothing else that was there changes. -/
structure Grown (state after : State) (heap heap' : Heap) (owner : Nat) (holding : Holding) :
    Prop where
  good : Good after heap' [] []
  held : after.held = state.held
  own : heap' owner = holding
  refs : ∀ id, state.ref id ≠ 0 → after.ref id = state.ref id
  others : ∀ id, state.ref id ≠ 0 → id ≠ owner → heap' id = heap id

/-- What is expected of `mgw_data_apply` to an empty object that is held. What is read of
the source without going through `avoid` is read of the copies without going through `old`. -/
def Applies (depth : Nat) (apply : State → Nat → Nat → Attempt State) : Prop :=
  ∀ (state : State) (heap : Heap) (new src : Nat) (items : Entries) (avoid old : Nat → Prop),
    Good state heap [] [] → 0 < state.held new → heap new = .data [] → state.ref src ≠ 0 →
    heap src = .data items → src ≠ new → avoid new → old new →
    (∀ id, avoid id ∨ old id → state.ref id ≠ 0) →
    (apply state new src).Returns
      (¬∃ members, ReadsObject heap avoid depth src members) fun after =>
        ∃ heap' items', Grown state after heap heap' new (.data items') ∧
          ∀ depth members, ReadsObject heap avoid (depth + 1) src members →
            ReadsMembers heap' old depth items' members

/-- A new object or array that only a variable refers to. -/
structure Made (state after : State) (heap heap' : Heap) (new : Nat) : Prop where
  good : Good after heap' [] []
  unused : state.ref new = 0
  unheld : state.held new = 0
  positive : 0 < new
  small : new < 2 ^ 64
  ref : after.ref new = 1
  held : after.held = Function.update state.held new 1
  refs : ∀ id, state.ref id ≠ 0 → after.ref id = state.ref id
  others : ∀ id, state.ref id ≠ 0 → heap' id = heap id

section Making

variable {state after mid : State} {heap heap' : Heap} {avoid old : Nat → Prop} {alloc : Allocator}
  {depth : Nat} {apply : State → Nat → Nat → Attempt State} {new : Nat} {holding : Holding}

theorem new_apart {id : Nat} (unused : state.ref new = 0) (live : state.ref id ≠ 0) : id ≠ new := by
  intro same
  rw [same] at live
  exact live unused

/-- What was created is filled. -/
theorem made_of_grown (created : Created state mid heap new holding) {holding' : Holding}
    (grown : Grown mid after (Function.update heap new holding) heap' new holding') :
    Made state after heap heap' new := by
  have others : ∀ id, state.ref id ≠ 0 → id ≠ new := fun _ live => new_apart created.unused live
  have refs : ∀ id, state.ref id ≠ 0 → mid.ref id = state.ref id := by
    intro id live
    rw [created.ref, Function.update_of_ne (others id live)]
  have one : mid.ref new = 1 := by rw [created.ref, Function.update_self]
  refine ⟨grown.good, created.unused, created.unheld, created.positive, created.small, ?_,
    grown.held.trans created.held, ?_, ?_⟩
  · rw [grown.refs new (by omega), one]
  · intro id live
    rw [← refs id live]
    apply grown.refs
    rw [refs id live]
    exact live
  · intro id live
    have there : mid.ref id ≠ 0 := by
      rw [refs id live]
      exact live
    rw [grown.others id there (others id live), Function.update_of_ne (others id live)]

/-- Readings do not go through what is created. -/
theorem created_unchanged (good : Good state heap [] []) (created : Created state mid heap new holding) :
    Unchanged state mid heap (Function.update heap new holding) avoid
      (fun id => avoid id ∨ id = new) where
  before := good
  behind := created.good
  same := fun _ live _ _ => Function.update_of_ne (new_apart created.unused live) ..
  clear := fun _ live avoided => avoided.resolve_right (new_apart created.unused live)

theorem weaker_unchanged (good : Good state heap [] []) {avoid' : Nat → Prop}
    (weaker : ∀ id, avoid' id → avoid id) : Unchanged state state heap heap avoid avoid' where
  before := good
  behind := good
  same := fun _ _ _ _ => rfl
  clear := fun id _ avoided => weaker id avoided

/-- What is read off the list of a new object is read of the object. -/
theorem reads_filled {items : Entries} {members : Name → Option Deep} (good : Good state heap [] [])
    (live : state.ref new ≠ 0) (isData : heap new = .data items) (outside : ¬avoid new)
    (read : ReadsMembers heap (fun id => avoid id ∨ id = new) depth items members) :
    ReadsObject heap avoid (depth + 1) new members := by
  refine ⟨outside, items, isData, fun name => ?_⟩
  have member := read name
  generalize members name = deep at member ⊢
  generalize value : memberOf (getItem name items) = stored at member ⊢
  cases member with
  | none => exact Option.Rel.none
  | some read =>
      obtain ⟨entry, present, equal, notNull⟩ := member_some value
      apply Option.Rel.some
      apply reads_value_unchanged (weaker_unchanged good fun _ => Or.inl) notNull _ read
      intro id pointee
      rw [← equal] at pointee
      have there := entry_live good live isData present id pointee
      exact ⟨there, there⟩

theorem made_object (alloc : Allocator) (applies : Applies depth apply) (good : Good state heap [] []) {obj : Nat}
    (live : state.ref obj ≠ 0) {items : Entries} (isData : heap obj = .data items)
    (there : ∀ id, avoid id ∨ old id → state.ref id ≠ 0) :
    (state.copyOf apply alloc obj).Returns
      (¬∃ members, ReadsObject heap avoid depth obj members) fun made =>
        ∃ heap', Made state made.1 heap heap' made.2 ∧ kindsOf heap' made.2 = true ∧
          ∀ depth members, ReadsObject heap avoid depth obj members →
            ReadsObject heap' old depth made.2 members := by
  have created := @create_object state heap alloc good (.data none) (.data []) rfl
    (fun _ => nofun) (fun after id begins => ⟨begins, trivial, List.Pairwise.nil, nofun⟩)
  apply Attempt.returns_bind (Attempt.returns_abort created False.elim)
  rintro ⟨mid, new⟩ created
  have unchanged := @created_unchanged _ _ _ avoid _ _ good created
  have notNew : obj ≠ new := new_apart created.unused live
  have outside : ¬old new := fun inside => there new (Or.inr inside) created.unused
  have refs : ∀ id, state.ref id ≠ 0 → mid.ref id ≠ 0 := by
    intro id live
    have ref := created.ref
    dsimp only at ref
    rw [ref, Function.update_of_ne (new_apart created.unused live)]
    exact live
  have one : mid.ref new = 1 := by
    have ref := created.ref
    dsimp only at ref
    rw [ref, Function.update_self]
  have held : 0 < mid.held new := by
    have held := created.held
    dsimp only at held
    rw [held, Function.update_self]
    exact Nat.one_pos
  have applied := applies mid (Function.update heap new (.data [])) new obj items
    (fun id => avoid id ∨ id = new) (fun id => old id ∨ id = new) created.good held
    (Function.update_self ..) (refs obj live) ((Function.update_of_ne notNew ..).trans isData)
    notNew (Or.inr rfl) (Or.inr rfl) (by
      rintro id ((avoided | same) | (inside | same))
      · exact refs id (there id (Or.inl avoided))
      · rw [same, one]
        exact one_ne_zero
      · exact refs id (there id (Or.inr inside))
      · rw [same, one]
        exact one_ne_zero)
  dsimp only
  apply Attempt.returns_bind (Attempt.returns_abort applied _)
  · rintro after ⟨heap', items', grown, reads⟩
    have made := made_of_grown created grown
    refine ⟨heap', made, ?_, ?_⟩
    · change (heap' new).isData = true
      rw [grown.own]
      rfl
    · intro depth members read
      cases depth with
      | zero => exact read.elim
      | succ depth =>
          have kept := reads_object_kept unchanged (depth + 1) live (refs obj live) read
          apply reads_filled made.good _ grown.own outside (reads depth members kept)
          rw [made.ref]
          exact one_ne_zero
  · rintro unread ⟨members, read⟩
    exact unread ⟨members, reads_object_kept unchanged depth live (refs obj live) read⟩

end Making

/-- What `copy_item` leaves: a value for the name, or none. -/
structure Copied (state after : State) (heap heap' : Heap) (target : Nat) (items items' : Entries)
    (name : Name) (result : Option Value) : Prop where
  good : Good after heap' [] []
  held : after.held = state.held
  own : heap' target = .data items'
  same : ∀ id, state.ref id ≠ 0 → after.ref id ≠ 0 → id ≠ target → heap' id = heap id
  kept : getItem name items = none → ∀ id, state.ref id ≠ 0 → after.ref id = state.ref id
  found : ∀ other, (getItem other items').map Entry.value =
    if other = name then result.or ((getItem name items).map Entry.value)
    else (getItem other items).map Entry.value

section Handing

variable {state mid : State} {heap heap' : Heap} {new target : Nat} {items : Entries}
  {value : Value} {alloc : Allocator}

/-- A new object or array is set in the target, and the variable gives it up. -/
theorem hand_over (good : Good state heap [] []) (made : Made state mid heap heap' new)
    (held : 0 < state.held target) (isData : heap target = .data items) (name : Name)
    (single : pointees value = [new]) (kind : HasKind (kindsOf heap') value) :
    (mid.dataSet alloc target name value >>= fun set => set.giveBack new).Returns False
      fun after => ∃ items',
        Copied state after heap (Function.update heap' target (.data items')) target items items'
          name (some value) := by
  have live := owned_live good.balanced held
  have notNew : target ≠ new := new_apart made.unused live
  have heldStill : 0 < mid.held target := by
    rw [made.held, Function.update_of_ne notNew]
    exact held
  have owned : ∀ id ∈ pointees value, 0 < mid.held id := by
    intro id member
    rw [single] at member
    rw [List.mem_singleton.mp member, made.held, Function.update_self]
    exact Nat.one_pos
  apply Attempt.returns_bind
    (data_set alloc made.good heldStill ((made.others target live).trans isData) name owned kind)
  rintro set ⟨items', done⟩
  have heldNew : set.held new = 1 := by
    rw [done.held, made.held, Function.update_self]
  obtain ⟨after, result, good', heldAfter, survives, counted⟩ :=
    @give_back set _ new done.good (by omega)
  rw [result]
  refine ⟨items', good', ?_, Function.update_self .., ?_, ?_, ?_⟩
  · rw [heldAfter, heldNew, done.held, made.held, Function.update_idem]
    funext id
    by_cases here : id = new
    · rw [here, Function.update_self, made.unheld]
    · rw [Function.update_of_ne here]
  · intro id there _ different
    rw [Function.update_of_ne different]
    exact made.others id there
  · intro absent id there
    have different : id ≠ new := new_apart made.unused there
    have refs := done.created absent
    rw [single] at refs
    have two : set.ref new = 2 := by
      rw [refs, addRefs, addRefs, Function.update_self, made.ref]
    rw [counted (by omega), Function.update_of_ne different, refs, addRefs, addRefs,
      Function.update_of_ne different]
    exact made.refs id there
  · intro other
    rw [done.found other]
    rfl

end Handing

section Arrays

variable {state : State} {heap : Heap} {avoid old : Nat → Prop} {alloc : Allocator}
  {depth array new : Nat} {apply : State → Nat → Nat → Attempt State} {objects done : List Nat}

theorem is_data (kind : kindsOf heap new = true) : ∃ items, heap new = .data items := by
  unfold kindsOf at kind
  cases found : heap new with
  | data items => exact ⟨items, rfl⟩
  | array objects =>
      rw [found] at kind
      contradiction

theorem is_array (kind : kindsOf heap new = false) : ∃ objects, heap new = .array objects := by
  unfold kindsOf at kind
  cases found : heap new with
  | data items =>
      rw [found] at kind
      contradiction
  | array objects => exact ⟨objects, rfl⟩

theorem reads_each_kept {after : State} {heap' : Heap} {avoid' : Nat → Prop}
    (unchanged : Unchanged state after heap heap' avoid avoid') {ids : List Nat}
    (there : ∀ id ∈ ids, state.ref id ≠ 0 ∧ after.ref id ≠ 0)
    {deeps : List (Name → Option Deep)} (each : List.Forall₂ (ReadsObject heap avoid depth) ids deeps) :
    List.Forall₂ (ReadsObject heap' avoid' depth) ids deeps := by
  induction each with
  | nil => exact List.Forall₂.nil
  | cons first rest ih =>
      obtain ⟨live, live'⟩ := there _ List.mem_cons_self
      exact List.Forall₂.cons (reads_object_kept unchanged depth live live' first)
        (ih fun id member => there id (List.mem_cons_of_mem _ member))

theorem grown_unchanged {after : State} {heap' : Heap} {holding : Holding}
    (good : Good state heap [] []) (grown : Grown state after heap heap' new holding)
    (avoided : avoid new) : Unchanged state after heap heap' avoid avoid where
  before := good
  behind := grown.good
  same := by
    intro id live _ outside
    apply grown.others id live
    intro same
    rw [same] at outside
    exact outside avoided
  clear := fun _ _ inside => inside

theorem grown_trans {mid after : State} {heap₁ heap₂ : Heap} {holding₁ holding₂ holding₃ : Holding}
    (before : Grown state mid heap heap₁ new holding₁)
    (behind : Grown mid after heap₁ heap₂ new holding₂) (same : holding₂ = holding₃) :
    Grown state after heap heap₂ new holding₃ where
  good := behind.good
  held := behind.held.trans before.held
  own := behind.own.trans same
  refs := by
    intro id live
    have ref := before.refs id live
    rw [behind.refs id (by rw [ref]; exact live), ref]
  others := by
    intro id live different
    have ref := before.refs id live
    rw [behind.others id (by rw [ref]; exact live) different, before.others id live different]

/-- The copy of one more entry is pushed, and the variable gives it up. -/
theorem push_over {mid : State} {heap' : Heap} {entry : Nat}
    (made : Made state mid heap heap' entry) (live : state.ref new ≠ 0)
    (isArray : heap new = .array done) (kind : kindsOf heap' entry = true) :
    ∃ after, (mid.arrayPushBack new entry >>= fun pushed => pushed.giveBack entry) = .done after ∧
      Grown state after heap (Function.update heap' new (.array (done ++ [entry]))) new
        (.array (done ++ [entry])) ∧ after.ref entry ≠ 0 := by
  have liveMid : mid.ref new ≠ 0 := by
    rw [made.refs new live]
    exact live
  obtain ⟨pushed, pushes, good', held, ref⟩ := array_push_back made.good liveMid
    ((made.others new live).trans isArray) (by rw [made.ref]; exact one_ne_zero) kind
  have two : pushed.ref entry = 2 := by
    rw [ref, addRefs, addRefs, Function.update_self, made.ref]
  have heldEntry : pushed.held entry = 1 := by
    rw [held, made.held, Function.update_self]
  obtain ⟨after, result, good'', heldAfter, survives, counted⟩ :=
    @give_back pushed _ entry good' (by omega)
  have refs := counted (by omega)
  rw [pushes, Attempt.bind_done, result]
  refine ⟨after, rfl, ⟨good'', ?_, Function.update_self .., ?_, ?_⟩, ?_⟩
  · rw [heldAfter, heldEntry, held, made.held, Function.update_idem]
    funext id
    by_cases here : id = entry
    · rw [here, Function.update_self, made.unheld]
    · rw [Function.update_of_ne here]
  · intro id there
    have different : id ≠ entry := new_apart made.unused there
    rw [refs, Function.update_of_ne different, ref, addRefs, addRefs, Function.update_of_ne different]
    exact made.refs id there
  · intro id there different
    rw [Function.update_of_ne different]
    exact made.others id there
  · rw [refs, Function.update_self, two]
    decide

theorem copy_objects (alloc : Allocator) (applies : Applies depth apply) {rounds index : Nat}
    (good : Good state heap [] []) (live : state.ref array ≠ 0)
    (isArray : heap array = .array objects) (liveNew : state.ref new ≠ 0)
    (isNew : heap new = .array done) (apart : array ≠ new) (avoided : avoid new)
    (aged : old new) (there : ∀ id, avoid id ∨ old id → state.ref id ≠ 0) (enough : objects.length - index < rounds) :
    (State.copyObjects apply alloc array new rounds index state).Returns
      (¬∃ deeps, List.Forall₂ (ReadsObject heap avoid depth) (objects.drop index) deeps)
      fun after => ∃ heap' more, Grown state after heap heap' new (.array (done ++ more)) ∧
        ∀ depth deeps, List.Forall₂ (ReadsObject heap avoid depth) (objects.drop index) deeps →
          List.Forall₂ (ReadsObject heap' old depth) more deeps := by
  induction rounds generalizing index state heap done with
  | zero => contradiction
  | succ rounds ih =>
      rw [State.copyObjects, objects_here good live isArray, Attempt.bind_done]
      cases found : objects[index]? with
      | none =>
          have past : objects.drop index = [] :=
            List.drop_eq_nil_of_le (List.getElem?_eq_none_iff.mp found)
          refine ⟨heap, [], ⟨good, rfl, ?_, fun _ _ => rfl, fun _ _ _ => rfl⟩, ?_⟩
          · rw [List.append_nil]
            exact isNew
          · intro depth deeps each
            rw [past] at each
            cases each
            exact List.Forall₂.nil
      | some obj =>
          obtain ⟨inside, same⟩ := List.getElem?_eq_some_iff.mp found
          have parts : objects.drop index = obj :: objects.drop (index + 1) := by
            rw [List.drop_eq_getElem_cons inside, same]
          have liveEach : ∀ id ∈ objects, state.ref id ≠ 0 := by
            intro id member
            apply held_by good live
            rw [isArray]
            exact member
          have member : obj ∈ objects := List.mem_of_getElem? found
          have kind := good.typed array live
          rw [isArray] at kind
          obtain ⟨items, isData⟩ := is_data (kind obj member)
          have made := made_object alloc applies good (liveEach obj member) isData there
          dsimp only
          apply Attempt.returns_bind (Attempt.returns_abort made _)
          · rintro ⟨mid, entry⟩ ⟨heap₁, made, kind', reads⟩
            obtain ⟨next, pushes, grown, liveEntry⟩ := push_over made liveNew isNew kind'
            have unchanged := grown_unchanged good grown avoided
            have liveNext : ∀ id, state.ref id ≠ 0 → next.ref id ≠ 0 := by
              intro id live
              rw [grown.refs id live]
              exact live
            have tail : ∀ id ∈ objects.drop (index + 1), state.ref id ≠ 0 ∧ next.ref id ≠ 0 := by
              intro id member
              have live := liveEach id (List.mem_of_mem_drop member)
              exact ⟨live, liveNext id live⟩
            have short : objects.length - (index + 1) < rounds := by omega
            have rest := ih grown.good (liveNext array live)
              ((grown.others array live apart).trans isArray) (liveNext new liveNew) grown.own
              (fun id avoided => liveNext id (there id avoided)) short
            rw [← Attempt.bind_assoc, pushes, Attempt.bind_done]
            apply Attempt.returns_abort (Attempt.returns_mono rest _)
            · rintro unread ⟨deeps, each⟩
              rw [parts] at each
              cases each with
              | cons _ behind => exact unread ⟨_, reads_each_kept unchanged tail behind⟩
            · rintro after ⟨heap', more, grown', reads'⟩
              refine ⟨heap', entry :: more, grown_trans grown grown' ?_, ?_⟩
              · rw [List.append_assoc, List.singleton_append]
              · intro depth deeps each
                rw [parts] at each
                cases each with
                | cons first behind =>
                    refine List.Forall₂.cons ?_ (reads' depth _ (reads_each_kept unchanged tail behind))
                    have pushedOnly : Unchanged mid next heap₁
                        (Function.update heap₁ new (.array (done ++ [entry]))) old old :=
                      ⟨made.good, grown.good, fun id _ _ outside => Function.update_of_ne
                        (fun same => outside (by rw [same]; exact aged)) .., fun _ _ inside => inside⟩
                    have liveMid : mid.ref entry ≠ 0 := by
                      have ref := made.ref
                      dsimp only at ref
                      rw [ref]
                      exact one_ne_zero
                    have liveAfter : after.ref entry ≠ 0 := by
                      rw [grown'.refs entry liveEntry]
                      exact liveEntry
                    exact reads_object_kept (grown_unchanged grown.good grown' aged) depth liveEntry
                      liveAfter (reads_object_kept pushedOnly depth liveMid liveEntry
                        (reads depth _ first))
          · rintro unread ⟨deeps, each⟩
            rw [parts] at each
            cases each with
            | cons first _ => exact unread ⟨_, first⟩

/-- What an array of copies is made of. -/
theorem made_array (alloc : Allocator) (applies : Applies depth apply) (good : Good state heap [] [])
    (live : state.ref array ≠ 0) (isArray : heap array = .array objects)
    (there : ∀ id, avoid id ∨ old id → state.ref id ≠ 0) :
    (state.createObject alloc (.array []) >>= fun new_array =>
      State.copyObjects apply alloc array new_array.2 (objects.length + 1) 0 new_array.1 >>=
        fun copied => Attempt.done (copied, new_array.2)).Returns
      (¬∃ deeps, List.Forall₂ (ReadsObject heap avoid depth) objects deeps)
      fun made => ∃ heap' ids, Made state made.1 heap heap' made.2 ∧ heap' made.2 = .array ids ∧
        ∀ depth deeps, List.Forall₂ (ReadsObject heap avoid depth) objects deeps →
          List.Forall₂ (ReadsObject heap' old depth) ids deeps := by
  have created := @create_object state heap alloc good (.array []) (.array []) rfl
    (fun _ => nofun) (fun _ _ begins => begins)
  apply Attempt.returns_bind (Attempt.returns_abort created False.elim)
  rintro ⟨mid, new⟩ created
  dsimp only at created ⊢
  have unchanged := @created_unchanged _ _ _ avoid _ _ good created
  have refs : ∀ id, state.ref id ≠ 0 → mid.ref id ≠ 0 := by
    intro id live
    rw [created.ref, Function.update_of_ne (new_apart created.unused live)]
    exact live
  have liveNew : mid.ref new ≠ 0 := by
    rw [created.ref, Function.update_self]
    exact one_ne_zero
  have liveEach : ∀ id ∈ objects, state.ref id ≠ 0 ∧ mid.ref id ≠ 0 := by
    intro id member
    have inside : id ∈ (heap array).refs := by
      rw [isArray]
      exact member
    have entry := held_by good live inside
    exact ⟨entry, refs id entry⟩
  have notNew := new_apart created.unused live
  have there' : ∀ id, (avoid id ∨ id = new) ∨ (old id ∨ id = new) → mid.ref id ≠ 0 := by
    rintro id ((avoided | same) | (inside | same))
    · exact refs id (there id (Or.inl avoided))
    · rw [same]
      exact liveNew
    · exact refs id (there id (Or.inr inside))
    · rw [same]
      exact liveNew
  have copied := copy_objects alloc applies created.good (refs array live)
    ((Function.update_of_ne notNew ..).trans isArray) liveNew (Function.update_self ..) notNew
    (Or.inr rfl) (Or.inr rfl) there' (show objects.length - 0 < objects.length + 1 by omega)
  apply Attempt.returns_bind (Attempt.returns_abort copied _)
  · rintro after ⟨heap', more, grown, reads⟩
    rw [List.nil_append] at grown
    have made := made_of_grown created grown
    refine ⟨heap', more, made, grown.own, ?_⟩
    intro depth deeps each
    have kept := reads depth deeps (reads_each_kept unchanged liveEach each)
    apply reads_each_kept (weaker_unchanged grown.good fun _ => Or.inl) _ kept
    intro id member
    have inside : id ∈ (heap' new).refs := by
      rw [grown.own]
      exact member
    have entry := held_by grown.good (by rw [made.ref]; exact one_ne_zero) inside
    exact ⟨entry, entry⟩
  · rintro unread ⟨deeps, each⟩
    exact unread ⟨deeps, reads_each_kept unchanged liveEach each⟩

end Arrays

/-- The copy of a value reads as the value did. -/
structure CopyOf (heap heap' : Heap) (avoid old : Nat → Prop) (value copy : Value) : Prop where
  type : copy.type = value.type
  notNull : NotNull copy
  reads : ∀ depth deep, ReadsValue heap avoid (ReadsObject heap avoid depth) value deep →
    ReadsValue heap' old (ReadsObject heap' old depth) copy deep

section Members

variable {state : State} {heap : Heap} {avoid old : Nat → Prop} {alloc : Allocator} {depth : Nat}
  {apply : State → Nat → Nat → Attempt State} {target : Nat} {items : Entries} {name : Name}
  {value : Value}

theorem pointer_value {new : Nat} (positive : 0 < new) (small : new < 2 ^ 64) :
    (UInt64.ofNat new).toNat = new ∧ UInt64.ofNat new ≠ 0 := by
  have back : (UInt64.ofNat new).toNat = new := UInt64.toNat_ofNat_of_lt' small
  refine ⟨back, fun null => ?_⟩
  rw [null] at back
  have zero : new = 0 := back.symm
  omega

/-- A value that is a pointer to what was made. -/
theorem handed_unchanged {mid after : State} {heap' : Heap} {new : Nat} {items' : Entries}
    {result : Option Value} (made : Made state mid heap heap' new) (avoided : avoid target)
    (copied : Copied state after heap (Function.update heap' target (.data items')) target items
      items' name result) :
    Unchanged mid after heap' (Function.update heap' target (.data items')) avoid avoid where
  before := made.good
  behind := copied.good
  same := by
    intro id _ _ outside
    apply Function.update_of_ne
    intro same
    rw [same] at outside
    exact outside avoided
  clear := fun _ _ inside => inside

/-- The list of the target refers to what it was handed. -/
theorem handed_live {after : State} {heap' : Heap} {items' : Entries} (held : 0 < state.held target)
    (copied : Copied state after heap heap' target items items' name (some value)) {id : Nat}
    (pointee : id ∈ pointees value) : after.ref id ≠ 0 := by
  have own := copied.found name
  rw [if_pos rfl, Option.some_or] at own
  obtain ⟨entry, present, same⟩ := Option.map_eq_some_iff.mp own
  rw [← same] at pointee
  apply entry_live copied.good _ copied.own present id pointee
  apply owned_live copied.good.balanced
  rw [copied.held]
  exact held

theorem copy_obj (alloc : Allocator) (applies : Applies depth apply) (name : Name)
    (good : Good state heap [] []) (held : 0 < state.held target) (isTarget : heap target = .data items) (aged : old target)
    (there : ∀ id, avoid id ∨ old id → state.ref id ≠ 0) {obj : UInt64} (notNull : obj ≠ 0)
    (live : state.ref obj.toNat ≠ 0) (kind : kindsOf heap obj.toNat = true) :
    (state.copyObj apply alloc target name obj.toNat).Returns
      (¬∃ members, ReadsObject heap avoid depth obj.toNat members) fun after =>
        ∃ heap' items' copy, Copied state after heap heap' target items items' name (some copy) ∧
          CopyOf heap heap' avoid old (.object obj) copy := by
  have present : obj.toNat ≠ 0 := by
    intro null
    exact notNull (UInt64.toNat_inj.mp null)
  obtain ⟨objItems, isData⟩ := is_data kind
  rw [State.copyObj, if_neg present]
  apply Attempt.returns_bind (made_object alloc applies good live isData there)
  rintro ⟨mid, new⟩ ⟨heap₁, made, kind', reads⟩
  dsimp only at made kind' reads ⊢
  obtain ⟨back, copyNotNull⟩ := pointer_value made.positive made.small
  have single : pointees (.object (UInt64.ofNat new)) = [new] := by
    rw [pointees, if_neg copyNotNull, back]
  have hasKind : HasKind (kindsOf heap₁) (.object (UInt64.ofNat new)) := by
    refine Or.inr ?_
    rw [back]
    exact kind'
  apply Attempt.returns_abort (Attempt.returns_mono
    (hand_over good made held isTarget name single hasKind) _) False.elim
  rintro after ⟨items', copied⟩
  refine ⟨_, items', _, copied, rfl, copyNotNull, ?_⟩
  intro depth deep read
  cases deep with
  | scalar value => exact read.elim
  | array objects => exact read.elim
  | object members =>
      change ReadsObject _ old depth (UInt64.ofNat new).toNat members
      have liveNew : after.ref new ≠ 0 := by
        apply handed_live held copied
        rw [single]
        exact List.mem_singleton_self _
      rw [back]
      apply reads_object_kept (handed_unchanged made aged copied) depth _ liveNew
        (reads depth members read)
      rw [made.ref]
      exact one_ne_zero

theorem copy_array (alloc : Allocator) (applies : Applies depth apply) (name : Name)
    (good : Good state heap [] []) (held : 0 < state.held target) (isTarget : heap target = .data items) (aged : old target)
    (there : ∀ id, avoid id ∨ old id → state.ref id ≠ 0) {arr : UInt64} (notNull : arr ≠ 0)
    (live : state.ref arr.toNat ≠ 0) {objects : List Nat} (isArray : heap arr.toNat = .array objects) :
    (state.copyArray apply alloc target name arr.toNat).Returns
      (¬∃ deeps, List.Forall₂ (ReadsObject heap avoid depth) objects deeps) fun after =>
        ∃ heap' items' copy, Copied state after heap heap' target items items' name (some copy) ∧
          CopyOf heap heap' avoid old (.array arr) copy := by
  have present : arr.toNat ≠ 0 := by
    intro null
    exact notNull (UInt64.toNat_inj.mp null)
  rw [State.copyArray, if_neg present, objects_here good live isArray, Attempt.bind_done]
  have make := made_array alloc applies good live isArray there
  have parts : ∀ created : Attempt (State × Nat), ∀ fill : State × Nat → Attempt State,
      ∀ behind : State → Nat → Attempt State,
      (created >>= fun new_array => fill new_array >>= fun copied => behind copied new_array.2) =
        (created >>= fun new_array => fill new_array >>= fun copied =>
          Attempt.done (copied, new_array.2)) >>= fun made => behind made.1 made.2 := by
    intro created fill behind
    simp only [Attempt.bind_assoc, Attempt.bind_done]
  have shape := parts (state.createObject alloc (.array []))
    (fun new_array => State.copyObjects apply alloc arr.toNat new_array.2 (objects.length + 1) 0
      new_array.1)
    fun copied new_array => copied.dataSet alloc target name (.array (UInt64.ofNat new_array)) >>=
      fun set => set.giveBack new_array
  rw [shape]
  apply Attempt.returns_bind make
  rintro ⟨mid, new⟩ ⟨heap₁, ids, made, own, reads⟩
  dsimp only at made own ⊢
  obtain ⟨back, copyNotNull⟩ := pointer_value made.positive made.small
  have single : pointees (.array (UInt64.ofNat new)) = [new] := by
    rw [pointees, if_neg copyNotNull, back]
  have hasKind : HasKind (kindsOf heap₁) (.array (UInt64.ofNat new)) := by
    refine Or.inr ?_
    rw [back, kindsOf, own]
    rfl
  apply Attempt.returns_abort (Attempt.returns_mono
    (hand_over good made held isTarget name single hasKind) _) False.elim
  rintro after ⟨items', copied⟩
  have different : new ≠ target :=
    Ne.symm (new_apart made.unused (owned_live good.balanced held))
  refine ⟨_, items', _, copied, rfl, copyNotNull, ?_⟩
  intro depth deep read
  cases deep with
  | scalar value => exact read.elim
  | object members => exact read.elim
  | array deeps =>
      obtain ⟨-, ids', found, each⟩ := read
      rw [isArray] at found
      rw [← Holding.array.inj found] at each
      have liveNew : after.ref new ≠ 0 := by
        apply handed_live held copied
        rw [single]
        exact List.mem_singleton_self _
      have own' : Function.update heap₁ target (.data items') new = .array ids :=
        (Function.update_of_ne different ..).trans own
      change ¬old (UInt64.ofNat new).toNat ∧ _
      rw [back]
      refine ⟨fun inside => there new (Or.inr inside) made.unused, ids, own', ?_⟩
      apply reads_each_kept (handed_unchanged made aged copied) _ (reads depth deeps each)
      intro id member
      constructor
      · have liveMid : mid.ref new ≠ 0 := by
          rw [made.ref]
          exact one_ne_zero
        apply held_by made.good liveMid
        rw [own]
        exact member
      · apply held_by copied.good liveNew
        rw [own']
        exact member

/-- What is found for the copy of a value: nothing new if it is a null pointer. -/
def ResultOf (heap heap' : Heap) (avoid old : Nat → Prop) (value : Value) (result : Option Value) :
    Prop :=
  match result with
  | none => ¬NotNull value
  | some copy => NotNull value ∧ CopyOf heap heap' avoid old value copy

theorem copy_scalar (alloc : Allocator) (avoid old : Nat → Prop) (name : Name)
    (good : Good state heap [] []) (held : 0 < state.held target)
    (isTarget : heap target = .data items) (scalar : value.type ≠ .object ∧ value.type ≠ .array) :
    (state.dataSet alloc target name value).Returns False fun after =>
      ∃ heap' items', Copied state after heap heap' target items items' name (some value) ∧
        ResultOf heap heap' avoid old value (some value) := by
  have none : pointees value = [] := by
    cases value with
    | string val => rfl
    | number num padding => rfl
    | boolean val => rfl
    | object obj => exact absurd rfl scalar.1
    | array arr => exact absurd rfl scalar.2
  have kind : HasKind (kindsOf heap) value := by
    cases value with
    | string val => trivial
    | number num padding => trivial
    | boolean val => trivial
    | object obj => exact absurd rfl scalar.1
    | array arr => exact absurd rfl scalar.2
  have notNull : NotNull value := by
    cases value with
    | string val => trivial
    | number num padding => trivial
    | boolean val => trivial
    | object obj => exact absurd rfl scalar.1
    | array arr => exact absurd rfl scalar.2
  have owned : ∀ id ∈ pointees value, 0 < state.held id := by
    intro id member
    rw [none] at member
    contradiction
  apply Attempt.returns_mono (data_set alloc good held isTarget name owned kind)
  rintro after ⟨items', done⟩
  refine ⟨_, items', ⟨done.good, done.held, Function.update_self .., ?_, ?_, done.found⟩,
    notNull, rfl, notNull, ?_⟩
  · intro id _ _ different
    exact Function.update_of_ne different ..
  · intro absent id _
    rw [done.created absent, none]
    rfl
  · intro depth deep read
    apply reads_value_kept notNull _ _ read
    · intro obj isObject
      rw [isObject] at scalar
      exact absurd rfl scalar.1
    · intro arr ids isArray
      rw [isArray] at scalar
      exact absurd rfl scalar.2

/-- What is not copied leaves everything as it is. -/
theorem not_copied (good : Good state heap [] []) (isTarget : heap target = .data items) :
    Copied state state heap heap target items items name none where
  good := good
  held := rfl
  own := isTarget
  same := fun _ _ _ _ => rfl
  kept := fun _ _ _ => rfl
  found := by
    intro other
    split_ifs with here
    · rw [here]
      rfl
    · rfl

theorem user_pointer {item : Item} {pointer : UInt64} (holds : Holds item value)
    (bytes : value.bytes = leBytes 8 pointer.toNat) :
    State.userPointer item = .done pointer.toNat := by
  have stored := holds_stored holds
  rw [bytes] at stored
  rw [State.userPointer, holds_pointer holds, Attempt.read_some, Attempt.bind_done,
    read_pointer_stored stored, Attempt.read_some, Attempt.bind_done]
  rfl

/-- The copy of a pointer to an object that may be null. -/
theorem copy_object_value (alloc : Allocator) (applies : Applies depth apply) (name : Name)
    (good : Good state heap [] []) (held : 0 < state.held target) (isTarget : heap target = .data items) (aged : old target)
    (there : ∀ id, avoid id ∨ old id → state.ref id ≠ 0) (obj : UInt64)
    (live : ∀ id ∈ pointees (.object obj), state.ref id ≠ 0)
    (kind : HasKind (kindsOf heap) (.object obj)) :
    (state.copyObj apply alloc target name obj.toNat).Returns
      (NotNull (.object obj) ∧
        ¬∃ deep, ReadsValue heap avoid (ReadsObject heap avoid depth) (.object obj) deep)
      fun after => ∃ heap' items' result, Copied state after heap heap' target items items' name result ∧
        ResultOf heap heap' avoid old (.object obj) result := by
  by_cases null : obj = 0
  · rw [null]
    exact ⟨heap, items, none, not_copied good isTarget, fun notNull => notNull rfl⟩
  · have copied := copy_obj alloc applies name good held isTarget aged there null
      (live _ (pointee_object null)) (kind.resolve_left null)
    apply Attempt.returns_abort (Attempt.returns_mono copied _)
    · intro unread
      refine ⟨null, fun ⟨deep, read⟩ => unread ?_⟩
      cases deep with
      | scalar value => exact read.elim
      | object members => exact ⟨members, read⟩
      | array deeps => exact read.elim
    · rintro after ⟨heap', items', copy, copied, copyOf⟩
      exact ⟨heap', items', some copy, copied, null, copyOf⟩

theorem copy_array_value (alloc : Allocator) (applies : Applies depth apply) (name : Name)
    (good : Good state heap [] []) (held : 0 < state.held target) (isTarget : heap target = .data items) (aged : old target)
    (there : ∀ id, avoid id ∨ old id → state.ref id ≠ 0) (arr : UInt64)
    (live : ∀ id ∈ pointees (.array arr), state.ref id ≠ 0)
    (kind : HasKind (kindsOf heap) (.array arr)) :
    (state.copyArray apply alloc target name arr.toNat).Returns
      (NotNull (.array arr) ∧
        ¬∃ deep, ReadsValue heap avoid (ReadsObject heap avoid depth) (.array arr) deep)
      fun after => ∃ heap' items' result, Copied state after heap heap' target items items' name result ∧
        ResultOf heap heap' avoid old (.array arr) result := by
  by_cases null : arr = 0
  · rw [null]
    exact ⟨heap, items, none, not_copied good isTarget, fun notNull => notNull rfl⟩
  · obtain ⟨objects, isArray⟩ := is_array (kind.resolve_left null)
    have copied := copy_array alloc applies name good held isTarget aged there null
      (live _ (pointee_array null)) isArray
    apply Attempt.returns_abort (Attempt.returns_mono copied _)
    · intro unread
      refine ⟨null, fun ⟨deep, read⟩ => unread ?_⟩
      cases deep with
      | scalar value => exact read.elim
      | object members => exact read.elim
      | array deeps =>
          obtain ⟨-, ids, found, each⟩ := read
          rw [isArray] at found
          rw [← Holding.array.inj found] at each
          exact ⟨deeps, each⟩
    · rintro after ⟨heap', items', copy, copied, copyOf⟩
      exact ⟨heap', items', some copy, copied, null, copyOf⟩

theorem copy_item (alloc : Allocator) (applies : Applies depth apply) (good : Good state heap [] [])
    (held : 0 < state.held target) (isTarget : heap target = .data items) (aged : old target)
    (there : ∀ id, avoid id ∨ old id → state.ref id ≠ 0) {src : Nat} (live : state.ref src ≠ 0)
    {others : Entries} (isSrc : heap src = .data others) {item : Name × Entry}
    (member : item ∈ others) :
    (state.copyItem apply alloc target item.2.addr).Returns
      (NotNull item.2.value ∧
        ¬∃ deep, ReadsValue heap avoid (ReadsObject heap avoid depth) item.2.value deep)
      fun after => ∃ heap' items' result,
        Copied state after heap heap' target items items' item.1 result ∧
          ResultOf heap heap' avoid old item.2.value result := by
  have listed := good_listed good live isSrc
  have represents := listed.each item member
  have kind := good_kinds good live isSrc item member
  have liveEach : ∀ id ∈ pointees item.2.value, state.ref id ≠ 0 := by
    intro id pointee
    apply held_by good live
    rw [isSrc]
    exact item_pointees member pointee
  obtain ⟨next, here⟩ := listed_cell listed member
  rw [State.copyItem, load_here here, Attempt.bind_done]
  dsimp only
  rw [if_neg (holds_sizes represents.holds).1, represents.name]
  have holds := represents.holds
  generalize item.2.value = value at holds kind liveEach ⊢
  by_cases isObject : value.type = .object
  · cases value with
    | object obj =>
        rw [if_pos (holds.type.trans isObject), user_pointer holds rfl, Attempt.bind_done]
        exact copy_object_value alloc applies item.1 good held isTarget aged there obj liveEach kind
    | _ => contradiction
  · rw [if_neg (by rw [holds.type]; exact isObject)]
    by_cases isArray : value.type = .array
    · cases value with
      | array arr =>
          rw [if_pos (holds.type.trans isArray), user_pointer holds rfl, Attempt.bind_done]
          exact copy_array_value alloc applies item.1 good held isTarget aged there arr liveEach kind
      | _ => contradiction
    · have read : readBytes item.2.node.item 0 item.2.node.item.data_size = some value.bytes :=
        read_stored (holds_length holds) (holds_stored holds)
      rw [if_neg (by rw [holds.type]; exact isArray), holds_pointer holds, Attempt.read_some,
        Attempt.bind_done, read, Attempt.read_some, Attempt.bind_done, holds.type]
      have copied := copy_scalar alloc avoid old item.1 good held isTarget ⟨isObject, isArray⟩
      apply Attempt.returns_abort (Attempt.returns_mono copied _) False.elim
      rintro after ⟨heap', items', copied, resultOf⟩
      exact ⟨heap', items', some value, copied, resultOf⟩

end Members

end Mgw.DataNodes

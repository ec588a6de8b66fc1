import Mathlib.Data.List.Pairwise
import Mgw.DeviceStreams

/-!
# The names on the stream list of a device

One call keeps the list well linked and its names apart exactly where a new public stream
has a new name, a new private stream does not come before a stream of the device on the
private list, and no private stream of the device is added again. The runs follow.
-/

namespace Mgw.DeviceStreams

open IntrusiveList TransitionRuns
open Device (StreamSettings)
open StreamOutputs (dupName)

set_option autoImplicit false

/-- What the operations rely on: the streams of the list are there and know that they
are on a list. -/
structure Consistent (streams : Streams) (addresses : List Nat) : Prop where
  chain : Chain layout streams.links (.head .stream_list) addresses
  locked : ∀ address ∈ addresses,
    ∃ stream, streams.stream address = some stream ∧ stream.mutex ≠ none
  below : ∀ address, streams.stream address ≠ none → address < streams.allocated

section Lists

variable {streams : Streams} {addresses : List Nat} {address : Nat}

theorem listed_below (consistent : Consistent streams addresses) (member : address ∈ addresses) :
    address < streams.allocated := by
  obtain ⟨stream, there, -⟩ := consistent.locked address member
  apply consistent.below
  rw [there]
  exact Option.some_ne_none stream

theorem consistent_length (consistent : Consistent streams addresses) :
    addresses.length ≤ streams.allocated := by
  have inside : addresses ⊆ List.range streams.allocated := fun address member =>
    List.mem_range.mpr (listed_below consistent member)
  have bound := ((chain_nodup consistent.chain).subperm inside).length_le
  rwa [List.length_range] at bound

theorem consistent_list (consistent : Consistent streams addresses) :
    streamList streams = addresses :=
  walk_chain consistent.chain (consistent_length consistent)

theorem consistent_linked (consistent : Consistent streams addresses) :
    Chain layout streams.links (.head .stream_list) (streamList streams) := by
  rw [consistent_list consistent]
  exact consistent.chain

theorem public_names (consistent : Consistent streams addresses) :
    publicNames streams = addresses.filterMap (publicName streams) := by
  unfold publicNames
  rw [consistent_list consistent]

theorem names_unique_iff (consistent : Consistent streams addresses) :
    NamesUnique streams ↔ (addresses.filterMap (publicName streams)).Nodup := by
  rw [← public_names consistent]
  exact ⟨fun names => names.unique, fun unique => ⟨consistent_linked consistent, unique⟩⟩

theorem get_weak_stream (consistent : Consistent streams addresses) (name : List UInt8) :
    mgwGetWeakStreamByName streams name =
      some (addresses.find? fun address => publicName streams address = some name) :=
  search_chain consistent.chain (consistent_length consistent)

theorem name_missing {name : List UInt8} :
    (addresses.find? fun address => publicName streams address = some name) = none ↔
      name ∉ addresses.filterMap (publicName streams) := by
  rw [List.find?_eq_none, List.mem_filterMap]
  constructor
  · intro missing there
    obtain ⟨address, member, named⟩ := there
    exact missing address member (decide_eq_true named)
  · intro missing address member named
    exact missing ⟨address, member, of_decide_eq_true named⟩

theorem found_name {name : List UInt8}
    (found : (addresses.find? fun address => publicName streams address = some name) =
      some address) : publicName streams address = some name := by
  have holds := List.find?_some found
  exact of_decide_eq_true holds

/-- Where the names are apart, a name belongs to one stream. -/
theorem named_once {name : List UInt8} {other : Nat}
    (unique : (addresses.filterMap (publicName streams)).Nodup) (member : address ∈ addresses)
    (member' : other ∈ addresses) (named : publicName streams address = some name)
    (named' : publicName streams other = some name) : other = address := by
  by_contra different
  have apart := List.pairwise_filterMap.mp unique
  have : Std.Symm fun left right => ∀ found, publicName streams left = some found →
      ∀ found', publicName streams right = some found' → found ≠ found' :=
    ⟨fun left right distinct found here found' there => (distinct found' there found here).symm⟩
  exact apart.forall member' member different name named' name named rfl

end Lists

section Steps

variable {streams : Streams} {addresses : List Nat} {address : Nat}

theorem modify_stream (change : StreamContext → StreamContext) (other : Nat) :
    (streams.modify address change).stream other =
      if other = address then (streams.stream address).map change else streams.stream other := by
  unfold Streams.modify
  by_cases same : other = address
  · rw [if_pos same, same]
    exact Function.update_self ..
  · rw [if_neg same]
    exact Function.update_of_ne same ..

theorem modify_present (change : StreamContext → StreamContext) (other : Nat) :
    (streams.modify address change).stream other ≠ none ↔ streams.stream other ≠ none := by
  rw [modify_stream]
  split_ifs with same
  · rw [same, Ne, Option.map_eq_none_iff]
  · rfl

/-- A change that leaves the mutex alone. -/
theorem modify_consistent (consistent : Consistent streams addresses)
    {change : StreamContext → StreamContext}
    (kept : ∀ stream, (change stream).mutex = stream.mutex) :
    Consistent (streams.modify address change) addresses where
  chain := consistent.chain
  locked := by
    intro other member
    obtain ⟨stream, there, locked⟩ := consistent.locked other member
    rw [modify_stream]
    split_ifs with same
    · rw [← same, there]
      refine ⟨change stream, rfl, ?_⟩
      rw [kept]
      exact locked
    · exact ⟨stream, there, locked⟩
  below := fun other live => consistent.below other ((modify_present change other).mp live)

theorem modify_public_name {change : StreamContext → StreamContext}
    (name : ∀ stream, (change stream).obj_name = stream.obj_name)
    (isPrivate : ∀ stream, (change stream).is_private = stream.is_private) (other : Nat) :
    publicName (streams.modify address change) other = publicName streams other := by
  unfold publicName
  rw [modify_stream]
  split_ifs with same
  · rw [same]
    cases streams.stream address with
    | none => rfl
    | some stream =>
        rw [Option.map_some, Option.bind_some, Option.bind_some, name, isPrivate]
  · rfl

/-- The streams of a list keep their names where they are not changed. -/
theorem public_name_congr {streams' : Streams} (same : streams'.stream address = streams.stream address) :
    publicName streams' address = publicName streams address := by
  unfold publicName
  rw [same]

theorem inserted_name (list : StreamList) (other : Nat) :
    publicName (mgwContextDataInsert streams address list) other = publicName streams other := by
  refine Eq.trans (public_name_congr rfl) (modify_public_name ?_ ?_ other)
  · exact fun _ => rfl
  · exact fun _ => rfl

theorem inserted_stream (list : StreamList) (other : Nat) :
    (mgwContextDataInsert streams address list).stream other =
      if other = address then
        (streams.stream address).map fun stream => { stream with mutex := some list }
      else streams.stream other :=
  modify_stream _ other

theorem inserted_below (consistent : Consistent streams addresses) (list : StreamList)
    (other : Nat) (live : (mgwContextDataInsert streams address list).stream other ≠ none) :
    other < streams.allocated :=
  consistent.below other ((modify_present _ other).mp live)

/-- A stream of the memory that is not on the list is put at its head. -/
theorem insert_consistent (consistent : Consistent streams addresses) {stream : StreamContext}
    (there : streams.stream address = some stream) (new : address ∉ addresses) :
    Consistent (mgwContextDataInsert streams address .stream_list) (address :: addresses) where
  chain := chain_insert consistent.chain new Cell.noConfusion
  locked := by
    intro other member
    rw [inserted_stream]
    split_ifs with same
    · rw [there]
      exact ⟨_, rfl, Option.some_ne_none _⟩
    · exact consistent.locked other ((List.mem_cons.mp member).resolve_left same)
  below := inserted_below consistent .stream_list

/-- The private list is another one, but for the stream that it puts the new one before. -/
theorem insert_private_consistent (consistent : Consistent streams addresses)
    (new : address ∉ addresses)
    (apart : ∀ first ∈ streams.links.pointee (.head .priv_streams_list), first ∉ addresses) :
    Consistent (mgwContextDataInsert streams address .priv_streams_list) addresses where
  chain := by
    have away : layout.next address ≠ layout.head .priv_streams_list := Cell.noConfusion
    apply chain_frame consistent.chain
    · exact insert_pointee (fun same => by cases same) Cell.noConfusion
    · intro other member
      apply insert_pointee Cell.noConfusion
      intro same
      exact new (Cell.next.inj same ▸ member)
    · intro other member
      apply insert_prevNext_other away
      · intro same
        exact new (same ▸ member)
      · intro points
        exact apart other points member
  locked := by
    intro other member
    have different : other ≠ address := fun same => new (same ▸ member)
    rw [inserted_stream, if_neg different]
    exact consistent.locked other member
  below := inserted_below consistent .priv_streams_list

/-- A stream of the list is freed. -/
theorem free_consistent (consistent : Consistent streams addresses) (member : address ∈ addresses) :
    Consistent (mgwContextDataFree streams address) (addresses.erase address) ∧
      ∀ other ∈ addresses.erase address,
        (mgwContextDataFree streams address).stream other = streams.stream other := by
  obtain ⟨stream, there, locked⟩ := consistent.locked address member
  obtain ⟨list, mutex⟩ := Option.ne_none_iff_exists'.mp locked
  have nodup := chain_nodup consistent.chain
  have removed : mgwContextDataRemove streams address =
      { streams.modify address fun stream => { stream with mutex := none } with
        links := remove layout streams.links address } := by
    unfold mgwContextDataRemove
    rw [there, Option.bind_some, mutex]
  have kept : ∀ other, other ≠ address →
      (mgwContextDataFree streams address).stream other = streams.stream other := by
    intro other different
    unfold mgwContextDataFree
    rw [removed]
    exact (Function.update_of_ne different ..).trans ((modify_stream _ other).trans (if_neg different))
  have others : ∀ other ∈ addresses.erase address, other ≠ address ∧ other ∈ addresses :=
    fun other there => (nodup.mem_erase_iff).mp there
  refine ⟨⟨?_, ?_, ?_⟩, fun other there => kept other (others other there).1⟩
  · obtain ⟨left, right, parts⟩ := List.append_of_mem member
    have chain := consistent.chain
    rw [parts] at chain nodup ⊢
    have notLeft : address ∉ left := fun before =>
      (List.nodup_append.mp nodup).2.2 address before address List.mem_cons_self rfl
    rw [List.erase_append_right _ notLeft, List.erase_cons_head]
    change Chain layout (mgwContextDataRemove streams address).links _ _
    rw [removed]
    exact chain_remove chain
  · intro other there
    obtain ⟨different, before⟩ := others other there
    rw [kept other different]
    exact consistent.locked other before
  · intro other live
    change other < (mgwContextDataRemove streams address).allocated
    rw [removed]
    apply consistent.below
    by_cases same : other = address
    · rw [same, there]
      exact Option.some_ne_none stream
    · rwa [kept other same] at live

theorem new_stream_self (name : List UInt8) (settings : StreamSettings) :
    (newStream streams name settings).stream streams.allocated = some
      { obj_name := dupName name settings.unnamed_index
        is_private := settings.is_private
        refs := 0
        mutex := none } :=
  Function.update_self ..

theorem new_stream_other {name : List UInt8} {settings : StreamSettings} {other : Nat}
    (different : other ≠ streams.allocated) :
    (newStream streams name settings).stream other = streams.stream other :=
  Function.update_of_ne different ..

theorem new_not_listed (consistent : Consistent streams addresses) :
    streams.allocated ∉ addresses :=
  fun member => Nat.lt_irrefl _ (listed_below consistent member)

theorem new_stream_consistent (consistent : Consistent streams addresses) (name : List UInt8)
    (settings : StreamSettings) : Consistent (newStream streams name settings) addresses where
  chain := consistent.chain
  locked := by
    intro other member
    rw [new_stream_other (Nat.ne_of_lt (listed_below consistent member))]
    exact consistent.locked other member
  below := by
    intro other live
    by_cases same : other = streams.allocated
    · rw [same]
      exact Nat.lt_succ_self _
    · rw [new_stream_other same] at live
      exact Nat.lt_succ_of_lt (consistent.below other live)

theorem created_name {name : List UInt8} {settings : StreamSettings} :
    publicName (mgwStreamCreate streams name settings) streams.allocated =
      if settings.is_private then none else some (dupName name settings.unnamed_index) := by
  unfold mgwStreamCreate
  rw [inserted_name]
  unfold publicName
  rw [new_stream_self, Option.bind_some]

theorem created_other {name : List UInt8} {settings : StreamSettings} {other : Nat}
    (different : other ≠ streams.allocated) :
    publicName (mgwStreamCreate streams name settings) other = publicName streams other := by
  unfold mgwStreamCreate
  rw [inserted_name]
  exact public_name_congr (new_stream_other different)

/-- The streams that were on the list have their names still. -/
theorem created_names (consistent : Consistent streams addresses) (name : List UInt8)
    (settings : StreamSettings) :
    addresses.filterMap (publicName (mgwStreamCreate streams name settings)) =
      addresses.filterMap (publicName streams) := by
  apply List.filterMap_congr
  intro address member
  exact created_other (Nat.ne_of_lt (listed_below consistent member))

/-- The new list behind the creation of a stream. -/
theorem create_public (consistent : Consistent streams addresses) {settings : StreamSettings}
    (isPublic : settings.is_private = false) (name : List UInt8) :
    Consistent (mgwStreamCreate streams name settings) (streams.allocated :: addresses) := by
  unfold mgwStreamCreate
  rw [isPublic]
  exact insert_consistent (new_stream_consistent consistent name settings)
    (new_stream_self name settings) (new_not_listed consistent)

theorem create_private (consistent : Consistent streams addresses) {settings : StreamSettings}
    (isPrivate : settings.is_private = true)
    (apart : ∀ first ∈ streams.links.pointee (.head .priv_streams_list), first ∉ addresses)
    (name : List UInt8) : Consistent (mgwStreamCreate streams name settings) addresses := by
  unfold mgwStreamCreate
  rw [isPrivate]
  exact insert_private_consistent (new_stream_consistent consistent name settings)
    (new_not_listed consistent) apart

/-- Before a stream of the device, the new stream takes the back pointer of that one. -/
theorem create_private_breaks (consistent : Consistent streams addresses)
    {settings : StreamSettings} (isPrivate : settings.is_private = true) {first : Nat}
    (points : streams.links.pointee (.head .priv_streams_list) = some first)
    (member : first ∈ addresses) (name : List UInt8) :
    ¬NamesUnique (mgwStreamCreate streams name settings) := by
  intro names
  have links : (mgwStreamCreate streams name settings).links =
      insert layout streams.links (layout.head .priv_streams_list) streams.allocated := by
    unfold mgwStreamCreate
    rw [isPrivate]
    rfl
  have away : layout.next streams.allocated ≠ layout.head .priv_streams_list := Cell.noConfusion
  have linked := names.linked
  rw [links] at linked
  have cells : ∀ other ∈ addresses,
      (insert layout streams.links (layout.head .priv_streams_list) streams.allocated).pointee
          (layout.next other) = streams.links.pointee (layout.next other) := by
    intro other there
    apply insert_pointee Cell.noConfusion
    intro nexts
    rw [layout.next_injective nexts] at there
    exact new_not_listed consistent there
  have same := chain_same_cells consistent.chain
    (insert_pointee (fun heads => by cases heads) Cell.noConfusion) cells linked
  rw [same] at linked
  obtain ⟨left, right, parts⟩ := List.append_of_mem member
  rw [parts] at linked
  have back := (insert_prevNext_follower away points).symm.trans (chain_back linked)
  rcases last_cell_cases layout (Cell.head .stream_list) left with head | ⟨last, before, behind⟩
  · rw [head] at back
    cases back
  · rw [behind] at back
    apply new_not_listed consistent
    rw [Cell.next.inj (Option.some.inj back), parts]
    exact List.mem_append_left _ before

end Steps

section Calls

variable {streams : Streams} {addresses : List Nat}

theorem created_unique_iff (consistent : Consistent streams addresses)
    (names : NamesUnique streams) (name : List UInt8) (settings : StreamSettings) :
    NamesUnique (mgwStreamCreate streams name settings) ↔
      if settings.is_private then
        ∀ first ∈ streams.links.pointee (.head .priv_streams_list), first ∉ addresses
      else dupName name settings.unnamed_index ∉ publicNames streams := by
  have unique := (names_unique_iff consistent).mp names
  cases kind : settings.is_private with
  | true =>
      rw [if_pos rfl]
      constructor
      · intro after first points member
        exact create_private_breaks consistent kind points member name after
      · intro apart
        rw [names_unique_iff (create_private consistent kind apart name),
          created_names consistent]
        exact unique
  | false =>
      rw [if_neg Bool.false_ne_true, names_unique_iff (create_public consistent kind name),
        List.filterMap_cons, created_name, kind, if_neg Bool.false_ne_true,
        created_names consistent, public_names consistent, List.nodup_cons]
      exact and_iff_left unique

/-- A stream with a name that the list does not have is put on it. -/
theorem added_obj_unique_iff (consistent : Consistent streams addresses)
    (names : NamesUnique streams) {address : Nat} {stream : StreamContext}
    (there : streams.stream address = some stream) (missing : stream.obj_name ∉ publicNames streams) :
    NamesUnique (mgwContextDataInsert streams address .stream_list) ↔ address ∉ addresses := by
  constructor
  · intro after member
    exact chain_insert_again consistent.chain member after.linked
  · intro new
    have kept : addresses.filterMap (publicName (mgwContextDataInsert streams address .stream_list)) =
        addresses.filterMap (publicName streams) :=
      List.filterMap_congr fun other _ => inserted_name .stream_list other
    rw [names_unique_iff (insert_consistent consistent there new), List.filterMap_cons,
      inserted_name, kept]
    have unique := (names_unique_iff consistent).mp names
    cases found : publicName streams address with
    | none => exact unique
    | some name =>
        refine List.nodup_cons.mpr ⟨?_, unique⟩
        have same : stream.obj_name = name := by
          unfold publicName at found
          rw [there, Option.bind_some] at found
          split_ifs at found
          exact Option.some.inj found
        rw [← same, ← public_names consistent]
        exact missing

/-- What a release does to the list: nothing, or one stream is freed. -/
theorem release_cases (consistent : Consistent streams addresses) {address : Nat}
    (member : address ∈ addresses) (ends : Bool) :
    ∃ after, Consistent (mgwStreamRelease streams address ends).streams after ∧
      after.Sublist addresses ∧
      ∀ other ∈ after, publicName (mgwStreamRelease streams address ends).streams other =
        publicName streams other := by
  obtain ⟨stream, there, -⟩ := consistent.locked address member
  have counted : Consistent (streams.modify address fun stream =>
      { stream with refs := stream.refs - 1 }) addresses :=
    modify_consistent consistent fun _ => rfl
  have named : ∀ other, publicName (streams.modify address fun stream =>
      { stream with refs := stream.refs - 1 }) other = publicName streams other :=
    modify_public_name (fun _ => rfl) fun _ => rfl
  unfold mgwStreamRelease
  rw [there]
  dsimp only
  split_ifs
  · obtain ⟨freed, kept⟩ := free_consistent counted member
    refine ⟨_, freed, List.erase_sublist, fun other still => ?_⟩
    rw [public_name_congr (kept other still), named]
  · exact ⟨addresses, counted, List.Sublist.refl _, fun other _ => named other⟩
  · exact ⟨addresses, counted, List.Sublist.refl _, fun other _ => named other⟩

theorem released_unique {after : Streams} {left : List Nat} (consistent : Consistent streams addresses)
    (names : NamesUnique streams) (consistent' : Consistent after left)
    (fewer : left.Sublist addresses)
    (kept : ∀ other ∈ left, publicName after other = publicName streams other) :
    NamesUnique after := by
  rw [names_unique_iff consistent', List.filterMap_congr kept]
  exact ((names_unique_iff consistent).mp names).sublist (fewer.filterMap _)

/-- The check for the name finds what the list shows. -/
theorem add_stream_obj (consistent : Consistent streams addresses) {address : Nat}
    {stream : StreamContext} (there : streams.stream address = some stream) :
    next streams (.addStreamObj (some address)) = some (if stream.obj_name ∈ publicNames streams
      then streams else mgwContextDataInsert streams address .stream_list) := by
  unfold next execute mgwDeviceAddStreamObj
  dsimp only
  rw [there, public_names consistent]
  change ((mgwGetWeakStreamByName streams stream.obj_name).bind _).map _ = _
  rw [get_weak_stream consistent, Option.bind_some]
  split_ifs with listed
  · cases found : addresses.find? fun address => publicName streams address = some stream.obj_name with
    | none => exact absurd listed (name_missing.mp found)
    | some other => rfl
  · rw [name_missing.mpr listed]
    rfl

theorem release_stream (consistent : Consistent streams addresses) (name : List UInt8)
    (ends : Bool) :
    next streams (.releaseStream (some name) ends) =
      some ((addresses.find? fun address => publicName streams address = some name).elim streams
        fun address => (mgwStreamRelease streams address ends).streams) := by
  unfold next execute mgwDeviceReleaseStream
  dsimp only
  rw [get_weak_stream consistent]
  cases addresses.find? fun address => publicName streams address = some name with
  | none => rfl
  | some address => rfl

theorem add_stream_unique (consistent : Consistent streams addresses)
    (names : NamesUnique streams) (name : Option (List UInt8)) (settings : Option StreamSettings) :
    (Keeps streams (.addStream name settings) →
      ∃ after left, next streams (.addStream name settings) = some after ∧
        Consistent after left ∧ NamesUnique after) ∧
    ((∃ after, next streams (.addStream name settings) = some after ∧ NamesUnique after) →
      Keeps streams (.addStream name settings)) := by
  cases name with
  | none => exact ⟨fun _ => ⟨_, _, rfl, consistent, names⟩, fun _ => trivial⟩
  | some name =>
      cases settings with
      | none => exact ⟨fun _ => ⟨_, _, rfl, consistent, names⟩, fun _ => trivial⟩
      | some settings =>
          have result : next streams (.addStream (some name) (some settings)) =
              some (if settings.created then mgwStreamCreate streams name settings
                else streams) := by
            unfold next execute mgwDeviceAddStream
            dsimp only
            split_ifs <;> rfl
          have unique := created_unique_iff consistent names name settings
          rw [result]
          unfold Keeps
          rw [consistent_list consistent]
          cases made : settings.created with
          | false =>
              refine ⟨fun _ => ⟨_, _, rfl, consistent, names⟩, fun _ created => ?_⟩
              exact absurd (made.symm.trans created) Bool.false_ne_true
          | true =>
              rw [if_pos rfl]
              constructor
              · intro keeps
                have after := unique.mpr (keeps made)
                cases kind : settings.is_private with
                | true =>
                    have apart := keeps made
                    rw [kind, if_pos rfl] at apart
                    exact ⟨_, _, rfl, create_private consistent kind apart name, after⟩
                | false => exact ⟨_, _, rfl, create_public consistent kind name, after⟩
              · intro reached created
                obtain ⟨after, same, names'⟩ := reached
                rw [← Option.some.inj same] at names'
                exact unique.mp names'

/-- The list of `Mgw.Device` is what can be found by name. -/
theorem add_stream_device (consistent : Consistent streams addresses)
    {stream_list priv_streams_list : List Device.NamedStream}
    (same : stream_list.map Device.NamedStream.obj_name = publicNames streams)
    (name : Option (List UInt8)) (settings : Option StreamSettings)
    (apart : ∀ first ∈ streams.links.pointee (.head .priv_streams_list), first ∉ addresses) :
    let added := Device.mgwDeviceAddStream stream_list priv_streams_list name settings
    let outcome := mgwDeviceAddStream streams name settings
    added.stream_list.map Device.NamedStream.obj_name = publicNames outcome.streams ∧
      added.progress = outcome.progress := by
  cases name with
  | none => exact ⟨same, rfl⟩
  | some name =>
      cases settings with
      | none => exact ⟨same, rfl⟩
      | some settings =>
          unfold Device.mgwDeviceAddStream mgwDeviceAddStream
          dsimp only
          cases settings.created with
          | false => exact ⟨same, rfl⟩
          | true =>
              rw [if_pos rfl, if_pos rfl]
              refine ⟨?_, rfl⟩
              dsimp only
              cases kind : settings.is_private with
              | true =>
                  rw [if_pos rfl, public_names (create_private consistent kind apart name),
                    created_names consistent, same, public_names consistent]
              | false =>
                  rw [if_neg Bool.false_ne_true, List.map_cons,
                    public_names (create_public consistent kind name), List.filterMap_cons,
                    created_name, kind, if_neg Bool.false_ne_true, created_names consistent, same,
                    public_names consistent]

theorem add_stream_obj_unique (consistent : Consistent streams addresses)
    (names : NamesUnique streams) (address : Option Nat) :
    (Keeps streams (.addStreamObj address) →
      ∃ after left, next streams (.addStreamObj address) = some after ∧
        Consistent after left ∧ NamesUnique after) ∧
    ((∃ after, next streams (.addStreamObj address) = some after ∧ NamesUnique after) →
      Keeps streams (.addStreamObj address)) := by
  cases address with
  | none => exact ⟨fun _ => ⟨_, _, rfl, consistent, names⟩, fun _ => trivial⟩
  | some address =>
      unfold Keeps
      rw [consistent_list consistent]
      cases there : streams.stream address with
      | none =>
          constructor
          · intro keeps
            obtain ⟨stream, impossible, -⟩ := keeps
            exact nomatch there.symm.trans impossible
          · intro reached
            obtain ⟨after, result, -⟩ := reached
            unfold next execute mgwDeviceAddStreamObj at result
            dsimp only at result
            rw [there] at result
            contradiction
      | some stream =>
          rw [add_stream_obj consistent there]
          split_ifs with listed
          · exact ⟨fun _ => ⟨_, _, rfl, consistent, names⟩, fun _ => ⟨stream, there, fun _ => listed⟩⟩
          · have unique := added_obj_unique_iff consistent names there listed
            constructor
            · intro keeps
              obtain ⟨present, same, apart⟩ := keeps
              rw [← Option.some.inj (there.symm.trans same)] at apart
              have new : address ∉ addresses := fun member => listed (apart member)
              exact ⟨_, _, rfl, insert_consistent consistent there new, unique.mpr new⟩
            · intro reached
              obtain ⟨after, same, names'⟩ := reached
              rw [← Option.some.inj same] at names'
              exact ⟨stream, there, fun member => absurd member (unique.mp names')⟩

theorem release_stream_unique (consistent : Consistent streams addresses)
    (names : NamesUnique streams) (name : Option (List UInt8)) (ends : Bool) :
    ∃ after left, next streams (.releaseStream name ends) = some after ∧
      Consistent after left ∧ NamesUnique after := by
  cases name with
  | none => exact ⟨_, _, rfl, consistent, names⟩
  | some name =>
      rw [release_stream consistent]
      cases found : addresses.find? fun address => publicName streams address = some name with
      | none => exact ⟨_, _, rfl, consistent, names⟩
      | some address =>
          obtain ⟨left, consistent', fewer, kept⟩ :=
            release_cases consistent (List.mem_of_find?_eq_some found) ends
          exact ⟨_, left, rfl, consistent', released_unique consistent names consistent' fewer kept⟩

theorem step_unique (consistent : Consistent streams addresses) (names : NamesUnique streams)
    (call : Call) :
    (Keeps streams call → ∃ after left, next streams call = some after ∧ Consistent after left ∧
      NamesUnique after) ∧
    ((∃ after, next streams call = some after ∧ NamesUnique after) → Keeps streams call) := by
  cases call with
  | addStream name settings => exact add_stream_unique consistent names name settings
  | addStreamObj address => exact add_stream_obj_unique consistent names address
  | releaseStream name ends =>
      exact ⟨fun _ => release_stream_unique consistent names name ends, fun _ => trivial⟩

end Calls

theorem new_device_consistent (device : NewDevice) : Consistent device.streams [] where
  chain := device.empty
  locked := fun _ impossible => nomatch impossible
  below := device.below

theorem new_device_unique (device : NewDevice) : NamesUnique device.streams := by
  rw [names_unique_iff (new_device_consistent device)]
  exact List.nodup_nil

/-- A search finds nothing, or the stream of that name and no other of the list has it. -/
def FindsOnly (streams : Streams) (name : List UInt8) : Prop :=
  ∃ found, mgwGetWeakStreamByName streams name = some found ∧
    ∀ address ∈ streamList streams, publicName streams address = some name ↔ found = some address

theorem finds_only {streams : Streams} {addresses : List Nat}
    (consistent : Consistent streams addresses) (names : NamesUnique streams) (name : List UInt8) :
    FindsOnly streams name := by
  refine ⟨_, get_weak_stream consistent name, fun address member => ?_⟩
  rw [consistent_list consistent] at member
  have unique := (names_unique_iff consistent).mp names
  constructor
  · intro named
    cases found : addresses.find? fun address => publicName streams address = some name with
    | none =>
        have missing := List.find?_eq_none.mp found address member
        exact absurd (decide_eq_true named) missing
    | some other =>
        rw [named_once unique member (List.mem_of_find?_eq_some found) named (found_name found)]
  · intro found
    exact found_name found

/-- As long as every call meets its condition the names on the list are apart and each
search finds the one stream of its name; the first call that does not meet it ends that. -/
theorem names_unique_in_runs (device : NewDevice) (calls : List Call)
    (meets : TryMeets next Keeps device.streams calls) :
    ∃ final, tryRun next device.streams calls = some final ∧ NamesUnique final ∧
      (∀ name, FindsOnly final name) ∧
      ∀ call, (∃ after, next final call = some after ∧ NamesUnique after) ↔ Keeps final call := by
  have preserves : ∀ streams call,
      (∃ addresses, Consistent streams addresses ∧ NamesUnique streams) → Keeps streams call →
        ∃ after, next streams call = some after ∧
          ∃ addresses, Consistent after addresses ∧ NamesUnique after := by
    intro streams call reached keeps
    obtain ⟨addresses, consistent, names⟩ := reached
    obtain ⟨after, left, result, consistent', names'⟩ :=
      (step_unique consistent names call).1 keeps
    exact ⟨after, result, left, consistent', names'⟩
  obtain ⟨final, reached, addresses, consistent, names⟩ := try_run_invariant preserves calls
    device.streams ⟨[], new_device_consistent device, new_device_unique device⟩ meets
  refine ⟨final, reached, names, finds_only consistent names, fun call => ?_⟩
  obtain ⟨kept, breaks⟩ := step_unique consistent names call
  refine ⟨breaks, fun keeps => ?_⟩
  obtain ⟨after, left, result, -, names'⟩ := kept keeps
  exact ⟨after, result, names'⟩

/-- A public stream that is not on the list of the device, as `mgw_stream_create` makes it
without a device. -/
def strayStream : NewDevice where
  streams :=
    { links := insert layout { pointee := fun _ => none, prevNext := fun _ => none }
        (.head .priv_streams_list) 0
      stream := fun address =>
        if address = 0 then
          some { obj_name := [98], is_private := false, refs := 0, mutex := some .priv_streams_list }
        else none
      allocated := 1 }
  empty := by decide
  below := by
    intro address live
    dsimp only at live
    split_ifs at live with first
    · rw [first]
      exact Nat.one_pos
    · exact absurd rfl live

def plainSettings : StreamSettings where
  is_private := false
  created := true
  unnamed_index := 0
  source := none
  outputs := none

theorem names_unique_in_runs_released :
    ∃ final, tryRun next strayStream.streams [.addStream (some [97]) (some plainSettings),
        .addStreamObj (some 0), .addStreamObj (some 0), .releaseStream (some [97]) true,
        .addStream (some [97]) (some plainSettings)] = some final ∧ NamesUnique final ∧
      (∀ name, FindsOnly final name) ∧
      ∀ call, (∃ after, next final call = some after ∧ NamesUnique after) ↔ Keeps final call :=
  names_unique_in_runs strayStream _ (by decide)

/-- The second stream of a name is added like the first one, where the other way in
refuses it. -/
theorem same_name_added_twice :
    (tryRun next strayStream.streams [.addStream (some [98]) (some plainSettings),
        .addStream (some [98]) (some plainSettings)]).map publicNames = some [[98], [98]] ∧
      (tryRun next strayStream.streams [.addStream (some [98]) (some plainSettings),
        .addStreamObj (some 0)]).map publicNames = some [[98]] ∧
      ¬∀ calls, ∀ final ∈ tryRun next strayStream.streams calls, NamesUnique final := by
  have twice : (tryRun next strayStream.streams [.addStream (some [98]) (some plainSettings),
      .addStream (some [98]) (some plainSettings)]).map publicNames = some [[98], [98]] := by
    decide
  refine ⟨twice, by decide, fun claimed => ?_⟩
  obtain ⟨final, reached, names⟩ := Option.map_eq_some_iff.mp twice
  have unique := (claimed _ final reached).unique
  rw [names] at unique
  exact absurd unique (by decide)

end Mgw.DeviceStreams

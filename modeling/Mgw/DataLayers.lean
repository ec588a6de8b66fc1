import Mgw.DataValues
import Mgw.TransitionRuns

/-!
# The layers of an `mgw_data`

Every name has a type and three values that are set, replaced and removed on their own.
The packed items of the list show the same to every getter, whatever is moved or
reallocated in between.
-/

namespace Mgw.DataLayers

open ByteArea DataItems DataValues PackedItem TransitionRuns

set_option autoImplicit false

abbrev Items := List (Name × Item)

/-- The last branches of `set_item_data`. -/
def setLayer (item : Item) (data : List UInt8) (type : DataType) (layer : Layer) (fresh : Bytes) :
    Option Item :=
  match layer with
  | .default => item.setDefaultData fresh data type
  | .autoselect => item.setAutoselectData fresh data type
  | .user => item.setdata fresh data type

/-- `set_item_data` with the flags of the layer. -/
def setItemData (items : Items) (name : Name) (data : List UInt8) (type : DataType)
    (layer : Layer) (fresh : Bytes) : Option Items :=
  match getItem name items with
  | none => (create data type layer).map fun item => linkItem (name, item) items
  | some item =>
      (setLayer item data type layer fresh).map fun item => replaceItem name item items

/-- `set_item`, `set_item_def` and `set_item_auto`. Only the default value of an item with
another type is refused. -/
def setItem (items : Items) (name : Name) (data : List UInt8) (type : DataType) (layer : Layer)
    (fresh : Bytes) : Option Items :=
  match layer with
  | .default =>
      if ∃ item ∈ getItem name items, item.type ≠ type then some items
      else setItemData items name data type .default fresh
  | layer => setItemData items name data type layer fresh

/-- `mgw_data_item_unset_user_value` and the two others. -/
def unsetLayer (item : Item) : Layer → Option Item
  | .user => item.unsetUserValue
  | .default => item.unsetDefaultValue
  | .autoselect => item.unsetAutoselectValue

def unsetValue (items : Items) (name : Name) (layer : Layer) : Option Items :=
  match getItem name items with
  | none => some items
  | some item => (unsetLayer item layer).map fun item => replaceItem name item items

def mgwDataClear : Items → Option Items
  | [] => some []
  | item :: rest => do
      let cleared ← item.2.clear
      let others ← mgwDataClear rest
      return (item.1, cleared) :: others

/-- `fresh` are the bytes that a reallocation finds behind the old ones. -/
inductive Call where
  | set (layer : Layer) (name : Name) (value : Value) (fresh : Bytes)
  | unset (layer : Layer) (name : Name)
  | clear
  | erase (name : Name)

def next (items : Items) : Call → Option Items
  | .set layer name value fresh => setItem items name value.bytes value.type layer fresh
  | .unset layer name => unsetValue items name layer
  | .clear => mgwDataClear items
  | .erase name => some (detachItem name items)

section Getters

variable {α : Type} (getter : Getter α) (name : Name) (items : Items)

def mgwDataGet : Option α :=
  dataItemGet getter.type getter.nothing getter.read Item.getItemData (getItem name items)

/-- The default getters of objects and arrays take `get_item_obj` and `get_item_array`. -/
def defaultData (type : DataType) (item : Item) : Option Nat :=
  if type = .object ∨ type = .array then item.getItemData else item.getItemDefaultData

def mgwDataGetDefault : Option α :=
  dataItemGet getter.type getter.nothing getter.read (defaultData getter.type) (getItem name items)

end Getters

/-- What a name has: the type that was set last, and up to three values. -/
structure Layers where
  type : DataType
  value : Layer → Option Value

abbrev Account := Name → Option Layers

def Layers.put (slots : Option Layers) (layer : Layer) (value : Value) : Layers where
  type := value.type
  value := Function.update (slots.elim (fun _ => none) Layers.value) layer (some value)

def Layers.remove (layer : Layer) (slots : Layers) : Layers :=
  { slots with value := Function.update slots.value layer none }

/-- The value that is there first. -/
def Layers.first (slots : Layers) : Option Value :=
  (slots.value .user).or ((slots.value .default).or (slots.value .autoselect))

/-- A default value of another type than the name has. -/
def Refused (slots : Option Layers) (layer : Layer) (value : Value) : Prop :=
  layer = .default ∧ ∃ present ∈ slots, present.type ≠ value.type

instance (slots : Option Layers) (layer : Layer) (value : Value) :
    Decidable (Refused slots layer value) :=
  inferInstanceAs (Decidable (_ ∧ _))

def account (slots : Account) : Call → Account
  | .set layer name value _ =>
      if Refused (slots name) layer value then slots
      else Function.update slots name (some (Layers.put (slots name) layer value))
  | .unset layer name => Function.update slots name ((slots name).map (Layers.remove layer))
  | .clear => fun name => (slots name).map (Layers.remove .user)
  | .erase name => Function.update slots name none

/-- The item shows these layers. -/
structure Holds (item : Item) (slots : Layers) : Prop where
  laid : Laid item
  type : item.type = slots.type
  layer : item.layer = fun layer => (slots.value layer).map Value.bytes

structure Shows (items : Items) (slots : Account) : Prop where
  sorted : Sorted items
  each : ∀ name, Option.Rel Holds (getItem name items) (slots name)

section Steps

variable {items : Items} {slots : Account} {name : Name} {item : Item} {present : Layers}
  {layer : Layer} {value : Value}

theorem shows_none (shows' : Shows items slots) :
    getItem name items = none ↔ slots name = none := by
  have each := shows'.each name
  generalize getItem name items = found at each ⊢
  generalize slots name = held at each ⊢
  cases each with
  | none => exact ⟨fun _ => rfl, fun _ => rfl⟩
  | some holds => exact ⟨nofun, nofun⟩

theorem shows_some (shows' : Shows items slots) (found : getItem name items = some item) :
    ∃ present, slots name = some present ∧ Holds item present := by
  have each := shows'.each name
  rw [found] at each
  generalize slots name = held at each ⊢
  cases each with
  | some holds => exact ⟨_, rfl, holds⟩

/-- One name is found to have a new item, and the others have what they had. -/
theorem shows_written (shows' : Shows items slots) {items' : Items} (sorted : Sorted items')
    (found : ∀ other, getItem other items' =
      if other = name then some item else getItem other items)
    (holds : Holds item present) : Shows items' (Function.update slots name (some present)) where
  sorted := sorted
  each := by
    intro other
    rw [found other]
    by_cases same : other = name
    · rw [if_pos same, same, Function.update_self]
      exact Option.Rel.some holds
    · rw [if_neg same, Function.update_of_ne same]
      exact shows'.each other

theorem shows_replaced (shows' : Shows items slots) {old : Item}
    (found : getItem name items = some old) (holds : Holds item present) :
    Shows (replaceItem name item items) (Function.update slots name (some present)) :=
  shows_written shows' (sorted_replace shows'.sorted name item) (get_replace found) holds

theorem shows_linked (shows' : Shows items slots) (absent : getItem name items = none)
    (holds : Holds item present) :
    Shows (linkItem (name, item) items) (Function.update slots name (some present)) :=
  shows_written shows' (sorted_link shows'.sorted absent) (get_link shows'.sorted absent) holds

/-- The bytes of the values follow an update of the values. -/
theorem update_bytes (values : Layer → Option Value) (layer : Layer) (value : Option Value) :
    (fun other => (Function.update values layer value other).map Value.bytes) =
      Function.update (fun other => (values other).map Value.bytes) layer
        (value.map Value.bytes) := by
  funext other
  by_cases same : other = layer
  · rw [same, Function.update_self, Function.update_self]
  · rw [Function.update_of_ne same, Function.update_of_ne same]

theorem set_layer (laid : Laid item) {data : List UInt8} (some' : data ≠ []) (type : DataType)
    (layer : Layer) (fresh : Bytes) :
    ∃ after, setLayer item data type layer fresh = some after ∧ Laid after ∧ after.type = type ∧
      after.layer = Function.update item.layer layer (some data) := by
  cases layer with
  | user => exact setdata_layers laid fresh some' type
  | default => exact set_default_data_layers laid fresh some' type
  | autoselect => exact set_autoselect_data_layers laid fresh some' type

theorem unset_layer (laid : Laid item) (layer : Layer) :
    ∃ after, unsetLayer item layer = some after ∧ Laid after ∧ after.type = item.type ∧
      after.layer = Function.update item.layer layer none := by
  cases layer with
  | user => exact unset_user_layers laid
  | default => exact unset_default_layers laid
  | autoselect => exact unset_autoselect_layers laid

theorem set_item_data_shows (shows' : Shows items slots) (name : Name) (value : Value)
    (layer : Layer) (fresh : Bytes) :
    ∃ after, setItemData items name value.bytes value.type layer fresh = some after ∧
      Shows after (Function.update slots name (some (Layers.put (slots name) layer value))) := by
  have filled := value_bytes_filled value
  unfold setItemData
  cases found : getItem name items with
  | none =>
      obtain ⟨item, created, laid, type, layers⟩ := create_layers filled value.type layer
      rw [created]
      refine ⟨_, rfl, shows_linked shows' found ⟨laid, type, ?_⟩⟩
      rw [layers, (shows_none shows').mp found]
      exact (update_bytes (fun _ => none) layer (some value)).symm
  | some old =>
      obtain ⟨present, held, holds⟩ := shows_some shows' found
      obtain ⟨item, result, laid, type, layers⟩ :=
        set_layer holds.laid filled value.type layer fresh
      dsimp only
      rw [result]
      refine ⟨_, rfl, shows_replaced shows' found ⟨laid, type, ?_⟩⟩
      rw [layers, holds.layer, held]
      exact (update_bytes present.value layer (some value)).symm

/-- A default value is refused by the item as it is by the account. -/
theorem refused_shown (shows' : Shows items slots) :
    (∃ item ∈ getItem name items, item.type ≠ value.type) ↔
      Refused (slots name) .default value := by
  constructor
  · intro refused
    obtain ⟨item, found, different⟩ := refused
    obtain ⟨present, held, holds⟩ := shows_some shows' found
    refine ⟨rfl, present, held, ?_⟩
    rw [← holds.type]
    exact different
  · intro refused
    obtain ⟨-, present, held, different⟩ := refused
    cases found : getItem name items with
    | none =>
        rw [(shows_none shows').mp found] at held
        contradiction
    | some item =>
        obtain ⟨same, accounted, holds⟩ := shows_some shows' found
        refine ⟨item, rfl, ?_⟩
        rw [holds.type, Option.some.inj (accounted.symm.trans held)]
        exact different

theorem set_shows (shows' : Shows items slots) (layer : Layer) (name : Name) (value : Value)
    (fresh : Bytes) :
    ∃ after, setItem items name value.bytes value.type layer fresh = some after ∧
      Shows after (account slots (.set layer name value fresh)) := by
  rw [account]
  split_ifs with refused
  · have isDefault := refused.1
    subst isDefault
    unfold setItem
    dsimp only
    rw [if_pos ((refused_shown shows').mpr refused)]
    exact ⟨items, rfl, shows'⟩
  · cases layer with
    | user => exact set_item_data_shows shows' name value .user fresh
    | default =>
        unfold setItem
        dsimp only
        rw [if_neg fun other => refused ((refused_shown shows').mp other)]
        exact set_item_data_shows shows' name value .default fresh
    | autoselect => exact set_item_data_shows shows' name value .autoselect fresh

theorem removed_holds {old : Item} (holds : Holds old present) (laid : Laid item)
    (type : item.type = old.type) (layers : item.layer = Function.update old.layer layer none) :
    Holds item (present.remove layer) := by
  refine ⟨laid, type.trans holds.type, ?_⟩
  rw [layers, holds.layer]
  exact (update_bytes present.value layer none).symm

theorem unset_shows (shows' : Shows items slots) (layer : Layer) (name : Name) :
    ∃ after, unsetValue items name layer = some after ∧
      Shows after (account slots (.unset layer name)) := by
  rw [account]
  unfold unsetValue
  cases found : getItem name items with
  | none =>
      have absent := (shows_none shows').mp found
      refine ⟨items, rfl, ?_⟩
      rw [absent, Option.map_none, ← absent, Function.update_eq_self]
      exact shows'
  | some old =>
      obtain ⟨present, held, holds⟩ := shows_some shows' found
      obtain ⟨item, result, laid, type, layers⟩ := unset_layer holds.laid layer
      dsimp only
      rw [result, held]
      exact ⟨_, rfl, shows_replaced shows' found (removed_holds holds laid type layers)⟩

/-- Clearing reaches every item. -/
theorem clear_each (items : Items) (laid : ∀ item ∈ items, Laid item.2) :
    ∃ after, mgwDataClear items = some after ∧
      after.map Prod.fst = items.map Prod.fst ∧
      ∀ name, Option.Rel (fun (new old : Item) => Laid new ∧ new.type = old.type ∧
        new.layer = Function.update old.layer .user none) (getItem name after)
        (getItem name items) := by
  induction items with
  | nil => exact ⟨[], rfl, rfl, fun _ => Option.Rel.none⟩
  | cons item items ih =>
      obtain ⟨others, rest, names, each⟩ :=
        ih fun other member => laid other (List.mem_cons_of_mem _ member)
      obtain ⟨cleared, result, changed⟩ := clear_layers (laid item List.mem_cons_self)
      refine ⟨(item.1, cleared) :: others, ?_, ?_, ?_⟩
      · rw [mgwDataClear, result, rest]
        rfl
      · rw [List.map_cons, List.map_cons, names]
      · intro name
        rw [getItem, getItem]
        split_ifs
        · exact Option.Rel.some changed
        · exact each name

theorem clear_shows (shows' : Shows items slots) :
    ∃ after, mgwDataClear items = some after ∧ Shows after (account slots .clear) := by
  have laid : ∀ item ∈ items, Laid item.2 := by
    intro item member
    obtain ⟨present, -, holds⟩ := shows_some shows' (get_of_member shows'.sorted member)
    exact holds.laid
  obtain ⟨after, result, names, each⟩ := clear_each items laid
  refine ⟨after, result, ?_, ?_⟩
  · rw [sorted_names, names]
    exact sorted_names.mp shows'.sorted
  · intro name
    rw [account]
    dsimp only
    have changed := each name
    have shown := shows'.each name
    generalize getItem name items = old at changed shown
    generalize getItem name after = new at changed ⊢
    generalize slots name = held at shown ⊢
    cases changed with
    | none =>
        cases shown with
        | none => exact Option.Rel.none
    | some cleared =>
        cases shown with
        | some holds => exact Option.Rel.some (removed_holds holds cleared.1 cleared.2.1 cleared.2.2)

theorem erase_shows (shows' : Shows items slots) (name : Name) :
    Shows (detachItem name items) (account slots (.erase name)) where
  sorted := sorted_detach shows'.sorted name
  each := by
    intro other
    rw [account, get_detach shows'.sorted]
    by_cases same : other = name
    · rw [if_pos same, same, Function.update_self]
      exact Option.Rel.none
    · rw [if_neg same, Function.update_of_ne same]
      exact shows'.each other

theorem step_shows (shows' : Shows items slots) (call : Call) :
    ∃ after, next items call = some after ∧ Shows after (account slots call) := by
  cases call with
  | set layer name value fresh => exact set_shows shows' layer name value fresh
  | unset layer name => exact unset_shows shows' layer name
  | clear => exact clear_shows shows'
  | erase name => exact ⟨_, rfl, erase_shows shows' name⟩

end Steps

/-- The items after any calls show the account of the calls. -/
theorem run_shows (calls : List Call) :
    ∃ items, tryRun next [] calls = some items ∧ Shows items (run account (fun _ => none) calls) := by
  have start : Shows ([] : Items) (fun _ => none) := ⟨List.Pairwise.nil, fun _ => Option.Rel.none⟩
  obtain ⟨performed, -⟩ := @try_run_tracked Items Call next Account account (fun _ _ => True)
    (fun slots items => Shows items slots)
    (fun slots items call shows' _ => step_shows shows' call)
    (fun _ _ _ _ refused => absurd trivial refused) calls (fun _ => none) [] start
  exact performed (meets_of_forall (fun _ _ => trivial) calls _)

/-- What a getter returns for a value, where the name has the type that is asked for. -/
structure Answers {α : Type} (getter : Getter α) (slots : Option Layers)
    (value : Layers → Option Value) (result : Option α) : Prop where
  other : (∀ present ∈ slots, present.type ≠ getter.type) → result = some getter.nothing
  missing : (∀ present ∈ slots, value present = none) → result = some getter.nothing
  found : ∀ present ∈ slots, ∀ stored ∈ value present, present.type = getter.type →
    stored.type = getter.type → result = some (getter.payload stored)

section Getting

variable {items : Items} {slots : Account} {item : Item} {present : Layers} {layer : Layer}
  {stored : Value}

theorem size_stored (holds : Holds item present) (layer : Layer) :
    item.size layer = 0 ↔ present.value layer = none := by
  have layers := congrFun holds.layer layer
  unfold Item.layer at layers
  split_ifs at layers with none
  · simp [none, Option.map_eq_none_iff.mp layers.symm]
  · simp only [none, false_iff]
    intro absent
    rw [absent] at layers
    contradiction

theorem value_stored (holds : Holds item present) (found : present.value layer = some stored) :
    Stored item (item.pointer layer) stored.bytes := by
  apply layer_stored holds.laid
  rw [holds.layer]
  dsimp only
  rw [found, Option.map_some]

/-- `get_item_data` points to the value that is there first. -/
theorem first_pointer (holds : Holds item present) :
    (present.first = none → item.getItemData = none) ∧
      ∀ stored, present.first = some stored →
        ∃ ptr, item.getItemData = some ptr ∧ Stored item ptr stored.bytes := by
  have user : item.data_size = 0 ↔ present.value .user = none := size_stored holds .user
  have default : item.default_size = 0 ↔ present.value .default = none :=
    size_stored holds .default
  have autoselect : item.autoselect_size = 0 ↔ present.value .autoselect = none :=
    size_stored holds .autoselect
  unfold Layers.first Item.getItemData
  cases userValue : present.value .user with
  | some value =>
      rw [Option.some_or]
      refine ⟨nofun, fun stored same => ⟨0, ?_, ?_⟩⟩
      · exact if_neg fun none => by simp [user.mp none.1] at userValue
      · rw [← Option.some.inj same]
        exact value_stored holds userValue
  | none =>
      have front := holds.laid.user_none (user.mpr userValue)
      rw [Option.none_or]
      cases defaultValue : present.value .default with
      | some value =>
          rw [Option.some_or]
          refine ⟨nofun, fun stored same => ⟨item.pointer .default, ?_, ?_⟩⟩
          · rw [if_neg fun none => by simp [default.mp none.2.1] at defaultValue]
            exact congrArg some front.symm
          · rw [← Option.some.inj same]
            exact value_stored holds defaultValue
      | none =>
          have behind := holds.laid.default_none (default.mpr defaultValue)
          rw [Option.none_or]
          constructor
          · intro none
            exact if_pos ⟨user.mpr userValue, default.mpr defaultValue, autoselect.mpr none⟩
          · intro stored found
            refine ⟨item.pointer .autoselect, ?_, value_stored holds found⟩
            rw [if_neg fun none => by simp [autoselect.mp none.2.2] at found]
            change some 0 = some (item.data_len + item.default_len)
            rw [front, behind]

theorem default_pointer (holds : Holds item present) :
    (present.value .default = none → item.getItemDefaultData = none) ∧
      ∀ stored, present.value .default = some stored →
        ∃ ptr, item.getItemDefaultData = some ptr ∧ Stored item ptr stored.bytes := by
  have default : item.default_size = 0 ↔ present.value .default = none :=
    size_stored holds .default
  constructor
  · intro none
    exact if_pos (default.mpr none)
  · intro stored found
    refine ⟨item.pointer .default, if_neg fun none => ?_, value_stored holds found⟩
    simp [default.mp none] at found

/-- A getter answers with the value that its pointer function points to. -/
theorem getter_answers {α : Type} (shows' : Shows items slots) (getter : Getter α)
    (getData : Item → Option Nat) (value : Layers → Option Value)
    (points : ∀ item present, Holds item present →
      (value present = none → getData item = none) ∧
      ∀ stored, value present = some stored →
        ∃ ptr, getData item = some ptr ∧ Stored item ptr stored.bytes) (name : Name) :
    Answers getter (slots name) value
      (dataItemGet getter.type getter.nothing getter.read getData (getItem name items)) := by
  have each := shows'.each name
  generalize getItem name items = found at each ⊢
  generalize slots name = held at each ⊢
  cases each with
  | none => exact ⟨fun _ => rfl, fun _ => rfl, nofun⟩
  | @some item present holds =>
      obtain ⟨nowhere, somewhere⟩ := points item present holds
      unfold dataItemGet
      dsimp only
      constructor
      · intro different
        rw [if_neg]
        rw [holds.type]
        exact different present rfl
      · intro missing
        rw [nowhere (missing present rfl)]
        split_ifs
        · rfl
        · rfl
      · intro other same stored member typed kind
        rw [← Option.some.inj same] at member typed
        obtain ⟨ptr, pointer, bytes⟩ := somewhere stored member
        rw [if_pos (holds.type.trans typed), pointer]
        exact getter.reads item ptr stored kind bytes

end Getting

/-- What a getter that asks for nothing else sees of an item. -/
def contents (item : Item) : DataType × (Layer → Option (List UInt8)) := (item.type, item.layer)

def Layers.contents (present : Layers) : DataType × (Layer → Option (List UInt8)) :=
  (present.type, fun layer => (present.value layer).map Value.bytes)

/-- What the calls leave of each name. -/
def slotsAfter (calls : List Call) : Account := run account (fun _ => none) calls

def Layers.default (present : Layers) : Option Value := present.value .default

/-- Whatever the calls, no copy leaves an item, and the items have the type and the bytes
of the account; the getters return the value that is there first, or the default value. -/
theorem layers_are_slots (calls : List Call) :
    ∃ items, tryRun next [] calls = some items ∧
      ∀ name,
        (getItem name items).map contents = (slotsAfter calls name).map Layers.contents ∧
          (∀ (α : Type) (getter : Getter α),
            Answers getter (slotsAfter calls name) Layers.first (mgwDataGet getter name items)) ∧
          ∀ (α : Type) (getter : Getter α), getter.type ≠ .object → getter.type ≠ .array →
            Answers getter (slotsAfter calls name) Layers.default
              (mgwDataGetDefault getter name items) := by
  obtain ⟨items, reached, shows'⟩ := run_shows calls
  refine ⟨items, reached, fun name => ⟨?_, ?_, ?_⟩⟩
  · have each := shows'.each name
    unfold slotsAfter
    generalize getItem name items = found at each ⊢
    generalize run account (fun _ => none) calls name = held at each ⊢
    cases each with
    | none => rfl
    | some holds =>
        rw [Option.map_some, Option.map_some]
        exact congrArg some (Prod.ext holds.type holds.layer)
  · intro α getter
    exact getter_answers shows' getter _ _ (fun item present holds => first_pointer holds) name
  · intro α getter notObject notArray
    apply getter_answers shows' getter
    intro item present holds
    have plain : defaultData getter.type item = item.getItemDefaultData :=
      if_neg fun either => either.elim notObject notArray
    rw [plain]
    exact default_pointer holds

/-- A default number is not returned any more once a string is set by the user, and is not
kept at all beside a string. -/
theorem layers_share_their_type :
    (tryRun next []
        [.set .default ⟨[97], by decide⟩ (.number (.int 5) 0) (fun _ => 0),
          .set .user ⟨[97], by decide⟩ (.string ⟨[120], by decide⟩) fun _ => 0]).bind
      (mgwDataGetDefault (intGetter UInt64.toInt64) ⟨[97], by decide⟩) = some 0 ∧
    (tryRun next []
        [.set .user ⟨[97], by decide⟩ (.string ⟨[120], by decide⟩) (fun _ => 0),
          .set .default ⟨[97], by decide⟩ (.number (.int 5) 0) fun _ => 0]).map
      (fun items => (getItem ⟨[97], by decide⟩ items).bind fun item => item.layer .default) =
        some none := by
  constructor
  · rfl
  · rfl

end Mgw.DataLayers

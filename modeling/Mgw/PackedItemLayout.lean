import Mgw.PackedItem
import Mathlib.Logic.Function.Basic

/-!
# The layers of a packed item

An item is read as three optional values. Setting or removing one of them leaves the
others as they are, wherever they are moved to, and no copy leaves the allocation.
-/

namespace Mgw.PackedItem

open ByteArea

set_option autoImplicit false

def Item.size (item : Item) : Layer → Nat
  | .user => item.data_size
  | .default => item.default_size
  | .autoselect => item.autoselect_size

def Item.pointer (item : Item) : Layer → Nat
  | .user => 0
  | .default => item.getDefaultDataPtr
  | .autoselect => item.getAutoselectDataPtr

/-- The value of a layer, none if it has none. -/
def Item.layer (item : Item) (layer : Layer) : Option (List UInt8) :=
  if item.size layer = 0 then none
  else some (takeBytes (advance item.area (item.pointer layer)) (item.size layer))

/-- How the sizes and lengths of an item fit together. -/
structure Laid (item : Item) : Prop where
  user : item.data_size ≤ item.data_len
  user_none : item.data_size = 0 → item.data_len = 0
  user_aligned : item.data_size ≠ 0 → item.default_size ≠ 0 ∨ item.autoselect_size ≠ 0 →
    item.data_len = getAlignSize item.data_size
  default : item.default_size ≤ item.default_len
  default_none : item.default_size = 0 → item.default_len = 0
  default_aligned : item.default_size ≠ 0 → item.autoselect_size ≠ 0 →
    item.default_len = getAlignSize item.default_size
  fits : item.totalSize ≤ item.capacity

theorem align_size_le (size : Nat) : size ≤ getAlignSize size := by
  unfold getAlignSize
  omega

section Reading

variable {item item' : Item} {layer : Layer} {data : List UInt8}

theorem layer_same (size : item'.size layer = item.size layer)
    (bytes : ∀ index < item.size layer,
      item'.area (item'.pointer layer + index) = item.area (item.pointer layer + index)) :
    item'.layer layer = item.layer layer := by
  unfold Item.layer
  rw [size]
  split_ifs
  · rfl
  · apply congrArg some
    apply take_bytes_congr
    intro index bound
    exact bytes index bound

theorem layer_written (some' : data ≠ []) (size : item'.size layer = data.length)
    (bytes : ∀ index < data.length,
      item'.area (item'.pointer layer + index) = bytesOf data index) :
    item'.layer layer = some data := by
  unfold Item.layer
  rw [size, if_neg (by simpa using some')]
  apply congrArg some
  apply Eq.trans _ (take_bytes_get data)
  apply take_bytes_congr
  intro index bound
  exact bytes index bound

/-- One layer is written, the others stay. -/
theorem layers_set (some' : data ≠ []) (size : item'.size layer = data.length)
    (bytes : ∀ index < data.length,
      item'.area (item'.pointer layer + index) = bytesOf data index)
    (sizes : ∀ other ≠ layer, item'.size other = item.size other)
    (kept : ∀ other ≠ layer, ∀ index < item.size other,
      item'.area (item'.pointer other + index) = item.area (item.pointer other + index)) :
    item'.layer = Function.update item.layer layer (some data) := by
  funext other
  by_cases same : other = layer
  · rw [same, Function.update_self]
    exact layer_written some' size bytes
  · rw [Function.update_of_ne same]
    exact layer_same (sizes other same) (kept other same)

/-- One layer is emptied, the others stay. -/
theorem layers_unset (size : item'.size layer = 0)
    (sizes : ∀ other ≠ layer, item'.size other = item.size other)
    (kept : ∀ other ≠ layer, ∀ index < item.size other,
      item'.area (item'.pointer other + index) = item.area (item.pointer other + index)) :
    item'.layer = Function.update item.layer layer none := by
  funext other
  by_cases same : other = layer
  · rw [same, Function.update_self, Item.layer, if_pos size]
  · rw [Function.update_of_ne same]
    exact layer_same (sizes other same) (kept other same)

end Reading

section Copies

variable {item : Item}

theorem memcpy_inside {dest : Nat} {data : List UInt8} (inside : dest + data.length ≤ item.capacity) :
    item.memcpy dest data = some { item with
      area := copyIn item.area dest (bytesOf data) data.length } :=
  if_pos inside

theorem memmove_inside {dest src length : Nat} (target : dest + length ≤ item.capacity)
    (source : src + length ≤ item.capacity) :
    item.memmove dest src length = some { item with
      area := copyIn item.area dest (advance item.area src) length } :=
  if_pos ⟨target, source⟩

theorem item_data_pointer (filled : item.data_size ≠ 0) : item.getItemData = some 0 :=
  if_neg fun none => filled none.1

theorem default_data_pointer (filled : item.default_size ≠ 0) :
    item.getItemDefaultData = some item.data_len := if_neg filled

theorem autoselect_data_pointer (filled : item.autoselect_size ≠ 0) :
    item.getItemAutoselectData = some (item.data_len + item.default_len) := if_neg filled

/-- A larger allocation keeps what was in the smaller one. -/
theorem ensure_capacity (item : Item) (fresh : Bytes) :
    ∃ area capacity,
      item.ensureCapacity fresh = { item with area := area, capacity := capacity } ∧
      item.capacity ≤ capacity ∧ item.data_len + item.default_len + item.autoselect_size ≤ capacity ∧
      ∀ index < item.capacity, area index = item.area index := by
  unfold Item.ensureCapacity
  split_ifs with enough
  · exact ⟨item.area, item.capacity, rfl, le_refl _, enough, fun _ _ => rfl⟩
  · refine ⟨_, _, rfl, by omega, le_refl _, ?_⟩
    intro index bound
    rw [if_pos bound]

end Copies

section Setting

variable {item : Item} {data : List UInt8}

/-- The default and autoselect values move together to behind the new user value. -/
theorem setdata_beside (laid : Laid item) (fresh : Bytes) (some' : data ≠ []) (type : DataType)
    (others : item.default_size ≠ 0 ∨ item.autoselect_size ≠ 0) :
    ∃ item', item.setdata fresh data type = some item' ∧ Laid item' ∧ item'.type = type ∧
      item'.layer = Function.update item.layer .user (some data) := by
  have filled : data.length ≠ 0 := fun none => some' (List.length_eq_zero_iff.mp none)
  have aligned := align_size_le data.length
  have fits := laid.fits
  have default := laid.default
  unfold Item.totalSize at fits
  obtain ⟨area, capacity, resized, grown, enough, kept⟩ := ensure_capacity
    { item with data_size := data.length, type := type, data_len := getAlignSize data.length } fresh
  dsimp only at grown enough kept
  refine ⟨{ item with
    type := type
    data_size := data.length
    data_len := getAlignSize data.length
    capacity := capacity
    area := copyIn (copyIn area (getAlignSize data.length) (advance area item.data_len)
      (item.default_len + item.autoselect_size)) 0 (bytesOf data) data.length },
    ?_, ?_, rfl, ?_⟩
  · unfold Item.setdata
    simp only [if_pos others, resized]
    rw [memmove_inside (by dsimp only [Item.getDefaultDataPtr]; omega)
      (by dsimp only [Item.getDefaultDataPtr]; omega)]
    simp only [Option.bind_eq_bind, Option.bind_some]
    rw [if_neg filled, item_data_pointer filled, Option.bind_some,
      memcpy_inside (by dsimp only; omega)]
    rfl
  · exact ⟨aligned, fun none => absurd none filled, fun _ _ => rfl, default, laid.default_none,
      laid.default_aligned, enough⟩
  · have behind : ∀ index < item.default_len + item.autoselect_size,
        copyIn (copyIn area (getAlignSize data.length) (advance area item.data_len)
          (item.default_len + item.autoselect_size)) 0 (bytesOf data) data.length
          (getAlignSize data.length + index) = item.area (item.data_len + index) := by
      intro index bound
      rw [copy_in_outside _ _ _ _ _ (by omega), copy_in_inside _ _ _ _ _ bound, advance_apply]
      exact kept _ (by omega)
    apply layers_set some' rfl
    · intro index bound
      exact copy_in_inside _ (bytesOf data) 0 _ index bound
    · intro other different
      cases other with
      | user => contradiction
      | default => rfl
      | autoselect => rfl
    · intro other different index bound
      cases other with
      | user => contradiction
      | default =>
          change index < item.default_size at bound
          exact behind index (by omega)
      | autoselect =>
          change index < item.autoselect_size at bound
          have moved := behind (item.default_len + index) (by omega)
          rw [← Nat.add_assoc, ← Nat.add_assoc] at moved
          exact moved

theorem setdata_alone (laid : Laid item) (fresh : Bytes) (some' : data ≠ []) (type : DataType)
    (alone : ¬(item.default_size ≠ 0 ∨ item.autoselect_size ≠ 0)) :
    ∃ item', item.setdata fresh data type = some item' ∧ Laid item' ∧ item'.type = type ∧
      item'.layer = Function.update item.layer .user (some data) := by
  have filled : data.length ≠ 0 := fun none => some' (List.length_eq_zero_iff.mp none)
  have default : item.default_size = 0 := by omega
  have autoselect : item.autoselect_size = 0 := by omega
  have default_len := laid.default_none default
  obtain ⟨area, capacity, resized, grown, enough, kept⟩ := ensure_capacity
    { item with data_size := data.length, type := type, data_len := data.length } fresh
  dsimp only at grown enough kept
  refine ⟨{ item with
    type := type
    data_size := data.length
    data_len := data.length
    capacity := capacity
    area := copyIn area 0 (bytesOf data) data.length }, ?_, ?_, rfl, ?_⟩
  · unfold Item.setdata
    simp only [if_neg alone, resized]
    simp only [Option.bind_eq_bind, Option.bind_some]
    rw [if_neg filled, item_data_pointer filled, Option.bind_some,
      memcpy_inside (by dsimp only; omega)]
  · exact ⟨le_refl _, fun none => none, fun _ others => absurd others alone, laid.default,
      laid.default_none, laid.default_aligned, enough⟩
  · apply layers_set some' rfl
    · intro index bound
      exact copy_in_inside _ (bytesOf data) 0 _ index bound
    · intro other different
      cases other with
      | user => contradiction
      | default => rfl
      | autoselect => rfl
    · intro other different index bound
      cases other with
      | user => contradiction
      | default =>
          change index < item.default_size at bound
          omega
      | autoselect =>
          change index < item.autoselect_size at bound
          omega

theorem setdata_layers (laid : Laid item) (fresh : Bytes) (some' : data ≠ []) (type : DataType) :
    ∃ item', item.setdata fresh data type = some item' ∧ Laid item' ∧ item'.type = type ∧
      item'.layer = Function.update item.layer .user (some data) := by
  by_cases others : item.default_size ≠ 0 ∨ item.autoselect_size ≠ 0
  · exact setdata_beside laid fresh some' type others
  · exact setdata_alone laid fresh some' type others

/-- A length that is aligned beside a value behind it. -/
theorem length_aligned (size : Nat) :
    ∃ len, (if size ≠ 0 then getAlignSize size else 0) = len ∧ size ≤ len ∧ (size = 0 → len = 0) ∧
      (size ≠ 0 → len = getAlignSize size) := by
  by_cases filled : size ≠ 0
  · exact ⟨getAlignSize size, if_pos filled, align_size_le size, fun none => absurd none filled,
      fun _ => rfl⟩
  · rw [Decidable.not_not] at filled
    exact ⟨0, if_neg (not_not.mpr filled), Nat.le_of_eq filled, fun _ => rfl,
      fun some' => absurd filled some'⟩

/-- The autoselect value, if there is one, moves from where it was to its new place. -/
theorem autoselect_moves {src : Nat} (target : item.totalSize ≤ item.capacity)
    (source : src + item.autoselect_size ≤ item.capacity) :
    ∃ area,
      (if item.autoselect_size ≠ 0 then
        item.memmove item.getAutoselectDataPtr src item.autoselect_size else some item) =
          some { item with area := area } ∧
      (∀ index < item.getAutoselectDataPtr, area index = item.area index) ∧
      ∀ index < item.autoselect_size,
        area (item.getAutoselectDataPtr + index) = item.area (src + index) := by
  by_cases autoselect : item.autoselect_size ≠ 0
  · refine ⟨_, (if_pos autoselect).trans (memmove_inside target source), ?_, ?_⟩
    · intro index bound
      exact copy_in_outside _ _ _ _ _ (by omega)
    · intro index bound
      rw [copy_in_inside _ _ _ _ _ bound, advance_apply]
  · exact ⟨item.area, if_neg autoselect, fun _ _ => rfl, fun index bound => by omega⟩

/-- Only the autoselect value moves. -/
theorem set_default_data_layers (laid : Laid item) (fresh : Bytes) (some' : data ≠ [])
    (type : DataType) :
    ∃ item', item.setDefaultData fresh data type = some item' ∧ Laid item' ∧ item'.type = type ∧
      item'.layer = Function.update item.layer .default (some data) := by
  have filled : data.length ≠ 0 := fun none => some' (List.length_eq_zero_iff.mp none)
  have aligned := align_size_le data.length
  have fits := laid.fits
  unfold Item.totalSize at fits
  have size := laid.user
  obtain ⟨before, beforeLen, beforeSize, beforeNone, beforeAligned⟩ := length_aligned item.data_size
  obtain ⟨len, lenEq, covers⟩ :
      ∃ len, (if item.autoselect_size ≠ 0 then getAlignSize data.length else data.length) = len ∧
        data.length ≤ len := by
    refine ⟨_, rfl, ?_⟩
    split_ifs
    · exact aligned
    · exact le_refl _
  obtain ⟨area, capacity, resized, grown, enough, kept⟩ := ensure_capacity
    { item with type := type, default_size := data.length, default_len := len, data_len := before }
    fresh
  dsimp only at grown enough kept
  obtain ⟨moved, move, front, behind⟩ := @autoselect_moves
    { item with
      type := type
      data_len := before
      default_size := data.length
      default_len := len
      capacity := capacity
      area := area } item.getAutoselectDataPtr enough
    (by dsimp only [Item.getAutoselectDataPtr, Item.getDefaultDataPtr]; omega)
  dsimp only at move
  refine ⟨{ item with
    type := type
    data_len := before
    default_size := data.length
    default_len := len
    capacity := capacity
    area := copyIn moved before (bytesOf data) data.length }, ?_, ?_, rfl, ?_⟩
  · unfold Item.setDefaultData
    simp only [lenEq, beforeLen, resized]
    by_cases autoselect : item.autoselect_size ≠ 0
    · rw [if_pos autoselect] at move ⊢
      rw [move, Option.bind_eq_bind, Option.bind_some, if_neg filled, default_data_pointer filled,
        Option.bind_some, memcpy_inside (by dsimp only; omega)]
    · rw [if_neg autoselect] at move ⊢
      rw [move, Option.bind_eq_bind, Option.bind_some, if_neg filled, default_data_pointer filled,
        Option.bind_some, memcpy_inside (by dsimp only; omega)]
  · exact ⟨beforeSize, beforeNone, fun filled _ => beforeAligned filled, covers,
      fun none => absurd none filled, fun _ autoselect => by rw [← lenEq, if_pos autoselect], enough⟩
  · apply layers_set some' rfl
    · intro index bound
      exact copy_in_inside _ (bytesOf data) before _ index bound
    · intro other different
      cases other with
      | user => rfl
      | default => contradiction
      | autoselect => rfl
    · intro other different index bound
      cases other with
      | user =>
          change index < item.data_size at bound
          change copyIn moved before (bytesOf data) data.length (0 + index) = item.area (0 + index)
          rw [copy_in_outside _ _ _ _ _ (by omega)]
          exact (front _ (show 0 + index < before + len by omega)).trans (kept _ (by omega))
      | default => contradiction
      | autoselect =>
          change index < item.autoselect_size at bound
          change copyIn moved before (bytesOf data) data.length (before + len + index) =
            item.area (item.data_len + item.default_len + index)
          rw [copy_in_outside _ _ _ _ _ (by omega)]
          exact (behind index bound).trans
            (kept (item.data_len + item.default_len + index) (by omega))

/-- Nothing moves. -/
theorem set_autoselect_data_layers (laid : Laid item) (fresh : Bytes) (some' : data ≠ [])
    (type : DataType) :
    ∃ item', item.setAutoselectData fresh data type = some item' ∧ Laid item' ∧ item'.type = type ∧
      item'.layer = Function.update item.layer .autoselect (some data) := by
  have filled : data.length ≠ 0 := fun none => some' (List.length_eq_zero_iff.mp none)
  have fits := laid.fits
  unfold Item.totalSize at fits
  have userSize := laid.user
  have defaultSize := laid.default
  obtain ⟨before, beforeLen, beforeSize, beforeNone, beforeAligned⟩ := length_aligned item.data_size
  obtain ⟨len, lenEq, covers, lenNone, lenAligned⟩ := length_aligned item.default_size
  have stays : item.default_size ≠ 0 → before = item.data_len := by
    intro default
    by_cases user : item.data_size = 0
    · rw [beforeNone user, laid.user_none user]
    · rw [beforeAligned user, laid.user_aligned user (Or.inl default)]
  obtain ⟨area, capacity, resized, grown, enough, kept⟩ := ensure_capacity
    { item with autoselect_size := data.length, type := type, data_len := before, default_len := len }
    fresh
  dsimp only at grown enough kept
  refine ⟨{ item with
    type := type
    data_len := before
    default_len := len
    autoselect_size := data.length
    capacity := capacity
    area := copyIn area (before + len) (bytesOf data) data.length }, ?_, ?_, rfl, ?_⟩
  · unfold Item.setAutoselectData
    simp only [lenEq, beforeLen, resized]
    rw [if_neg filled, autoselect_data_pointer filled, Option.bind_some,
      memcpy_inside (by dsimp only; omega)]
  · exact ⟨beforeSize, beforeNone, fun filled _ => beforeAligned filled, covers, lenNone,
      fun filled _ => lenAligned filled, enough⟩
  · apply layers_set some' rfl
    · intro index bound
      exact copy_in_inside _ (bytesOf data) (before + len) _ index bound
    · intro other different
      cases other with
      | user => rfl
      | default => rfl
      | autoselect => contradiction
    · intro other different index bound
      cases other with
      | user =>
          change index < item.data_size at bound
          change copyIn area (before + len) (bytesOf data) data.length (0 + index) =
            item.area (0 + index)
          rw [copy_in_outside _ _ _ _ _ (by omega)]
          exact kept _ (by omega)
      | default =>
          change index < item.default_size at bound
          change copyIn area (before + len) (bytesOf data) data.length (before + index) =
            item.area (item.data_len + index)
          rw [copy_in_outside _ _ _ _ _ (by omega), stays (by omega)]
          exact kept _ (by omega)
      | autoselect => contradiction

end Setting

section Emptying

variable {item : Item}

/-- A layer without a value is emptied. -/
theorem update_absent {layer : Layer} (none' : item.size layer = 0) :
    item.layer = Function.update item.layer layer none := by
  have absent : item.layer layer = none := if_pos none'
  rw [← absent, Function.update_eq_self]

/-- What is behind the user value moves to the front. -/
theorem user_emptied (laid : Laid item) (area : Bytes)
    (moved : ∀ index < item.default_len + item.autoselect_size,
      area index = item.area (item.data_len + index)) :
    Laid { item with data_size := 0, data_len := 0, area := area } ∧
      Item.layer { item with data_size := 0, data_len := 0, area := area } =
        Function.update item.layer .user none := by
  have fits := laid.fits
  have default := laid.default
  unfold Item.totalSize at fits
  constructor
  · refine ⟨le_refl _, fun _ => rfl, fun some' => absurd rfl some', default, laid.default_none,
      laid.default_aligned, ?_⟩
    unfold Item.totalSize
    dsimp only
    omega
  · apply layers_unset rfl
    · intro other different
      cases other with
      | user => contradiction
      | default => rfl
      | autoselect => rfl
    · intro other different index bound
      cases other with
      | user => contradiction
      | default =>
          change index < item.default_size at bound
          change area (0 + index) = item.area (item.data_len + index)
          rw [Nat.zero_add]
          exact moved index (by omega)
      | autoselect =>
          change index < item.autoselect_size at bound
          change area (0 + item.default_len + index) =
            item.area (item.data_len + item.default_len + index)
          rw [Nat.zero_add, Nat.add_assoc]
          exact moved _ (by omega)

theorem moved_to_front (item : Item) (index : Nat)
    (bound : index < item.default_len + item.autoselect_size) :
    copyIn item.area 0 (advance item.area item.data_len) (item.default_len + item.autoselect_size)
      index = item.area (item.data_len + index) := by
  have copied := copy_in_inside item.area (advance item.area item.data_len) 0 _ index bound
  rw [Nat.zero_add, advance_apply] at copied
  exact copied

theorem unset_user_layers (laid : Laid item) :
    ∃ item', item.unsetUserValue = some item' ∧ Laid item' ∧ item'.type = item.type ∧
      item'.layer = Function.update item.layer .user none := by
  have fits := laid.fits
  unfold Item.totalSize at fits
  unfold Item.unsetUserValue
  split_ifs with none'
  · exact ⟨item, rfl, laid, rfl, update_absent none'⟩
  · by_cases others : item.default_size ≠ 0 ∨ item.autoselect_size ≠ 0
    · obtain ⟨kept, layers⟩ := user_emptied laid _ (moved_to_front item)
      dsimp only [Item.getDefaultDataPtr]
      rw [if_pos others, memmove_inside (by dsimp only; omega) (by dsimp only; omega)]
      exact ⟨_, rfl, kept, rfl, layers⟩
    · have default_len := laid.default_none (by omega)
      obtain ⟨kept, layers⟩ := user_emptied laid item.area fun index bound => by omega
      dsimp only
      rw [if_neg others]
      exact ⟨_, rfl, kept, rfl, layers⟩

theorem clear_layers (laid : Laid item) :
    ∃ item', item.clear = some item' ∧ Laid item' ∧ item'.type = item.type ∧
      item'.layer = Function.update item.layer .user none := by
  have fits := laid.fits
  have size := laid.user
  unfold Item.totalSize at fits
  unfold Item.clear
  split_ifs with none'
  · exact ⟨item, rfl, laid, rfl, update_absent (show item.data_size = 0 by omega)⟩
  · have filled : item.data_size ≠ 0 := fun none => none' (laid.user_none none)
    by_cases others : item.default_len + item.autoselect_size ≠ 0
    · obtain ⟨kept, layers⟩ := user_emptied laid _ (moved_to_front item)
      dsimp only
      rw [if_pos others, item_data_pointer filled, Option.bind_some, Nat.zero_add,
        memmove_inside (by omega) (by omega)]
      exact ⟨_, rfl, kept, rfl, layers⟩
    · obtain ⟨kept, layers⟩ := user_emptied laid item.area fun index bound => by omega
      dsimp only
      rw [if_neg others]
      exact ⟨_, rfl, kept, rfl, layers⟩

/-- The autoselect value moves to where the default value was. -/
theorem default_emptied (laid : Laid item) (area : Bytes)
    (front : ∀ index < item.data_len, area index = item.area index)
    (moved : ∀ index < item.autoselect_size,
      area (item.data_len + index) = item.area (item.data_len + item.default_len + index)) :
    Laid { item with default_size := 0, default_len := 0, area := area } ∧
      Item.layer { item with default_size := 0, default_len := 0, area := area } =
        Function.update item.layer .default none := by
  have fits := laid.fits
  have user := laid.user
  unfold Item.totalSize at fits
  constructor
  · refine ⟨user, laid.user_none, ?_, le_refl _, fun _ => rfl, fun some' => absurd rfl some', ?_⟩
    · intro filled others
      exact laid.user_aligned filled (Or.inr (others.resolve_left fun some' => some' rfl))
    · unfold Item.totalSize
      dsimp only
      omega
  · apply layers_unset rfl
    · intro other different
      cases other with
      | user => rfl
      | default => contradiction
      | autoselect => rfl
    · intro other different index bound
      cases other with
      | user =>
          change index < item.data_size at bound
          change area (0 + index) = item.area (0 + index)
          exact front _ (by omega)
      | default => contradiction
      | autoselect => exact moved index bound

theorem unset_default_layers (laid : Laid item) :
    ∃ item', item.unsetDefaultValue = some item' ∧ Laid item' ∧ item'.type = item.type ∧
      item'.layer = Function.update item.layer .default none := by
  have fits := laid.fits
  unfold Item.totalSize at fits
  unfold Item.unsetDefaultValue
  split_ifs with none'
  · exact ⟨item, rfl, laid, rfl, update_absent none'⟩
  · by_cases autoselect : item.autoselect_size ≠ 0
    · obtain ⟨kept, layers⟩ := default_emptied laid
        (copyIn item.area item.data_len (advance item.area (item.data_len + item.default_len))
          item.autoselect_size)
        (fun index bound => copy_in_outside _ _ _ _ _ (by omega))
        (fun index bound => by rw [copy_in_inside _ _ _ _ _ bound, advance_apply])
      dsimp only [Item.getAutoselectDataPtr, Item.getDefaultDataPtr]
      rw [if_pos autoselect, Nat.add_zero,
        memmove_inside (by dsimp only; omega) (by dsimp only; omega)]
      exact ⟨_, rfl, kept, rfl, layers⟩
    · obtain ⟨kept, layers⟩ := default_emptied laid item.area (fun _ _ => rfl)
        fun index bound => by omega
      dsimp only
      rw [if_neg autoselect]
      exact ⟨_, rfl, kept, rfl, layers⟩

theorem unset_autoselect_layers (laid : Laid item) :
    ∃ item', item.unsetAutoselectValue = some item' ∧ Laid item' ∧ item'.type = item.type ∧
      item'.layer = Function.update item.layer .autoselect none := by
  have fits := laid.fits
  unfold Item.totalSize at fits
  unfold Item.unsetAutoselectValue
  split_ifs with none'
  · exact ⟨item, rfl, laid, rfl, update_absent none'⟩
  · refine ⟨_, rfl, ⟨laid.user, laid.user_none, ?_, laid.default, laid.default_none,
      fun _ some' => absurd rfl some', ?_⟩, rfl, ?_⟩
    · intro filled others
      exact laid.user_aligned filled (Or.inl (others.resolve_right fun some' => some' rfl))
    · unfold Item.totalSize
      dsimp only
      omega
    · apply layers_unset rfl
      · intro other different
        cases other with
        | user => rfl
        | default => rfl
        | autoselect => contradiction
      · intro other different index _
        cases other with
        | user => rfl
        | default => rfl
        | autoselect => contradiction

end Emptying

/-- The item that `create` starts with. -/
theorem created_laid (data : List UInt8) (type : DataType) (layer : Layer) (area : Bytes) :
    Laid
      { type := type
        data_len := if layer = .user then data.length else 0
        data_size := if layer = .user then data.length else 0
        default_len := if layer = .default then data.length else 0
        default_size := if layer = .default then data.length else 0
        autoselect_size := if layer = .autoselect then data.length else 0
        capacity := data.length
        area := area } := by
  cases layer with
  | user => exact ⟨le_refl _, id, by simp, le_refl _, fun _ => rfl, by simp, le_refl _⟩
  | default =>
      exact ⟨le_refl _, fun _ => rfl, by simp, le_refl _, id, by simp, by simp [Item.totalSize]⟩
  | autoselect =>
      exact ⟨le_refl _, fun _ => rfl, by simp, le_refl _, fun _ => rfl, by simp,
        by simp [Item.totalSize]⟩

/-- A new item has one layer. -/
theorem create_layers {data : List UInt8} (some' : data ≠ []) (type : DataType) (layer : Layer) :
    ∃ item, create data type layer = some item ∧ Laid item ∧ item.type = type ∧
      item.layer = Function.update (fun _ => none) layer (some data) := by
  have filled : data.length ≠ 0 := fun none => some' (List.length_eq_zero_iff.mp none)
  unfold create
  have pointer : Item.getItemData
      { type := type
        data_len := if layer = .user then data.length else 0
        data_size := if layer = .user then data.length else 0
        default_len := if layer = .default then data.length else 0
        default_size := if layer = .default then data.length else 0
        autoselect_size := if layer = .autoselect then data.length else 0
        capacity := data.length
        area := fun _ => 0 } = some 0 := by
    apply if_neg
    cases layer with
    | user => simp [some']
    | default => simp [some']
    | autoselect => simp [some']
  dsimp only
  rw [pointer, Option.bind_some, memcpy_inside (by dsimp only; omega)]
  refine ⟨_, rfl, created_laid data type layer _, rfl, ?_⟩
  funext kind
  by_cases same : kind = layer
  · rw [same, Function.update_self]
    apply layer_written some'
    · cases layer with
      | user => rfl
      | default => rfl
      | autoselect => rfl
    · intro index bound
      have written := copy_in_inside (fun _ => 0) (bytesOf data) 0 _ index bound
      cases layer with
      | user => exact written
      | default => exact written
      | autoselect => exact written
  · rw [Function.update_of_ne same]
    apply if_pos
    cases kind with
    | user => exact if_neg fun equal => same equal.symm
    | default => exact if_neg fun equal => same equal.symm
    | autoselect => exact if_neg fun equal => same equal.symm

end Mgw.PackedItem

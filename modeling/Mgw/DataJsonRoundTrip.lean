import Mgw.DataJson

/-!
# The JSON round trip

What comes back from an `mgw_data` is the JSON object that it was made of without the null
members and the elements of arrays that are no objects, at every depth; a second round
trip gives the same object.
-/

namespace Mgw.DataJson

open DataItems

set_option autoImplicit false

/-- What jansson can build: strings are UTF-8, reals are finite, and an object has each key
once. -/
inductive WellFormed : Json → Prop where
  | object {members : Members} (nodup : (members.map Prod.fst).Nodup)
      (utf8 : ∀ member ∈ members, Utf8 member.1)
      (inner : ∀ member ∈ members, WellFormed member.2) : WellFormed (.object members)
  | array {elements : List Json} (inner : ∀ element ∈ elements, WellFormed element) :
      WellFormed (.array elements)
  | string {value : Name} (utf8 : Utf8 value) : WellFormed (.string value)
  | integer (value : Int64) : WellFormed (.integer value)
  | real {value : UInt64} (finite : Finite value) : WellFormed (.real value)
  | boolean (value : Bool) : WellFormed (.boolean value)
  | null : WellFormed .null

/-- Equal as nested maps: the order of the members of an object does not matter. -/
inductive Same : Json → Json → Prop where
  | object {left right : Members}
      (members : ∀ key, Option.Rel Same (getItem key left) (getItem key right)) :
      Same (.object left) (.object right)
  | array {left right : List Json} (elements : List.Forall₂ Same left right) :
      Same (.array left) (.array right)
  | string (value : Name) : Same (.string value) (.string value)
  | integer (value : Int64) : Same (.integer value) (.integer value)
  | real (value : UInt64) : Same (.real value) (.real value)
  | boolean (value : Bool) : Same (.boolean value) (.boolean value)
  | null : Same .null .null

mutual

/-- A value without the null members and the elements that are no objects. -/
def trim : Json → Json
  | .object members => .object (trimMembers members)
  | .array elements => .array (trimElements elements)
  | json => json

def trimMembers : Members → Members
  | [] => []
  | (_, .null) :: rest => trimMembers rest
  | (key, json) :: rest => (key, trim json) :: trimMembers rest

def trimElements : List Json → List Json
  | [] => []
  | .object members :: rest => .object (trimMembers members) :: trimElements rest
  | _ :: rest => trimElements rest

end

section Storing

variable {data : Data}

theorem sorted_set (sorted : Sorted data) (name : Name) (item : Item) :
    Sorted (setItem data name item) := by
  unfold setItem
  cases found : getItem name data with
  | none => exact sorted_link sorted found
  | some old => exact sorted_replace sorted name item

theorem get_set (sorted : Sorted data) (key : Name) (item : Item) (name : Name) :
    getItem name (setItem data key item) = if name = key then some item else getItem name data := by
  unfold setItem
  cases found : getItem key data with
  | none => exact get_link sorted found name
  | some old => exact get_replace found name

/-- What an element of an array is stored as. -/
def storedElement : Json → Option Data
  | .object members => some (mgwDataAddJsonObjectData mgwDataCreate members)
  | _ => none

/-- What a member of an object is stored as. -/
def stored : Json → Option Item
  | .object members => some (.object (mgwDataAddJsonObjectData mgwDataCreate members))
  | .array elements => some (.array (elements.filterMap storedElement))
  | .string value => some (.string value)
  | .integer value => some (.number (.int value))
  | .real value => some (.number (.double value))
  | .boolean value => some (.boolean value)
  | .null => none

theorem add_elements (array : List Data) (elements : List Json) :
    addJsonElements array elements = array ++ elements.filterMap storedElement := by
  induction elements generalizing array with
  | nil => simp [addJsonElements]
  | cons json rest ih => cases json <;> simp [addJsonElements, ih, storedElement, List.filterMap_cons]

theorem add_item (data : Data) (key : Name) (json : Json) :
    mgwDataAddJsonItem data key json = (stored json).elim data (setItem data key) := by
  cases json with
  | array elements =>
      rw [mgwDataAddJsonItem, add_elements]
      rfl
  | boolean value => cases value <;> rfl
  | object members => rfl
  | string value => rfl
  | integer value => rfl
  | real value => rfl
  | null => rfl

theorem add_foldl (data : Data) (members : Members) :
    mgwDataAddJsonObjectData data members =
      members.foldl (fun data member => mgwDataAddJsonItem data member.1 member.2) data := by
  induction members generalizing data with
  | nil => rfl
  | cons member rest ih => exact ih _

/-- The data of an object with different keys. -/
theorem add_object {members : Members} (nodup : (members.map Prod.fst).Nodup) :
    Sorted (mgwDataAddJsonObjectData mgwDataCreate members) ∧
      ∀ name, getItem name (mgwDataAddJsonObjectData mgwDataCreate members) =
        (getItem name members).bind stored := by
  rw [add_foldl]
  have loop := @get_foldl Json Item
    (fun data member => mgwDataAddJsonItem data member.1 member.2) Sorted (fun _ => stored)
    ?_ ?_ members nodup mgwDataCreate List.Pairwise.nil
  · refine ⟨loop.1, fun name => ?_⟩
    rw [loop.2 name]
    exact Option.or_none
  · intro data member sorted
    rw [add_item]
    cases stored member.2 with
    | none => exact sorted
    | some item => exact sorted_set sorted member.1 item
  · intro data member name sorted
    rw [add_item]
    cases stored member.2 with
    | none => exact (ite_self _).symm
    | some item => exact get_set sorted member.1 item name

end Storing

section Showing

/-- What an item is shown as. -/
def shown : Item → Option Json
  | .string val => jsonString val
  | .number (.int val) => some (.integer val)
  | .number (.double val) => jsonReal val
  | .boolean val => some (.boolean val)
  | .object obj => some (.object (mgwDataToJson obj))
  | .array objects => some (.array (objects.map fun obj => .object (mgwDataToJson obj)))
  | .unset => none

/-- The member that is made of an item: none where the name is no key. -/
def shownMember (name : Name) (item : Item) : Option Json :=
  if Utf8 name then shown item else none

theorem set_elements (jarray : List Json) (objects : List Data) :
    setJsonElements jarray objects =
      jarray ++ objects.map fun obj => .object (mgwDataToJson obj) := by
  induction objects generalizing jarray with
  | nil => simp [setJsonElements]
  | cons obj rest ih => simp [setJsonElements, ih, mgwDataToJson]

theorem set_json_item (json : Members) (name : Name) (item : Item) :
    setJsonItem json name item = jsonObjectSetNew json name (shown item) := by
  cases item with
  | number num => cases num <;> rfl
  | array objects =>
      rw [setJsonItem, set_elements]
      rfl
  | string val => rfl
  | boolean val => rfl
  | object obj => rfl
  | unset => rfl

theorem nodup_set_new {json : Members} (nodup : (json.map Prod.fst).Nodup) (key : Name)
    (value : Option Json) : ((jsonObjectSetNew json key value).map Prod.fst).Nodup := by
  cases value with
  | none => exact nodup
  | some value =>
      unfold jsonObjectSetNew
      split_ifs with utf8
      · cases found : getItem key json with
        | none =>
            refine List.map_append ▸ List.nodup_append.mpr ⟨nodup, List.nodup_singleton _, ?_⟩
            intro name member other single
            obtain ⟨item, old, rfl⟩ := List.mem_map.mp member
            rw [List.mem_singleton.mp single]
            exact get_absent.mp found item old
        | some old =>
            change ((replaceItem key value json).map Prod.fst).Nodup
            rw [names_replace]
            exact nodup
      · exact nodup

theorem get_set_new (json : Members) (key : Name) (value : Option Json) (name : Name) :
    getItem name (jsonObjectSetNew json key value) =
      if name = key then (if Utf8 key then value else none).or (getItem name json)
      else getItem name json := by
  cases value with
  | none => simp [jsonObjectSetNew]
  | some value =>
      unfold jsonObjectSetNew
      split_ifs with utf8 same same
      · cases found : getItem key json with
        | none => simp [get_append, getItem, same, found]
        | some old => simp [get_replace found, same]
      · cases found : getItem key json with
        | none => simp [get_append, getItem, Ne.symm same]
        | some old => simp [get_replace found, same]
      · rfl
      · rfl

theorem to_json_foldl (json : Members) (data : Data) :
    toJsonItems json data =
      data.foldl (fun json item => jsonObjectSetNew json item.1 (shown item.2)) json := by
  induction data generalizing json with
  | nil => rfl
  | cons item rest ih =>
      rw [toJsonItems, set_json_item]
      exact ih _

/-- The JSON object of a data. -/
theorem to_json {data : Data} (sorted : Sorted data) :
    ((mgwDataToJson data).map Prod.fst).Nodup ∧
      ∀ name, getItem name (mgwDataToJson data) = (getItem name data).bind (shownMember name) := by
  unfold mgwDataToJson
  rw [to_json_foldl]
  have loop := @get_foldl Item Json
    (fun json item => jsonObjectSetNew json item.1 (shown item.2))
    (fun json => (json.map Prod.fst).Nodup) shownMember
    (fun json item nodup => nodup_set_new nodup item.1 (shown item.2)) ?_ data
    (sorted_nodup sorted) [] List.nodup_nil
  · refine ⟨loop.1, fun name => ?_⟩
    rw [loop.2 name]
    exact Option.or_none
  · intro json item name nodup
    rw [get_set_new]
    split_ifs with same utf8
    · rw [shownMember, same, if_pos utf8]
    · rw [shownMember, same, if_neg utf8]
    · rfl

end Showing

section Trimming

/-- What stays of a member. -/
def kept : Json → Option Json
  | .null => none
  | json => some (trim json)

theorem trim_members_cons (key : Name) (json : Json) (rest : Members) :
    trimMembers ((key, json) :: rest) =
      (kept json).elim (trimMembers rest) fun value => (key, value) :: trimMembers rest := by
  cases json <;> rfl

theorem get_trim {members : Members} (nodup : (members.map Prod.fst).Nodup) (key : Name) :
    getItem key (trimMembers members) = (getItem key members).bind kept := by
  induction members with
  | nil => rfl
  | cons member rest ih =>
      obtain ⟨name, json⟩ := member
      obtain ⟨fresh, others⟩ := List.nodup_cons.mp nodup
      have later := ih others
      rw [trim_members_cons, getItem]
      by_cases same : name = key
      · have absent : getItem key rest = none := by
          apply get_absent.mpr
          intro item member equal
          apply fresh
          change name ∈ rest.map Prod.fst
          rw [same, ← equal]
          exact List.mem_map_of_mem member
        rw [if_pos same, Option.bind_some]
        cases kept json with
        | none =>
            change getItem key (trimMembers rest) = none
            rw [later, absent, Option.bind_none]
        | some value => exact if_pos same
      · rw [if_neg same]
        cases kept json with
        | none => exact later
        | some value => exact (if_neg same).trans later

end Trimming

section Returning

/-- What comes back of a member. -/
def returned (json : Json) : Option Json := (stored json).bind shown

theorem returned_string {value : Name} (utf8 : Utf8 value) :
    returned (.string value) = some (.string value) := if_pos utf8

theorem returned_real {value : UInt64} (finite : Finite value) :
    returned (.real value) = some (.real value) := if_pos finite

theorem get_round_trip {members : Members} (nodup : (members.map Prod.fst).Nodup)
    (utf8 : ∀ member ∈ members, Utf8 member.1) :
    ((roundTrip members).map Prod.fst).Nodup ∧
      ∀ name, getItem name (roundTrip members) = (getItem name members).bind returned := by
  obtain ⟨sorted, data⟩ := add_object nodup
  obtain ⟨nodup', json⟩ := to_json sorted
  refine ⟨nodup', fun name => ?_⟩
  unfold roundTrip
  rw [json name, data name]
  cases found : getItem name members with
  | none => rfl
  | some value =>
      have key : Utf8 name := utf8 _ (get_member found)
      cases item : stored value with
      | none => simp [returned, item]
      | some item' => simp [returned, item, shownMember, key]

/-- What comes back can be built again. -/
theorem returned_well_formed {json : Json} (formed : WellFormed json) :
    ∀ value ∈ returned json, WellFormed value := by
  induction formed with
  | @object members nodup utf8 inner ih =>
      intro value same
      obtain ⟨nodup', found⟩ := get_round_trip nodup utf8
      obtain rfl : Json.object (roundTrip members) = value := Option.some.inj same
      have origin (member : Name × Json) (inside : member ∈ roundTrip members) :
          ∃ json, (member.1, json) ∈ members ∧ member.2 ∈ returned json := by
        have known := (found member.1).symm.trans (get_of_nodup nodup' inside)
        obtain ⟨json, old, back⟩ := Option.bind_eq_some_iff.mp known
        exact ⟨json, get_member old, back⟩
      refine WellFormed.object nodup' (fun member inside => ?_) fun member inside => ?_
      · obtain ⟨json, old, -⟩ := origin member inside
        exact utf8 (member.1, json) old
      · obtain ⟨json, old, back⟩ := origin member inside
        exact ih (member.1, json) old _ back
  | @array elements inner ih =>
      intro value same
      obtain rfl := Option.some.inj same
      refine WellFormed.array fun element inside => ?_
      obtain ⟨obj, object, rfl⟩ := List.mem_map.mp inside
      obtain ⟨json, old, made⟩ := List.mem_filterMap.mp object
      cases json with
      | object members =>
          obtain rfl := Option.some.inj made
          exact ih _ old _ rfl
      | _ => contradiction
  | @string value utf8 =>
      intro value' same
      rw [returned_string utf8] at same
      obtain rfl := Option.some.inj same
      exact WellFormed.string utf8
  | integer value =>
      intro value' same
      obtain rfl := Option.some.inj same
      exact WellFormed.integer value
  | @real value finite =>
      intro value' same
      rw [returned_real finite] at same
      obtain rfl := Option.some.inj same
      exact WellFormed.real finite
  | boolean value =>
      intro value' same
      obtain rfl := Option.some.inj same
      exact WellFormed.boolean value
  | null => nofun

theorem returned_elements {elements : List Json}
    (inner : ∀ element ∈ elements, Option.Rel Same (returned element) (kept element)) :
    List.Forall₂ Same ((elements.filterMap storedElement).map fun obj => .object (mgwDataToJson obj))
      (trimElements elements) := by
  induction elements with
  | nil => exact List.Forall₂.nil
  | cons element rest ih =>
      have others := ih fun other inside => inner other (List.mem_cons_of_mem _ inside)
      cases element with
      | object members =>
          have first := inner _ List.mem_cons_self
          cases first with
          | some same => exact List.Forall₂.cons same others
      | _ => exact others

/-- What comes back is what was to be kept. -/
theorem returned_same {json : Json} (formed : WellFormed json) :
    Option.Rel Same (returned json) (kept json) := by
  induction formed with
  | @object members nodup utf8 inner ih =>
      refine Option.Rel.some (Same.object fun key => ?_)
      change Option.Rel Same (getItem key (roundTrip members)) _
      rw [(get_round_trip nodup utf8).2 key, get_trim nodup key]
      cases found : getItem key members with
      | none => exact Option.Rel.none
      | some value => exact ih _ (get_member found)
  | array inner ih => exact Option.Rel.some (Same.array (returned_elements ih))
  | @string value utf8 =>
      rw [returned_string utf8]
      exact Option.Rel.some (Same.string value)
  | integer value => exact Option.Rel.some (Same.integer value)
  | @real value finite =>
      rw [returned_real finite]
      exact Option.Rel.some (Same.real value)
  | boolean value => exact Option.Rel.some (Same.boolean value)
  | null => exact Option.Rel.none

/-- What comes back is stored as it was. -/
theorem stored_again {json : Json} (formed : WellFormed json) :
    (returned json).bind stored = stored json := by
  induction formed with
  | @object members nodup utf8 inner ih =>
      obtain ⟨nodup', found⟩ := get_round_trip nodup utf8
      obtain ⟨sorted, data⟩ := add_object nodup
      obtain ⟨sorted', data'⟩ := add_object nodup'
      have same : mgwDataAddJsonObjectData mgwDataCreate (roundTrip members) =
          mgwDataAddJsonObjectData mgwDataCreate members := by
        refine sorted_ext sorted' sorted fun name => ?_
        rw [data' name, data name, found name]
        cases known : getItem name members with
        | none => rfl
        | some value => exact ih _ (get_member known)
      change some (Item.object (mgwDataAddJsonObjectData mgwDataCreate (roundTrip members))) = _
      rw [same]
      rfl
  | @array elements inner ih =>
      change some (Item.array (List.filterMap storedElement (List.map _ _))) = _
      rw [List.filterMap_map, List.filterMap_filterMap]
      refine congrArg (some ∘ Item.array) (List.filterMap_congr fun element inside => ?_)
      cases element with
      | object members =>
          have same := ih _ inside
          exact congrArg some (Item.object.inj (Option.some.inj same))
      | _ => rfl
  | @string value utf8 =>
      rw [returned_string utf8]
      rfl
  | integer value => rfl
  | @real value finite =>
      rw [returned_real finite]
      rfl
  | boolean value => rfl
  | null => rfl

end Returning

end Mgw.DataJson

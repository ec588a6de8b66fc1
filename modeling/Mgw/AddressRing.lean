import Mathlib.Data.Fintype.Card
import Mathlib.Data.List.Nodup
import Mgw.CircularList
import Mgw.StreamSort
import Mgw.TransitionRuns

/-!
# The ring of start addresses

`CFrameaddrList` of `stream_sort.c` on the nodes themselves. Only its own nodes are in the
memory; a load or store through a null pointer or to a released node has no result.
-/

namespace Mgw.AddressRing

open CircularList DoublyLinked TransitionRuns

set_option autoImplicit false

abbrev Address := Fin 18446744073709551616

/-- `SC_frameaddr`, whose `position` is held between the two pointers. -/
abbrev ScFrameaddr := Link Address Nat

abbrev Memory := Nodes Address Nat

/-- The allocator: a null pointer or a node that is not in use. -/
structure Calloc where
  answer : Memory → Option Address
  fresh : ∀ memory address, answer memory = some address → memory address = none

/-- The nodes and the pointer to the first one. -/
structure FrameaddrList where
  memory : Memory
  had : Option Address

/-- The rounds of a search that ends at all: no more than there are addresses. -/
def rounds : Nat := 18446744073709551616

variable (list : FrameaddrList)

/-- `type` 0: the result -1 where no node is allocated. -/
def onlyAdd (calloc : Calloc) (iposition : Nat) : Option (Int × FrameaddrList) :=
  match calloc.answer list.memory with
  | none => some (-1, list)
  | some fd =>
      let memory := Function.update list.memory fd (some ⟨iposition, none, none⟩)
      match list.had with
      | none => do
          let memory ← storeNext memory (some fd) (some fd)
          let memory ← storePrev memory (some fd) (some fd)
          some (0, ⟨memory, some fd⟩)
      | some h => do
          let head ← load memory (some h)
          let memory ← storeNext memory (some fd) (some h)
          let memory ← storePrev memory (some h) (some fd)
          let memory ← storePrev memory (some fd) head.prev
          let memory ← storeNext memory head.prev (some fd)
          some (0, ⟨memory, some h⟩)

/-- The stores that put a node between the last one and the head. -/
def moveToEnd (memory : Memory) (h fd : Option Address) : Option Memory := do
  let head ← load memory h
  let memory ← storeNext memory head.prev fd
  let head ← load memory h
  let memory ← storePrev memory fd head.prev
  let memory ← storePrev memory h fd
  storeNext memory fd h

/-- `type` 1: a head that is found becomes the last one as the next node becomes the head. -/
def modify (iposition oposition : Nat) : Option (Int × FrameaddrList) := do
  let found ← findAround list.memory list.had (fun position => position = oposition) rounds list.had
  match found with
  | none => some (-2, list)
  | some fd =>
      let memory ← storeHeld list.memory (some fd) iposition
      if list.had = some fd then
        let node ← load memory (some fd)
        some (0, ⟨memory, node.next⟩)
      else
        let head ← load memory list.had
        if head.prev ≠ some fd then
          let memory ← unlink memory (some fd)
          let memory ← moveToEnd memory list.had (some fd)
          some (0, ⟨memory, list.had⟩)
        else some (0, ⟨memory, list.had⟩)

/-- `type` 2. -/
def onlyDelete (oposition : Nat) : Option (Int × FrameaddrList) := do
  let found ← findAround list.memory list.had (fun position => position = oposition) rounds list.had
  match found with
  | none => some (-2, list)
  | some fd =>
      let memory ← unlink list.memory (some fd)
      let node ← load memory (some fd)
      let had := if list.had = some fd then node.next else list.had
      some (0, ⟨release memory fd, had⟩)

def cFrameaddrList (calloc : Calloc) (iposition oposition : Nat) (type : Int) :
    Option (Int × FrameaddrList) :=
  if type = 0 then onlyAdd list calloc iposition
  else if type = 1 then modify list iposition oposition
  else onlyDelete list oposition

/-- The positions from the head along the next pointers. -/
def read : Option (List Nat) :=
  match list.had with
  | none => some []
  | some h => readAround list.memory (some h) rounds (some h)

structure Call where
  calloc : Calloc
  iposition : Nat
  oposition : Nat
  type : Int

def FrameaddrList.call (call : Call) : Option (Int × FrameaddrList) :=
  cFrameaddrList list call.calloc call.iposition call.oposition call.type

/-- What a call returns and makes of the sequence of positions. -/
def sequence (positions : List Nat) (call : Call) : Int × List Nat :=
  if call.type = 0 then (0, positions ++ [call.iposition])
  else if call.oposition ∈ positions then
    (0, positions.erase call.oposition ++ if call.type = 1 then [call.iposition] else [])
  else (-2, positions)

/-- The list is a ring with these positions: what is read from the head, links that are
inverse to each other at every node, and a head that is null only without nodes. -/
structure Implements (positions : List Nat) : Prop where
  sequence : read list = some positions
  inverse : Inverse list.memory
  head : list.had = none ↔ positions = []

/-- The call does to the list what it does to the sequence. -/
def Right (positions : List Nat) (call : Call) : Prop :=
  ∃ after, list.call call = some ((sequence positions call).1, after) ∧
    Implements after (sequence positions call).2 ∧ ((sequence positions call).1 = -2 → after = list)

/-- A node to add is allocated; the list to search is not empty, and its only node is not
deleted. -/
def Safe (call : Call) : Prop :=
  if call.type = 0 then call.calloc.answer list.memory ≠ none
  else ∃ h ∈ list.had, ∃ head ∈ list.memory h,
    call.type = 1 ∨ head.next ≠ some h ∨ head.held ≠ call.oposition

/-- The list is the ring of these items, and no other node is allocated. -/
structure Holds (items : List (Address × Nat)) : Prop where
  ring : Ring list.memory items
  head : list.had = first items none
  owned : ∀ address link, list.memory address = some link → address ∈ items.map Prod.fst

section Rings

variable {list : FrameaddrList} {memory : Memory} {items left right rest : List (Address × Nat)}
  {h fd : Address} {position iposition oposition : Nat}

/-- There are fewer nodes behind the head than rounds. -/
theorem ring_rounds (ring : Ring memory ((h, position) :: rest)) : rest.length < rounds := by
  have short := ring.apart.length_le_card
  rw [Fintype.card_fin, List.length_map, List.length_cons] at short
  exact short

theorem holds_implements (holds : Holds list items) : Implements list (items.map Prod.snd) := by
  refine ⟨?_, ring_inverse holds.ring holds.owned, ?_⟩
  · unfold read
    rw [holds.head]
    cases items with
    | nil => rfl
    | cons item rest => exact read_ring holds.ring (ring_rounds holds.ring)
  · rw [holds.head]
    cases items with
    | nil => exact iff_of_true rfl rfl
    | cons item rest => exact iff_of_false nofun nofun

/-- The first node with a position, with those before and behind it. -/
theorem first_occurrence (member : oposition ∈ items.map Prod.snd) :
    ∃ left fd right, items = left ++ (fd, oposition) :: right ∧ oposition ∉ left.map Prod.snd := by
  induction items with
  | nil => exact absurd member List.not_mem_nil
  | cons item rest ih =>
      by_cases same : item.2 = oposition
      · refine ⟨[], item.1, rest, ?_, List.not_mem_nil⟩
        rw [← same]
        rfl
      · have later : oposition ∈ rest.map Prod.snd :=
          (List.mem_cons.mp member).resolve_left (Ne.symm same)
        obtain ⟨left, fd, right, parts, absent⟩ := ih later
        refine ⟨item :: left, fd, right, ?_, ?_⟩
        · rw [parts, List.cons_append]
        · intro found
          rcases List.mem_cons.mp found with here | before
          · exact same here.symm
          · exact absent before

theorem erase_occurrence (absent : oposition ∉ left.map Prod.snd) :
    ((left ++ (fd, oposition) :: right).map Prod.snd).erase oposition =
      (left ++ right).map Prod.snd := by
  rw [List.map_append, List.map_cons, List.erase_append_right _ absent, List.erase_cons_head,
    List.map_append]

theorem search_absent (holds : Holds list items) (present : items ≠ [])
    (absent : oposition ∉ items.map Prod.snd) :
    findAround list.memory list.had (fun position => position = oposition) rounds list.had =
      some none := by
  obtain ⟨⟨h, position⟩, rest, shape⟩ := List.exists_cons_of_ne_nil present
  have ring := holds.ring
  rw [holds.head, shape]
  rw [shape] at ring
  refine (find_ring ring (ring_rounds ring)).trans ?_
  rw [← shape, List.find?_eq_none.mpr, Option.map_none]
  intro item member same
  apply absent
  rw [← of_decide_eq_true same]
  exact List.mem_map_of_mem member

theorem search_found (holds : Holds list items) (parts : items = left ++ (fd, oposition) :: right)
    (absent : oposition ∉ left.map Prod.snd) :
    findAround list.memory list.had (fun position => position = oposition) rounds list.had =
      some (some fd) := by
  obtain ⟨⟨h, position⟩, rest, shape⟩ : ∃ item rest, items = item :: rest := by
    apply List.exists_cons_of_ne_nil
    rw [parts]
    exact List.append_ne_nil_of_right_ne_nil _ (List.cons_ne_nil _ _)
  have ring := holds.ring
  rw [holds.head, shape]
  rw [shape] at ring
  refine (find_ring ring (ring_rounds ring)).trans ?_
  have before : left.find? (fun item => decide (item.2 = oposition)) = none := by
    rw [List.find?_eq_none]
    intro item member same
    apply absent
    rw [← of_decide_eq_true same]
    exact List.mem_map_of_mem member
  rw [← shape, parts, List.find?_append, before, Option.none_or, List.find?_cons]
  dsimp only
  rw [decide_eq_true rfl, Option.map_some]

/-- A node outside, put behind the last one. -/
theorem move_to_end_ring (ring : Ring memory ((h, position) :: rest))
    (outside : fd ∉ ((h, position) :: rest).map Prod.fst) {link : ScFrameaddr}
    (live : memory fd = some link) :
    ∃ after, moveToEnd memory (some h) (some fd) = some after ∧
      Ring after ((h, position) :: rest ++ [(fd, link.held)]) ∧
      ∀ other, other ≠ fd → other ∉ ((h, position) :: rest).map Prod.fst →
        after other = memory other := by
  obtain ⟨init, tail, heldTail, parts, ends⟩ := last_node (List.cons_ne_nil (h, position) rest)
  have head := ring_node ring
  have lastNode : last (some h) rest = some tail := ends none
  rw [lastNode] at head
  have headMember : h ∈ ((h, position) :: rest).map Prod.fst := List.mem_cons_self
  have tailMember : tail ∈ ((h, position) :: rest).map Prod.fst := by
    rw [parts, List.map_append]
    exact List.mem_append_right _ List.mem_cons_self
  have notHead : fd ≠ h := fun same => outside (same ▸ headMember)
  have notTail : fd ≠ tail := fun same => outside (same ▸ tailMember)
  obtain ⟨tailLink, tailLive⟩ := ring_present ring tailMember
  -- the memory after each of the four stores
  let first := setNext memory tail (some fd)
  let second := setPrev first fd (some tail)
  let third := setPrev second h (some fd)
  obtain ⟨headLink, headLive, headPrev⟩ : ∃ kept, first h = some kept ∧ kept.prev = some tail :=
    set_next_live tail (some fd) head
  have fdFirst : first fd = some link := (set_next_other notTail _).trans live
  have headSecond : second h = some headLink :=
    (set_prev_other notHead.symm _).trans headLive
  have fdThird : third fd = some { link with prev := some tail } :=
    (set_prev_other notHead _).trans (set_prev_self fdFirst _)
  have others : ∀ other, other ≠ fd → setNext third fd (some h) other =
      setNext (setPrev memory h (some fd)) tail (some fd) other := by
    intro other different
    rw [set_next_other different, ← set_prev_set_next]
    exact set_prev_agree (set_prev_other different _) _
  refine ⟨setNext third fd (some h), ?_, ?_, ?_⟩
  · change ((memory h).bind fun head => _) = _
    rw [head, Option.bind_some]
    change ((storeNext memory (some tail) (some fd)).bind fun memory => _) = _
    rw [store_next_live tailLive, Option.bind_some]
    change ((first h).bind fun head => _) = _
    rw [headLive, Option.bind_some, headPrev]
    change ((storePrev first (some fd) (some tail)).bind fun memory => _) = _
    rw [store_prev_live fdFirst, Option.bind_some]
    change ((storePrev second (some h) (some fd)).bind fun memory => _) = _
    rw [store_prev_live headSecond, Option.bind_some]
    exact store_next_live fdThird _
  · apply ring_link_last ring lastNode outside
    · exact set_next_self fdThird _
    · exact others
  · intro other different apart
    have apartTail : other ≠ tail := fun same => apart (same ▸ tailMember)
    have apartHead : other ≠ h := fun same => apart (same ▸ headMember)
    rw [others other different, set_next_other apartTail, set_prev_other apartHead]

theorem holds_append {after : Memory} (holds : Holds list items) (present : items ≠ [])
    (ring : Ring after (items ++ [(fd, position)]))
    (others : ∀ other, other ≠ fd → other ∉ items.map Prod.fst → after other = list.memory other) :
    Holds ⟨after, list.had⟩ (items ++ [(fd, position)]) := by
  refine ⟨ring, ?_, ?_⟩
  · obtain ⟨item, rest, shape⟩ := List.exists_cons_of_ne_nil present
    change list.had = _
    rw [holds.head, shape]
    rfl
  · intro address link live
    change after address = some link at live
    rw [List.map_append, List.mem_append]
    by_cases same : address = fd
    · rw [same]
      exact Or.inr (List.mem_singleton_self fd)
    · by_cases member : address ∈ items.map Prod.fst
      · exact Or.inl member
      · rw [others address same member] at live
        exact Or.inl (holds.owned address link live)

theorem add_holds (holds : Holds list items) {calloc : Calloc} (iposition : Nat)
    (allocated : calloc.answer list.memory = some fd) :
    ∃ after, onlyAdd list calloc iposition = some (0, after) ∧
      Holds after (items ++ [(fd, iposition)]) := by
  have fresh := calloc.fresh list.memory fd allocated
  have outside : fd ∉ items.map Prod.fst := by
    intro member
    obtain ⟨link, live⟩ := ring_present holds.ring member
    rw [fresh] at live
    contradiction
  let added : Memory := Function.update list.memory fd (some ⟨iposition, none, none⟩)
  have here : added fd = some ⟨iposition, none, none⟩ := Function.update_self ..
  have elsewhere : ∀ other, other ≠ fd → added other = list.memory other :=
    fun other different => Function.update_of_ne different ..
  unfold onlyAdd
  rw [allocated]
  dsimp only
  cases shape : items with
  | nil =>
      have null : list.had = none := by
        rw [holds.head, shape]
        rfl
      have second : setNext added fd (some fd) fd = some ⟨iposition, none, some fd⟩ :=
        set_next_self here _
      rw [null]
      refine ⟨⟨setPrev (setNext added fd (some fd)) fd (some fd), some fd⟩, ?_, ?_, rfl, ?_⟩
      · change ((storeNext added (some fd) (some fd)).bind fun memory => _) = _
        rw [store_next_live here, Option.bind_some]
        change ((storePrev _ (some fd) (some fd)).bind fun memory => _) = _
        rw [store_prev_live second, Option.bind_some]
      · exact ring_alone (set_prev_self second _)
      · intro address link live
        by_cases same : address = fd
        · rw [same]
          exact List.mem_cons_self
        · dsimp only at live
          rw [set_prev_other same, set_next_other same, elsewhere address same] at live
          have member := holds.owned address link live
          rw [shape] at member
          exact absurd member List.not_mem_nil
  | cons item rest =>
      obtain ⟨h, position⟩ := item
      have head : list.had = some h := by
        rw [holds.head, shape]
        rfl
      rw [shape] at holds outside
      have ring : Ring added ((h, position) :: rest) := by
        apply ring_frame holds.ring
        intro other member
        exact elsewhere other fun same => outside (same ▸ member)
      obtain ⟨init, tail, heldTail, parts, ends⟩ := last_node (List.cons_ne_nil (h, position) rest)
      have lastNode : last (some h) rest = some tail := ends none
      have headLink := ring_node ring
      rw [lastNode] at headLink
      have headMember : h ∈ ((h, position) :: rest).map Prod.fst := List.mem_cons_self
      have tailMember : tail ∈ ((h, position) :: rest).map Prod.fst := by
        rw [parts, List.map_append]
        exact List.mem_append_right _ List.mem_cons_self
      have notHead : fd ≠ h := fun same => outside (same ▸ headMember)
      have notTail : fd ≠ tail := fun same => outside (same ▸ tailMember)
      obtain ⟨tailLink, tailLive⟩ := ring_present ring tailMember
      -- the memory after the first three stores
      let first := setNext added fd (some h)
      let second := setPrev first h (some fd)
      let third := setPrev second fd (some tail)
      have headFirst : first h = _ := (set_next_other notHead.symm _).trans headLink
      have fdSecond : second fd = some ⟨iposition, none, some h⟩ :=
        (set_prev_other notHead _).trans (set_next_self here _)
      have fdThird : third fd = some ⟨iposition, some tail, some h⟩ := set_prev_self fdSecond _
      obtain ⟨tailSecond, tailSecondLive, -⟩ : ∃ kept, second tail = some kept ∧ _ :=
        set_prev_live h (some fd) ((set_next_other notTail.symm _).trans tailLive)
      have tailThird : third tail = some tailSecond :=
        (set_prev_other notTail.symm _).trans tailSecondLive
      have others : ∀ other, other ≠ fd → setNext third tail (some fd) other =
          setNext (setPrev added h (some fd)) tail (some fd) other := by
        intro other different
        apply set_next_agree
        refine (set_prev_other different _).trans ?_
        exact set_prev_agree (set_next_other different _) _
      rw [head]
      refine ⟨⟨setNext third tail (some fd), list.had⟩, ?_, ?_⟩
      · change ((added h).bind fun head => _) = _
        rw [headLink, Option.bind_some]
        change ((storeNext added (some fd) (some h)).bind fun memory => _) = _
        rw [store_next_live here, Option.bind_some]
        change ((storePrev first (some h) (some fd)).bind fun memory => _) = _
        rw [store_prev_live headFirst, Option.bind_some]
        change ((storePrev second (some fd) (some tail)).bind fun memory => _) = _
        rw [store_prev_live fdSecond, Option.bind_some]
        change ((storeNext third (some tail) (some fd)).bind fun memory => _) = _
        rw [store_next_live tailThird, Option.bind_some, head]
      · apply holds_append holds (List.cons_ne_nil _ _)
        · apply ring_link_last ring lastNode outside
          · exact (set_next_other notTail _).trans fdThird
          · exact others
        · intro other different apart
          have apartTail : other ≠ tail := fun same => apart (same ▸ tailMember)
          have apartHead : other ≠ h := fun same => apart (same ▸ headMember)
          rw [others other different, set_next_other apartTail, set_prev_other apartHead,
            elsewhere other different]

theorem holds_change {after : Memory} {had : Option Address} {items' : List (Address × Nat)}
    (holds : Holds list items) (ring : Ring after items') (head : had = first items' none)
    (gone : ∀ address ∈ items.map Prod.fst, address ∉ items'.map Prod.fst → after address = none)
    (others : ∀ address ∉ items.map Prod.fst, after address = list.memory address) :
    Holds ⟨after, had⟩ items' := by
  refine ⟨ring, head, fun address link live => ?_⟩
  change after address = some link at live
  by_contra missing
  by_cases member : address ∈ items.map Prod.fst
  · rw [gone address member missing] at live
    contradiction
  · rw [others address member] at live
    exact member (holds.owned address link live)

/-- The found node comes first when the ring is read from it. -/
theorem ring_from (ring : Ring memory (left ++ (fd, position) :: right)) :
    Ring memory ((fd, position) :: (right ++ left)) :=
  ring_rotate left _ ring

theorem ring_back (ring : Ring memory ((fd, position) :: (right ++ left))) :
    Ring memory (left ++ (fd, position) :: right) :=
  ring_rotate ((fd, position) :: right) left ring

theorem mem_around {address : Address} :
    address ∈ (left ++ (fd, position) :: right).map Prod.fst ↔
      address = fd ∨ address ∈ (right ++ left).map Prod.fst := by
  rw [List.map_append, List.map_cons, List.mem_append, List.mem_cons, List.map_append,
    List.mem_append, or_left_comm, or_comm (a := address ∈ left.map Prod.fst)]

theorem mem_swap {address : Address} :
    address ∈ (left ++ right).map Prod.fst ↔ address ∈ (right ++ left).map Prod.fst := by
  rw [List.map_append, List.map_append, List.mem_append, List.mem_append, or_comm]

theorem mem_moved {address : Address} (new : Nat)
    (member : address ∈ (left ++ (fd, position) :: right).map Prod.fst) :
    address ∈ (left ++ right ++ [(fd, new)]).map Prod.fst := by
  rw [List.map_append, List.mem_append]
  rcases mem_around.mp member with here | elsewhere
  · rw [here]
    exact Or.inr (List.mem_singleton_self fd)
  · exact Or.inl (mem_swap.mp elsewhere)

theorem modify_holds (holds : Holds list (left ++ (fd, oposition) :: right))
    (absent : oposition ∉ left.map Prod.snd) (iposition : Nat) :
    ∃ after, modify list iposition oposition = some (0, after) ∧
      Holds after (left ++ right ++ [(fd, iposition)]) := by
  obtain ⟨first_memory, stored, ring, others⟩ :=
    ring_store_held (ring_from holds.ring) iposition
  have outside : ∀ address ∉ (left ++ (fd, oposition) :: right).map Prod.fst,
      first_memory address = list.memory address := by
    intro address apart
    apply others
    intro same
    apply apart
    rw [same, List.map_append]
    exact List.mem_append_right _ List.mem_cons_self
  unfold modify
  rw [search_found holds rfl absent]
  dsimp only [Option.bind_eq_bind, Option.bind_some]
  rw [stored]
  dsimp only [Option.bind_some]
  cases shape : left with
  | nil =>
      rw [shape] at holds ring outside
      have head : list.had = some fd := holds.head
      rw [List.append_nil] at ring
      have node : load first_memory (some fd) =
          some ⟨iposition, last (some fd) right, first right (some fd)⟩ := ring_node ring
      rw [head, if_pos rfl, node]
      refine ⟨_, rfl, holds_change holds (ring_rotate [(fd, iposition)] right ring) ?_ ?_
        outside⟩
      · exact (first_append right [(fd, iposition)] none).symm
      · intro address member missing
        exact absurd (mem_moved iposition member) missing
  | cons item before =>
      obtain ⟨h, position⟩ := item
      rw [shape] at holds ring outside
      have whole := ring_back ring
      have head : list.had = some h := holds.head
      have different : fd ≠ h := by
        intro same
        apply ring_fresh ring
        rw [same]
        exact mem_around.mpr (Or.inl rfl)
      have headNode : load first_memory (some h) =
          some ⟨position, last (some h) (before ++ (fd, iposition) :: right),
            first (before ++ (fd, iposition) :: right) (some h)⟩ := ring_node whole
      rw [head, if_neg fun same => different (Option.some.inj same).symm, headNode]
      dsimp only [Option.bind_some]
      by_cases final : right = []
      · rw [final] at holds outside whole ⊢
        rw [last_append, if_neg fun unlike => unlike rfl]
        refine ⟨_, rfl, ?_⟩
        rw [List.append_nil]
        apply holds_change holds whole rfl
        · intro address member missing
          have there := mem_moved iposition member
          rw [List.append_nil] at there
          exact absurd there missing
        · exact outside
      · obtain ⟨init, tail, heldTail, parts, ends⟩ := last_node final
        have fresh := ring_fresh ring
        have notTail : fd ≠ tail := by
          intro same
          apply fresh
          rw [same, parts, List.map_append, List.map_append]
          exact List.mem_append_left _ (List.mem_append_right _ List.mem_cons_self)
        rw [last_parts, last, ends, if_pos fun same => notTail (Option.some.inj same).symm]
        obtain ⟨second_memory, unlinked, shorter, kept⟩ :=
          ring_unlink ring (List.append_ne_nil_of_left_ne_nil final _)
        have here := kept fd fresh
        rw [ring_node ring] at here
        have front : Ring second_memory ((h, position) :: before ++ right) :=
          ring_rotate right _ shorter
        have apart : fd ∉ ((h, position) :: before ++ right).map Prod.fst :=
          fun member => fresh (mem_swap.mp member)
        obtain ⟨third_memory, moved, longer, beyond⟩ := move_to_end_ring front apart here
        rw [unlinked]
        dsimp only [Option.bind_some]
        rw [moved]
        refine ⟨_, rfl, holds_change holds longer rfl ?_ ?_⟩
        · intro address member missing
          exact absurd (mem_moved iposition member) missing
        · intro address missing
          have notFd : address ≠ fd := fun same => missing (mem_around.mpr (Or.inl same))
          have notKept : address ∉ (right ++ (h, position) :: before).map Prod.fst :=
            fun member => missing (mem_around.mpr (Or.inr member))
          have notFront : address ∉ ((h, position) :: before ++ right).map Prod.fst :=
            fun member => notKept (mem_swap.mp member)
          rw [beyond address notFd notFront, kept address notKept, outside address missing]

theorem delete_holds (holds : Holds list (left ++ (fd, oposition) :: right))
    (absent : oposition ∉ left.map Prod.snd) (more : right ++ left ≠ []) :
    ∃ after, onlyDelete list oposition = some (0, after) ∧ Holds after (left ++ right) := by
  have ring := ring_from holds.ring
  have fresh := ring_fresh ring
  obtain ⟨memory, unlinked, shorter, kept⟩ := ring_unlink ring more
  have node : load memory (some fd) = some ⟨oposition, last (some fd) (right ++ left),
      first (right ++ left) (some fd)⟩ := (kept fd fresh).trans (ring_node ring)
  unfold onlyDelete
  rw [search_found holds rfl absent]
  dsimp only [Option.bind_eq_bind, Option.bind_some]
  rw [unlinked]
  dsimp only [Option.bind_some]
  rw [node]
  refine ⟨_, rfl, ?_⟩
  have released : Ring (release memory fd) (left ++ right) :=
    ring_rotate right left (ring_elsewhere shorter fresh)
  apply holds_change holds released
  · cases left with
    | nil =>
        have head : list.had = some fd := holds.head
        rw [head, if_pos rfl]
        cases right with
        | nil => exact absurd rfl more
        | cons item behind => rfl
    | cons item before =>
        have head : list.had = some item.1 := holds.head
        rw [head, if_neg]
        · rfl
        · intro same
          apply fresh
          rw [← Option.some.inj same, List.map_append]
          exact List.mem_append_right _ List.mem_cons_self
  · intro address member missing
    have here : address = fd :=
      (mem_around.mp member).resolve_right fun elsewhere => missing (mem_swap.mp elsewhere)
    rw [here]
    exact Function.update_self ..
  · intro address missing
    have notFd : address ≠ fd := fun same => missing (mem_around.mpr (Or.inl same))
    have notKept : address ∉ (right ++ left).map Prod.fst :=
      fun member => missing (mem_around.mpr (Or.inr member))
    exact (Function.update_of_ne notFd ..).trans (kept address notKept)

/-- The only node is released while the head still points at it. -/
theorem delete_alone (holds : Holds list [(fd, oposition)]) :
    onlyDelete list oposition = some (0, ⟨release list.memory fd, some fd⟩) := by
  have head : list.had = some fd := holds.head
  have node : load list.memory (some fd) = some ⟨oposition, some fd, some fd⟩ :=
    ring_node holds.ring
  have whole : Holds list ([] ++ (fd, oposition) :: []) := holds
  unfold onlyDelete
  rw [search_found whole rfl List.not_mem_nil]
  dsimp only [Option.bind_eq_bind, Option.bind_some]
  rw [ring_unlink_alone holds.ring]
  dsimp only [Option.bind_some]
  rw [node, head, Option.bind_some, if_pos rfl]

theorem search_null {wanted : Nat → Bool} (null : list.had = none) :
    findAround list.memory list.had wanted rounds list.had = none := by
  rw [null]
  rfl

end Rings

/-- The call returns what the sequence says and leaves a ring of what becomes of it. -/
def Done (list : FrameaddrList) (positions : List Nat) (call : Call) : Prop :=
  ∃ after items, list.call call = some ((sequence positions call).1, after) ∧ Holds after items ∧
    items.map Prod.snd = (sequence positions call).2 ∧
    ((sequence positions call).1 = -2 → after = list)

section Calls

variable {list : FrameaddrList} {items : List (Address × Nat)} {call : Call}

theorem done_right {positions : List Nat} (done : Done list positions call) :
    Right list positions call := by
  obtain ⟨after, items, returned, holds, same, unchanged⟩ := done
  refine ⟨after, returned, ?_, unchanged⟩
  rw [← same]
  exact holds_implements holds

/-- A call that returns something else, or nothing at all, is not right. -/
theorem not_right_of_call {positions : List Nat} {result : Option (Int × FrameaddrList)}
    (called : list.call call = result)
    (wrong : ∀ after, result = some ((sequence positions call).1, after) →
      ¬Implements after (sequence positions call).2) : ¬Right list positions call := by
  intro right
  obtain ⟨after, returned, implements, -⟩ := right
  exact wrong after (called.symm.trans returned) implements

theorem add_cases (holds : Holds list items) (add : call.type = 0) :
    Safe list call ∧ Done list (items.map Prod.snd) call ∨
      ¬Safe list call ∧ ¬Right list (items.map Prod.snd) call := by
  have called : list.call call = onlyAdd list call.calloc call.iposition := by
    unfold FrameaddrList.call cFrameaddrList
    rw [if_pos add]
  have spec : sequence (items.map Prod.snd) call = (0, items.map Prod.snd ++ [call.iposition]) := by
    unfold sequence
    rw [if_pos add]
  unfold Safe
  rw [if_pos add]
  cases allocated : call.calloc.answer list.memory with
  | none =>
      refine Or.inr ⟨fun given => given rfl, not_right_of_call called ?_⟩
      intro after returned
      unfold onlyAdd at returned
      rw [allocated, spec] at returned
      have code := (Prod.mk.inj (Option.some.inj returned)).1
      contradiction
  | some fd =>
      obtain ⟨after, added, longer⟩ := add_holds holds call.iposition allocated
      refine Or.inl ⟨Option.some_ne_none fd, after, _, ?_, longer, ?_, ?_⟩
      · rw [called, added, spec]
      · rw [spec, List.map_append]
        rfl
      · rw [spec]
        exact nofun

theorem other_call (other : call.type ≠ 0) :
    list.call call = if call.type = 1 then modify list call.iposition call.oposition
      else onlyDelete list call.oposition := by
  unfold FrameaddrList.call cFrameaddrList
  rw [if_neg other]

theorem empty_cases (holds : Holds list []) (other : call.type ≠ 0) :
    ¬Safe list call ∧ ¬Right list [] call := by
  have null : list.had = none := holds.head
  constructor
  · unfold Safe
    rw [if_neg other, null]
    rintro ⟨h, member, -⟩
    contradiction
  · apply not_right_of_call (other_call other)
    intro after returned
    unfold modify onlyDelete at returned
    rw [search_null null] at returned
    split_ifs at returned <;> contradiction

theorem absent_done (holds : Holds list items) (present : items ≠ []) (other : call.type ≠ 0)
    (absent : call.oposition ∉ items.map Prod.snd) : Done list (items.map Prod.snd) call := by
  have spec : sequence (items.map Prod.snd) call = (-2, items.map Prod.snd) := by
    unfold sequence
    rw [if_neg other, if_neg absent]
  unfold Done
  rw [spec, other_call other]
  refine ⟨list, items, ?_, holds, rfl, fun _ => rfl⟩
  unfold modify onlyDelete
  rw [search_absent holds present absent]
  split_ifs <;> rfl

/-- What the condition says of the first node of a ring. -/
theorem safe_head {h : Address} {position : Nat} {rest : List (Address × Nat)}
    (holds : Holds list ((h, position) :: rest)) (other : call.type ≠ 0) :
    Safe list call ↔ call.type = 1 ∨ rest ≠ [] ∨ position ≠ call.oposition := by
  have head : list.had = some h := holds.head
  have node := ring_node holds.ring
  have behind : first rest (some h) ≠ some h ↔ rest ≠ [] := by
    cases rest with
    | nil => exact iff_of_false (fun unlike => unlike rfl) (fun unlike => unlike rfl)
    | cons item rest =>
        refine iff_of_true (fun same => ring_fresh holds.ring ?_) (List.cons_ne_nil _ _)
        rw [← Option.some.inj same]
        exact List.mem_cons_self
  unfold Safe
  rw [if_neg other, head]
  constructor
  · rintro ⟨h', same, link, live, condition⟩
    rw [← Option.some.inj same] at live condition
    rw [← Option.some.inj (node.symm.trans live), behind] at condition
    exact condition
  · intro condition
    refine ⟨h, rfl, _, node, ?_⟩
    rw [behind]
    exact condition

theorem absent_cases (holds : Holds list items) (present : items ≠ []) (other : call.type ≠ 0)
    (absent : call.oposition ∉ items.map Prod.snd) :
    Safe list call ∧ Done list (items.map Prod.snd) call := by
  refine ⟨?_, absent_done holds present other absent⟩
  obtain ⟨⟨h, position⟩, rest, shape⟩ := List.exists_cons_of_ne_nil present
  rw [shape] at holds absent
  apply (safe_head holds other).mpr
  exact Or.inr (Or.inr fun same => absent (same ▸ List.mem_cons_self))

theorem found_cases (holds : Holds list items) (other : call.type ≠ 0)
    (member : call.oposition ∈ items.map Prod.snd) :
    Safe list call ∧ Done list (items.map Prod.snd) call ∨
      ¬Safe list call ∧ ¬Right list (items.map Prod.snd) call := by
  have spec : sequence (items.map Prod.snd) call =
      (0, (items.map Prod.snd).erase call.oposition ++
        if call.type = 1 then [call.iposition] else []) := by
    unfold sequence
    rw [if_neg other, if_pos member]
  obtain ⟨left, fd, right, parts, absent⟩ := first_occurrence member
  rw [parts] at holds spec ⊢
  rw [erase_occurrence absent] at spec
  have safe : Safe list call ↔ call.type = 1 ∨ right ++ left ≠ [] := by
    cases left with
    | nil =>
        rw [safe_head holds other, List.append_nil]
        exact or_congr_right (or_iff_left fun unlike => unlike rfl)
    | cons item before =>
        refine iff_of_true ((safe_head holds other).mpr (Or.inr (Or.inl ?_)))
          (Or.inr (List.append_ne_nil_of_right_ne_nil _ (List.cons_ne_nil _ _)))
        exact List.append_ne_nil_of_right_ne_nil _ (List.cons_ne_nil _ _)
  by_cases changing : call.type = 1
  · obtain ⟨after, modified, moved⟩ := modify_holds holds absent call.iposition
    rw [if_pos changing] at spec
    refine Or.inl ⟨safe.mpr (Or.inl changing), after, _, ?_, moved, ?_, ?_⟩
    · rw [other_call other, if_pos changing, modified, spec]
    · rw [spec, List.map_append]
      rfl
    · rw [spec]
      exact nofun
  · rw [if_neg changing, List.append_nil] at spec
    by_cases more : right ++ left = []
    · obtain ⟨rfl, rfl⟩ := List.append_eq_nil_iff.mp more
      refine Or.inr ⟨fun given => (safe.mp given).elim changing fun unlike => unlike rfl, ?_⟩
      apply not_right_of_call ((other_call other).trans (if_neg changing))
      intro after returned implements
      rw [delete_alone holds, spec] at returned
      rw [← (Prod.mk.inj (Option.some.inj returned)).2, spec] at implements
      have head := implements.head.mpr rfl
      contradiction
    · obtain ⟨after, deleted, shorter⟩ := delete_holds holds absent more
      refine Or.inl ⟨safe.mpr (Or.inr more), after, _, ?_, shorter, ?_, ?_⟩
      · rw [other_call other, if_neg changing, deleted, spec]
      · rw [spec]
      · rw [spec]
        exact nofun

theorem call_cases (holds : Holds list items) (call : Call) :
    Safe list call ∧ Done list (items.map Prod.snd) call ∨
      ¬Safe list call ∧ ¬Right list (items.map Prod.snd) call := by
  by_cases add : call.type = 0
  · exact add_cases holds add
  by_cases empty : items = []
  · rw [empty] at holds ⊢
    exact Or.inr (empty_cases holds add)
  by_cases member : call.oposition ∈ items.map Prod.snd
  · exact found_cases holds add member
  · exact Or.inl (absent_cases holds empty add member)

theorem right_iff_safe (holds : Holds list items) (call : Call) :
    Right list (items.map Prod.snd) call ↔ Safe list call := by
  rcases call_cases holds call with ⟨safe, done⟩ | ⟨unlike, wrong⟩
  · exact iff_of_true (done_right done) safe
  · exact iff_of_false wrong unlike

end Calls

instance safe_decidable (list : FrameaddrList) (call : Call) : Decidable (Safe list call) :=
  if add : call.type = 0 then
    decidable_of_iff (call.calloc.answer list.memory ≠ none) (by rw [Safe, if_pos add])
  else
    -- the addresses are too many to be tried in turn
    decidable_of_iff ((list.had.any fun h => (list.memory h).any fun head =>
        call.type = 1 ∨ head.next ≠ some h ∨ head.held ≠ call.oposition) = true)
      (by simp only [Safe, if_neg add, Option.any_eq_true, Option.mem_def, decide_eq_true_eq])

section Sorter

variable {list : FrameaddrList} {items : List (Address × Nat)} {call : Call}

theorem sorter_list_delete (had : List Nat) (iposition oposition other : Nat) :
    StreamSort.cFrameaddrList had iposition oposition (other + 2) =
      if had = [] then none
      else if oposition ∈ had then if had.length = 1 then none else some (0, had.erase oposition)
      else some (-2, had) :=
  rfl

/-- The list of the sorter, which has no nodes, does what the ring does where this is right
and has no result elsewhere. -/
theorem sorter_list_of_ring (holds : Holds list items) (type : Nat) (typed : call.type = type)
    (allocated : call.type = 0 → call.calloc.answer list.memory ≠ none) :
    StreamSort.cFrameaddrList (items.map Prod.snd) call.iposition call.oposition type =
      if Safe list call then some (sequence (items.map Prod.snd) call) else none := by
  unfold sequence
  by_cases add : call.type = 0
  · have zero : type = 0 := Int.ofNat.inj (typed.symm.trans add)
    have safe : Safe list call := by
      unfold Safe
      rw [if_pos add]
      exact allocated add
    rw [zero, if_pos safe, if_pos add]
    rfl
  obtain ⟨other, rfl⟩ : ∃ other, type = other + 1 :=
    Nat.exists_eq_succ_of_ne_zero fun zero => add (typed.trans (congrArg Int.ofNat zero))
  cases shape : items with
  | nil =>
      rw [shape] at holds
      rw [if_neg (empty_cases holds add).1]
      cases other <;> rfl
  | cons item rest =>
      obtain ⟨h, position⟩ := item
      rw [shape] at holds
      rw [if_neg add]
      have safe := safe_head holds add
      have present : ((h, position) :: rest).map Prod.snd ≠ [] := List.cons_ne_nil _ _
      cases other with
      | zero =>
          have changing : call.type = 1 := typed
          rw [if_pos (safe.mpr (Or.inl changing)), if_pos changing]
          unfold StreamSort.cFrameaddrList
          rw [if_neg present]
          split_ifs <;> rfl
      | succ other =>
          have deleting : ¬call.type = 1 := by omega
          rw [sorter_list_delete, if_neg present, if_neg deleting, List.append_nil]
          by_cases member : call.oposition ∈ ((h, position) :: rest).map Prod.snd
          · rw [if_pos member, if_pos member]
            by_cases alone : rest = []
            · rw [alone] at member ⊢
              have same : call.oposition = position := List.mem_singleton.mp member
              have single : ([(h, position)].map Prod.snd).length = 1 := rfl
              rw [if_pos single, if_neg]
              intro given
              rcases safe.mp given with changing | more | unlike
              · exact deleting changing
              · exact more alone
              · exact unlike same.symm
            · have length : ¬(((h, position) :: rest).map Prod.snd).length = 1 := by
                rw [List.length_map, List.length_cons, Nat.add_eq_right]
                exact fun none => alone (List.length_eq_zero_iff.mp none)
              rw [if_neg length, if_pos (safe.mpr (Or.inr (Or.inl alone)))]
          · have unlike : position ≠ call.oposition := fun same =>
              member (same ▸ List.mem_cons_self)
            rw [if_neg member, if_neg member, if_pos (safe.mpr (Or.inr (Or.inr unlike)))]

end Sorter

section Runs

def FrameaddrList.next (list : FrameaddrList) (call : Call) : Option FrameaddrList :=
  (list.call call).map Prod.snd

def sequenceNext (positions : List Nat) (call : Call) : List Nat := (sequence positions call).2

def emptyList : FrameaddrList := ⟨fun _ => none, none⟩

theorem empty_holds : Holds emptyList [] := ⟨ring_nil, rfl, nofun⟩

theorem next_holds (positions : List Nat) (list : FrameaddrList) (call : Call)
    (related : ∃ items, Holds list items ∧ items.map Prod.snd = positions)
    (safe : Safe list call) :
    ∃ after, list.next call = some after ∧
      ∃ items, Holds after items ∧ items.map Prod.snd = sequenceNext positions call := by
  obtain ⟨items, holds, rfl⟩ := related
  rcases call_cases holds call with ⟨-, after, longer, returned, kept, same, -⟩ | ⟨unlike, -⟩
  · refine ⟨after, ?_, longer, kept, same⟩
    unfold FrameaddrList.next
    rw [returned, Option.map_some]
  · exact absurd safe unlike

/-- After calls that keep to the condition the list is a ring of what the calls make of the
sequence, and the next call does to it what it does to the sequence exactly where it keeps to
the condition, too. -/
theorem ring_is_sequence (calls : List Call)
    (meets : TryMeets FrameaddrList.next Safe emptyList calls) :
    ∃ list, tryRun FrameaddrList.next emptyList calls = some list ∧
      Implements list (run sequenceNext [] calls) ∧
      ∀ call, Right list (run sequenceNext [] calls) call ↔ Safe list call := by
  obtain ⟨list, reached, items, holds, same⟩ :=
    try_run_followed next_holds calls [] emptyList ⟨[], empty_holds, rfl⟩ meets
  refine ⟨list, reached, ?_, fun call => ?_⟩
  · rw [← same]
    exact holds_implements holds
  · rw [← same]
    exact right_iff_safe holds call

end Runs

/-- A node at this address, unless it is in use. -/
def callocAt (address : Address) : Calloc where
  answer := fun memory => if (memory address).isNone then some address else none
  fresh := by
    intro memory other answered
    split_ifs at answered with free
    rw [← Option.some.inj answered]
    exact Option.isNone_iff_eq_none.mp free

def callOf (address : Address) (iposition oposition : Nat) (type : Int) : Call :=
  ⟨callocAt address, iposition, oposition, type⟩

def ringCalls : List Call :=
  [callOf 1 10 0 0, callOf 2 20 0 0, callOf 3 30 0 0, callOf 0 40 20 1, callOf 0 50 10 1,
    callOf 0 0 30 2, callOf 0 0 99 2]

theorem ring_is_sequence_moved :
    ∃ list, tryRun FrameaddrList.next emptyList ringCalls = some list ∧
      Implements list (run sequenceNext [] ringCalls) ∧
      ∀ call, Right list (run sequenceNext [] ringCalls) call ↔ Safe list call :=
  ring_is_sequence ringCalls (by decide)

/-- The head still points at the only node after that was released; a search in an empty list
follows the null pointer. -/
theorem only_node_dangles :
    (tryRun FrameaddrList.next emptyList [callOf 1 10 0 0, callOf 0 0 10 2]).map
        (fun list => (list.had, (list.memory 1).isSome, read list)) = some (some 1, false, none) ∧
      (emptyList.call (callOf 0 7 10 1)).isNone = true ∧
      (emptyList.call (callOf 0 0 10 2)).isNone = true ∧
      sequence [] (callOf 0 0 10 2) = (-2, []) ∧
      ¬∀ (calls : List Call) (list : FrameaddrList) (call : Call),
        tryRun FrameaddrList.next emptyList calls = some list →
          Implements list (run sequenceNext [] calls) →
            Right list (run sequenceNext [] calls) call := by
  refine ⟨by decide, by decide, by decide, by decide, fun claimed => ?_⟩
  obtain ⟨after, returned, -⟩ :=
    claimed [] emptyList (callOf 0 0 10 2) rfl (holds_implements empty_holds)
  have nothing : (emptyList.call (callOf 0 0 10 2)).isNone = true := by decide
  rw [returned] at nothing
  contradiction

end Mgw.AddressRing

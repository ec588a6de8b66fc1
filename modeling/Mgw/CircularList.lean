import Mathlib.Data.List.Nodup
import Mgw.DoublyLinked

/-!
Circular doubly linked lists without a header. The nodes of such a list form a ring
from whichever of them it is read. Loads and stores go through pointers and have no
result where the pointer is null or its node is not allocated.
-/

namespace Mgw.CircularList

open DoublyLinked

set_option autoImplicit false

variable {Addr Held : Type*}

/-- The items are linked in a circle. -/
structure Ring (nodes : Nodes Addr Held) (items : List (Addr × Held)) : Prop where
  linked : Linked nodes (last none items) items (first items none)
  apart : (items.map Prod.fst).Nodup

def load (nodes : Nodes Addr Held) (pointer : Option Addr) : Option (Link Addr Held) :=
  pointer.bind nodes

section Operations

variable [DecidableEq Addr] (nodes : Nodes Addr Held)

def store (pointer : Option Addr) (change : Link Addr Held → Link Addr Held) :
    Option (Nodes Addr Held) :=
  pointer.bind fun addr =>
    (nodes addr).map fun link => Function.update nodes addr (some (change link))

def storeHeld (pointer : Option Addr) (held : Held) : Option (Nodes Addr Held) :=
  store nodes pointer fun link => { link with held := held }

def storePrev (pointer prev : Option Addr) : Option (Nodes Addr Held) :=
  store nodes pointer fun link => { link with prev := prev }

def storeNext (pointer next : Option Addr) : Option (Nodes Addr Held) :=
  store nodes pointer fun link => { link with next := next }

/-- The nodes before and behind a node point at each other. -/
def unlink (node : Option Addr) : Option (Nodes Addr Held) :=
  (load nodes node).bind fun here =>
    (storeNext nodes here.prev here.next).bind fun bypassed =>
      (load bypassed node).bind fun here => storePrev bypassed here.next here.prev

/-- The first node that holds what is wanted, on the way from `node` back to `head`. -/
def findAround (head : Option Addr) (wanted : Held → Bool) :
    Nat → Option Addr → Option (Option Addr)
  | 0, _ => none
  | rounds + 1, node =>
      (load nodes node).bind fun link =>
        if wanted link.held then some node
        else if head = link.next then some none
        else findAround head wanted rounds link.next

/-- What the nodes hold on the way from `node` back to `head`. -/
def readAround (head : Option Addr) : Nat → Option Addr → Option (List Held)
  | 0, _ => none
  | rounds + 1, node =>
      (load nodes node).bind fun link =>
        (if head = link.next then some [] else readAround head rounds link.next).map
          (List.cons link.held)

end Operations

/-- Every node is what the node behind it has before itself, and the other way round. -/
structure Inverse (nodes : Nodes Addr Held) : Prop where
  next_prev : ∀ addr link, nodes addr = some link →
    ∃ next follower, link.next = some next ∧ nodes next = some follower ∧ follower.prev = some addr
  prev_next : ∀ addr link, nodes addr = some link →
    ∃ prev leader, link.prev = some prev ∧ nodes prev = some leader ∧ leader.next = some addr

section Ends

variable {items left right : List (Addr × Held)} {addr : Addr} {held : Held}

theorem last_parts (prev : Option Addr) (left right : List (Addr × Held)) :
    last prev (left ++ right) = last (last prev left) right := by
  induction left generalizing prev with
  | nil => rfl
  | cons item rest ih => exact ih (some item.1)

theorem first_append (left right : List (Addr × Held)) (stop : Option Addr) :
    first (left ++ right) stop = first left (first right stop) := by
  cases left <;> rfl

/-- A list with nodes has a last one, whatever is before it. -/
theorem last_node (present : items ≠ []) :
    ∃ left tail held, items = left ++ [(tail, held)] ∧ ∀ prev, last prev items = some tail := by
  obtain ⟨left, ⟨tail, held⟩, parts⟩ := (List.eq_nil_or_concat items).resolve_left present
  rw [List.concat_eq_append] at parts
  refine ⟨left, tail, held, parts, fun prev => ?_⟩
  rw [parts]
  exact last_append prev left tail held

end Ends

section Rings

variable {nodes after : Nodes Addr Held} {items left right rest : List (Addr × Held)}
  {addr head other : Addr} {held : Held}

theorem ring_nil : Ring nodes [] := ⟨trivial, List.nodup_nil⟩

/-- A ring may be read from any of its nodes. -/
theorem ring_rotate (left right : List (Addr × Held)) (ring : Ring nodes (left ++ right)) :
    Ring nodes (right ++ left) := by
  refine ⟨?_, ?_⟩
  · cases left with
    | nil =>
        rw [List.append_nil]
        exact ring.linked
    | cons here left =>
        cases right with
        | nil =>
            have linked := ring.linked
            rw [List.append_nil] at linked
            exact linked
        | cons there right =>
            have linked := linked_append.mp ring.linked
            apply linked_append.mpr
            rw [last_parts] at linked ⊢
            exact ⟨linked.2, linked.1⟩
  · have apart := ring.apart
    rw [List.map_append, List.nodup_append_comm] at apart
    rw [List.map_append]
    exact apart

theorem ring_node (ring : Ring nodes ((addr, held) :: rest)) :
    nodes addr = some ⟨held, last (some addr) rest, first rest (some addr)⟩ :=
  ring.linked.1

theorem ring_fresh (ring : Ring nodes ((addr, held) :: rest)) : addr ∉ rest.map Prod.fst :=
  (List.nodup_cons.mp ring.apart).1

theorem ring_alone (alone : nodes addr = some ⟨held, some addr, some addr⟩) :
    Ring nodes [(addr, held)] :=
  ⟨⟨alone, trivial⟩, List.nodup_singleton addr⟩

theorem ring_frame (ring : Ring nodes items)
    (same : ∀ addr ∈ items.map Prod.fst, after addr = nodes addr) : Ring after items :=
  ⟨linked_frame ring.linked same, ring.apart⟩

theorem ring_present (ring : Ring nodes items) (member : addr ∈ items.map Prod.fst) :
    ∃ link, nodes addr = some link :=
  linked_present ring.linked member

/-- The nodes of a ring are the ones of two lists around any of them. -/
theorem ring_around (ring : Ring nodes items) (member : addr ∈ items.map Prod.fst) :
    ∃ left held right, items = left ++ (addr, held) :: right ∧
      Ring nodes ((addr, held) :: (right ++ left)) := by
  obtain ⟨⟨node, held⟩, inside, same⟩ := List.mem_map.mp member
  obtain ⟨left, right, parts⟩ := List.append_of_mem inside
  have here : node = addr := same
  rw [here] at parts
  rw [parts] at ring
  exact ⟨left, held, right, parts, ring_rotate left _ ring⟩

/-- Where all nodes are on the ring, what points at what goes both ways. -/
theorem ring_inverse (ring : Ring nodes items)
    (all : ∀ addr link, nodes addr = some link → addr ∈ items.map Prod.fst) : Inverse nodes := by
  constructor
  · intro addr link live
    obtain ⟨left, held, right, -, around⟩ := ring_around ring (all addr link live)
    rw [ring_node around] at live
    rw [← Option.some.inj live]
    cases behind : right ++ left with
    | nil =>
        rw [behind] at around
        exact ⟨addr, _, rfl, ring_node around, rfl⟩
    | cons item rest =>
        rw [behind] at around
        exact ⟨item.1, _, rfl, around.linked.2.1, rfl⟩
  · intro addr link live
    obtain ⟨left, held, right, -, around⟩ := ring_around ring (all addr link live)
    rw [ring_node around] at live
    rw [← Option.some.inj live]
    by_cases alone : right ++ left = []
    · rw [alone] at around ⊢
      exact ⟨addr, _, rfl, ring_node around, rfl⟩
    · obtain ⟨before, tail, heldTail, parts, ends⟩ := last_node alone
      have linked := around.linked.2
      rw [parts] at linked
      exact ⟨tail, _, ends _, (linked_append.mp linked).2.1, rfl⟩

section Changes

variable [DecidableEq Addr]

theorem store_live {change : Link Addr Held → Link Addr Held} {link : Link Addr Held}
    (live : nodes addr = some link) :
    store nodes (some addr) change = some (Function.update nodes addr (some (change link))) := by
  unfold store
  rw [Option.bind_some, live, Option.map_some]

theorem store_next_live {link : Link Addr Held} (live : nodes addr = some link)
    (next : Option Addr) :
    storeNext nodes (some addr) next = some (setNext nodes addr next) := by
  unfold storeNext setNext
  rw [store_live live, live, Option.map_some]

theorem store_prev_live {link : Link Addr Held} (live : nodes addr = some link)
    (prev : Option Addr) :
    storePrev nodes (some addr) prev = some (setPrev nodes addr prev) := by
  unfold storePrev setPrev
  rw [store_live live, live, Option.map_some]

theorem set_next_self {link : Link Addr Held} (live : nodes addr = some link)
    (next : Option Addr) : setNext nodes addr next addr = some { link with next := next } := by
  unfold setNext
  rw [Function.update_self, live, Option.map_some]

theorem set_prev_self {link : Link Addr Held} (live : nodes addr = some link)
    (prev : Option Addr) : setPrev nodes addr prev addr = some { link with prev := prev } := by
  unfold setPrev
  rw [Function.update_self, live, Option.map_some]

theorem set_next_other (different : other ≠ addr) (next : Option Addr) :
    setNext nodes addr next other = nodes other :=
  Function.update_of_ne different ..

theorem set_prev_other (different : other ≠ addr) (prev : Option Addr) :
    setPrev nodes addr prev other = nodes other :=
  Function.update_of_ne different ..

theorem set_next_live (addr : Addr) (next : Option Addr) {link : Link Addr Held} (live : nodes other = some link) :
    ∃ kept, setNext nodes addr next other = some kept ∧ kept.prev = link.prev := by
  by_cases same : other = addr
  · rw [same] at live ⊢
    exact ⟨_, set_next_self live next, rfl⟩
  · exact ⟨link, (set_next_other same next).trans live, rfl⟩

theorem set_prev_live (addr : Addr) (prev : Option Addr) {link : Link Addr Held} (live : nodes other = some link) :
    ∃ kept, setPrev nodes addr prev other = some kept ∧ kept.next = link.next := by
  by_cases same : other = addr
  · rw [same] at live ⊢
    exact ⟨_, set_prev_self live prev, rfl⟩
  · exact ⟨link, (set_prev_other same prev).trans live, rfl⟩

/-- What a store makes of a node depends on that node alone. -/
theorem set_next_agree (same : after other = nodes other) (next : Option Addr) :
    setNext after addr next other = setNext nodes addr next other := by
  by_cases here : other = addr
  · rw [here] at same ⊢
    unfold setNext
    rw [Function.update_self, Function.update_self, same]
  · rw [set_next_other here, set_next_other here, same]

theorem set_prev_agree (same : after other = nodes other) (prev : Option Addr) :
    setPrev after addr prev other = setPrev nodes addr prev other := by
  by_cases here : other = addr
  · rw [here] at same ⊢
    unfold setPrev
    rw [Function.update_self, Function.update_self, same]
  · rw [set_prev_other here, set_prev_other here, same]

theorem set_prev_set_next (next prev : Option Addr) :
    setPrev (setNext nodes addr next) head prev = setNext (setPrev nodes head prev) addr next := by
  funext other
  by_cases atAddr : other = addr
  · by_cases atHead : other = head
    · rw [← atAddr, ← atHead]
      unfold setPrev setNext
      rw [Function.update_self, Function.update_self, Function.update_self, Function.update_self,
        Option.map_map, Option.map_map]
      rfl
    · rw [set_prev_other atHead]
      exact (set_next_agree (set_prev_other atHead prev) next).symm
  · rw [set_next_other atAddr]
    exact set_prev_agree (set_next_other atAddr next) prev

theorem ring_elsewhere {value : Option (Link Addr Held)} (ring : Ring nodes items)
    (outside : addr ∉ items.map Prod.fst) : Ring (Function.update nodes addr value) items :=
  ⟨linked_elsewhere ring.linked outside, ring.apart⟩

/-- What a node holds is replaced. -/
theorem ring_store_held (ring : Ring nodes ((addr, held) :: rest)) (new : Held) :
    ∃ after, storeHeld nodes (some addr) new = some after ∧ Ring after ((addr, new) :: rest) ∧
      ∀ other, other ≠ addr → after other = nodes other := by
  refine ⟨_, store_live (ring_node ring), ⟨⟨?_, ?_⟩, ring.apart⟩, ?_⟩
  · exact Function.update_self ..
  · exact linked_elsewhere ring.linked.2 (ring_fresh ring)
  · intro other different
    exact Function.update_of_ne different ..

/-- A node taken out of a ring of more than one leaves the others in a ring. -/
theorem ring_unlink (ring : Ring nodes ((addr, held) :: rest)) (more : rest ≠ []) :
    ∃ after, unlink nodes (some addr) = some after ∧ Ring after rest ∧
      ∀ other ∉ rest.map Prod.fst, after other = nodes other := by
  obtain ⟨init, tail, heldTail, parts, ends⟩ := last_node more
  obtain ⟨⟨next, heldNext⟩, others, shape⟩ := List.exists_cons_of_ne_nil more
  have fresh := ring_fresh ring
  have apart := (List.nodup_cons.mp ring.apart).2
  have here := ring_node ring
  rw [ends, shape] at here
  change nodes addr = some ⟨held, some tail, some next⟩ at here
  have tailMember : tail ∈ rest.map Prod.fst := by
    rw [parts, List.map_append]
    exact List.mem_append_right _ List.mem_cons_self
  have nextMember : next ∈ rest.map Prod.fst := by
    rw [shape]
    exact List.mem_cons_self
  have notTail : addr ≠ tail := fun same => fresh (same ▸ tailMember)
  obtain ⟨tailLink, tailLive⟩ := linked_present ring.linked.2 tailMember
  obtain ⟨nextLink, nextLive⟩ := linked_present ring.linked.2 nextMember
  obtain ⟨kept, keptLive, -⟩ := set_next_live tail (some next) nextLive
  refine ⟨setPrev (setNext nodes tail (some next)) next (some tail), ?_, ⟨?_, apart⟩, ?_⟩
  · change ((nodes addr).bind fun here => _) = _
    rw [here, Option.bind_some]
    change ((storeNext nodes (some tail) (some next)).bind fun bypassed => _) = _
    rw [store_next_live tailLive, Option.bind_some]
    change ((setNext nodes tail (some next) addr).bind fun here => _) = _
    rw [set_next_other notTail, here, Option.bind_some]
    exact store_prev_live keptLive _
  · have linked := ring.linked.2
    rw [parts] at linked apart
    rw [List.map_append, List.nodup_append] at apart
    have early : tail ∉ init.map Prod.fst := fun member =>
      apart.2.2 tail member tail List.mem_cons_self rfl
    have bypassed := linked_set_next (some next) linked early
    rw [← parts, shape] at bypassed
    have distinct := (List.nodup_cons.mp ring.apart).2
    rw [shape] at distinct
    have around := linked_set_prev (some tail) bypassed (List.nodup_cons.mp distinct).1
    rw [ends, shape]
    exact around
  · intro other outside
    have notNext : other ≠ next := fun same => outside (same ▸ nextMember)
    have notTail : other ≠ tail := fun same => outside (same ▸ tailMember)
    rw [set_prev_other notNext, set_next_other notTail]

/-- The only node of a ring stays linked to itself. -/
theorem ring_unlink_alone (ring : Ring nodes [(addr, held)]) :
    unlink nodes (some addr) = some nodes := by
  have here : nodes addr = some ⟨held, some addr, some addr⟩ := ring_node ring
  have same : setNext nodes addr (some addr) = nodes := by
    unfold setNext
    rw [here, Option.map_some, ← here, Function.update_eq_self]
  have same' : setPrev nodes addr (some addr) = nodes := by
    unfold setPrev
    rw [here, Option.map_some, ← here, Function.update_eq_self]
  change ((nodes addr).bind fun here => _) = _
  rw [here, Option.bind_some]
  change ((storeNext nodes (some addr) (some addr)).bind fun bypassed => _) = _
  rw [store_next_live here, same, Option.bind_some]
  change ((nodes addr).bind fun here => _) = _
  rw [here, Option.bind_some]
  change storePrev nodes (some addr) (some addr) = _
  rw [store_prev_live here, same']

/-- A node outside that is linked in between the last node and the first one. -/
theorem ring_link_last {tail : Addr} (ring : Ring nodes ((head, held) :: rest))
    (ends : last (some head) rest = some tail) {new : Addr} {heldNew : Held}
    (outside : new ∉ ((head, held) :: rest).map Prod.fst)
    (linkedIn : after new = some ⟨heldNew, some tail, some head⟩)
    (others : ∀ addr, addr ≠ new →
      after addr = setNext (setPrev nodes head (some new)) tail (some new) addr) :
    Ring after ((head, held) :: rest ++ [(new, heldNew)]) := by
  obtain ⟨init, last, heldLast, parts, lastEnds⟩ := last_node (List.cons_ne_nil (head, held) rest)
  have same : last = tail := Option.some.inj ((lastEnds none).symm.trans ends)
  rw [same] at parts
  have apart := ring.apart
  rw [parts, List.map_append, List.nodup_append] at apart
  have early : tail ∉ init.map Prod.fst := fun member =>
    apart.2.2 tail member tail List.mem_cons_self rfl
  have front := linked_set_prev (some new) ring.linked (ring_fresh ring)
  rw [parts] at front
  have around := linked_set_next (some new) front early
  rw [← parts] at around
  constructor
  · apply linked_append.mpr
    rw [last_parts]
    constructor
    · refine linked_frame around fun addr member => others addr ?_
      intro equal
      rw [equal] at member
      exact outside member
    · refine ⟨?_, trivial⟩
      rw [linkedIn, lastEnds, same]
      rfl
  · rw [List.map_append, List.nodup_append]
    refine ⟨ring.apart, List.nodup_singleton new, ?_⟩
    intro addr member other alone equal
    rw [equal, List.mem_singleton.mp alone] at member
    exact outside member

end Changes

section Search

variable [DecidableEq Addr] {wanted : Held → Bool} {prev : Option Addr} {rounds : Nat}

theorem find_around_linked (linked : Linked nodes prev ((addr, held) :: rest) (some head))
    (fresh : head ∉ rest.map Prod.fst) (enough : rest.length < rounds) :
    findAround nodes (some head) wanted rounds (some addr) =
      some ((((addr, held) :: rest).find? fun item => wanted item.2).map Prod.fst) := by
  induction rest generalizing prev addr held rounds with
  | nil =>
      obtain ⟨more, rfl⟩ := Nat.exists_eq_succ_of_ne_zero (Nat.ne_of_gt enough)
      unfold findAround load
      rw [Option.bind_some, linked.1]
      dsimp only [Option.bind, first]
      rw [List.find?_cons, List.find?_nil]
      cases wanted held with
      | true => rfl
      | false =>
          rw [if_neg Bool.false_ne_true, if_pos rfl]
          rfl
  | cons item rest ih =>
      obtain ⟨more, rfl⟩ := Nat.exists_eq_succ_of_ne_zero (Nat.ne_of_gt (Nat.zero_lt_of_lt enough))
      have notBack : ¬some head = some item.1 := by
        intro same
        apply fresh
        rw [Option.some.inj same]
        exact List.mem_cons_self
      unfold findAround load
      rw [Option.bind_some, linked.1]
      dsimp only [Option.bind, first]
      rw [List.find?_cons]
      cases wanted held with
      | true => rfl
      | false =>
          rw [if_neg Bool.false_ne_true, if_neg notBack]
          exact ih linked.2 (fun member => fresh (List.mem_cons_of_mem _ member))
            (Nat.lt_of_succ_lt_succ enough)

/-- The search around a ring is one through its items. -/
theorem find_ring (ring : Ring nodes ((head, held) :: rest)) (enough : rest.length < rounds) :
    findAround nodes (some head) wanted rounds (some head) =
      some ((((head, held) :: rest).find? fun item => wanted item.2).map Prod.fst) :=
  find_around_linked ring.linked (ring_fresh ring) enough

theorem read_linked (linked : Linked nodes prev ((addr, held) :: rest) (some head))
    (fresh : head ∉ rest.map Prod.fst) (enough : rest.length < rounds) :
    readAround nodes (some head) rounds (some addr) = some (((addr, held) :: rest).map Prod.snd) := by
  induction rest generalizing prev addr held rounds with
  | nil =>
      obtain ⟨more, rfl⟩ := Nat.exists_eq_succ_of_ne_zero (Nat.ne_of_gt enough)
      unfold readAround load
      rw [Option.bind_some, linked.1]
      dsimp only [Option.bind, first]
      rw [if_pos rfl]
      rfl
  | cons item rest ih =>
      obtain ⟨more, rfl⟩ := Nat.exists_eq_succ_of_ne_zero (Nat.ne_of_gt (Nat.zero_lt_of_lt enough))
      have notBack : ¬some head = some item.1 := by
        intro same
        apply fresh
        rw [Option.some.inj same]
        exact List.mem_cons_self
      have further := ih linked.2 (fun member => fresh (List.mem_cons_of_mem _ member))
        (Nat.lt_of_succ_lt_succ enough)
      unfold readAround load
      rw [Option.bind_some, linked.1]
      dsimp only [Option.bind, first]
      rw [if_neg notBack, further]
      rfl

theorem read_ring (ring : Ring nodes ((head, held) :: rest)) (enough : rest.length < rounds) :
    readAround nodes (some head) rounds (some head) = some (((head, held) :: rest).map Prod.snd) :=
  read_linked ring.linked (ring_fresh ring) enough

end Search

end Rings

end Mgw.CircularList

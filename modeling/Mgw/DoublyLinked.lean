import Mathlib.Data.List.Induction
import Mathlib.Logic.Function.Basic

/-!
Doubly linked lists whose nodes are found by their addresses and point at the node
before and behind them. A list is described by its nodes in order, each with what it
holds, and by the pointers that lead into it and out of it, so that a list falls
into two at any place.
-/

namespace Mgw.DoublyLinked

set_option autoImplicit false

structure Link (Addr Held : Type*) where
  held : Held
  prev : Option Addr
  next : Option Addr

variable {Addr Held : Type*}

/-- The nodes that are allocated. -/
abbrev Nodes (Addr Held : Type*) := Addr → Option (Link Addr Held)

/-- The first node of a list, or the pointer behind it. -/
def first (items : List (Addr × Held)) (stop : Option Addr) : Option Addr :=
  match items with
  | [] => stop
  | (addr, _) :: _ => some addr

/-- The last node of a list, or the pointer before it. -/
def last (prev : Option Addr) : List (Addr × Held) → Option Addr
  | [] => prev
  | (addr, _) :: rest => last (some addr) rest

/-- The items are linked both ways, with `prev` before and `stop` behind them. -/
def Linked (nodes : Nodes Addr Held) : Option Addr → List (Addr × Held) → Option Addr → Prop
  | _, [], _ => True
  | prev, (addr, held) :: rest, stop =>
      nodes addr = some ⟨held, prev, first rest stop⟩ ∧ Linked nodes (some addr) rest stop

section Operations

variable [DecidableEq Addr] (nodes : Nodes Addr Held)

def setNext (addr : Addr) (next : Option Addr) : Nodes Addr Held :=
  Function.update nodes addr ((nodes addr).map fun link => { link with next := next })

def setPrev (addr : Addr) (prev : Option Addr) : Nodes Addr Held :=
  Function.update nodes addr ((nodes addr).map fun link => { link with prev := prev })

def release (addr : Addr) : Nodes Addr Held := Function.update nodes addr none

/-- A new node behind the last one. -/
def append (tail addr : Addr) (held : Held) : Nodes Addr Held :=
  setNext (Function.update nodes addr (some ⟨held, some tail, none⟩)) tail (some addr)

/-- The last node from `addr` on, in at most `rounds` rounds. -/
def findLast : Nat → Addr → Option Addr
  | 0, _ => none
  | rounds + 1, addr =>
      (nodes addr).bind fun link =>
        match link.next with
        | none => some addr
        | some next => findLast rounds next

/-- The first node from `start` on that holds what is wanted, if there is one. A search
that comes to a node that is not allocated has no result. -/
def find (wanted : Held → Bool) : Nat → Option Addr → Option (Option (Addr × Held))
  | _, none => some none
  | 0, some _ => none
  | rounds + 1, some addr =>
      (nodes addr).bind fun link =>
        if wanted link.held then some (some (addr, link.held)) else find wanted rounds link.next

/-- The nodes from `start` on, at most `rounds` of them. -/
def walk : Nat → Option Addr → List (Addr × Held)
  | 0, _ => []
  | _, none => []
  | rounds + 1, some addr =>
      match nodes addr with
      | none => []
      | some link => (addr, link.held) :: walk rounds link.next

end Operations

variable {nodes nodes' : Nodes Addr Held} {prev stop : Option Addr} {addr : Addr} {held : Held}
  {items left right : List (Addr × Held)}

/-- Both parts of a list, and the seam between them. -/
theorem linked_append : Linked nodes prev (left ++ right) stop ↔
    Linked nodes prev left (first right stop) ∧ Linked nodes (last prev left) right stop := by
  induction left generalizing prev with
  | nil => exact ⟨fun linked => ⟨trivial, linked⟩, fun parts => parts.2⟩
  | cons item rest ih =>
      obtain ⟨addr, held⟩ := item
      have seam : first (rest ++ right) stop = first rest (first right stop) := by
        cases rest <;> rfl
      rw [List.cons_append, Linked, Linked, ih, seam, last, and_assoc]

theorem last_append (prev : Option Addr) (left : List (Addr × Held)) (addr : Addr) (held : Held) :
    last prev (left ++ [(addr, held)]) = some addr := by
  induction left generalizing prev with
  | nil => rfl
  | cons item rest ih => exact ih (some item.1)

/-- A list does not see nodes that are not its own. -/
theorem linked_frame (linked : Linked nodes prev items stop)
    (same : ∀ addr ∈ items.map Prod.fst, nodes' addr = nodes addr) :
    Linked nodes' prev items stop := by
  induction items generalizing prev with
  | nil => trivial
  | cons item rest ih =>
      obtain ⟨here, further⟩ := linked
      constructor
      · rw [same item.1 List.mem_cons_self]
        exact here
      · exact ih further fun addr member => same addr (List.mem_cons_of_mem _ member)

theorem linked_present (linked : Linked nodes prev items stop)
    (member : addr ∈ items.map Prod.fst) : ∃ link, nodes addr = some link := by
  induction items generalizing prev with
  | nil => exact absurd member List.not_mem_nil
  | cons item rest ih =>
      rcases List.mem_cons.mp member with same | later
      · rw [same]
        exact ⟨_, linked.1⟩
      · exact ih linked.2 later

variable {tail next : Addr} {heldTail heldNext : Held}

/-- The addresses of a list with a node in the middle. -/
theorem middle_apart (nodup : ((left ++ [(tail, heldTail)] ++ (addr, held) :: right).map
    Prod.fst).Nodup) :
    tail ∉ left.map Prod.fst ∧ addr ∉ (left ++ [(tail, heldTail)]).map Prod.fst ∧
      addr ∉ right.map Prod.fst ∧ (∀ other ∈ right.map Prod.fst,
        other ∉ (left ++ [(tail, heldTail)]).map Prod.fst) := by
  rw [List.map_append, List.nodup_append] at nodup
  obtain ⟨before, behind, apart⟩ := nodup
  rw [List.map_cons, List.nodup_cons] at behind
  rw [List.map_append, List.nodup_append] at before
  refine ⟨?_, ?_, behind.1, ?_⟩
  · intro member
    exact before.2.2 tail member tail List.mem_cons_self rfl
  · intro member
    exact apart addr member addr List.mem_cons_self rfl
  · intro other member again
    exact apart other again other (List.mem_cons_of_mem _ member) rfl

section Operations

variable [DecidableEq Addr]

theorem linked_elsewhere {value : Option (Link Addr Held)} (linked : Linked nodes prev items stop)
    (outside : addr ∉ items.map Prod.fst) :
    Linked (Function.update nodes addr value) prev items stop := by
  apply linked_frame linked
  intro other member
  apply Function.update_of_ne
  intro same
  rw [same] at member
  exact outside member

/-- The pointer out of a list is set in its last node. -/
theorem linked_set_next (stop' : Option Addr)
    (linked : Linked nodes prev (left ++ [(addr, held)]) stop)
    (outside : addr ∉ left.map Prod.fst) :
    Linked (setNext nodes addr stop') prev (left ++ [(addr, held)]) stop' := by
  rw [linked_append] at linked ⊢
  refine ⟨linked_elsewhere linked.1 outside, ?_, trivial⟩
  rw [setNext, Function.update_self, linked.2.1]
  rfl

/-- The pointer into a list is set in its first node. -/
theorem linked_set_prev (prev' : Option Addr)
    (linked : Linked nodes prev ((addr, held) :: right) stop)
    (outside : addr ∉ right.map Prod.fst) :
    Linked (setPrev nodes addr prev') prev' ((addr, held) :: right) stop := by
  refine ⟨?_, linked_elsewhere linked.2 outside⟩
  rw [setPrev, Function.update_self, linked.1]
  rfl

theorem linked_release (linked : Linked nodes prev items stop)
    (outside : addr ∉ items.map Prod.fst) : Linked (release nodes addr) prev items stop :=
  linked_elsewhere linked outside

theorem linked_set_next_elsewhere (target : Option Addr)
    (linked : Linked nodes prev items stop) (outside : addr ∉ items.map Prod.fst) :
    Linked (setNext nodes addr target) prev items stop :=
  linked_elsewhere linked outside

theorem linked_set_prev_elsewhere (target : Option Addr)
    (linked : Linked nodes prev items stop) (outside : addr ∉ items.map Prod.fst) :
    Linked (setPrev nodes addr target) prev items stop :=
  linked_elsewhere linked outside

/-- The last node taken out. -/
theorem linked_unlink_last
    (linked : Linked nodes prev (left ++ [(tail, heldTail)] ++ [(addr, held)]) stop)
    (nodup : ((left ++ [(tail, heldTail)] ++ [(addr, held)]).map Prod.fst).Nodup) :
    Linked (release (setNext nodes tail none) addr) prev (left ++ [(tail, heldTail)]) none := by
  obtain ⟨early, apart, -, -⟩ := middle_apart nodup
  have front := (linked_append.mp linked).1
  exact linked_release (linked_set_next none front early) apart

/-- A node taken out of the middle. -/
theorem linked_unlink
    (linked : Linked nodes prev
      (left ++ [(tail, heldTail)] ++ (addr, held) :: (next, heldNext) :: right) stop)
    (nodup : ((left ++ [(tail, heldTail)] ++ (addr, held) :: (next, heldNext) :: right).map
      Prod.fst).Nodup) :
    Linked (release (setPrev (setNext nodes tail (some next)) next (some tail)) addr) prev
      (left ++ [(tail, heldTail)] ++ (next, heldNext) :: right) stop := by
  obtain ⟨early, apart, alone, crossed⟩ := middle_apart nodup
  obtain ⟨front, back⟩ := linked_append.mp linked
  have nextApart := crossed next List.mem_cons_self
  have nextAlone : next ∉ right.map Prod.fst := by
    rw [List.map_append, List.nodup_append] at nodup
    have behind := (List.nodup_cons.mp nodup.2.1).2
    exact (List.nodup_cons.mp behind).1
  have tailApart : tail ∉ ((next, heldNext) :: right).map Prod.fst := by
    intro member
    apply crossed tail member
    rw [List.map_append]
    exact List.mem_append_right _ List.mem_cons_self
  have frontAfter := linked_set_prev_elsewhere (some tail)
    (linked_set_next (some next) front early) nextApart
  have backAfter := linked_set_prev (some tail)
    (linked_set_next_elsewhere (some next) back.2 tailApart) nextAlone
  apply linked_append.mpr
  rw [last_append]
  exact ⟨linked_release frontAfter apart, linked_release backAfter alone⟩

/-- A new node behind the last one of a list that ends there. -/
theorem linked_append_new (linked : Linked nodes prev (left ++ [(tail, heldTail)]) none)
    (nodup : ((left ++ [(tail, heldTail)]).map Prod.fst).Nodup)
    (fresh : addr ∉ (left ++ [(tail, heldTail)]).map Prod.fst) :
    Linked (append nodes tail addr held) prev (left ++ [(tail, heldTail)] ++ [(addr, held)])
      none := by
  have early : tail ∉ left.map Prod.fst := by
    rw [List.map_append, List.nodup_append] at nodup
    intro member
    exact nodup.2.2 tail member tail List.mem_cons_self rfl
  have different : addr ≠ tail := by
    intro same
    apply fresh
    rw [same, List.map_append]
    exact List.mem_append_right _ List.mem_cons_self
  apply linked_append.mpr
  constructor
  · exact linked_set_next (some addr) (linked_elsewhere linked fresh) early
  · rw [last_append]
    refine ⟨?_, trivial⟩
    rw [append, setNext, Function.update_of_ne different, Function.update_self]
    rfl

end Operations

section Search

theorem find_last_linked {rounds : Nat} (linked : Linked nodes prev ((addr, held) :: items) none)
    (enough : items.length < rounds) :
    findLast nodes rounds addr = last prev ((addr, held) :: items) := by
  induction items generalizing prev addr held rounds with
  | nil =>
      obtain ⟨more, rfl⟩ := Nat.exists_eq_succ_of_ne_zero (Nat.ne_of_gt enough)
      rw [findLast, linked.1]
      rfl
  | cons item rest ih =>
      obtain ⟨more, rfl⟩ := Nat.exists_eq_succ_of_ne_zero (Nat.ne_of_gt (Nat.zero_lt_of_lt enough))
      rw [findLast, linked.1]
      exact ih linked.2 (Nat.lt_of_succ_lt_succ enough)

/-- The search through the pointers is one through the items. -/
theorem find_linked {wanted : Held → Bool} {rounds : Nat} (linked : Linked nodes prev items none)
    (enough : items.length < rounds) :
    find nodes wanted rounds (first items none) = some (items.find? fun item => wanted item.2) := by
  induction items generalizing prev rounds with
  | nil =>
      cases rounds <;> rfl
  | cons item rest ih =>
      obtain ⟨more, rfl⟩ := Nat.exists_eq_succ_of_ne_zero (Nat.ne_of_gt (Nat.zero_lt_of_lt enough))
      change find nodes wanted (more + 1) (some item.1) = _
      rw [find, linked.1, Option.bind_some, List.find?_cons]
      cases wanted item.2 with
      | true => rfl
      | false => exact ih linked.2 (Nat.lt_of_succ_lt_succ enough)

theorem walk_linked {rounds : Nat} (linked : Linked nodes prev items none)
    (enough : items.length < rounds) : walk nodes rounds (first items none) = items := by
  induction items generalizing prev rounds with
  | nil =>
      cases rounds <;> rfl
  | cons item rest ih =>
      obtain ⟨more, rfl⟩ := Nat.exists_eq_succ_of_ne_zero (Nat.ne_of_gt (Nat.zero_lt_of_lt enough))
      change walk nodes (more + 1) (some item.1) = _
      rw [walk, linked.1]
      exact congrArg (List.cons item) (ih linked.2 (Nat.lt_of_succ_lt_succ enough))

end Search

end Mgw.DoublyLinked

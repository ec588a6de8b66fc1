import Mathlib.Data.List.Nodup
import Mgw.DoublyLinked

/-!
Singly linked lists. A slot is what points at a cell: the head of a list or the `next` of
the cell before. Cells are put in, taken out and replaced by changing one slot.
-/

namespace Mgw.LinkedCells

open DoublyLinked

set_option autoImplicit false

structure Cell (Addr Held : Type*) where
  held : Held
  next : Option Addr

/-- The cells that are allocated. -/
abbrev Cells (Addr Held : Type*) := Addr → Option (Cell Addr Held)

inductive Slot (Addr : Type*) where
  | head
  | next (addr : Addr)

variable {Addr Held : Type*}

/-- The cells are linked one behind the other, with `stop` behind the last one. -/
def Chained (cells : Cells Addr Held) : List (Addr × Held) → Option Addr → Prop
  | [], _ => True
  | item :: rest, stop => cells item.1 = some ⟨item.2, first rest stop⟩ ∧ Chained cells rest stop

/-- What points at the cell behind these ones. -/
def slotBehind (slot : Slot Addr) : List (Addr × Held) → Slot Addr
  | [] => slot
  | item :: rest => slotBehind (.next item.1) rest

section Operations

variable [DecidableEq Addr] (cells : Cells Addr Held)

def setNext (addr : Addr) (next : Option Addr) : Cells Addr Held :=
  Function.update cells addr ((cells addr).map fun cell => { cell with next := next })

def setHeld (addr : Addr) (change : Held → Held) : Cells Addr Held :=
  Function.update cells addr ((cells addr).map fun cell => { cell with held := change cell.held })

/-- The head and the cells after a slot is made to point elsewhere. -/
def redirect (head : Option Addr) (slot : Slot Addr) (target : Option Addr) :
    Option Addr × Cells Addr Held :=
  match slot with
  | .head => (target, cells)
  | .next addr => (head, setNext cells addr target)

/-- The first cell from `start` on that holds what is wanted, if there is one. A search
that comes to a cell that is not allocated has no result. -/
def find (wanted : Held → Bool) : Nat → Option Addr → Option (Option Addr)
  | _, none => some none
  | 0, some _ => none
  | rounds + 1, some addr =>
      (cells addr).bind fun cell =>
        if wanted cell.held then some (some addr) else find wanted rounds cell.next

/-- The slot that points at `target`, if there is one. The target itself is not read. -/
def findSlot (target : Addr) : Nat → Slot Addr → Option Addr → Option (Option (Slot Addr))
  | _, _, none => some none
  | 0, _, some _ => none
  | rounds + 1, slot, some addr =>
      if addr = target then some (some slot)
      else (cells addr).bind fun cell => findSlot target rounds (.next addr) cell.next

def walk : Nat → Option Addr → Option (List (Addr × Held))
  | _, none => some []
  | 0, some _ => none
  | rounds + 1, some addr =>
      (cells addr).bind fun cell => (walk rounds cell.next).map (List.cons (addr, cell.held))

end Operations

variable {cells after : Cells Addr Held} {items left right : List (Addr × Held)}
  {stop stop' : Option Addr} {addr target : Addr} {held : Held}

theorem first_append (left right : List (Addr × Held)) (stop : Option Addr) :
    first (left ++ right) stop = first left (first right stop) := by
  cases left <;> rfl

theorem chained_append : Chained cells (left ++ right) stop ↔
    Chained cells left (first right stop) ∧ Chained cells right stop := by
  induction left with
  | nil => exact ⟨fun chained => ⟨trivial, chained⟩, fun parts => parts.2⟩
  | cons item rest ih => rw [List.cons_append, Chained, Chained, ih, first_append, and_assoc]

/-- A list does not see cells that are not its own. -/
theorem chained_frame (chained : Chained cells items stop)
    (same : ∀ item ∈ items, after item.1 = cells item.1) : Chained after items stop := by
  induction items with
  | nil => trivial
  | cons item rest ih =>
      obtain ⟨here, further⟩ := chained
      constructor
      · rw [same item List.mem_cons_self]
        exact here
      · exact ih further fun other member => same other (List.mem_cons_of_mem _ member)

theorem chained_cell (chained : Chained cells items stop) {item : Addr × Held}
    (member : item ∈ items) : ∃ next, cells item.1 = some ⟨item.2, next⟩ := by
  induction items with
  | nil => contradiction
  | cons other rest ih =>
      obtain ⟨here, further⟩ := chained
      rcases List.mem_cons.mp member with same | later
      · rw [same]
        exact ⟨_, here⟩
      · exact ih further later

theorem slot_behind_last (slot : Slot Addr) (left : List (Addr × Held)) (item : Addr × Held) :
    slotBehind slot (left ++ [item]) = .next item.1 := by
  induction left generalizing slot with
  | nil => rfl
  | cons other rest ih => exact ih (.next other.1)

section Searching

variable {wanted : Held → Bool} {rounds : Nat}

theorem find_absent (chained : Chained cells items none)
    (unwanted : ∀ item ∈ items, wanted item.2 = false) (enough : items.length ≤ rounds) :
    find cells wanted rounds (first items none) = some none := by
  induction items generalizing rounds with
  | nil => cases rounds <;> rfl
  | cons item rest ih =>
      obtain ⟨here, further⟩ := chained
      cases rounds with
      | zero => contradiction
      | succ rounds =>
          have other := unwanted item List.mem_cons_self
          change find cells wanted (rounds + 1) (some item.1) = some none
          rw [find, here, Option.bind_some, if_neg (by rw [other]; exact Bool.false_ne_true)]
          exact ih further (fun later member => unwanted later (List.mem_cons_of_mem _ member))
            (Nat.le_of_succ_le_succ enough)

theorem find_present {item : Addr × Held} (chained : Chained cells (left ++ item :: right) none)
    (unwanted : ∀ other ∈ left, wanted other.2 = false) (found : wanted item.2 = true)
    (enough : left.length < rounds) :
    find cells wanted rounds (first (left ++ item :: right) none) = some (some item.1) := by
  induction left generalizing rounds with
  | nil =>
      obtain ⟨here, -⟩ := chained
      cases rounds with
      | zero => contradiction
      | succ rounds =>
          change find cells wanted (rounds + 1) (some item.1) = some (some item.1)
          rw [find, here, Option.bind_some, if_pos found]
  | cons other rest ih =>
      obtain ⟨here, further⟩ := chained
      cases rounds with
      | zero => contradiction
      | succ rounds =>
          have different := unwanted other List.mem_cons_self
          change find cells wanted (rounds + 1) (some other.1) = some (some item.1)
          rw [find, here, Option.bind_some, if_neg (by rw [different]; exact Bool.false_ne_true)]
          exact ih further (fun later member => unwanted later (List.mem_cons_of_mem _ member))
            (Nat.lt_of_succ_lt_succ enough)

theorem walk_chained (chained : Chained cells items none) (enough : items.length ≤ rounds) :
    walk cells rounds (first items none) = some items := by
  induction items generalizing rounds with
  | nil => cases rounds <;> rfl
  | cons item rest ih =>
      obtain ⟨here, further⟩ := chained
      cases rounds with
      | zero => contradiction
      | succ rounds =>
          change walk cells (rounds + 1) (some item.1) = some (item :: rest)
          rw [walk, here, Option.bind_some, ih further (Nat.le_of_succ_le_succ enough),
            Option.map_some]

variable [DecidableEq Addr]

/-- The slot is found by the pointer in it, whether or not the target is still allocated. -/
theorem find_slot (slot : Slot Addr) (chained : Chained cells left (some target))
    (apart : ∀ item ∈ left, item.1 ≠ target) (enough : left.length < rounds) :
    findSlot cells target rounds slot (first left (some target)) =
      some (some (slotBehind slot left)) := by
  induction left generalizing rounds slot with
  | nil =>
      cases rounds with
      | zero => contradiction
      | succ rounds =>
          change findSlot cells target (rounds + 1) slot (some target) = some (some slot)
          rw [findSlot, if_pos rfl]
  | cons item rest ih =>
      obtain ⟨here, further⟩ := chained
      cases rounds with
      | zero => contradiction
      | succ rounds =>
          change findSlot cells target (rounds + 1) slot (some item.1) =
            some (some (slotBehind (.next item.1) rest))
          rw [findSlot, if_neg (apart item List.mem_cons_self), here, Option.bind_some]
          exact ih (.next item.1) further
            (fun other member => apart other (List.mem_cons_of_mem _ member))
            (Nat.lt_of_succ_lt_succ enough)

theorem find_no_slot (slot : Slot Addr) (chained : Chained cells items none)
    (apart : ∀ item ∈ items, item.1 ≠ target) (enough : items.length ≤ rounds) :
    findSlot cells target rounds slot (first items none) = some none := by
  induction items generalizing rounds slot with
  | nil => cases rounds <;> rfl
  | cons item rest ih =>
      obtain ⟨here, further⟩ := chained
      cases rounds with
      | zero => contradiction
      | succ rounds =>
          change findSlot cells target (rounds + 1) slot (some item.1) = some none
          rw [findSlot, if_neg (apart item List.mem_cons_self), here, Option.bind_some]
          exact ih (.next item.1) further
            (fun other member => apart other (List.mem_cons_of_mem _ member))
            (Nat.le_of_succ_le_succ enough)

end Searching

section Redirecting

variable [DecidableEq Addr]

theorem set_next_other (next : Option Addr) {other : Addr} (different : other ≠ addr) :
    setNext cells addr next other = cells other :=
  Function.update_of_ne different ..

theorem set_next_self (next : Option Addr) {before : Option Addr}
    (here : cells addr = some ⟨held, before⟩) : setNext cells addr next addr = some ⟨held, next⟩ := by
  rw [setNext, Function.update_self, here, Option.map_some]

/-- The slot behind the left part is made to point at another right part. -/
theorem splice (before : Chained cells left stop') (behind : Chained cells right stop)
    (apart : ((left ++ right).map Prod.fst).Nodup) :
    (redirect cells (first left stop') (slotBehind .head left) (first right stop)).1 =
        first (left ++ right) stop ∧
      Chained (redirect cells (first left stop') (slotBehind .head left) (first right stop)).2
        (left ++ right) stop ∧
      ∀ other, (∀ item ∈ left, item.1 ≠ other) →
        (redirect cells (first left stop') (slotBehind .head left) (first right stop)).2 other =
          cells other := by
  rcases List.eq_nil_or_concat left with none | ⟨init, item, parts⟩
  · rw [none]
    exact ⟨rfl, behind, fun _ _ => rfl⟩
  · rw [List.concat_eq_append] at parts
    rw [parts, slot_behind_last, redirect]
    rw [parts] at before apart
    rw [List.map_append, List.nodup_append] at apart
    obtain ⟨leftApart, -, across⟩ := apart
    rw [List.map_append, List.nodup_append] at leftApart
    obtain ⟨initial, ⟨here, -⟩⟩ := chained_append.mp before
    have others : ∀ other, other ≠ item.1 →
        setNext cells item.1 (first right stop) other = cells other :=
      fun other different => set_next_other _ different
    refine ⟨?_, ?_, ?_⟩
    · rw [first_append, first_append, first_append]
      rfl
    · apply chained_append.mpr
      constructor
      · apply chained_append.mpr
        constructor
        · apply chained_frame initial
          intro other member
          apply others
          exact leftApart.2.2 other.1 (List.mem_map_of_mem member) item.1 (by simp)
        · exact ⟨set_next_self _ here, trivial⟩
      · apply chained_frame behind
        intro other member
        apply others
        exact Ne.symm (across item.1 (by simp) other.1 (List.mem_map_of_mem member))
    · intro other outside
      exact others other (Ne.symm (outside item (by simp)))

/-- A new cell is linked behind another one. -/
theorem chained_insert {item : Addr × Held} (new : Addr × Held) {next : Option Addr}
    (chained : Chained cells (left ++ item :: right) stop)
    (apart : ((left ++ item :: right).map Prod.fst).Nodup)
    (fresh : ∀ other ∈ left ++ item :: right, other.1 ≠ new.1)
    (made : cells new.1 = some ⟨new.2, next⟩) :
    Chained (setNext (setNext cells item.1 (some new.1)) new.1 (first right stop))
      (left ++ item :: new :: right) stop := by
  obtain ⟨initial, here, behind⟩ := chained_append.mp chained
  have middle := apart
  rw [List.map_append, List.map_cons, List.nodup_middle, List.nodup_cons] at middle
  have outside : ∀ other, other ≠ item.1 → other ≠ new.1 →
      setNext (setNext cells item.1 (some new.1)) new.1 (first right stop) other = cells other :=
    fun other notItem notNew => (set_next_other _ notNew).trans (set_next_other _ notItem)
  have notItem : ∀ other ∈ left ++ right, other.1 ≠ item.1 := by
    intro other member same
    apply middle.1
    rw [← List.map_append, ← same]
    exact List.mem_map_of_mem member
  have notNew := fresh item (by simp)
  apply chained_append.mpr
  refine ⟨?_, ?_, ?_, ?_⟩
  · apply chained_frame initial
    intro other member
    exact outside other.1 (notItem other (by simp [member])) (fresh other (by simp [member]))
  · exact (set_next_other _ notNew).trans (set_next_self _ here)
  · exact set_next_self _ ((set_next_other _ (Ne.symm notNew)).trans made)
  · apply chained_frame behind
    intro other member
    exact outside other.1 (notItem other (by simp [member])) (fresh other (by simp [member]))

/-- What a cell holds is changed where the cell is. -/
theorem chained_set_held {item : Addr × Held} (change : Held → Held)
    (chained : Chained cells (left ++ item :: right) stop)
    (apart : ((left ++ item :: right).map Prod.fst).Nodup) :
    Chained (setHeld cells item.1 change) (left ++ (item.1, change item.2) :: right) stop := by
  obtain ⟨initial, here, behind⟩ := chained_append.mp chained
  rw [List.map_append, List.map_cons, List.nodup_middle, List.nodup_cons] at apart
  have outside : ∀ other ∈ left ++ right, setHeld cells item.1 change other.1 = cells other.1 := by
    intro other member
    apply Function.update_of_ne
    intro same
    apply apart.1
    rw [← List.map_append, ← same]
    exact List.mem_map_of_mem member
  apply chained_append.mpr
  refine ⟨?_, ?_, ?_⟩
  · exact chained_frame initial fun other member => outside other (by simp [member])
  · change setHeld cells item.1 change item.1 = some ⟨change item.2, first right stop⟩
    rw [setHeld, Function.update_self, here, Option.map_some]
  · exact chained_frame behind fun other member => outside other (by simp [member])

end Redirecting

end Mgw.LinkedCells

import Mathlib.Algebra.BigOperators.Group.List.Basic
import Mathlib.Algebra.Ring.Nat
import Mathlib.Data.Finset.Card
import Mathlib.Order.Interval.Finset.Nat

/-!
Blocks in a ring that is filled one behind the other, where a block never runs
over the end. The starts are listed in the order in which the blocks were
placed, blocks leave in any order. `Layout` says that the blocks are apart and
that the starts are ascending but for one return to the beginning; a new block
keeps it if it stays off the earliest start.
-/

namespace Mgw.RingLayout

set_option autoImplicit false

structure Block where
  start : Nat
  len : Nat
  deriving DecidableEq

def Block.finish (block : Block) : Nat := block.start + block.len

def Apart (left right : Block) : Prop := left.finish ≤ right.start ∨ right.finish ≤ left.start

instance apart_decidable (left right : Block) : Decidable (Apart left right) :=
  inferInstanceAs (Decidable (_ ∨ _))

theorem apart_symm {left right : Block} (apart : Apart left right) : Apart right left := apart.symm

theorem apart_perm {left right : List Block} (same : left.Perm right)
    (apart : left.Pairwise Apart) : right.Pairwise Apart :=
  same.pairwise apart apart_symm

section Total

/-- The addresses that the blocks take up. -/
def occupied : List Block → Finset Nat
  | [] => ∅
  | block :: rest => Finset.Ico block.start block.finish ∪ occupied rest

theorem mem_occupied {blocks : List Block} {address : Nat} :
    address ∈ occupied blocks ↔ ∃ block ∈ blocks, block.start ≤ address ∧ address < block.finish := by
  induction blocks with
  | nil => simp [occupied]
  | cons block rest ih => simp [occupied, ih]

theorem occupied_card {blocks : List Block} (apart : blocks.Pairwise Apart) :
    (occupied blocks).card = (blocks.map Block.len).sum := by
  induction blocks with
  | nil => rfl
  | cons block rest ih =>
      obtain ⟨first, others⟩ := List.pairwise_cons.mp apart
      have disjoint : Disjoint (Finset.Ico block.start block.finish) (occupied rest) := by
        rw [Finset.disjoint_left]
        intro address inBlock inRest
        rw [Finset.mem_Ico] at inBlock
        obtain ⟨other, member, lower, upper⟩ := mem_occupied.mp inRest
        rcases first other member with before | behind <;> omega
      rw [occupied, Finset.card_union_of_disjoint disjoint, Nat.card_Ico, ih others,
        List.map_cons, List.sum_cons, Block.finish, Nat.add_sub_cancel_left]

/-- Blocks that are apart inside an area take up no more than the area. -/
theorem total_le {size : Nat} {blocks : List Block} (apart : blocks.Pairwise Apart)
    (inside : ∀ block ∈ blocks, block.finish ≤ size) : (blocks.map Block.len).sum ≤ size := by
  have subset : occupied blocks ⊆ Finset.range size := by
    intro address member
    obtain ⟨block, blockMember, lower, upper⟩ := mem_occupied.mp member
    rw [Finset.mem_range]
    exact Nat.lt_of_lt_of_le upper (inside block blockMember)
  have count := Finset.card_le_card subset
  rwa [occupied_card apart, Finset.card_range] at count

end Total

/-- All blocks lie before the next one, in the order of their starts. -/
def Unwrapped (next : Nat) (starts : List Nat) (blocks : List Block) : Prop :=
  starts.Pairwise (· ≤ ·) ∧ ∀ block ∈ blocks, block.finish ≤ next

/-- The older blocks lie at or behind `first`, the newer ones before the next one,
which has not got to `first` yet. -/
structure WrappedAt (first next : Nat) (older newer : List Nat) (blocks : List Block) : Prop where
  older_sorted : (first :: older).Pairwise (· ≤ ·)
  newer_sorted : newer.Pairwise (· ≤ ·)
  next_le : next ≤ first
  next_lt : newer = [] ∨ next < first
  newer_lt : ∀ start ∈ newer, start < first
  sides : ∀ block ∈ blocks, first ≤ block.start ∨ block.finish ≤ next

def Wrapped (next : Nat) (starts : List Nat) (blocks : List Block) : Prop :=
  ∃ first older newer, starts = first :: older ++ newer ∧ WrappedAt first next older newer blocks

structure Layout (size next : Nat) (starts : List Nat) (blocks : List Block) : Prop where
  apart : blocks.Pairwise Apart
  inside : ∀ block ∈ blocks, block.finish ≤ size
  listed : starts.Perm (blocks.map Block.start)
  next_le : next ≤ size
  laps : Unwrapped next starts blocks ∨ Wrapped next starts blocks

section Sorted

theorem first_least {first start : Nat} {rest : List Nat}
    (sorted : (first :: rest).Pairwise (· ≤ ·)) (member : start ∈ first :: rest) : first ≤ start := by
  rcases List.mem_cons.mp member with same | later
  · exact Nat.le_of_eq same.symm
  · exact (List.pairwise_cons.mp sorted).1 start later

theorem sorted_concat {starts : List Nat} {last : Nat} (sorted : starts.Pairwise (· ≤ ·))
    (greatest : ∀ start ∈ starts, start ≤ last) : (starts ++ [last]).Pairwise (· ≤ ·) := by
  rw [List.pairwise_append]
  refine ⟨sorted, List.pairwise_singleton _ _, ?_⟩
  intro start member other isLast
  rw [List.mem_singleton.mp isLast]
  exact greatest start member

end Sorted

section Layout

variable {size next : Nat} {starts : List Nat} {blocks : List Block}

theorem layout_empty (size : Nat) : Layout size 0 [] [] where
  apart := List.Pairwise.nil
  inside := by simp
  listed := List.Perm.refl _
  next_le := Nat.zero_le size
  laps := Or.inl ⟨List.Pairwise.nil, by simp⟩

theorem layout_perm {others : List Block} (layout : Layout size next starts blocks)
    (same : blocks.Perm others) : Layout size next starts others := by
  obtain ⟨apart, inside, listed, bound, laps⟩ := layout
  have back : ∀ block ∈ others, block ∈ blocks := fun block member => same.mem_iff.mpr member
  refine ⟨apart_perm same apart, fun block member => inside block (back block member),
    listed.trans (same.map Block.start), bound, ?_⟩
  rcases laps with ⟨sorted, before⟩ | ⟨first, older, newer, parts, wrapped⟩
  · exact Or.inl ⟨sorted, fun block member => before block (back block member)⟩
  · exact Or.inr ⟨first, older, newer, parts,
      { wrapped with sides := fun block member => wrapped.sides block (back block member) }⟩

theorem start_listed (layout : Layout size next starts blocks) {block : Block}
    (member : block ∈ blocks) : block.start ∈ starts :=
  layout.listed.mem_iff.mpr (List.mem_map_of_mem member)

theorem listed_block (layout : Layout size next starts blocks) {start : Nat}
    (member : start ∈ starts) : ∃ block ∈ blocks, block.start = start :=
  List.mem_map.mp (layout.listed.mem_iff.mp member)

/-- If all blocks lie before the next one, so do their starts in ascending order. -/
theorem unwrapped_of_ahead (layout : Layout size next starts blocks)
    (ahead : ∀ block ∈ blocks, block.finish ≤ next) : Unwrapped next starts blocks := by
  refine ⟨?_, ahead⟩
  rcases layout.laps with ⟨sorted, -⟩ | ⟨first, older, newer, parts, wrapped⟩
  · exact sorted
  · obtain ⟨block, member, start⟩ := listed_block layout
      (show first ∈ starts by rw [parts]; exact List.mem_append_left _ List.mem_cons_self)
    have before := ahead block member
    have reach := wrapped.next_le
    rcases wrapped.next_lt with none | strict
    · rw [parts, none, List.append_nil]
      exact wrapped.older_sorted
    · simp only [Block.finish] at before
      omega

theorem put_listed (layout : Layout size next starts blocks) (block : Block) :
    (starts ++ [block.start]).Perm ((block :: blocks).map Block.start) :=
  (List.perm_append_singleton block.start starts).trans (layout.listed.cons block.start)

theorem starts_le (layout : Layout size next starts blocks)
    (before : ∀ block ∈ blocks, block.finish ≤ next) : ∀ start ∈ starts, start ≤ next := by
  intro start member
  obtain ⟨block, blockMember, same⟩ := listed_block layout member
  have bound := before block blockMember
  simp only [Block.finish] at bound
  omega

/-- When the next one is at the beginning, all blocks are behind the earliest. -/
theorem wrapped_at_zero (listed : starts.Perm (blocks.map Block.start))
    (sorted : starts.Pairwise (· ≤ ·)) (nonempty : starts ≠ []) : Wrapped 0 starts blocks := by
  obtain ⟨first, older, shape⟩ := List.exists_cons_of_ne_nil nonempty
  rw [shape] at listed sorted
  refine ⟨first, older, [], by rw [shape, List.append_nil], ?_⟩
  constructor
  · exact sorted
  · exact List.Pairwise.nil
  · exact Nat.zero_le _
  · exact Or.inl rfl
  · intro start impossible
    contradiction
  · intro block member
    exact Or.inl (first_least sorted (listed.mem_iff.mpr (List.mem_map_of_mem member)))

/-- A block straight on from the last one, while none is ahead of it. -/
theorem put_unwrapped (layout : Layout size next starts blocks)
    (unwrapped : Unwrapped next starts blocks) {len : Nat} (fits : next + len ≤ size) :
    Layout size (if next + len = size then 0 else next + len) (starts ++ [next])
      (⟨next, len⟩ :: blocks) := by
  obtain ⟨sorted, before⟩ := unwrapped
  have listed := put_listed layout ⟨next, len⟩
  have sortedAfter := sorted_concat sorted (starts_le layout before)
  refine ⟨?_, ?_, listed, ?_, ?_⟩
  · rw [List.pairwise_cons]
    exact ⟨fun block member => Or.inr (before block member), layout.apart⟩
  · intro block member
    rcases List.mem_cons.mp member with new | old
    · rw [new]
      exact fits
    · exact layout.inside block old
  · split_ifs <;> omega
  · split_ifs with full
    · exact Or.inr (wrapped_at_zero listed sortedAfter (by simp))
    · refine Or.inl ⟨sortedAfter, ?_⟩
      intro block member
      rcases List.mem_cons.mp member with new | old
      · rw [new]
        exact Nat.le_refl _
      · have bound := before block old
        omega

/-- A block straight on from the last one that stays before the earliest one. -/
theorem put_wrapped {first : Nat} {older newer : List Nat}
    (layout : Layout size next starts blocks) (parts : starts = first :: older ++ newer)
    (wrapped : WrappedAt first next older newer blocks) {len : Nat} (clear : next + len < first) :
    next + len < size ∧
      Layout size (next + len) (starts ++ [next]) (⟨next, len⟩ :: blocks) := by
  obtain ⟨block, blockMember, start⟩ := listed_block layout
    (show first ∈ starts by rw [parts]; exact List.mem_append_left _ List.mem_cons_self)
  have room : next + len < size := by
    have bound := layout.inside block blockMember
    simp only [Block.finish] at bound
    omega
  refine ⟨room, ?_, ?_, put_listed layout ⟨next, len⟩, by omega, ?_⟩
  · rw [List.pairwise_cons]
    refine ⟨fun other member => ?_, layout.apart⟩
    rcases wrapped.sides other member with behind | before
    · exact Or.inl (by simp only [Block.finish]; omega)
    · exact Or.inr before
  · intro other member
    rcases List.mem_cons.mp member with new | old
    · rw [new]
      exact Nat.le_of_lt room
    · exact layout.inside other old
  · refine Or.inr ⟨first, older, newer ++ [next], by rw [parts, List.append_assoc],
      ⟨wrapped.older_sorted, ?_, by omega, Or.inr (by omega), ?_, ?_⟩⟩
    · apply sorted_concat wrapped.newer_sorted
      intro start member
      obtain ⟨other, otherMember, same⟩ := listed_block layout
        (show start ∈ starts by rw [parts]; exact List.mem_append_right _ member)
      have below := wrapped.newer_lt start member
      rcases wrapped.sides other otherMember with behind | before
      · omega
      · simp only [Block.finish] at before
        omega
    · intro start member
      rcases List.mem_append.mp member with old | new
      · exact wrapped.newer_lt start old
      · rw [List.mem_singleton.mp new]
        omega
    · intro other member
      rcases List.mem_cons.mp member with new | old
      · rw [new]
        exact Or.inr (Nat.le_refl _)
      · rcases wrapped.sides other old with behind | before
        · exact Or.inl behind
        · exact Or.inr (by omega)

/-- A block at the beginning of the ring, when the next one does not fit behind
the last and the earliest one leaves room for it. -/
theorem put_at_beginning {first : Nat} {rest : List Nat} (layout : Layout size next starts blocks)
    (parts : starts = first :: rest) (behind : first < next) {len : Nat} (clear : len < first) :
    Layout size len (starts ++ [0]) (⟨0, len⟩ :: blocks) := by
  obtain ⟨sorted, before⟩ : Unwrapped next starts blocks := by
    rcases layout.laps with unwrapped | ⟨other, older, newer, otherParts, wrapped⟩
    · exact unwrapped
    · rw [parts, List.cons_append] at otherParts
      have same := (List.cons.inj otherParts).1
      have reach := wrapped.next_le
      omega
  have least : ∀ block ∈ blocks, first ≤ block.start := by
    intro block member
    have listed := start_listed layout member
    rw [parts] at listed sorted
    exact first_least sorted listed
  have bound := layout.next_le
  refine ⟨?_, ?_, put_listed layout ⟨0, len⟩, by omega, ?_⟩
  · rw [List.pairwise_cons]
    refine ⟨fun other member => Or.inl ?_, layout.apart⟩
    have lower := least other member
    simp only [Block.finish]
    omega
  · intro block member
    rcases List.mem_cons.mp member with new | old
    · rw [new]
      simp only [Block.finish]
      omega
    · exact layout.inside block old
  · refine Or.inr ⟨first, rest, [0], by rw [parts], ⟨by rwa [← parts], List.pairwise_singleton _ _,
      by omega, Or.inr clear, ?_, ?_⟩⟩
    · intro start member
      rw [List.mem_singleton.mp member]
      omega
    · intro block member
      rcases List.mem_cons.mp member with new | old
      · rw [new]
        exact Or.inr (by simp [Block.finish])
      · exact Or.inl (least block old)

section Erase

variable {first : Nat} {older newer : List Nat} {block : Block}

/-- What remains when one of the older blocks leaves: the next of them is the earliest,
or there are only newer ones. -/
theorem erase_older (wrapped : WrappedAt first next older newer (block :: blocks))
    (remaining : ∀ other ∈ blocks, other.start ∈ (first :: older).erase block.start ++ newer) :
    Unwrapped next ((first :: older).erase block.start ++ newer) blocks ∨
      Wrapped next ((first :: older).erase block.start ++ newer) blocks := by
  have newSide : ∀ other ∈ blocks, other.start ∈ newer → other.finish ≤ next := by
    intro other member isNewer
    have below := wrapped.newer_lt _ isNewer
    rcases wrapped.sides other (List.mem_cons_of_mem _ member) with behind | before
    · omega
    · exact before
  have sorted : ((first :: older).erase block.start).Pairwise (· ≤ ·) :=
    wrapped.older_sorted.sublist List.erase_sublist
  cases shape : (first :: older).erase block.start with
  | nil =>
      rw [shape] at remaining
      exact Or.inl ⟨wrapped.newer_sorted,
        fun other member => newSide other member (remaining other member)⟩
  | cons earliest rest =>
      have reach : first ≤ earliest := first_least wrapped.older_sorted
        (List.mem_of_mem_erase (shape ▸ List.mem_cons_self))
      have nextLe := wrapped.next_le
      rw [shape] at remaining sorted
      refine Or.inr ⟨earliest, rest, newer, rfl, ⟨sorted, wrapped.newer_sorted, by omega,
        ?_, ?_, ?_⟩⟩
      · exact wrapped.next_lt.imp_right fun strict => Nat.lt_of_lt_of_le strict reach
      · intro start member
        exact Nat.lt_of_lt_of_le (wrapped.newer_lt start member) reach
      · intro other member
        rcases List.mem_append.mp (remaining other member) with behind | before
        · exact Or.inl (first_least sorted behind)
        · exact Or.inr (newSide other member before)

/-- One of the newer blocks leaves. -/
theorem erase_newer (wrapped : WrappedAt first next older newer (block :: blocks))
    (member : block.start ∈ newer) :
    WrappedAt first next older (newer.erase block.start) blocks := by
  constructor
  · exact wrapped.older_sorted
  · exact wrapped.newer_sorted.sublist List.erase_sublist
  · exact wrapped.next_le
  · apply Or.inr
    rcases wrapped.next_lt with none | strict
    · rw [none] at member
      contradiction
    · exact strict
  · exact fun start inside => wrapped.newer_lt start (List.mem_of_mem_erase inside)
  · exact fun other inside => wrapped.sides other (List.mem_cons_of_mem _ inside)

end Erase

/-- A block leaves, whichever it is, with the first entry of its start. -/
theorem layout_erase {block : Block} (layout : Layout size next starts (block :: blocks)) :
    Layout size next (starts.erase block.start) blocks := by
  have listed : (starts.erase block.start).Perm (blocks.map Block.start) := by
    have erased := layout.listed.erase block.start
    rwa [List.map_cons, List.erase_cons_head] at erased
  refine ⟨(List.pairwise_cons.mp layout.apart).2,
    fun other member => layout.inside other (List.mem_cons_of_mem _ member), listed,
    layout.next_le, ?_⟩
  rcases layout.laps with ⟨sorted, before⟩ | ⟨first, older, newer, parts, wrapped⟩
  · exact Or.inl ⟨sorted.sublist List.erase_sublist,
      fun other member => before other (List.mem_cons_of_mem _ member)⟩
  · by_cases old : block.start ∈ first :: older
    · rw [parts, List.erase_append_left _ old] at listed ⊢
      apply erase_older wrapped
      intro other member
      exact listed.mem_iff.mpr (List.mem_map_of_mem member)
    · have placed := start_listed layout (List.mem_cons_self (a := block))
      rw [parts, List.mem_append] at placed
      rw [parts, List.erase_append_right _ old]
      exact Or.inr ⟨first, older, newer.erase block.start, rfl,
        erase_newer wrapped (placed.resolve_left old)⟩

end Layout

/-- Blocks of the given lengths one behind the other from `next` on. -/
def endToEnd : Nat → List Nat → List Block
  | _, [] => []
  | next, len :: rest => ⟨next, len⟩ :: endToEnd (next + len) rest

section EndToEnd

theorem end_to_end_bounds {next : Nat} {lens : List Nat} {block : Block}
    (member : block ∈ endToEnd next lens) :
    next ≤ block.start ∧ block.finish ≤ next + lens.sum := by
  induction lens generalizing next with
  | nil => simp [endToEnd] at member
  | cons len rest ih =>
      rw [List.sum_cons]
      rcases List.mem_cons.mp member with first | later
      · rw [first]
        simp only [Block.finish]
        omega
      · have bounds := ih later
        omega

theorem end_to_end_starts_sorted (next : Nat) (lens : List Nat) :
    ((endToEnd next lens).map Block.start).Pairwise (· ≤ ·) := by
  induction lens generalizing next with
  | nil => exact List.Pairwise.nil
  | cons len rest ih =>
      rw [endToEnd, List.map_cons, List.pairwise_cons]
      refine ⟨?_, ih (next + len)⟩
      intro start member
      obtain ⟨block, blockMember, same⟩ := List.mem_map.mp member
      have bounds := end_to_end_bounds blockMember
      rw [← same]
      change next ≤ block.start
      omega

theorem end_to_end_layout {size : Nat} {lens : List Nat} (fits : lens.sum ≤ size) :
    Layout size lens.sum ((endToEnd 0 lens).map Block.start) (endToEnd 0 lens) := by
  have apart : ∀ next, (endToEnd next lens).Pairwise Apart := by
    induction lens with
    | nil => exact fun _ => List.Pairwise.nil
    | cons len rest ih =>
        intro next
        rw [List.sum_cons] at fits
        rw [endToEnd, List.pairwise_cons]
        refine ⟨fun block member => Or.inl (end_to_end_bounds member).1, ih (by omega) _⟩
  have before : ∀ block ∈ endToEnd 0 lens, block.finish ≤ lens.sum := by
    intro block member
    have bounds := end_to_end_bounds member
    omega
  exact ⟨apart 0, fun block member => Nat.le_trans (before block member) fits, List.Perm.refl _,
    fits, Or.inl ⟨end_to_end_starts_sorted 0 lens, before⟩⟩

end EndToEnd

end Mgw.RingLayout

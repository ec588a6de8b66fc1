import Mathlib.Data.List.Induction
import Mathlib.Logic.Function.Basic

/-!
Lists that run through their own nodes. Each node has a cell with the pointer to
the next one and a back pointer to the cell that points at it, so that a node can
be taken out without a walk from the head. Several lists share one heap; a node
is on at most one of them, since its back pointer leads to one head only.
-/

namespace Mgw.IntrusiveList

set_option autoImplicit false

/-- What each cell points at, and the cell that each node remembers. -/
structure Heap (Node Cell : Type*) where
  pointee : Cell → Option Node
  prevNext : Node → Option Cell

/-- Where the head of each list and the pointer to the next node lie. -/
structure Layout (Root Node Cell : Type*) where
  head : Root → Cell
  next : Node → Cell
  head_injective : Function.Injective head
  next_injective : Function.Injective next
  head_ne_next : ∀ root node, head root ≠ next node

variable {Root Node Cell : Type*}

section Operations

variable [DecidableEq Node] [DecidableEq Cell]

def Heap.setPointee (heap : Heap Node Cell) (cell : Cell) (target : Option Node) :
    Heap Node Cell :=
  { heap with pointee := Function.update heap.pointee cell target }

def Heap.setPrevNext (heap : Heap Node Cell) (node : Node) (cell : Option Cell) :
    Heap Node Cell :=
  { heap with prevNext := Function.update heap.prevNext node cell }

variable (layout : Layout Root Node Cell) (heap : Heap Node Cell)

/-- The back pointer of the node that a cell points at, if there is one. -/
def Heap.markPointee (cell : Cell) (back : Option Cell) : Heap Node Cell :=
  match heap.pointee cell with
  | none => heap
  | some node => heap.setPrevNext node back

/-- A node put in front of what a cell points at. -/
def insert (first : Cell) (node : Node) : Heap Node Cell :=
  let prepared := (heap.setPrevNext node (some first)).setPointee (layout.next node)
    (heap.pointee first)
  (prepared.setPointee first (some node)).markPointee (layout.next node) (some (layout.next node))

/-- A node taken out where its back pointer says. -/
def remove (node : Node) : Heap Node Cell :=
  let bypassed := match heap.prevNext node with
    | none => heap
    | some cell => heap.setPointee cell (heap.pointee (layout.next node))
  bypassed.markPointee (layout.next node) (heap.prevNext node)

end Operations

section Frames

variable {layout : Layout Root Node Cell} {heap : Heap Node Cell} {cell first : Cell}
  {node other : Node}

/-- A cell that takes over what the next cell of a node points at leaves the latter as it is. -/
theorem take_over_next [DecidableEq Cell] :
    (heap.setPointee cell (heap.pointee (layout.next node))).pointee (layout.next node) =
      heap.pointee (layout.next node) := by
  by_cases same : layout.next node = cell
  · rw [same]
    exact Function.update_self ..
  · exact Function.update_of_ne same ..

theorem set_pointee_self [DecidableEq Cell] (target : Option Node) :
    (heap.setPointee cell target).pointee cell = target :=
  Function.update_self ..

theorem set_pointee_other [DecidableEq Cell] {other : Cell} (different : other ≠ cell)
    (target : Option Node) : (heap.setPointee cell target).pointee other = heap.pointee other :=
  Function.update_of_ne different ..

theorem set_pointee_same [DecidableEq Cell] {target : Option Node}
    (same : heap.pointee cell = target) : heap.setPointee cell target = heap := by
  unfold Heap.setPointee
  rw [← same, Function.update_eq_self]

variable [DecidableEq Node]

@[simp] theorem mark_pointee_pointee (back : Option Cell) :
    (heap.markPointee cell back).pointee = heap.pointee := by
  unfold Heap.markPointee
  split <;> rfl

theorem mark_pointee_prevNext (back : Option Cell) (points : heap.pointee cell = some node) :
    (heap.markPointee cell back).prevNext node = back := by
  unfold Heap.markPointee
  rw [points]
  exact Function.update_self ..

theorem mark_pointee_other (back : Option Cell) (points : heap.pointee cell ≠ some other) :
    (heap.markPointee cell back).prevNext other = heap.prevNext other := by
  unfold Heap.markPointee
  split
  · rfl
  · rename_i marked target
    apply Function.update_of_ne
    intro same
    exact points (same ▸ target)

variable [DecidableEq Cell]

theorem insert_first : (insert layout heap first node).pointee first = some node := by
  unfold insert
  rw [mark_pointee_pointee]
  exact Function.update_self ..

theorem insert_next (apart : layout.next node ≠ first) :
    (insert layout heap first node).pointee (layout.next node) = heap.pointee first := by
  unfold insert
  rw [mark_pointee_pointee]
  exact (Function.update_of_ne apart ..).trans (Function.update_self ..)

theorem insert_pointee (notFirst : cell ≠ first) (notNext : cell ≠ layout.next node) :
    (insert layout heap first node).pointee cell = heap.pointee cell := by
  unfold insert
  rw [mark_pointee_pointee]
  exact (Function.update_of_ne notFirst ..).trans (Function.update_of_ne notNext ..)

/-- The node whose back pointer an insertion moves. -/
theorem insert_follower (apart : layout.next node ≠ first) :
    ((((heap.setPrevNext node (some first)).setPointee (layout.next node)
      (heap.pointee first)).setPointee first (some node)).pointee (layout.next node)) =
        heap.pointee first :=
  (Function.update_of_ne apart ..).trans (Function.update_self ..)

theorem insert_prevNext_follower (apart : layout.next node ≠ first)
    (points : heap.pointee first = some other) :
    (insert layout heap first node).prevNext other = some (layout.next node) :=
  mark_pointee_prevNext _ ((insert_follower apart).trans points)

theorem insert_prevNext_node (apart : layout.next node ≠ first)
    (points : heap.pointee first ≠ some node) :
    (insert layout heap first node).prevNext node = some first := by
  unfold insert
  rw [mark_pointee_other _ (by rwa [insert_follower apart])]
  exact Function.update_self ..

theorem insert_prevNext_other (apart : layout.next node ≠ first) (different : other ≠ node)
    (points : heap.pointee first ≠ some other) :
    (insert layout heap first node).prevNext other = heap.prevNext other := by
  unfold insert
  rw [mark_pointee_other _ (by rwa [insert_follower apart])]
  exact Function.update_of_ne different ..

section Removal

variable (back : heap.prevNext node = some cell)
include back

theorem remove_cell :
    (remove layout heap node).pointee cell = heap.pointee (layout.next node) := by
  unfold remove
  rw [mark_pointee_pointee, back]
  exact Function.update_self ..

theorem remove_pointee {elsewhere : Cell} (different : elsewhere ≠ cell) :
    (remove layout heap node).pointee elsewhere = heap.pointee elsewhere := by
  unfold remove
  rw [mark_pointee_pointee, back]
  exact Function.update_of_ne different ..

theorem remove_prevNext_follower (points : heap.pointee (layout.next node) = some other) :
    (remove layout heap node).prevNext other = some cell := by
  unfold remove
  rw [back]
  exact mark_pointee_prevNext _ (take_over_next.trans points)

theorem remove_prevNext_other (points : heap.pointee (layout.next node) ≠ some other) :
    (remove layout heap node).prevNext other = heap.prevNext other := by
  unfold remove
  rw [back]
  exact mark_pointee_other _ (by rwa [take_over_next])

end Removal

section Passing

variable (apart : layout.next node ≠ first) (points : heap.pointee first ≠ some node)
include apart points

/-- A node that is put in front of what a cell points at and taken out again keeps what
it took over from that cell; the other cells are as before. -/
theorem insert_remove_pointee (different : cell ≠ layout.next node) :
    (remove layout (insert layout heap first node) node).pointee cell = heap.pointee cell := by
  have back := insert_prevNext_node apart points
  by_cases same : cell = first
  · rw [same, remove_cell back, insert_next apart]
  · rw [remove_pointee back same, insert_pointee same different]

theorem insert_remove_prevNext (different : other ≠ node) (elsewhere : heap.pointee first ≠ some other) :
    (remove layout (insert layout heap first node) node).prevNext other = heap.prevNext other := by
  rw [remove_prevNext_other (insert_prevNext_node apart points),
    insert_prevNext_other apart different elsewhere]
  rwa [insert_next apart]

end Passing

end Frames

/-- The walk to the first node that is asked for; `none` when the rounds run out. -/
def search (layout : Layout Root Node Cell) (heap : Heap Node Cell) (wanted : Node → Bool) :
    Nat → Option Node → Option (Option Node)
  | _, none => some none
  | 0, some _ => none
  | rounds + 1, some node =>
      if wanted node then some (some node)
      else search layout heap wanted rounds (heap.pointee (layout.next node))

/-- The nodes that are met, at most as many as there are rounds. -/
def walk (layout : Layout Root Node Cell) (heap : Heap Node Cell) : Nat → Option Node → List Node
  | _, none => []
  | 0, some _ => []
  | rounds + 1, some node => node :: walk layout heap rounds (heap.pointee (layout.next node))

/-- The nodes that are met from a cell on, each with its back pointer to the cell before it. -/
def Chain (layout : Layout Root Node Cell) (heap : Heap Node Cell) : Cell → List Node → Prop
  | cell, [] => heap.pointee cell = none
  | cell, node :: nodes =>
      heap.pointee cell = some node ∧ heap.prevNext node = some cell ∧
        Chain layout heap (layout.next node) nodes

instance chain_decidable [DecidableEq Node] [DecidableEq Cell] (layout : Layout Root Node Cell)
    (heap : Heap Node Cell) : ∀ cell nodes, Decidable (Chain layout heap cell nodes)
  | cell, [] => inferInstanceAs (Decidable (heap.pointee cell = none))
  | cell, node :: nodes =>
      have := chain_decidable layout heap (layout.next node) nodes
      inferInstanceAs (Decidable (heap.pointee cell = some node ∧ heap.prevNext node = some cell ∧
        Chain layout heap (layout.next node) nodes))

/-- The cell behind some nodes. -/
def lastCell (layout : Layout Root Node Cell) : Cell → List Node → Cell
  | cell, [] => cell
  | _, node :: nodes => lastCell layout (layout.next node) nodes

section Chains

variable {layout : Layout Root Node Cell} {heap heap' : Heap Node Cell} {cell : Cell}
  {node : Node} {nodes left right : List Node}

theorem chain_unique (chain : Chain layout heap cell left)
    (chain' : Chain layout heap cell right) : left = right := by
  induction left generalizing cell right with
  | nil =>
      cases right with
      | nil => rfl
      | cons node right =>
          unfold Chain at chain chain'
          rw [chain] at chain'
          simp at chain'
  | cons node left ih =>
      cases right with
      | nil =>
          unfold Chain at chain chain'
          rw [chain'] at chain
          simp at chain
      | cons node' right =>
          unfold Chain at chain chain'
          have same : node = node' := Option.some.inj (chain.1.symm.trans chain'.1)
          subst same
          rw [ih chain.2.2 chain'.2.2]

theorem chain_tail (chain : Chain layout heap cell (left ++ node :: right)) :
    Chain layout heap (layout.next node) right := by
  induction left generalizing cell with
  | nil => exact chain.2.2
  | cons first left ih => exact ih chain.2.2

/-- A node remembers the cell behind those in front of it. -/
theorem chain_back (chain : Chain layout heap cell (left ++ node :: right)) :
    heap.prevNext node = some (lastCell layout cell left) := by
  induction left generalizing cell with
  | nil => exact chain.2.1
  | cons first left ih => exact ih chain.2.2

theorem last_cell_concat : lastCell layout cell (left ++ [node]) = layout.next node := by
  induction left generalizing cell with
  | nil => rfl
  | cons first left ih => exact ih

/-- A walk that ends meets no node twice. -/
theorem chain_nodup (chain : Chain layout heap cell nodes) : nodes.Nodup := by
  induction nodes generalizing cell with
  | nil => exact List.nodup_nil
  | cons node nodes ih =>
      apply List.nodup_cons.mpr
      constructor
      · intro again
        obtain ⟨left, right, parts⟩ := List.append_of_mem again
        have inner : Chain layout heap (layout.next node) right :=
          chain_tail (parts ▸ chain.2.2)
        have same := congrArg List.length (chain_unique chain.2.2 inner)
        rw [parts] at same
        simp at same
        omega
      · exact ih chain.2.2

/-- The walk does not come back to the cell it starts from. -/
theorem chain_start (chain : Chain layout heap cell nodes) (member : node ∈ nodes) :
    layout.next node ≠ cell := by
  intro back
  obtain ⟨left, right, parts⟩ := List.append_of_mem member
  have inner : Chain layout heap (layout.next node) right := chain_tail (parts ▸ chain)
  rw [back] at inner
  have same := congrArg List.length (chain_unique chain inner)
  rw [parts] at same
  simp at same
  omega

/-- A chain stays where its cells and back pointers stay. -/
theorem chain_frame (chain : Chain layout heap cell nodes)
    (start : heap'.pointee cell = heap.pointee cell)
    (cells : ∀ node ∈ nodes, heap'.pointee (layout.next node) = heap.pointee (layout.next node))
    (backs : ∀ node ∈ nodes, heap'.prevNext node = heap.prevNext node) :
    Chain layout heap' cell nodes := by
  induction nodes generalizing cell with
  | nil => exact start.trans chain
  | cons node nodes ih =>
      unfold Chain at chain ⊢
      have here : node ∈ node :: nodes := List.mem_cons_self
      refine ⟨start.trans chain.1, (backs node here).trans chain.2.1, ?_⟩
      apply ih chain.2.2 (cells node here)
      · intro other member
        exact cells other (List.mem_cons_of_mem _ member)
      · intro other member
        exact backs other (List.mem_cons_of_mem _ member)

theorem chain_head_mem (chain : Chain layout heap cell nodes)
    (points : heap.pointee cell = some node) : node ∈ nodes := by
  cases nodes with
  | nil =>
      unfold Chain at chain
      rw [chain] at points
      contradiction
  | cons first nodes =>
      rw [chain.1] at points
      exact Option.some.inj points ▸ List.mem_cons_self

theorem last_cell_cases (layout : Layout Root Node Cell) (cell : Cell) (left : List Node) :
    lastCell layout cell left = cell ∨ ∃ node ∈ left, lastCell layout cell left = layout.next node := by
  rcases List.eq_nil_or_concat left with empty | ⟨before, last, parts⟩
  · rw [empty]
    exact Or.inl rfl
  · rw [List.concat_eq_append] at parts
    rw [parts]
    exact Or.inr ⟨last, List.mem_append_right _ List.mem_cons_self, last_cell_concat⟩

/-- The cell behind the first nodes is not the one the walk starts from. -/
theorem last_cell_ne (chain : Chain layout heap cell (node :: left ++ right)) :
    cell ≠ lastCell layout cell (node :: left) := by
  change cell ≠ lastCell layout (layout.next node) left
  rcases last_cell_cases layout (layout.next node) left with here | ⟨last, member, behind⟩
  · rw [here]
    exact (chain_start chain List.mem_cons_self).symm
  · rw [behind]
    exact (chain_start chain (List.mem_cons_of_mem _ (List.mem_append_left _ member))).symm

/-- A chain that starts like another one comes to a node of it, as long as the cells in
front of that node have not changed. -/
theorem chain_passes {cell' : Cell} {other : List Node}
    (chain : Chain layout heap cell (left ++ node :: right))
    (start : heap'.pointee cell' = heap.pointee cell)
    (cells : ∀ node ∈ left, heap'.pointee (layout.next node) = heap.pointee (layout.next node))
    (chain' : Chain layout heap' cell' other) : node ∈ other := by
  induction left generalizing cell cell' other with
  | nil => exact chain_head_mem chain' (start.trans chain.1)
  | cons first left ih =>
      have points := start.trans chain.1
      cases other with
      | nil =>
          unfold Chain at chain'
          rw [chain'] at points
          contradiction
      | cons first' other =>
          have same : first' = first := Option.some.inj (chain'.1.symm.trans points)
          subst same
          apply List.mem_cons_of_mem
          exact ih chain.2.2 (cells first' List.mem_cons_self)
            (fun later member => cells later (List.mem_cons_of_mem _ member)) chain'.2.2

section Operations

variable [DecidableEq Node] [DecidableEq Cell]

/-- A node that is put in front of the list it is on makes a ring of it. -/
theorem chain_insert_again {other : List Node} (chain : Chain layout heap cell nodes)
    (member : node ∈ nodes) : ¬Chain layout (insert layout heap cell node) cell other := by
  intro chain'
  have apart : layout.next node ≠ cell := chain_start chain member
  obtain ⟨left, right, parts⟩ := List.append_of_mem member
  rw [parts] at chain
  have nodup := List.nodup_append.mp (chain_nodup chain)
  have cells : ∀ earlier ∈ left, (insert layout heap cell node).pointee (layout.next earlier) =
      heap.pointee (layout.next earlier) := by
    intro earlier before
    apply insert_pointee (chain_start chain (List.mem_append_left _ before))
    intro same
    exact nodup.2.2 earlier before node List.mem_cons_self (layout.next_injective same)
  cases other with
  | nil =>
      have points : (insert layout heap cell node).pointee cell = some node := insert_first
      unfold Chain at chain'
      rw [chain'] at points
      contradiction
  | cons first other =>
      have same : first = node := Option.some.inj (chain'.1.symm.trans insert_first)
      subst same
      have again := chain_passes chain (insert_next apart) cells chain'.2.2
      exact (List.nodup_cons.mp (chain_nodup chain')).1 again

theorem chain_insert (chain : Chain layout heap cell nodes) (fresh : node ∉ nodes)
    (apart : layout.next node ≠ cell) :
    Chain layout (insert layout heap cell node) cell (node :: nodes) := by
  have notHead : heap.pointee cell ≠ some node := fun points => fresh (chain_head_mem chain points)
  unfold Chain
  refine ⟨insert_first, insert_prevNext_node apart notHead, ?_⟩
  cases nodes with
  | nil =>
      unfold Chain at chain ⊢
      rw [insert_next apart]
      exact chain
  | cons follower nodes =>
      have nodup := List.nodup_cons.mp (chain_nodup chain)
      have cells : ∀ other ∈ follower :: nodes,
          (insert layout heap cell node).pointee (layout.next other) =
            heap.pointee (layout.next other) := by
        intro other member
        apply insert_pointee (chain_start chain member)
        intro same
        exact fresh (layout.next_injective same ▸ member)
      unfold Chain at chain ⊢
      refine ⟨(insert_next apart).trans chain.1, insert_prevNext_follower apart chain.1, ?_⟩
      apply chain_frame chain.2.2 (cells follower List.mem_cons_self)
      · intro other member
        exact cells other (List.mem_cons_of_mem _ member)
      · intro other member
        apply insert_prevNext_other apart
        · intro same
          exact fresh (same ▸ List.mem_cons_of_mem _ member)
        · rw [chain.1]
          intro same
          exact nodup.1 (Option.some.inj same ▸ member)

theorem chain_remove_first (chain : Chain layout heap cell (node :: right)) :
    Chain layout (remove layout heap node) cell right := by
  have back : heap.prevNext node = some cell := chain.2.1
  have tail : Chain layout heap (layout.next node) right := chain.2.2
  have cells : ∀ other ∈ right, (remove layout heap node).pointee (layout.next other) =
      heap.pointee (layout.next other) := by
    intro other member
    exact remove_pointee back (chain_start chain (List.mem_cons_of_mem _ member))
  cases right with
  | nil => exact (remove_cell back).trans tail
  | cons follower right =>
      have nodup := List.nodup_cons.mp (chain_nodup tail)
      refine ⟨(remove_cell back).trans tail.1, remove_prevNext_follower back tail.1, ?_⟩
      apply chain_frame tail.2.2 (cells follower List.mem_cons_self)
      · intro other member
        exact cells other (List.mem_cons_of_mem _ member)
      · intro other member
        apply remove_prevNext_other back
        rw [tail.1]
        intro same
        exact nodup.1 (Option.some.inj same ▸ member)

theorem chain_remove (chain : Chain layout heap cell (left ++ node :: right)) :
    Chain layout (remove layout heap node) cell (left ++ right) := by
  have nodup := chain_nodup chain
  have back := chain_back chain
  induction left generalizing cell with
  | nil => exact chain_remove_first chain
  | cons first left ih =>
      have notBack := last_cell_ne chain
      have notFollower : heap.pointee (layout.next node) ≠ some first := by
        intro points
        have after := chain_head_mem (chain_tail chain) points
        apply (List.nodup_cons.mp nodup).1
        exact List.mem_append_right _ (List.mem_cons_of_mem _ after)
      rw [List.cons_append] at chain ⊢
      unfold Chain at chain ⊢
      refine ⟨(remove_pointee back notBack).trans chain.1,
        (remove_prevNext_other back notFollower).trans chain.2.1, ?_⟩
      exact ih chain.2.2 (List.nodup_cons.mp nodup).2 back

end Operations

theorem search_chain {wanted : Node → Bool} {rounds : Nat}
    (chain : Chain layout heap cell nodes) (enough : nodes.length ≤ rounds) :
    search layout heap wanted rounds (heap.pointee cell) = some (nodes.find? wanted) := by
  induction nodes generalizing cell rounds with
  | nil =>
      unfold Chain at chain
      rw [chain]
      unfold search
      rfl
  | cons node nodes ih =>
      cases rounds with
      | zero => simp at enough
      | succ rounds =>
          rw [chain.1, List.find?_cons]
          unfold search
          cases wanted node with
          | true => rfl
          | false => exact ih chain.2.2 (by simpa using enough)

theorem walk_chain {rounds : Nat} (chain : Chain layout heap cell nodes)
    (enough : nodes.length ≤ rounds) : walk layout heap rounds (heap.pointee cell) = nodes := by
  induction nodes generalizing cell rounds with
  | nil =>
      unfold Chain at chain
      rw [chain]
      unfold walk
      rfl
  | cons node nodes ih =>
      cases rounds with
      | zero => simp at enough
      | succ rounds =>
          rw [chain.1]
          unfold walk
          rw [ih chain.2.2 (by simpa using enough)]

/-- Where no cell of a chain has changed, a chain from there has the same nodes. -/
theorem chain_same_cells {other : List Node} (chain : Chain layout heap cell nodes)
    (start : heap'.pointee cell = heap.pointee cell)
    (cells : ∀ node ∈ nodes, heap'.pointee (layout.next node) = heap.pointee (layout.next node))
    (chain' : Chain layout heap' cell other) : other = nodes := by
  induction nodes generalizing cell other with
  | nil =>
      cases other with
      | nil => rfl
      | cons node other =>
          have points := chain'.1
          rw [start, chain] at points
          contradiction
  | cons node nodes ih =>
      cases other with
      | nil =>
          have points := start.symm.trans chain'
          rw [chain.1] at points
          contradiction
      | cons first other =>
          have points := chain'.1
          rw [start, chain.1] at points
          have same := Option.some.inj points
          subst same
          rw [ih chain.2.2 (cells node List.mem_cons_self)
            (fun later member => cells later (List.mem_cons_of_mem _ member)) chain'.2.2]

end Chains

/-- Each root heads a list of its own. -/
def Linked (layout : Layout Root Node Cell) (heap : Heap Node Cell) (lists : Root → List Node) :
    Prop :=
  ∀ root, Chain layout heap (layout.head root) (lists root)

namespace Linked

variable {layout : Layout Root Node Cell} {heap : Heap Node Cell} {lists lists' : Root → List Node}

theorem unique (linked : Linked layout heap lists) (linked' : Linked layout heap lists') :
    lists = lists' := by
  funext root
  exact chain_unique (linked root) (linked' root)

/-- The lists stay where all cells and back pointers stay. -/
theorem frame {heap' : Heap Node Cell} (linked : Linked layout heap lists)
    (heads : ∀ root, heap'.pointee (layout.head root) = heap.pointee (layout.head root))
    (cells : ∀ node, heap'.pointee (layout.next node) = heap.pointee (layout.next node))
    (backs : heap'.prevNext = heap.prevNext) : Linked layout heap' lists := by
  intro root
  apply chain_frame (linked root) (heads root)
  · intro node _
    exact cells node
  · intro node _
    exact congrFun backs node

theorem nodup (linked : Linked layout heap lists) (root : Root) : (lists root).Nodup :=
  chain_nodup (linked root)

/-- The way back from a node leads to one head. -/
theorem root_unique (linked : Linked layout heap lists) {root root' : Root} {node : Node}
    (member : node ∈ lists root) (member' : node ∈ lists root') : root = root' := by
  obtain ⟨left, right, parts⟩ := List.append_of_mem member
  obtain ⟨left', right', parts'⟩ := List.append_of_mem member'
  have chain := linked root
  have chain' := linked root'
  rw [parts] at chain
  rw [parts'] at chain'
  clear member member' parts parts'
  induction left using List.reverseRecOn generalizing left' node right right' with
  | nil =>
      have back := (chain_back chain).symm.trans (chain_back chain')
      rcases List.eq_nil_or_concat left' with empty | ⟨before', last', parts'⟩
      · rw [empty] at back
        exact layout.head_injective (Option.some.inj back)
      · rw [parts', List.concat_eq_append, last_cell_concat] at back
        exact absurd (Option.some.inj back) (layout.head_ne_next root last')
  | append_singleton before last ih =>
      have back := (chain_back chain).symm.trans (chain_back chain')
      rw [last_cell_concat] at back
      rcases List.eq_nil_or_concat left' with empty | ⟨before', last', parts'⟩
      · rw [empty] at back
        exact absurd (Option.some.inj back).symm (layout.head_ne_next root' last)
      · rw [parts', List.concat_eq_append, last_cell_concat] at back
        have same := layout.next_injective (Option.some.inj back)
        rw [parts', List.concat_eq_append, List.append_assoc, ← same] at chain'
        rw [List.append_assoc] at chain
        exact ih _ _ _ chain chain'

section Operations

variable [DecidableEq Node] [DecidableEq Cell]

/-- A node taken out of one list leaves the others. -/
theorem remove_elsewhere (linked : Linked layout heap lists) {root root' : Root} {node : Node}
    {left right : List Node} (parts : lists root = left ++ node :: right) (different : root' ≠ root) :
    Chain layout (IntrusiveList.remove layout heap node) (layout.head root') (lists root') := by
  have chain := linked root
  rw [parts] at chain
  have back := chain_back chain
  have apart : ∀ other ∈ lists root', other ∉ left ++ node :: right := fun other here there =>
    different (linked.root_unique here (parts ▸ there))
  apply chain_frame (linked root')
  · apply remove_pointee back
    rcases last_cell_cases layout (layout.head root) left with heads | ⟨last, _, behind⟩
    · rw [heads]
      exact fun same => different (layout.head_injective same)
    · rw [behind]
      exact layout.head_ne_next root' last
  · intro other here
    apply remove_pointee back
    rcases last_cell_cases layout (layout.head root) left with heads | ⟨last, before, behind⟩
    · rw [heads]
      exact (layout.head_ne_next root other).symm
    · rw [behind]
      intro nexts
      apply apart other here
      rw [layout.next_injective nexts]
      exact List.mem_append_left _ before
  · intro other here
    apply remove_prevNext_other back
    intro points
    apply apart other here
    exact List.mem_append_right _ (List.mem_cons_of_mem _ (chain_head_mem (chain_tail chain) points))

/-- A node that is on no list, put in front of one. -/
theorem insert [DecidableEq Root] (linked : Linked layout heap lists) (root : Root) {node : Node}
    (fresh : ∀ root, node ∉ lists root) :
    Linked layout (IntrusiveList.insert layout heap (layout.head root) node)
      (Function.update lists root (node :: lists root)) := by
  have apart : layout.next node ≠ layout.head root := (layout.head_ne_next root node).symm
  intro root'
  by_cases same : root' = root
  · rw [same, Function.update_self]
    exact chain_insert (linked root) (fresh root) apart
  · rw [Function.update_of_ne same]
    apply chain_frame (linked root')
    · exact insert_pointee (fun heads => same (layout.head_injective heads))
        (layout.head_ne_next root' node)
    · intro other member
      apply insert_pointee (layout.head_ne_next root other).symm
      intro nexts
      exact fresh root' (layout.next_injective nexts ▸ member)
    · intro other member
      apply insert_prevNext_other apart
      · intro equal
        exact fresh root' (equal ▸ member)
      · intro points
        exact same (linked.root_unique member (chain_head_mem (linked root) points))

/-- A node of one of the lists, taken out. -/
theorem remove (linked : Linked layout heap lists) {root : Root} {node : Node}
    (member : node ∈ lists root) :
    Linked layout (IntrusiveList.remove layout heap node) fun root => (lists root).erase node := by
  obtain ⟨left, right, parts⟩ := List.append_of_mem member
  intro root'
  change Chain layout _ _ ((lists root').erase node)
  by_cases same : root' = root
  · have chain := linked root
    have nodup := linked.nodup root
    rw [parts] at chain nodup
    have notLeft : node ∉ left := fun before =>
      (List.nodup_append.mp nodup).2.2 node before node List.mem_cons_self rfl
    rw [same, parts, List.erase_append_right _ notLeft, List.erase_cons_head]
    exact chain_remove chain
  · rw [List.erase_of_not_mem fun here => same (linked.root_unique here member)]
    exact linked.remove_elsewhere parts same

end Operations

end Linked

end Mgw.IntrusiveList

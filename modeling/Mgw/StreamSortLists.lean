import Mgw.StableQueue
import Mgw.StreamSort

/-!
# The lists and counters of the sorter

`insert` and `pop` say what an accepted frame and a frame handed out do to the
content. Whichever of the source's paths is taken, an accepted frame is one
insertion followed by some pops: the reuse of the oldest node for the newest
frame is an insertion at the end and a pop.
-/

namespace Mgw.StreamSort

open ByteArea CodecDef WordArithmetic StableQueue

set_option autoImplicit false

def totalLen (nodes : List SsNode) : Nat := (nodes.map SsNode.len).sum

@[simp] theorem total_len_cons (node : SsNode) (rest : List SsNode) :
    totalLen (node :: rest) = node.len + totalLen rest := by
  simp [totalLen]

theorem total_len_perm {left right : List SsNode} (same : left.Perm right) :
    totalLen left = totalLen right :=
  (same.map SsNode.len).sum_nat

/-- What a frame and its node have in common besides the payload. -/
structure FrameInfo where
  len : Nat
  timestamp : Nat
  frametype : FrameType
  priority : Int
  deriving DecidableEq

def SsNode.info (node : SsNode) : FrameInfo where
  len := node.len
  timestamp := node.timestamp
  frametype := node.frametype
  priority := node.priority

def SortFrame.info (frame : SortFrame) : FrameInfo where
  len := frame.frame_len
  timestamp := frame.timestamp
  frametype := frame.frametype
  priority := frame.priority

namespace SsContent

/-- The content with one more frame, whose payload is at `wpos`. -/
def insert (content : SsContent) (wpos : Nat) (iframe : SortFrame) : SsContent :=
  { content with
    phead := insertBy SsNode.timestamp (fillTheNode wpos iframe) content.phead
    frameaddr := content.frameaddr ++ [wpos]
    uiPutFrameCount := u32 (content.uiPutFrameCount + 1)
    uiValidLen := u32 (content.uiValidLen + iframe.frame_len)
    maxtimestamp :=
      if content.phead ≠ [] ∧ iframe.timestamp < content.maxtimestamp then content.maxtimestamp
      else iframe.timestamp
    mintimestamp :=
      if content.phead ≠ [] ∧ content.mintimestamp ≤ iframe.timestamp then content.mintimestamp
      else iframe.timestamp
    premintimestamp :=
      if content.phead = [] then iframe.timestamp else content.premintimestamp }

/-- The content without its oldest frame, which has been handed out. -/
def pop (content : SsContent) : SsContent :=
  match content.phead with
  | nd :: next :: rest =>
      { content with
        frameaddr := content.frameaddr.erase nd.position
        premintimestamp := nd.timestamp
        uiValidLen := sub32 content.uiValidLen nd.len
        phead := next :: rest
        u32PopFrameCount := u32 (content.u32PopFrameCount + 1)
        mintimestamp := next.timestamp }
  | _ => content

def popMany : Nat → SsContent → SsContent
  | 0, content => content
  | count + 1, content => popMany count content.pop

end SsContent

/-- The address list, the counters and the cached timestamps agree with the list of nodes. -/
structure Consistent (content : SsContent) : Prop where
  addresses : content.frameaddr.Perm (content.phead.map SsNode.position)
  validLen : content.uiValidLen = u32 (totalLen content.phead)
  counts : sub32 content.uiPutFrameCount content.u32PopFrameCount = u32 content.phead.length
  ordered : Ordered SsNode.timestamp content.phead
  oldest : ∀ nd rest, content.phead = nd :: rest → content.mintimestamp = nd.timestamp
  newest : ∀ nd, content.phead.getLast? = some nd → content.maxtimestamp = nd.timestamp
  empty : content.phead = [] → content.position = 0 ∧ content.uiPutFrameCount = 0 ∧
    content.uiValidLen = 0 ∧ content.u32PopFrameCount = 0
  size : MIM_SORT_BUFF_LEN ≤ content.datasize ∧ content.datasize < wordSize

section Pop

variable {content : SsContent} {nd next : SsNode} {rest : List SsNode}

theorem pop_cons (shape : content.phead = nd :: next :: rest) :
    content.pop =
      { content with
        frameaddr := content.frameaddr.erase nd.position
        premintimestamp := nd.timestamp
        uiValidLen := sub32 content.uiValidLen nd.len
        phead := next :: rest
        u32PopFrameCount := u32 (content.u32PopFrameCount + 1)
        mintimestamp := next.timestamp } := by
  rw [SsContent.pop, shape]

theorem sub32_u32_add (length total : Nat) :
    sub32 (u32 (length + total)) length = u32 total := by
  simp only [sub32, u32, wordSize]
  omega

theorem sub32_succ {put pop length : Nat} (counts : sub32 put pop = u32 (length + 1)) :
    sub32 put (u32 (pop + 1)) = u32 length := by
  simp only [sub32, u32, wordSize] at counts ⊢
  omega

theorem sub32_put_succ {put pop length : Nat} (counts : sub32 put pop = u32 length) :
    sub32 (u32 (put + 1)) pop = u32 (length + 1) := by
  simp only [sub32, u32, wordSize] at counts ⊢
  omega

theorem consistent_pop (consistent : Consistent content) (shape : content.phead = nd :: next :: rest) :
    Consistent content.pop := by
  obtain ⟨addresses, validLen, counts, ordered, oldest, newest, empty, size⟩ := consistent
  rw [pop_cons shape]
  rw [shape] at addresses validLen counts ordered newest
  refine ⟨?_, ?_, ?_, ?_, ?_, ?_, ?_, size⟩
  · have erased := addresses.erase nd.position
    rwa [List.map_cons, List.erase_cons_head] at erased
  · change sub32 content.uiValidLen nd.len = _
    rw [validLen, total_len_cons, sub32_u32_add]
  · exact sub32_succ counts
  · exact (List.pairwise_cons.mp ordered).2
  · intro first others same
    change next.timestamp = first.timestamp
    rw [(List.cons.inj same).1]
  · intro last isLast
    apply newest last
    rw [List.getLast?_cons_cons]
    exact isLast
  · intro impossible
    contradiction

theorem pop_data (content : SsContent) :
    content.pop.pdata = content.pdata ∧ content.pop.datasize = content.datasize ∧
      content.pop.position = content.position := by
  rw [SsContent.pop]
  split <;> exact ⟨rfl, rfl, rfl⟩

theorem pop_many_data (count : Nat) (content : SsContent) :
    (content.popMany count).pdata = content.pdata ∧
      (content.popMany count).datasize = content.datasize ∧
      (content.popMany count).position = content.position := by
  induction count generalizing content with
  | zero => exact ⟨rfl, rfl, rfl⟩
  | succ count ih =>
      obtain ⟨data, size, position⟩ := ih content.pop
      obtain ⟨popData, popSize, popPosition⟩ := pop_data content
      exact ⟨data.trans popData, size.trans popSize, position.trans popPosition⟩

/-- A pop keeps one node at least, so `count` pops of a longer list take `count` nodes. -/
theorem pop_many_spec (count : Nat) (consistent : Consistent content)
    (enough : count < content.phead.length) :
    Consistent (content.popMany count) ∧
      (content.popMany count).phead = content.phead.drop count := by
  induction count generalizing content with
  | zero => exact ⟨consistent, rfl⟩
  | succ count ih =>
      obtain ⟨nd, next, rest, shape⟩ : ∃ nd next rest, content.phead = nd :: next :: rest := by
        cases phead : content.phead with
        | nil =>
            rw [phead] at enough
            simp at enough
        | cons nd others =>
            cases others with
            | nil =>
                rw [phead] at enough
                simp at enough
            | cons next rest => exact ⟨nd, next, rest, rfl⟩
      have popped := consistent_pop consistent shape
      have list : content.pop.phead = next :: rest := by rw [pop_cons shape]
      obtain ⟨kept, dropped⟩ := ih popped (by
        rw [list]
        rw [shape] at enough
        simp only [List.length_cons] at enough ⊢
        omega)
      refine ⟨kept, dropped.trans ?_⟩
      rw [list, shape, List.drop_succ_cons]

theorem pop_many_add (first second : Nat) (content : SsContent) :
    (content.popMany first).popMany second = content.popMany (first + second) := by
  induction first generalizing content with
  | zero => rw [Nat.zero_add, SsContent.popMany]
  | succ first ih =>
      rw [SsContent.popMany, ih, Nat.add_right_comm]
      rfl

/-- After at least one pop the last timestamp handed out is that of the last popped node. -/
theorem pop_many_premin (count : Nat) (enough : count + 1 < content.phead.length)
    (consistent : Consistent content) :
    ∃ nd, content.phead[count]? = some nd ∧
      (content.popMany (count + 1)).premintimestamp = nd.timestamp := by
  obtain ⟨kept, dropped⟩ := pop_many_spec count consistent (by omega)
  rw [← pop_many_add count 1]
  change ∃ nd, _ ∧ (content.popMany count).pop.premintimestamp = _
  have bound : count < content.phead.length := by omega
  have shape : (content.popMany count).phead =
      content.phead[count] :: content.phead[count + 1] :: content.phead.drop (count + 2) := by
    rw [dropped, List.drop_eq_getElem_cons bound, List.drop_eq_getElem_cons enough]
  refine ⟨content.phead[count], List.getElem?_eq_getElem bound, ?_⟩
  rw [pop_cons shape]

end Pop

section Insert

variable {content : SsContent}

theorem insert_oldest (consistent : Consistent content) (wpos : Nat) (iframe : SortFrame)
    {nd : SsNode} {rest : List SsNode}
    (shape : (content.insert wpos iframe).phead = nd :: rest) :
    (content.insert wpos iframe).mintimestamp = nd.timestamp := by
  change (if content.phead ≠ [] ∧ content.mintimestamp ≤ iframe.timestamp then
    content.mintimestamp else iframe.timestamp) = nd.timestamp
  rcases insert_by_first shape with ⟨new, before⟩ | ⟨old, le⟩
  · rw [new, if_neg]
    · rfl
    · rintro ⟨nonempty, above⟩
      obtain ⟨head, others, parts⟩ := List.exists_cons_of_ne_nil nonempty
      have lower := before head (by rw [parts]; rfl)
      change iframe.timestamp < head.timestamp at lower
      rw [consistent.oldest head others parts] at above
      omega
  · obtain ⟨others, parts⟩ := List.head?_eq_some_iff.mp old
    have first := consistent.oldest nd others parts
    change nd.timestamp ≤ iframe.timestamp at le
    rw [if_pos ⟨by simp [parts], by omega⟩, first]

theorem insert_newest (consistent : Consistent content) (wpos : Nat) (iframe : SortFrame)
    {nd : SsNode} (isLast : (content.insert wpos iframe).phead.getLast? = some nd) :
    (content.insert wpos iframe).maxtimestamp = nd.timestamp := by
  change (if content.phead ≠ [] ∧ iframe.timestamp < content.maxtimestamp then
    content.maxtimestamp else iframe.timestamp) = nd.timestamp
  rcases insert_by_last consistent.ordered isLast with ⟨new, below⟩ | ⟨old, greater⟩
  · rw [new, if_neg]
    · rfl
    · rintro ⟨nonempty, lower⟩
      have final := consistent.newest _ (List.getLast?_eq_some_getLast nonempty)
      have bound := below _ (List.getLast_mem nonempty)
      change _ ≤ iframe.timestamp at bound
      omega
  · have final := consistent.newest nd old
    change iframe.timestamp < nd.timestamp at greater
    rw [if_pos ⟨List.ne_nil_of_mem (List.mem_of_getLast? old), by omega⟩, final]

theorem insert_consistent (consistent : Consistent content) (wpos : Nat) (iframe : SortFrame) :
    Consistent (content.insert wpos iframe) := by
  have perm := insert_by_perm SsNode.timestamp (fillTheNode wpos iframe) content.phead
  refine ⟨?_, ?_, ?_, insert_by_ordered _ consistent.ordered,
    fun _ _ => insert_oldest consistent wpos iframe, fun _ => insert_newest consistent wpos iframe,
    fun impossible => absurd impossible (insert_by_ne_nil _ _), consistent.size⟩
  · have more : (content.frameaddr ++ [wpos]).Perm
        (wpos :: content.phead.map SsNode.position) :=
      (List.perm_append_singleton wpos content.frameaddr).trans (consistent.addresses.cons wpos)
    exact more.trans (perm.map SsNode.position).symm
  · change u32 (content.uiValidLen + iframe.frame_len) = u32 (totalLen (insertBy _ _ _))
    rw [total_len_perm perm, consistent.validLen, total_len_cons]
    simp only [u32, fillTheNode, wordSize]
    omega
  · change sub32 (u32 (content.uiPutFrameCount + 1)) content.u32PopFrameCount = _
    rw [sub32_put_succ consistent.counts]
    exact congrArg u32 (insert_by_length _ _ _).symm

end Insert

section Clean

variable {content : SsContent}

theorem clean_consistent (consistent : Consistent content) : Consistent (cleanContent content) where
  addresses := List.Perm.refl _
  validLen := rfl
  counts := show sub32 0 0 = u32 0 from rfl
  ordered := List.Pairwise.nil
  oldest := fun _ _ impossible => by contradiction
  newest := fun _ impossible => by contradiction
  empty := fun _ => ⟨rfl, rfl, rfl, rfl⟩
  size := consistent.size

end Clean

section Move

variable (content : SsContent) (uiSize : Nat)

/-- The moved nodes are the old ones at the addresses given out. -/
theorem move_nodes_lists (newpdata : Bytes) (position : Nat) (nodes : List SsNode) :
    (moveNodes content uiSize newpdata position nodes).phead.map SsNode.info =
        nodes.map SsNode.info ∧
      (moveNodes content uiSize newpdata position nodes).phead.map SsNode.position =
        (moveNodes content uiSize newpdata position nodes).addresses := by
  induction nodes generalizing newpdata position with
  | nil => exact ⟨rfl, rfl⟩
  | cons node rest ih =>
      obtain ⟨infos, addresses⟩ := ih
        (remallocCopy content newpdata uiSize position node).1 (u32 (position + node.len))
      constructor
      · simp only [moveNodes, List.map_cons, infos]
        rfl
      · simp only [moveNodes, List.map_cons, addresses]

theorem assign_addresses_get (addresses frameaddr : List Nat) (index : Nat)
    (fits : index + addresses.length ≤ frameaddr.length) (place : Nat) :
    (assignAddresses frameaddr index addresses)[place]? =
      if index ≤ place ∧ place < index + addresses.length then addresses[place - index]?
      else frameaddr[place]? := by
  induction addresses generalizing frameaddr index with
  | nil => rw [assignAddresses, if_neg (by simp only [List.length_nil]; omega)]
  | cons address rest ih =>
      rw [List.length_cons] at fits
      rw [assignAddresses, Nat.mod_eq_of_lt (show index < frameaddr.length by omega),
        ih _ _ (by rw [List.length_set]; omega), List.length_cons]
      by_cases first : place = index
      · subst first
        rw [if_neg (by omega), if_pos (by omega), Nat.sub_self,
          List.getElem?_set_self (by omega), List.getElem?_cons_zero]
      · by_cases inside : index ≤ place ∧ place < index + (rest.length + 1)
        · obtain ⟨steps, shift⟩ : ∃ steps, place = index + (steps + 1) :=
            ⟨place - index - 1, by omega⟩
          rw [if_pos (by omega), if_pos inside, shift]
          rw [show index + (steps + 1) - (index + 1) = steps by omega,
            show index + (steps + 1) - index = steps + 1 by omega, List.getElem?_cons_succ]
        · rw [if_neg (by omega), if_neg inside, List.getElem?_set_ne (by omega)]

/-- One address for each entry of the list: the walk replaces them all. -/
theorem assign_addresses_all {addresses frameaddr : List Nat}
    (same : frameaddr.length = addresses.length) :
    assignAddresses frameaddr 0 addresses = addresses := by
  apply List.ext_getElem?
  intro place
  rw [assign_addresses_get addresses frameaddr 0 (by omega)]
  split_ifs with inside
  · rw [Nat.sub_zero]
  · rw [List.getElem?_eq_none (by omega), List.getElem?_eq_none (by omega)]

end Move

/-- The content in a buffer of another size. The guard against older frames is lost. -/
def SsContent.moved (content : SsContent) (uiSize : Nat) : SsContent :=
  let moved := moveNodes content uiSize (fun _ => 0) 0 content.phead
  { content with
    phead := moved.phead
    frameaddr := assignAddresses content.frameaddr 0 moved.addresses
    datasize := uiSize
    pdata := moved.pdata
    position := moved.position
    premintimestamp := 0 }

section Moved

variable {content : SsContent}

theorem moved_infos (content : SsContent) (uiSize : Nat) :
    (content.moved uiSize).phead.map SsNode.info = content.phead.map SsNode.info :=
  (move_nodes_lists content uiSize _ 0 content.phead).1

theorem moved_addresses (consistent : Consistent content) (uiSize : Nat) :
    (content.moved uiSize).frameaddr = (content.moved uiSize).phead.map SsNode.position := by
  obtain ⟨infos, addresses⟩ := move_nodes_lists content uiSize (fun _ => 0) 0 content.phead
  have count := congrArg List.length infos
  rw [List.length_map, List.length_map] at count
  change assignAddresses _ _ _ = _
  rw [assign_addresses_all, ← addresses]
  · rfl
  · rw [← addresses, List.length_map, consistent.addresses.length_eq, List.length_map, count]

theorem moved_consistent (consistent : Consistent content) (present : content.phead ≠ [])
    {uiSize : Nat} (size : MIM_SORT_BUFF_LEN ≤ uiSize ∧ uiSize < wordSize) :
    Consistent (content.moved uiSize) := by
  have infos := moved_infos content uiSize
  have timestamps : (content.moved uiSize).phead.map SsNode.timestamp =
      content.phead.map SsNode.timestamp := by
    have same := congrArg (List.map FrameInfo.timestamp) infos
    rwa [List.map_map, List.map_map] at same
  have lengths : (content.moved uiSize).phead.map SsNode.len = content.phead.map SsNode.len := by
    have same := congrArg (List.map FrameInfo.len) infos
    rwa [List.map_map, List.map_map] at same
  have count : (content.moved uiSize).phead.length = content.phead.length := by
    have same := congrArg List.length infos
    rwa [List.length_map, List.length_map] at same
  refine ⟨?_, ?_, ?_, ?_, ?_, ?_, ?_, size⟩
  · rw [moved_addresses consistent]
  · rw [totalLen, lengths]
    exact consistent.validLen
  · rw [count]
    exact consistent.counts
  · have ordered := consistent.ordered
    rw [Ordered, ← List.pairwise_map (R := fun left right : Nat => left ≤ right)] at ordered ⊢
    rwa [timestamps]
  · intro nd rest shape
    obtain ⟨head, others, old⟩ := List.exists_cons_of_ne_nil present
    rw [shape, old, List.map_cons, List.map_cons] at timestamps
    rw [(List.cons.inj timestamps).1]
    exact consistent.oldest head others old
  · intro nd isLast
    have last := congrArg List.getLast? timestamps
    rw [List.getLast?_map, List.getLast?_map, isLast,
      List.getLast?_eq_some_getLast present] at last
    change content.maxtimestamp = nd.timestamp
    rw [Option.some.inj last]
    exact consistent.newest _ (List.getLast?_eq_some_getLast present)
  · intro impossible
    rw [impossible, List.length_nil] at count
    exact absurd (List.length_eq_zero_iff.mp count.symm) present

end Moved

end Mgw.StreamSort

import Mgw.RingLayout
import Mgw.StreamSortOrder

/-!
# Runs of the sorter: where the payloads are

The live payloads are the blocks of a ring layout whose starts are the address
list. The comparison of `CheckStreambuff` is what keeps a new block off the
earliest one; for the first frames, for which it is skipped, the write has to go
straight on behind all live payloads. Growth lays the payloads end to end in the
order of the list.
-/

namespace Mgw.StreamSort

open ByteArea CodecDef WordArithmetic StableQueue TransitionRuns RingLayout

set_option autoImplicit false

def SsNode.block (node : SsNode) : Block where
  start := node.position
  len := node.len

/-- The bytes of a frame. -/
def SortFrame.payload (frame : SortFrame) : List UInt8 := takeBytes frame.frame frame.frame_len

/-- All that the callback can see of a frame. -/
structure FrameRecord where
  info : FrameInfo
  payload : List UInt8
  deriving DecidableEq

def FrameRecord.timestamp (record : FrameRecord) : Nat := record.info.timestamp

def SortFrame.record (frame : SortFrame) : FrameRecord where
  info := frame.info
  payload := frame.payload

/-- The layout of the live payloads, in a buffer for which positions do not wrap at 32 bits. -/
structure LaidOut (content : SsContent) : Prop where
  layout : Layout content.datasize content.position content.frameaddr
    (content.phead.map SsNode.block)
  word : content.datasize + content.datasize / 2 ≤ wordSize

/-- The write goes straight on behind all live payloads. -/
def RoomAhead (content : SsContent) (frame_len : Nat) : Prop :=
  content.position + frame_len ≤ content.datasize ∧
    ∀ node ∈ content.phead, node.position + node.len ≤ content.position

section Write

variable {content : SsContent} {frame_len wpos position : Nat}

theorem position_word (laid : LaidOut content) (fits : frame_len < content.datasize / 2) :
    u32 (content.position + frame_len) = content.position + frame_len := by
  apply u32_of_lt
  have bound := laid.layout.next_le
  have word := laid.word
  omega

/-- A write that goes on behind all live payloads. -/
theorem write_ahead (laid : LaidOut content) (fits : frame_len < content.datasize / 2)
    (room : RoomAhead content frame_len) (writes : WritesAt content frame_len wpos position) :
    Layout content.datasize position (content.frameaddr ++ [wpos])
      (⟨wpos, frame_len⟩ :: content.phead.map SsNode.block) := by
  have straight := position_word laid fits
  rw [WritesAt, straight] at writes
  rcases writes with ⟨-, same, after⟩ | ⟨past, -, -⟩
  · subst same after
    apply put_unwrapped laid.layout _ room.1
    apply unwrapped_of_ahead laid.layout
    intro block member
    obtain ⟨node, nodeMember, same⟩ := List.mem_map.mp member
    rw [← same]
    exact room.2 node nodeMember
  · have inside := room.1
    omega

/-- A write that the comparison with the earliest address lets through. -/
theorem write_clear {first : Nat} {rest : List Nat} (laid : LaidOut content)
    (fits : frame_len < content.datasize / 2) (addresses : content.frameaddr = first :: rest)
    (straight : content.position + frame_len ≤ content.datasize →
      ¬(content.position ≤ first ∧ first ≤ content.position + frame_len))
    (around : content.datasize < content.position + frame_len →
      first < content.position ∧ frame_len < first)
    (writes : WritesAt content frame_len wpos position) :
    Layout content.datasize position (content.frameaddr ++ [wpos])
      (⟨wpos, frame_len⟩ :: content.phead.map SsNode.block) := by
  have noWrap := position_word laid fits
  rw [WritesAt, noWrap] at writes
  rcases writes with ⟨inside, same, after⟩ | ⟨past, same, after⟩
  · subst same after
    rcases laid.layout.laps with unwrapped | ⟨other, older, newer, parts, wrapped⟩
    · exact put_unwrapped laid.layout unwrapped inside
    · have head := parts
      rw [addresses, List.cons_append] at head
      have sameFirst := (List.cons.inj head).1
      have reach := wrapped.next_le
      have clear : content.position + frame_len < other := by
        have off := straight inside
        omega
      obtain ⟨room, layout⟩ := put_wrapped laid.layout parts wrapped clear
      rw [if_neg (by omega)]
      exact layout
  · subst same after
    obtain ⟨behind, clear⟩ := around past
    exact put_at_beginning laid.layout addresses behind clear

end Write

section Bytes

variable {content : SsContent} {iframe : SortFrame} {wpos position : Nat}

/-- A copy into a place apart from a payload does not change its bytes. -/
theorem payload_apart {area source : Bytes} {node : SsNode} {len : Nat}
    (apart : Apart ⟨wpos, len⟩ node.block) :
    takeBytes (advance (copyIn area wpos source len) node.position) node.len =
      takeBytes (advance area node.position) node.len := by
  apply take_bytes_congr
  intro index bound
  rw [advance_apply, advance_apply]
  apply copy_in_outside
  rcases apart with before | behind
  · simp only [Block.finish, SsNode.block] at before
    omega
  · simp only [Block.finish, SsNode.block] at behind
    omega

theorem payload_written (area : Bytes) :
    takeBytes (advance (copyIn area wpos iframe.frame iframe.frame_len) wpos) iframe.frame_len =
      iframe.payload := by
  apply take_bytes_congr
  intro index bound
  rw [advance_apply]
  exact copy_in_inside area iframe.frame wpos iframe.frame_len index bound

/-- Each node with its bytes in the data area is the frame in its place of the queue. -/
def Holds (content : SsContent) (frames : List SortFrame) : Prop :=
  content.phead.map (fun node => (content.oframe node).record) = frames.map SortFrame.record

theorem store_holds {queue : Queue SortFrame} (holds : Holds content queue.pending)
    (apart : ∀ node ∈ content.phead, Apart ⟨wpos, iframe.frame_len⟩ node.block) :
    Holds (content.store wpos position iframe)
      (queue.put SortFrame.timestamp iframe).pending := by
  obtain ⟨after, afterDef⟩ : ∃ after, after = content.store wpos position iframe := ⟨_, rfl⟩
  have data : after.pdata = copyIn content.pdata wpos iframe.frame iframe.frame_len := by
    rw [afterDef]
    rfl
  have nodes : after.phead =
      insertBy SsNode.timestamp (fillTheNode wpos iframe) content.phead := by
    rw [afterDef]
    rfl
  have image : ∀ node : SsNode, (after.oframe node).record.timestamp = node.timestamp :=
    fun _ => rfl
  have same : ∀ frame : SortFrame, frame.record.timestamp = frame.timestamp := fun _ => rfl
  have kept : content.phead.map (fun node => (after.oframe node).record) =
      content.phead.map fun node => (content.oframe node).record := by
    apply List.map_congr_left
    intro node member
    have bytes : (after.oframe node).payload = (content.oframe node).payload := by
      simp only [SortFrame.payload, SsContent.oframe, data]
      exact payload_apart (apart node member)
    rw [SortFrame.record, bytes]
    rfl
  have written : (after.oframe (fillTheNode wpos iframe)).record = iframe.record := by
    have bytes : (after.oframe (fillTheNode wpos iframe)).payload = iframe.payload := by
      rw [SortFrame.payload, SsContent.oframe, data]
      exact payload_written content.pdata
    rw [SortFrame.record, bytes]
    rfl
  rw [Holds] at holds ⊢
  rw [← afterDef, nodes, Queue.put, insert_by_map image, insert_by_map same, kept, written, holds]

theorem pop_many_holds {frames : List SortFrame} {count : Nat} (consistent : Consistent content)
    (few : count < content.phead.length) (holds : Holds content frames) :
    Holds (content.popMany count) (frames.drop count) ∧
      (content.handedOut count).map SortFrame.record =
        (frames.take count).map SortFrame.record := by
  obtain ⟨-, dropped⟩ := pop_many_spec count consistent few
  have data := (pop_many_data count content).1
  rw [Holds] at holds
  constructor
  · rw [Holds, dropped, List.map_drop, List.map_drop, ← holds]
    simp only [SsContent.oframe, data]
  · rw [SsContent.handedOut, List.map_map, List.map_take, List.map_take, ← holds]
    rfl

end Bytes

def copiesInside (copies : List Copy) : Prop := ∀ copy ∈ copies, copy.offset + copy.len ≤ copy.size

section Moved

variable {content : SsContent}

/-- What the loop of `RemallocSortBuff` does to nodes that lie inside the old data area. -/
structure MovedTo (content : SsContent) (uiSize : Nat) (newpdata : Bytes) (position : Nat)
    (nodes : List SsNode) (moved : Moved) : Prop where
  blocks : moved.phead.map SsNode.block = endToEnd position (nodes.map SsNode.len)
  final : moved.position = position + totalLen nodes
  before : ∀ address < position, moved.pdata address = newpdata address
  bytes : moved.phead.map (fun node => takeBytes (advance moved.pdata node.position) node.len) =
    nodes.map fun node => takeBytes (advance content.pdata node.position) node.len
  copies : ∀ event ∈ moved.copies, ∃ copy, event = .copied copy ∧ copy.size = uiSize ∧
    copy.offset + copy.len ≤ position + totalLen nodes

/-- A node whose payload does not run over the end is copied as a whole. -/
theorem move_nodes_cons (uiSize : Nat) (newpdata : Bytes) {position : Nat} {node : SsNode}
    (rest : List SsNode) (straight : node.position + node.len ≤ content.datasize)
    (word : position + node.len < wordSize) :
    moveNodes content uiSize newpdata position (node :: rest) =
      let moved := moveNodes content uiSize
        (copyIn newpdata position (advance content.pdata node.position) node.len)
        (position + node.len) rest
      { moved with
        phead := { node with position := position } :: moved.phead
        addresses := position :: moved.addresses
        copies := [.copied ⟨position, node.len, uiSize⟩] ++ moved.copies } := by
  have copied : remallocCopy content newpdata uiSize position node =
      (copyIn newpdata position (advance content.pdata node.position) node.len,
        [.copied ⟨position, node.len, uiSize⟩]) := by
    unfold remallocCopy
    rw [if_neg (by omega)]
  have next : u32 (position + node.len) = position + node.len := u32_of_lt word
  rw [moveNodes, copied, next]

theorem moved_cons {uiSize : Nat} {newpdata : Bytes} {position : Nat} {node : SsNode}
    {rest : List SsNode} {moved : Moved}
    (later : MovedTo content uiSize
      (copyIn newpdata position (advance content.pdata node.position) node.len)
      (position + node.len) rest moved) :
    MovedTo content uiSize newpdata position (node :: rest)
      { moved with
        phead := { node with position := position } :: moved.phead
        addresses := position :: moved.addresses
        copies := [.copied ⟨position, node.len, uiSize⟩] ++ moved.copies } := by
  constructor
  · rw [List.map_cons, later.blocks]
    rfl
  · change moved.position = _
    rw [later.final, total_len_cons]
    omega
  · intro address bound
    change moved.pdata address = _
    rw [later.before address (by omega)]
    exact copy_in_outside _ _ _ _ _ (Or.inl bound)
  · rw [List.map_cons, List.map_cons, later.bytes]
    congr 1
    apply take_bytes_congr
    intro index bound
    change index < node.len at bound
    change moved.pdata (position + index) = _
    rw [later.before _ (by omega), copy_in_inside _ _ _ _ _ bound]
  · intro event member
    rw [total_len_cons]
    rcases List.mem_cons.mp member with first | others
    · exact ⟨_, first, rfl, by change position + node.len ≤ _; omega⟩
    · obtain ⟨copy, same, size, bound⟩ := later.copies event others
      exact ⟨copy, same, size, by omega⟩

theorem move_nodes_moved (uiSize : Nat) (newpdata : Bytes) (position : Nat) (nodes : List SsNode)
    (inside : ∀ node ∈ nodes, node.position + node.len ≤ content.datasize)
    (word : position + totalLen nodes < wordSize) :
    MovedTo content uiSize newpdata position nodes
      (moveNodes content uiSize newpdata position nodes) := by
  induction nodes generalizing newpdata position with
  | nil => exact ⟨rfl, rfl, fun _ _ => rfl, rfl, fun event member => by simp [moveNodes] at member⟩
  | cons node rest ih =>
      rw [total_len_cons] at word
      rw [move_nodes_cons uiSize newpdata rest (inside node List.mem_cons_self) (by omega)]
      apply moved_cons
      apply ih
      · intro other member
        exact inside other (List.mem_cons_of_mem _ member)
      · omega

theorem total_block_len (nodes : List SsNode) :
    ((nodes.map SsNode.block).map Block.len).sum = totalLen nodes := by
  rw [List.map_map]
  rfl

/-- Growth lays the payloads end to end and keeps their bytes. -/
theorem moved_laid_out (consistent : Consistent content) (laid : LaidOut content) {uiSize : Nat}
    (larger : content.datasize ≤ uiSize) (word : uiSize + uiSize / 2 ≤ wordSize) :
    LaidOut (content.moved uiSize) ∧ totalLen content.phead ≤ content.datasize ∧
      MovedTo content uiSize (fun _ => 0) 0 content.phead
        (moveNodes content uiSize (fun _ => 0) 0 content.phead) := by
  have inside : ∀ node ∈ content.phead, node.position + node.len ≤ content.datasize :=
    fun node member => laid.layout.inside node.block (List.mem_map_of_mem member)
  have total : totalLen content.phead ≤ content.datasize := by
    rw [← total_block_len]
    exact total_le laid.layout.apart laid.layout.inside
  have size := consistent.size.2
  have moved := move_nodes_moved uiSize (fun _ => 0) 0 content.phead inside (by omega)
  refine ⟨⟨?_, word⟩, total, moved⟩
  have sum : (content.phead.map SsNode.len).sum = totalLen content.phead := rfl
  have layout := @end_to_end_layout uiSize (content.phead.map SsNode.len) (by omega)
  have final : (content.moved uiSize).position = (content.phead.map SsNode.len).sum := by
    change (moveNodes _ _ _ _ _).position = _
    rw [moved.final, Nat.zero_add, sum]
  have blocks : (content.moved uiSize).phead.map SsNode.block =
      endToEnd 0 (content.phead.map SsNode.len) := moved.blocks
  have starts : (content.moved uiSize).frameaddr =
      (endToEnd 0 (content.phead.map SsNode.len)).map Block.start := by
    rw [moved_addresses consistent, ← blocks, List.map_map]
    rfl
  rw [final, blocks, starts]
  exact layout

theorem moved_holds {frames : List SortFrame} {uiSize : Nat}
    (moved : MovedTo content uiSize (fun _ => 0) 0 content.phead
      (moveNodes content uiSize (fun _ => 0) 0 content.phead))
    (holds : Holds content frames) : Holds (content.moved uiSize) frames := by
  have bytes : (content.moved uiSize).phead.map
      (fun node => ((content.moved uiSize).oframe node).payload) =
        content.phead.map fun node => (content.oframe node).payload := moved.bytes
  have infos := moved_infos content uiSize
  rw [Holds] at holds ⊢
  rw [← holds]
  apply List.ext_getElem?
  intro index
  have sameBytes := congrArg (fun payloads => payloads[index]?) bytes
  have sameInfo := congrArg (fun infos => infos[index]?) infos
  simp only [List.getElem?_map] at sameBytes sameInfo ⊢
  cases new : (content.moved uiSize).phead[index]? with
  | none =>
      rw [new] at sameInfo
      rw [Option.map_eq_none_iff.mp sameInfo.symm]
      rfl
  | some node =>
      rw [new] at sameInfo sameBytes
      obtain ⟨old, present, info⟩ := Option.map_eq_some_iff.mp sameInfo.symm
      rw [present] at sameBytes ⊢
      have payload : ((content.moved uiSize).oframe node).payload =
          (content.oframe old).payload := Option.some.inj sameBytes
      have record : ((content.moved uiSize).oframe node).record = (content.oframe old).record := by
        rw [SortFrame.record, SortFrame.record, payload]
        exact congrArg (fun info => FrameRecord.mk info _) info.symm
      exact congrArg some record

end Moved

/-- Wherever `MemcpyToSortBuff` puts the payload, it keeps the layout. -/
def Placeable (content : SsContent) (frame_len : Nat) : Prop :=
  ∀ wpos position, WritesAt content frame_len wpos position →
    Layout content.datasize position (content.frameaddr ++ [wpos])
      (⟨wpos, frame_len⟩ :: content.phead.map SsNode.block)

/-- The frame is refused for its length, compared with the earliest live address,
or, if the comparison is skipped, would pass it or goes straight on behind all
live payloads. -/
def PlacementSafe (ssbuf : SsBuff) (iframe : SortFrame) : Prop :=
  ssbuf.datasize / 2 ≤ iframe.frame_len ∨ ssbuf.unchecked = false ∨
    ssbuf.tooLong iframe.frame_len = false ∨ RoomAhead ssbuf.toSsContent iframe.frame_len

instance placement_safe_decidable (ssbuf : SsBuff) (iframe : SortFrame) :
    Decidable (PlacementSafe ssbuf iframe) :=
  inferInstanceAs (Decidable (ssbuf.datasize / 2 ≤ iframe.frame_len ∨ ssbuf.unchecked = false ∨
    ssbuf.tooLong iframe.frame_len = false ∨
    (ssbuf.position + iframe.frame_len ≤ ssbuf.datasize ∧
      ∀ node ∈ ssbuf.phead, node.position + node.len ≤ ssbuf.position)))

structure LayoutInvariant (sorter : Sorter) : Prop where
  follows : Follows sorter
  laid : LaidOut sorter.ssbuf.toSsContent
  holds : Holds sorter.ssbuf.toSsContent sorter.queue.pending
  handed : sorter.emitted.map SortFrame.record = sorter.queue.out.map SortFrame.record
  taken : sorter.queue.all.Perm sorter.accepted
  copies : copiesInside sorter.copies

section Place

variable {ssbuf checked : SsBuff} {iframe : SortFrame} {frame_len : Nat}

/-- A comparison that lets the frame through, or an empty sorter. -/
theorem clear_placeable (consistent : Consistent ssbuf.toSsContent)
    (laid : LaidOut ssbuf.toSsContent) (fits : frame_len < ssbuf.datasize / 2)
    (clear : ssbuf.tooLong frame_len = false) : Placeable ssbuf.toSsContent frame_len := by
  intro wpos position writes
  have noWrap := position_word laid fits
  by_cases empty : ssbuf.phead = []
  · have start := (consistent.empty empty).1
    apply write_ahead laid fits _ writes
    refine ⟨by omega, fun node member => ?_⟩
    rw [empty] at member
    contradiction
  · obtain ⟨first, rest, addresses⟩ : ∃ first rest, ssbuf.frameaddr = first :: rest := by
      apply List.exists_cons_of_ne_nil
      intro none
      have listed := consistent.addresses
      rw [none] at listed
      exact empty (List.map_eq_nil_iff.mp (List.nil_perm.mp listed))
    have earliest : ssbuf.earliest = first := by rw [SsBuff.earliest, addresses, List.headD_cons]
    simp only [SsBuff.tooLong, earliest, noWrap] at clear
    apply write_clear laid fits addresses _ _ writes
    · intro straight
      rw [if_pos straight] at clear
      simpa using clear
    · intro around
      rw [if_neg (by omega)] at clear
      simpa using clear

theorem ahead_placeable {content : SsContent} (laid : LaidOut content)
    (fits : frame_len < content.datasize / 2) (room : RoomAhead content frame_len) :
    Placeable content frame_len :=
  fun _ _ writes => write_ahead laid fits room writes

/-- After a growth there is room for any frame that the old buffer would have taken. -/
theorem moved_room {content : SsContent} (fits : frame_len < content.datasize / 2)
    (total : totalLen content.phead ≤ content.datasize)
    (moved : MovedTo content (content.datasize * 3 / 2) (fun _ => 0) 0 content.phead
      (moveNodes content (content.datasize * 3 / 2) (fun _ => 0) 0 content.phead)) :
    RoomAhead (content.moved (content.datasize * 3 / 2)) frame_len := by
  have final : (content.moved (content.datasize * 3 / 2)).position = totalLen content.phead := by
    change (moveNodes _ _ _ _ _).position = _
    rw [moved.final, Nat.zero_add]
  refine ⟨?_, ?_⟩
  · rw [final]
    change _ ≤ content.datasize * 3 / 2
    omega
  · intro node member
    have block : node.block ∈ endToEnd 0 (content.phead.map SsNode.len) := by
      rw [← moved.blocks]
      exact List.mem_map_of_mem member
    have bounds := (end_to_end_bounds block).2
    rw [final]
    change node.position + node.len ≤ 0 + totalLen content.phead at bounds
    omega

theorem moved_copies {content : SsContent} {uiSize : Nat} (larger : content.datasize ≤ uiSize)
    (total : totalLen content.phead ≤ content.datasize)
    (moved : MovedTo content uiSize (fun _ => 0) 0 content.phead
      (moveNodes content uiSize (fun _ => 0) 0 content.phead)) :
    copiesInside (((moveNodes content uiSize (fun _ => 0) 0 content.phead).copies ++
      [Event.remalloced]).filterMap Event.copy?) := by
  intro copy member
  obtain ⟨event, eventMember, isCopy⟩ := List.mem_filterMap.mp member
  rcases List.mem_append.mp eventMember with made | last
  · obtain ⟨other, same, size, bound⟩ := moved.copies event made
    rw [same] at isCopy
    rw [← Option.some.inj isCopy, size]
    omega
  · rw [List.mem_singleton.mp last] at isCopy
    contradiction

variable {sorter : Sorter} {events : List Event} {outcome : Outcome}

/-- Nothing happens to the payloads. -/
theorem layout_kept {after : SsBuff} (invariant : LayoutInvariant sorter)
    (same : after.toSsContent = sorter.ssbuf.toSsContent)
    (follows : Follows { sorter with ssbuf := after }) :
    LayoutInvariant { sorter with ssbuf := after } := by
  constructor
  · exact follows
  · change LaidOut after.toSsContent
    rw [same]
    exact invariant.laid
  · change Holds after.toSsContent sorter.queue.pending
    rw [same]
    exact invariant.holds
  · exact invariant.handed
  · exact invariant.taken
  · exact invariant.copies

theorem layout_cleaned {after : SsBuff} (invariant : LayoutInvariant sorter)
    (clean : after.toSsContent = cleanContent sorter.ssbuf.toSsContent)
    (follows : Follows { Sorter.start after with copies := sorter.copies }) :
    LayoutInvariant { Sorter.start after with copies := sorter.copies } := by
  constructor
  · exact follows
  · change LaidOut after.toSsContent
    rw [clean]
    exact ⟨layout_empty sorter.ssbuf.datasize, invariant.laid.word⟩
  · change Holds after.toSsContent []
    rw [clean]
    rfl
  · rfl
  · exact List.Perm.refl _
  · exact invariant.copies

section Growth

variable (invariant : LayoutInvariant sorter) (small : sorter.ssbuf.datasize ≤ MAX_SORT_BUFF_LEN)
  (move : checked.toSsContent =
    sorter.ssbuf.toSsContent.moved (sorter.ssbuf.datasize * 3 / 2))
include invariant small move

theorem layout_grown
    (follows : Follows (sorter.settle checked
      ((moveNodes sorter.ssbuf.toSsContent (sorter.ssbuf.datasize * 3 / 2) (fun _ => 0) 0
        sorter.ssbuf.phead).copies ++ [.remalloced]))) :
    LayoutInvariant (sorter.settle checked
      ((moveNodes sorter.ssbuf.toSsContent (sorter.ssbuf.datasize * 3 / 2) (fun _ => 0) 0
        sorter.ssbuf.phead).copies ++ [.remalloced])) := by
  simp only [MAX_SORT_BUFF_LEN] at small
  obtain ⟨movedLaid, total, moved⟩ := moved_laid_out invariant.follows.invariant.consistent
    invariant.laid (show sorter.ssbuf.datasize ≤ sorter.ssbuf.datasize * 3 / 2 by omega)
    (by simp only [wordSize]; omega)
  have uncleaned : cleans ((moveNodes sorter.ssbuf.toSsContent
      (sorter.ssbuf.datasize * 3 / 2) (fun _ => 0) 0 sorter.ssbuf.phead).copies ++
        [Event.remalloced]) = false := by
    rw [cleans_append, (move_nodes_events _ _ _ _ _).2]
    rfl
  rw [settle_kept uncleaned] at follows ⊢
  constructor
  · exact follows
  · change LaidOut checked.toSsContent
    rw [move]
    exact movedLaid
  · change Holds checked.toSsContent sorter.queue.pending
    rw [move]
    exact moved_holds moved invariant.holds
  · exact invariant.handed
  · exact invariant.taken
  · intro copy member
    rcases List.mem_append.mp member with old | new
    · exact invariant.copies copy old
    · exact moved_copies (by omega) total moved copy new

theorem grown_placeable (fits : frame_len < sorter.ssbuf.datasize / 2) :
    Placeable checked.toSsContent frame_len := by
  simp only [MAX_SORT_BUFF_LEN] at small
  obtain ⟨movedLaid, total, moved⟩ := moved_laid_out invariant.follows.invariant.consistent
    invariant.laid (show sorter.ssbuf.datasize ≤ sorter.ssbuf.datasize * 3 / 2 by omega)
    (by simp only [wordSize]; omega)
  rw [move]
  apply ahead_placeable movedLaid
  · change frame_len < sorter.ssbuf.datasize * 3 / 2 / 2
    omega
  · exact moved_room fits total moved

end Growth

theorem cleaned_placeable {content : SsContent} (laid : LaidOut content)
    (fits : frame_len < content.datasize / 2) : Placeable (cleanContent content) frame_len := by
  have empty : LaidOut (cleanContent content) := ⟨layout_empty content.datasize, laid.word⟩
  apply ahead_placeable empty fits
  refine ⟨?_, fun node member => by contradiction⟩
  change 0 + frame_len ≤ content.datasize
  omega

/-- Where the check changes nothing, the frame was compared or has room. -/
theorem kept_placeable (consistent : Consistent ssbuf.toSsContent)
    (laid : LaidOut ssbuf.toSsContent) (fits : iframe.frame_len < ssbuf.datasize / 2)
    (safe : PlacementSafe ssbuf iframe)
    (free : ssbuf.unchecked = true ∨ ssbuf.tooLong iframe.frame_len = false) :
    Placeable ssbuf.toSsContent iframe.frame_len := by
  rcases safe with big | looked | clear | room
  · omega
  · rcases free with unchecked | clear
    · rw [looked] at unchecked
      contradiction
    · exact clear_placeable consistent laid fits clear
  · exact clear_placeable consistent laid fits clear
  · exact ahead_placeable laid fits room

theorem layout_settle (invariant : LayoutInvariant sorter)
    (fits : iframe.frame_len < sorter.ssbuf.datasize / 2)
    (safe : PlacementSafe sorter.ssbuf iframe)
    (check : Checked sorter.ssbuf iframe.frame_len checked events) :
    LayoutInvariant (sorter.settle checked events) ∧
      Placeable checked.toSsContent iframe.frame_len := by
  have follows := follows_settle invariant.follows check
  have consistent := invariant.follows.invariant.consistent
  cases check with
  | kept same limit free =>
      rw [settle_nothing] at follows ⊢
      rw [same]
      exact ⟨layout_kept invariant same follows,
        kept_placeable consistent invariant.laid fits safe free⟩
  | cleaned clean limit looked close big =>
      rw [settle_cleaned] at follows ⊢
      rw [clean]
      exact ⟨layout_cleaned invariant clean follows, cleaned_placeable invariant.laid fits⟩
  | grown move limit looked close small =>
      exact ⟨layout_grown invariant small move follows, grown_placeable invariant small move fits⟩

theorem pop_laid_out {content : SsContent} (laid : LaidOut content) : LaidOut content.pop := by
  rw [SsContent.pop]
  split
  case h_1 nd next rest shape =>
      have layout := laid.layout
      rw [shape, List.map_cons] at layout
      exact ⟨layout_erase layout, laid.word⟩
  case h_2 => exact laid

theorem pop_many_laid_out {content : SsContent} (laid : LaidOut content) (count : Nat) :
    LaidOut (content.popMany count) := by
  induction count generalizing content with
  | zero => exact laid
  | succ count ih => exact ih (pop_laid_out laid)

theorem store_laid_out {content : SsContent} {wpos position : Nat}
    (layout : Layout content.datasize position (content.frameaddr ++ [wpos])
      (⟨wpos, iframe.frame_len⟩ :: content.phead.map SsNode.block))
    (word : content.datasize + content.datasize / 2 ≤ wordSize) :
    LaidOut (content.store wpos position iframe) := by
  have nodes : (fillTheNode wpos iframe :: content.phead).Perm
      (content.store wpos position iframe).phead :=
    (insert_by_perm SsNode.timestamp _ _).symm
  exact ⟨layout_perm layout (nodes.map SsNode.block), word⟩

theorem layout_accepted {after : SsBuff} {wpos position count : Nat}
    (invariant : LayoutInvariant sorter)
    (layout : Layout sorter.ssbuf.datasize position (sorter.ssbuf.frameaddr ++ [wpos])
      (⟨wpos, iframe.frame_len⟩ :: sorter.ssbuf.phead.map SsNode.block))
    (stored : after.toSsContent =
      (sorter.ssbuf.toSsContent.store wpos position iframe).popMany count)
    (enough : count < (sorter.ssbuf.toSsContent.store wpos position iframe).phead.length)
    {next : Sorter} (ssbuf : next.ssbuf = after) (follows : Follows next)
    (accepted : next.accepted = sorter.accepted ++ [iframe])
    (emitted : next.emitted = sorter.emitted ++
      (sorter.ssbuf.toSsContent.store wpos position iframe).handedOut count)
    (queue : next.queue = (sorter.queue.put SortFrame.timestamp iframe).take count)
    (copies : next.copies =
      sorter.copies ++ [⟨wpos, iframe.frame_len, sorter.ssbuf.datasize⟩]) :
    LayoutInvariant next := by
  have apart : ∀ node ∈ sorter.ssbuf.phead, Apart ⟨wpos, iframe.frame_len⟩ node.block :=
    fun node member => (List.pairwise_cons.mp layout.apart).1 _ (List.mem_map_of_mem member)
  obtain ⟨remaining, leaving⟩ := pop_many_holds
    (store_consistent invariant.follows.invariant.consistent wpos position iframe) enough
    (@store_holds _ iframe wpos position _ invariant.holds apart)
  constructor
  · exact follows
  · rw [ssbuf, stored]
    exact pop_many_laid_out (store_laid_out layout invariant.laid.word) count
  · rw [ssbuf, stored, queue]
    exact remaining
  · rw [emitted, queue, List.map_append, invariant.handed, leaving]
    exact (List.map_append ..).symm
  · rw [queue, accepted, Queue.all_take]
    exact (Queue.put_perm SortFrame.timestamp iframe sorter.queue).trans
      (invariant.taken.append_right [iframe])
  · intro copy member
    rw [copies] at member
    rcases List.mem_append.mp member with old | new
    · exact invariant.copies copy old
    · rw [List.mem_singleton.mp new]
      exact layout.inside _ List.mem_cons_self

theorem layout_place (invariant : LayoutInvariant sorter)
    (placeable : Placeable sorter.ssbuf.toSsContent iframe.frame_len)
    (place : Placed sorter.ssbuf.toSsContent sorter.ssbuf.uiMaxSortTime iframe outcome) :
    LayoutInvariant (sorter.record iframe outcome) := by
  have follows := follows_place invariant.follows place
  cases place with
  | dropped after same limit present late =>
      rw [record_dropped] at follows ⊢
      exact layout_kept invariant same follows
  | cleaned after clean limit present far =>
      rw [record_cleaned] at follows ⊢
      exact layout_cleaned invariant clean follows
  | accepted after wpos position count writes stored limit few inOrder =>
      have total : (sorter.ssbuf.toSsContent.store wpos position iframe).phead.length =
          sorter.ssbuf.phead.length + 1 := insert_by_length SsNode.timestamp _ _
      rw [record_accepted (by omega)] at follows ⊢
      exact layout_accepted invariant (placeable wpos position writes) stored (by omega) rfl
        follows rfl rfl rfl rfl

theorem layout_step (invariant : LayoutInvariant sorter) (safe : PlacementSafe sorter.ssbuf iframe)
    (spec : PutSpec sorter.ssbuf iframe outcome) :
    LayoutInvariant (sorter.record iframe outcome) := by
  cases spec with
  | tooBig big =>
      rw [record_dropped]
      exact invariant
  | placed checked events outcome fits check place =>
      obtain ⟨settled, placeable⟩ := layout_settle invariant fits safe check
      rw [record_after (checked_events check).1]
      exact layout_place settled placeable place

end Place

/-- The ranges of the live payloads are disjoint and inside the data area. -/
def LiveApart (ssbuf : SsBuff) : Prop :=
  (ssbuf.phead.map SsNode.block).Pairwise Apart ∧
    ∀ node ∈ ssbuf.phead, node.position + node.len ≤ ssbuf.datasize

def SafelyPlaced (sorter : Sorter) (call : PutCall) : Prop :=
  CallbackSucceeds call.callback ∧ PlacementSafe sorter.ssbuf call.iframe

instance safely_placed_decidable (sorter : Sorter) (call : PutCall) :
    Decidable (SafelyPlaced sorter call) :=
  inferInstanceAs (Decidable ((∀ i < 3, 0 ≤ call.callback i) ∧
    PlacementSafe sorter.ssbuf call.iframe))

theorem start_laid_out {info : RegisterSortInfo} {freetime analytime : Nat} {ssbuf : SsBuff}
    (small : info.uiSize + info.uiSize / 2 ≤ wordSize)
    (created : pCreateStreamSort info freetime analytime = some ssbuf) :
    LayoutInvariant (Sorter.start ssbuf) := by
  have word : info.uiSize < wordSize := by
    simp only [wordSize] at small ⊢
    omega
  have follows := (start_follows word created).follows
  rw [pCreateStreamSort] at created
  split_ifs at created
  obtain rfl := Option.some.inj created
  exact ⟨follows, ⟨layout_empty info.uiSize, small⟩, rfl, rfl, List.Perm.refl _,
    fun copy member => by contradiction⟩

/-- In runs whose frames are all placed behind the live ones or compared with the
earliest one, no payload is ever written over: the frames that leave are the
accepted ones that left the queue, byte for byte. -/
theorem live_apart_after_run (info : RegisterSortInfo) (freetime analytime : Nat)
    (small : info.uiSize + info.uiSize / 2 ≤ wordSize) (ssbuf : SsBuff)
    (created : pCreateStreamSort info freetime analytime = some ssbuf) (calls : List PutCall)
    (meets : TryMeets Sorter.put SafelyPlaced (Sorter.start ssbuf) calls) :
    ∃ final, tryRun Sorter.put (Sorter.start ssbuf) calls = some final ∧
      LiveApart final.ssbuf ∧ copiesInside final.copies ∧
      final.queue.all.Perm final.accepted ∧
      final.emitted.map SortFrame.record = final.queue.out.map SortFrame.record := by
  have preserves : ∀ sorter call, LayoutInvariant sorter → SafelyPlaced sorter call →
      ∃ after, Sorter.put sorter call = some after ∧ LayoutInvariant after := by
    intro sorter call invariant safely
    obtain ⟨outcome, result, spec⟩ := @put_spec sorter.ssbuf call.clock call.callback
      invariant.follows.invariant call.iframe (callback_pops_succeed safely.1)
    exact ⟨_, by rw [Sorter.put, result, Option.map_some], layout_step invariant safely.2 spec⟩
  obtain ⟨final, result, invariant⟩ :=
    try_run_invariant preserves calls _ (start_laid_out small created) meets
  exact ⟨final, result, ⟨invariant.laid.layout.apart, fun node member =>
    invariant.laid.layout.inside node.block (List.mem_map_of_mem member)⟩, invariant.copies,
    invariant.taken, invariant.handed⟩

theorem live_apart_after_four :
    ∃ final, tryRun Sorter.put (Sorter.start (smallestSorter 1000)) sortedCalls = some final ∧
      LiveApart final.ssbuf ∧ copiesInside final.copies ∧
      final.queue.all.Perm final.accepted ∧
      final.emitted.map SortFrame.record = final.queue.out.map SortFrame.record :=
  live_apart_after_run ⟨MIM_SORT_BUFF_LEN, 1000, 0⟩ 0 0 (by decide) (smallestSorter 1000) rfl
    sortedCalls (by decide)

/-- The third of three frames that fill more than the buffer is not compared with
the first one and written over it. -/
theorem third_frame_overlaps :
    ∃ final, tryRun Sorter.put (Sorter.start (smallestSorter 1000))
        [callAt 400000 1 0, callAt 400000 2 0, callAt 400000 3 0] = some final ∧
      ¬LiveApart final.ssbuf := by
  refine ⟨_, rfl, ?_⟩
  intro apart
  have blocks : [(⟨0, 400000⟩ : Block), ⟨400000, 400000⟩, ⟨0, 400000⟩].Pairwise Apart := apart.1
  exact absurd blocks (by decide)

end Mgw.StreamSort

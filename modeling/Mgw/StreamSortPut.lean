import Mgw.StreamSortLists

/-!
# One call of `PutFrameStreamSort`

Everything one call can do, with the conditions under which it does it: the
check of the buffer leaves the content, cleans it or moves it to a larger
buffer, and then the frame is dropped, dropped with a cleaning, or accepted.
-/

namespace Mgw.StreamSort

open ByteArea CodecDef WordArithmetic StableQueue

set_option autoImplicit false

/-- Where `MemcpyToSortBuff` puts a payload and where the next one goes. -/
def WritesAt (content : SsContent) (frame_len wpos position : Nat) : Prop :=
  (u32 (content.position + frame_len) ≤ content.datasize ∧ wpos = content.position ∧
      position = if u32 (content.position + frame_len) = content.datasize then 0
        else u32 (content.position + frame_len)) ∨
    (content.datasize < u32 (content.position + frame_len) ∧ wpos = 0 ∧ position = frame_len)

/-- The `assert` cannot fail for a frame shorter than half of the buffer. -/
theorem memcpy_writes (content : SsContent) {frame_len : Nat} (pframe : Bytes)
    (fits : frame_len < content.datasize / 2) :
    ∃ wpos position, WritesAt content frame_len wpos position ∧
      memcpyToSortBuff content pframe frame_len =
        some (wpos, { content with
          pdata := copyIn content.pdata wpos pframe frame_len
          position := position }) := by
  rw [memcpyToSortBuff]
  split_ifs with straight short
  · exact ⟨_, _, Or.inl ⟨straight, rfl, rfl⟩, rfl⟩
  · have small : u32 (content.position + frame_len) ≤ content.position + frame_len :=
      Nat.mod_le _ _
    omega
  · exact ⟨_, _, Or.inr ⟨by omega, rfl, rfl⟩, rfl⟩

namespace SsContent

/-- The content after an accepted frame: its payload at `wpos` and its node in the list. -/
def store (content : SsContent) (wpos position : Nat) (iframe : SortFrame) : SsContent :=
  { content.insert wpos iframe with
    pdata := copyIn content.pdata wpos iframe.frame iframe.frame_len
    position := position }

/-- The frames that leave with the first `count` nodes, as the callback gets them. -/
def handedOut (content : SsContent) (count : Nat) : List SortFrame :=
  (content.phead.take count).map content.oframe

end SsContent

theorem store_consistent {content : SsContent} (consistent : Consistent content)
    (wpos position : Nat) (iframe : SortFrame) :
    Consistent (content.store wpos position iframe) := by
  obtain ⟨addresses, validLen, counts, ordered, oldest, newest, empty, size⟩ :=
    insert_consistent consistent wpos iframe
  exact ⟨addresses, validLen, counts, ordered, oldest, newest,
    fun impossible => absurd impossible (insert_by_ne_nil _ _), size⟩

/-- Everything the tail of a call can do with a frame that the check let through. -/
inductive Placed (content : SsContent) (uiMaxSortTime : Nat) (iframe : SortFrame) :
    Outcome → Prop
  | dropped (after : SsBuff) (same : after.toSsContent = content)
      (limit : after.uiMaxSortTime = uiMaxSortTime) (present : content.phead ≠ [])
      (late : iframe.timestamp < content.maxtimestamp) :
      Placed content uiMaxSortTime iframe ⟨-1, after, []⟩
  | cleaned (after : SsBuff) (clean : after.toSsContent = cleanContent content)
      (limit : after.uiMaxSortTime = uiMaxSortTime) (present : content.phead ≠ [])
      (far : iframe.timestamp < content.maxtimestamp ∨
        uiMaxSortTime ≤ sub32 iframe.timestamp content.maxtimestamp) :
      Placed content uiMaxSortTime iframe ⟨-1, after, [.cleaned]⟩
  | accepted (after : SsBuff) (wpos position count : Nat)
      (writes : WritesAt content iframe.frame_len wpos position)
      (stored : after.toSsContent = (content.store wpos position iframe).popMany count)
      (limit : after.uiMaxSortTime = uiMaxSortTime)
      (few : count < content.phead.length + 1)
      (inOrder : content.phead ≠ [] → content.maxtimestamp ≤ iframe.timestamp ∨
        (content.premintimestamp ≤ iframe.timestamp ∧
          sub32 content.maxtimestamp iframe.timestamp ≤ uiMaxSortTime)) :
      Placed content uiMaxSortTime iframe
        ⟨0, after, .copied ⟨wpos, iframe.frame_len, content.datasize⟩ ::
          ((content.store wpos position iframe).handedOut count).map Event.emitted⟩

/-- The outcome of a stage of the call on `ssbuf` is one that `Placed` describes. -/
def Places (ssbuf : SsBuff) (iframe : SortFrame) (result : Option Outcome) : Prop :=
  ∃ outcome, result = some outcome ∧
    Placed ssbuf.toSsContent ssbuf.uiMaxSortTime iframe outcome

section Pops

variable {callback : Nat → Int} {ssbuf : SsBuff}

theorem delete_address {frameaddr : List Nat} {nodes : List SsNode} {nd next : SsNode}
    {rest : List SsNode} (shape : nodes = nd :: next :: rest)
    (addresses : frameaddr.Perm (nodes.map SsNode.position)) (iposition : Nat) :
    cFrameaddrList frameaddr iposition nd.position 2 =
      some (0, frameaddr.erase nd.position) := by
  have count : frameaddr.length = nodes.length := by
    rw [addresses.length_eq, List.length_map]
  have member : nd.position ∈ frameaddr := by
    rw [addresses.mem_iff, shape]
    exact List.mem_cons_self
  rw [shape] at count
  simp only [List.length_cons] at count
  rw [cFrameaddrList, if_neg (List.ne_nil_of_mem member), if_pos member, if_neg (by omega)]
  · exact fun impossible => by contradiction
  · exact fun impossible => by contradiction

theorem move_address {frameaddr : List Nat} {nodes : List SsNode} {nd : SsNode}
    {rest : List SsNode} (shape : nodes = nd :: rest)
    (addresses : frameaddr.Perm (nodes.map SsNode.position)) (iposition : Nat) :
    cFrameaddrList frameaddr iposition nd.position 1 =
      some (0, (frameaddr ++ [iposition]).erase nd.position) := by
  have member : nd.position ∈ frameaddr := by
    rw [addresses.mem_iff, shape]
    exact List.mem_cons_self
  rw [cFrameaddrList, if_neg (List.ne_nil_of_mem member), if_pos member,
    List.erase_append_left _ member]

/-- `Datacallback` accepts what `PopFrameStreamSort` hands it. -/
def PopsSucceed (callback : Nat → Int) : Prop := 0 ≤ callback 1 ∧ 0 ≤ callback 2

instance pops_succeed_decidable (callback : Nat → Int) : Decidable (PopsSucceed callback) :=
  inferInstanceAs (Decidable (0 ≤ callback 1 ∧ 0 ≤ callback 2))

/-- The result of `PopFrameStreamSort`: success, after `count` pops. -/
def PopsTo (ssbuf : SsBuff) (result : Option Outcome) : Prop :=
  ∃ count after, result = some ⟨0, after, (ssbuf.toSsContent.handedOut count).map Event.emitted⟩ ∧
    after.toSsContent = ssbuf.toSsContent.popMany count ∧
    after.uiMaxSortTime = ssbuf.uiMaxSortTime ∧ count < ssbuf.phead.length

theorem pops_to_stop (present : ssbuf.phead ≠ []) : PopsTo ssbuf (some ⟨0, ssbuf, []⟩) :=
  ⟨0, ssbuf, rfl, rfl, rfl, List.length_pos_iff.mpr present⟩

/-- More than three nodes by the counters are more than three nodes in the list. -/
theorem counted_nodes (consistent : Consistent ssbuf.toSsContent)
    (many : ¬sub32 ssbuf.uiPutFrameCount ssbuf.u32PopFrameCount ≤ 3) :
    ∃ nd next rest, ssbuf.phead = nd :: next :: rest := by
  have counts := consistent.counts
  have wrapped : u32 ssbuf.phead.length ≤ ssbuf.phead.length := Nat.mod_le _ _
  have more : 3 < ssbuf.phead.length := by omega
  match phead : ssbuf.phead with
  | [] => simp [phead] at more
  | [nd] => simp [phead] at more
  | nd :: next :: rest => exact ⟨nd, next, rest, rfl⟩

/-- Each round of `PopFrameStreamSort` that gets past its tests is one pop. -/
theorem pop_loop_spec (succeeds : PopsSucceed callback) (rounds invocation : Nat)
    (first : 1 ≤ invocation) (last : invocation + rounds ≤ 3) (consistent : Consistent ssbuf.toSsContent)
    (present : ssbuf.phead ≠ []) : PopsTo ssbuf (popLoop callback rounds invocation ssbuf) := by
  induction rounds generalizing invocation ssbuf with
  | zero => exact pops_to_stop present
  | succ rounds ih =>
      by_cases few : sub32 ssbuf.uiPutFrameCount ssbuf.u32PopFrameCount ≤ 3
      · rw [popLoop, if_pos few]
        exact pops_to_stop present
      by_cases wide : sub32 ssbuf.maxtimestamp ssbuf.mintimestamp > ssbuf.uiSortTime
      · obtain ⟨nd, next, rest, shape⟩ := counted_nodes consistent few
        have deleted := delete_address shape consistent.addresses 0
        have popped := consistent_pop consistent shape
        rw [pop_cons shape] at popped
        have fine : 0 ≤ callback invocation := by
          rcases Nat.lt_or_ge invocation 2 with one | two
          · rw [show invocation = 1 by omega]
            exact succeeds.1
          · rw [show invocation = 2 by omega]
            exact succeeds.2
        obtain ⟨count, after, loop, content, limit, bound⟩ := @ih
          { ssbuf with
            frameaddr := ssbuf.frameaddr.erase nd.position
            premintimestamp := nd.timestamp
            uiValidLen := sub32 ssbuf.uiValidLen nd.len
            phead := next :: rest
            u32PopFrameCount := u32 (ssbuf.u32PopFrameCount + 1)
            mintimestamp := next.timestamp } (invocation + 1) (by omega) (by omega) popped
          (by simp)
        refine ⟨count + 1, after, ?_, ?_, limit, ?_⟩
        · rw [popLoop, if_neg few, if_pos wide]
          simp only [shape, deleted]
          rw [if_neg (by decide), if_neg (by omega), loop, Option.map_some, Outcome.after,
            SsContent.handedOut, SsContent.handedOut, shape, List.take_succ_cons]
          rfl
        · rw [content, SsContent.popMany, pop_cons shape]
        · rw [shape]
          simp only [List.length_cons] at bound ⊢
          omega
      · rw [popLoop, if_neg few, if_neg wide]
        exact pops_to_stop present

end Pops

section Store

variable {content : SsContent} {iframe : SortFrame}

theorem node_le_newest (consistent : Consistent content) {nd : SsNode} (member : nd ∈ content.phead) :
    nd.timestamp ≤ content.maxtimestamp := by
  have nonempty : content.phead ≠ [] := List.ne_nil_of_mem member
  rw [consistent.newest _ (List.getLast?_eq_some_getLast nonempty)]
  have ordered := consistent.ordered
  rw [Ordered, ← List.dropLast_append_getLast nonempty, List.pairwise_append] at ordered
  rw [← List.dropLast_append_getLast nonempty, List.mem_append, List.mem_singleton] at member
  rcases member with before | last
  · exact ordered.2.2 nd before _ (List.mem_singleton_self _)
  · exact Nat.le_of_eq (congrArg SsNode.timestamp last)

theorem oldest_le_newest (consistent : Consistent content) (present : content.phead ≠ []) :
    content.mintimestamp ≤ content.maxtimestamp := by
  obtain ⟨nd, rest, shape⟩ := List.exists_cons_of_ne_nil present
  rw [consistent.oldest nd rest shape]
  exact node_le_newest consistent (by rw [shape]; exact List.mem_cons_self)

theorem store_end (consistent : Consistent content) (present : content.phead ≠ [])
    (newer : content.maxtimestamp ≤ iframe.timestamp) (wpos position : Nat) :
    content.store wpos position iframe =
      { content with
        phead := content.phead ++ [fillTheNode wpos iframe]
        frameaddr := content.frameaddr ++ [wpos]
        uiPutFrameCount := u32 (content.uiPutFrameCount + 1)
        uiValidLen := u32 (content.uiValidLen + iframe.frame_len)
        maxtimestamp := iframe.timestamp
        pdata := copyIn content.pdata wpos iframe.frame iframe.frame_len
        position := position } := by
  have last : insertBy SsNode.timestamp (fillTheNode wpos iframe) content.phead =
      content.phead ++ [fillTheNode wpos iframe] :=
    insert_by_end fun other member => Nat.le_trans (node_le_newest consistent member) newer
  have bounds := oldest_le_newest consistent present
  simp only [SsContent.store, SsContent.insert, last]
  rw [if_neg (by omega), if_pos ⟨present, by omega⟩, if_neg present]

theorem store_head (consistent : Consistent content) (present : content.phead ≠ [])
    (older : iframe.timestamp < content.mintimestamp) (wpos position : Nat) :
    content.store wpos position iframe =
      { content with
        phead := fillTheNode wpos iframe :: content.phead
        frameaddr := content.frameaddr ++ [wpos]
        uiPutFrameCount := u32 (content.uiPutFrameCount + 1)
        uiValidLen := u32 (content.uiValidLen + iframe.frame_len)
        mintimestamp := iframe.timestamp
        pdata := copyIn content.pdata wpos iframe.frame iframe.frame_len
        position := position } := by
  obtain ⟨nd, rest, shape⟩ := List.exists_cons_of_ne_nil present
  have first : insertBy SsNode.timestamp (fillTheNode wpos iframe) content.phead =
      fillTheNode wpos iframe :: content.phead := by
    rw [shape]
    apply insert_by_before
    rw [← consistent.oldest nd rest shape]
    exact older
  have bounds := oldest_le_newest consistent present
  simp only [SsContent.store, SsContent.insert, first]
  rw [if_pos ⟨present, by omega⟩, if_neg (by omega), if_neg present]

/-- The middle insertion links the node where the queue has it. -/
theorem insert_sort_middle_links {nd : SsNode} {nodes : List SsNode} (prev : Option SsNode)
    (front : prev = none → ∀ head rest, nodes = head :: rest → head.timestamp ≤ nd.timestamp)
    (later : ∃ other ∈ nodes, nd.timestamp < other.timestamp) :
    ∃ alatime, insertSortMiddle nd prev nodes =
      some (insertBy SsNode.timestamp nd nodes, alatime) := by
  induction nodes generalizing prev with
  | nil =>
      obtain ⟨other, member, -⟩ := later
      simp at member
  | cons head rest ih =>
      rw [insertSortMiddle]
      split_ifs with le
      · obtain ⟨other, member, greater⟩ := later
        have behind : other ∈ rest := by
          rcases List.mem_cons.mp member with same | behind
          · rw [same] at greater
            omega
          · exact behind
        obtain ⟨alatime, linked⟩ := ih (some head) (fun impossible => by contradiction)
          ⟨other, behind, greater⟩
        refine ⟨alatime, ?_⟩
        rw [linked, insert_by_behind (show SsNode.timestamp head ≤ SsNode.timestamp nd from le)]
        rfl
      · cases prev with
        | none => exact absurd (front rfl head rest rfl) le
        | some before =>
            refine ⟨before.timestamp, ?_⟩
            rw [Option.map_some,
              insert_by_before (show SsNode.timestamp nd < SsNode.timestamp head by omega)]

theorem store_middle (present : content.phead ≠ [])
    (newer : content.mintimestamp ≤ iframe.timestamp)
    (older : iframe.timestamp < content.maxtimestamp) (wpos position : Nat) :
    content.store wpos position iframe =
      { content with
        phead := insertBy SsNode.timestamp (fillTheNode wpos iframe) content.phead
        frameaddr := content.frameaddr ++ [wpos]
        uiPutFrameCount := u32 (content.uiPutFrameCount + 1)
        uiValidLen := u32 (content.uiValidLen + iframe.frame_len)
        pdata := copyIn content.pdata wpos iframe.frame iframe.frame_len
        position := position } := by
  simp only [SsContent.store, SsContent.insert]
  rw [if_pos ⟨present, older⟩, if_pos ⟨present, newer⟩, if_neg present]

theorem store_first (content : SsContent) (iframe : SortFrame)
    (empty : content.phead = [] ∧ content.frameaddr = [] ∧ content.uiPutFrameCount = 0 ∧
      content.uiValidLen = 0) (short : iframe.frame_len < wordSize) (position : Nat) :
    content.store 0 position iframe =
      { content with
        phead := [fillTheNode 0 iframe]
        frameaddr := [0]
        uiPutFrameCount := 1
        uiValidLen := iframe.frame_len
        maxtimestamp := iframe.timestamp
        mintimestamp := iframe.timestamp
        premintimestamp := iframe.timestamp
        pdata := copyIn content.pdata 0 iframe.frame iframe.frame_len
        position := position } := by
  obtain ⟨nodes, addresses, put, valid⟩ := empty
  simp only [SsContent.store, SsContent.insert, nodes, addresses, put, valid, insert_by_nil,
    List.nil_append, Nat.zero_add, u32_of_lt short, ne_eq, not_true_eq_false, false_and, if_false,
    if_true]
  rfl

end Store

section Place

variable {ssbuf : SsBuff} {iframe : SortFrame}

theorem increase_delay_content (ssbuf : SsBuff) (timestamp : Nat) (clock : Clock) :
    (increaseDelay ssbuf timestamp clock).toSsContent = ssbuf.toSsContent ∧
      (increaseDelay ssbuf timestamp clock).uiMaxSortTime = ssbuf.uiMaxSortTime := by
  simp only [increaseDelay]
  split_ifs <;> exact ⟨rfl, rfl⟩

theorem put_first_placed (consistent : Consistent ssbuf.toSsContent) (empty : ssbuf.phead = [])
    (fits : iframe.frame_len < ssbuf.datasize / 2) :
    Places ssbuf iframe (putFirst ssbuf iframe) := by
  obtain ⟨start, put, valid, pop⟩ := consistent.empty empty
  have addresses : ssbuf.frameaddr = [] := by
    have none := consistent.addresses
    rw [empty] at none
    exact List.perm_nil.mp none
  have word := consistent.size.2
  obtain ⟨wpos, position, writes, copied⟩ := memcpy_writes
    { ssbuf.toSsContent with
      uiPutFrameCount := 1
      uiValidLen := iframe.frame_len
      maxtimestamp := iframe.timestamp
      mintimestamp := iframe.timestamp
      premintimestamp := iframe.timestamp } iframe.frame fits
  have origin : wpos = 0 := by
    rcases writes with ⟨-, same, -⟩ | ⟨-, zero, -⟩
    · rw [same]
      exact start
    · exact zero
  subst origin
  have stored := store_first ssbuf.toSsContent iframe ⟨empty, addresses, put, valid⟩ (by omega)
    position
  rw [putFirst, copied]
  refine ⟨_, rfl, Placed.accepted _ 0 position 0 writes ?_ rfl (by omega)
    (fun present => absurd empty present)⟩
  rw [SsContent.popMany, stored, addresses, List.nil_append]

theorem drop_late_placed {clock : Clock} (present : ssbuf.phead ≠ [])
    (older : iframe.timestamp < ssbuf.maxtimestamp) :
    Placed ssbuf.toSsContent ssbuf.uiMaxSortTime iframe (dropLate ssbuf clock) := by
  simp only [dropLate]
  split_ifs
  · exact Placed.cleaned _ rfl rfl present (Or.inl older)
  · exact Placed.dropped _ rfl rfl present older

theorem drop_reversed_placed {clock : Clock} (present : ssbuf.phead ≠ [])
    (older : iframe.timestamp < ssbuf.maxtimestamp) :
    Placed ssbuf.toSsContent ssbuf.uiMaxSortTime iframe
      (dropReversed ssbuf iframe clock) := by
  simp only [dropReversed]
  split_ifs
  · exact Placed.dropped _ (increase_delay_content _ _ _).1 (increase_delay_content _ _ _).2
      present older
  · exact Placed.dropped _ rfl rfl present older

/-- The insertion of a frame that is older than the newest one. -/
theorem insert_late_placed {clock : Clock} (consistent : Consistent ssbuf.toSsContent)
    (present : ssbuf.phead ≠ []) (fits : iframe.frame_len < ssbuf.datasize / 2)
    (older : iframe.timestamp < ssbuf.maxtimestamp)
    (guarded : ssbuf.premintimestamp ≤ iframe.timestamp)
    (punctual : sub32 ssbuf.maxtimestamp iframe.timestamp ≤ ssbuf.uiMaxSortTime) :
    Places ssbuf iframe (insertLate ssbuf iframe clock) := by
  obtain ⟨wpos, position, writes, copied⟩ := memcpy_writes ssbuf.toSsContent iframe.frame fits
  rw [insertLate, copied]
  simp only [Option.bind_eq_bind, Option.bind_some]
  by_cases head : iframe.timestamp < ssbuf.mintimestamp
  · rw [if_pos head]
    have stored := store_head consistent present head wpos position
    refine ⟨_, rfl, Placed.accepted _ wpos position 0 writes ?_ ?_ (by omega)
      fun _ => Or.inr ⟨guarded, punctual⟩⟩
    · rw [SsContent.popMany, stored]
      simp only [increase_delay_content]
    · exact (increase_delay_content _ _ _).2
  · rw [if_neg head]
    have stored := store_middle present (Nat.le_of_not_lt head) older wpos position
    have front : ∀ first rest, ssbuf.phead = first :: rest →
        first.timestamp ≤ (fillTheNode wpos iframe).timestamp := by
      intro first rest shape
      rw [← consistent.oldest first rest shape]
      exact Nat.le_of_not_lt head
    have newest := consistent.newest _ (List.getLast?_eq_some_getLast present)
    have later : ∃ other ∈ ssbuf.phead,
        (fillTheNode wpos iframe).timestamp < other.timestamp :=
      ⟨_, List.getLast_mem present, by rw [← newest]; exact older⟩
    obtain ⟨alatime, linked⟩ := insert_sort_middle_links none (fun _ => front) later
    rw [linked]
    refine ⟨_, rfl, Placed.accepted _ wpos position 0 writes ?_ rfl (by omega)
      fun _ => Or.inr ⟨guarded, punctual⟩⟩
    rw [SsContent.popMany, stored]

theorem put_late_placed {clock : Clock} (consistent : Consistent ssbuf.toSsContent)
    (present : ssbuf.phead ≠ []) (fits : iframe.frame_len < ssbuf.datasize / 2)
    (older : iframe.timestamp < ssbuf.maxtimestamp) :
    Places ssbuf iframe (putLate ssbuf iframe clock) := by
  rw [putLate]
  by_cases late : sub32 ssbuf.maxtimestamp iframe.timestamp > ssbuf.uiMaxSortTime
  · rw [if_pos late]
    exact ⟨_, rfl, drop_late_placed present older⟩
  rw [if_neg late]
  by_cases reversed : ssbuf.premintimestamp > iframe.timestamp
  · refine ⟨_, if_pos reversed, ?_⟩
    exact @drop_reversed_placed { ssbuf with u32LateFrameDrop := 0 } iframe clock present older
  · obtain ⟨outcome, inserted, placed⟩ := @insert_late_placed
      { ssbuf with u32LateFrameDrop := 0 } iframe clock consistent present fits older
      (Nat.le_of_not_lt reversed) (Nat.le_of_not_lt late)
    exact ⟨outcome, (if_neg reversed).trans inserted, placed⟩

/-- Reusing the oldest node for the newest frame is an insertion at the end and a pop. -/
theorem recycled_content {content : SsContent} {oldest next : SsNode} {rest : List SsNode}
    (consistent : Consistent content) (shape : content.phead = oldest :: next :: rest)
    (newer : content.maxtimestamp ≤ iframe.timestamp) (wpos position : Nat) :
    (content.store wpos position iframe).pop =
      { content with
        phead := insertSortEnd (next :: rest) (fillTheNode wpos iframe)
        frameaddr := (content.frameaddr ++ [wpos]).erase oldest.position
        uiPutFrameCount := u32 (content.uiPutFrameCount + 1)
        uiValidLen := u32 (sub32 content.uiValidLen oldest.len + iframe.frame_len)
        maxtimestamp := iframe.timestamp
        mintimestamp := next.timestamp
        premintimestamp := oldest.timestamp
        u32PopFrameCount := u32 (content.u32PopFrameCount + 1)
        pdata := copyIn content.pdata wpos iframe.frame iframe.frame_len
        position := position } := by
  have present : content.phead ≠ [] := by simp [shape]
  have stored := store_end consistent present newer wpos position
  have lengths : sub32 (u32 (content.uiValidLen + iframe.frame_len)) oldest.len =
      u32 (sub32 content.uiValidLen oldest.len + iframe.frame_len) := by
    simp only [sub32, u32, wordSize]
    omega
  have parts : (content.store wpos position iframe).phead =
      oldest :: next :: (rest ++ [fillTheNode wpos iframe]) := by
    rw [stored]
    change content.phead ++ _ = _
    rw [shape, List.cons_append, List.cons_append]
  rw [pop_cons parts, stored]
  simp only [lengths, insertSortEnd, List.cons_append]

theorem append_plain_placed {after : SsBuff} {wpos position : Nat}
    (consistent : Consistent ssbuf.toSsContent) (present : ssbuf.phead ≠ [])
    (newer : ssbuf.maxtimestamp ≤ iframe.timestamp)
    (writes : WritesAt ssbuf.toSsContent iframe.frame_len wpos position)
    (appended : after.toSsContent =
      { ssbuf.toSsContent with
        phead := ssbuf.phead ++ [fillTheNode wpos iframe]
        frameaddr := ssbuf.frameaddr ++ [wpos]
        uiPutFrameCount := u32 (ssbuf.uiPutFrameCount + 1)
        uiValidLen := u32 (ssbuf.uiValidLen + iframe.frame_len)
        maxtimestamp := iframe.timestamp
        pdata := copyIn ssbuf.pdata wpos iframe.frame iframe.frame_len
        position := position })
    (limit : after.uiMaxSortTime = ssbuf.uiMaxSortTime) :
    Placed ssbuf.toSsContent ssbuf.uiMaxSortTime iframe
      ⟨0, after, [.copied ⟨wpos, iframe.frame_len, ssbuf.datasize⟩]⟩ := by
  refine Placed.accepted _ wpos position 0 writes ?_ limit (by omega) fun _ => Or.inl newer
  rw [SsContent.popMany, store_end consistent present newer, appended]

/-- The node that is reused counts as the first pop; those of `PopFrameStreamSort` follow. -/
theorem append_recycled_placed {handed : SsBuff} {oldest next : SsNode} {rest : List SsNode}
    {wpos position : Nat} {result : Option Outcome} (consistent : Consistent ssbuf.toSsContent)
    (shape : ssbuf.phead = oldest :: next :: rest)
    (newer : ssbuf.maxtimestamp ≤ iframe.timestamp)
    (writes : WritesAt ssbuf.toSsContent iframe.frame_len wpos position)
    (recycled : handed.toSsContent = (ssbuf.toSsContent.store wpos position iframe).pop)
    (limit : handed.uiMaxSortTime = ssbuf.uiMaxSortTime) (pops : PopsTo handed result) :
    Places ssbuf iframe (result.map (Outcome.after
      [.copied ⟨wpos, iframe.frame_len, ssbuf.datasize⟩,
        .emitted ((ssbuf.toSsContent.store wpos position iframe).oframe oldest)])) := by
  obtain ⟨count, after, popped, content, sameLimit, few⟩ := pops
  have parts : (ssbuf.toSsContent.store wpos position iframe).phead =
      oldest :: (handed.phead) := by
    rw [recycled, store_end consistent (by simp [shape]) newer]
    simp only [SsContent.pop, shape, List.cons_append]
  have data := (pop_data (ssbuf.toSsContent.store wpos position iframe)).1
  rw [← recycled] at data
  have length : (handed.phead).length = ssbuf.phead.length := by
    have total : (ssbuf.toSsContent.store wpos position iframe).phead.length =
        ssbuf.phead.length + 1 := insert_by_length SsNode.timestamp _ _
    rw [parts, List.length_cons] at total
    omega
  rw [popped]
  refine ⟨_, rfl, ?_⟩
  have events : [Event.copied ⟨wpos, iframe.frame_len, ssbuf.datasize⟩,
        .emitted ((ssbuf.toSsContent.store wpos position iframe).oframe oldest)] ++
          (handed.toSsContent.handedOut count).map Event.emitted =
      .copied ⟨wpos, iframe.frame_len, ssbuf.datasize⟩ ::
        ((ssbuf.toSsContent.store wpos position iframe).handedOut (count + 1)).map
          Event.emitted := by
    have frames : handed.toSsContent.oframe =
        (ssbuf.toSsContent.store wpos position iframe).oframe := by
      funext nd
      simp only [SsContent.oframe, data]
    rw [SsContent.handedOut, SsContent.handedOut, parts, List.take_succ_cons, frames]
    rfl
  rw [Outcome.after, events]
  refine Placed.accepted _ wpos position (count + 1) writes ?_ (sameLimit.trans limit) (by omega)
    fun _ => Or.inl newer
  rw [content, recycled]
  rfl

theorem append_frame_placed {callback : Nat → Int} (succeeds : PopsSucceed callback)
    (consistent : Consistent ssbuf.toSsContent) (present : ssbuf.phead ≠ [])
    (fits : iframe.frame_len < ssbuf.datasize / 2)
    (newer : ssbuf.maxtimestamp ≤ iframe.timestamp) :
    Places ssbuf iframe (appendFrame ssbuf iframe callback) := by
  obtain ⟨wpos, position, writes, copied⟩ := memcpy_writes ssbuf.toSsContent iframe.frame fits
  obtain ⟨oldest, others, shape⟩ := List.exists_cons_of_ne_nil present
  rw [appendFrame, copied]
  simp only [Option.bind_eq_bind, Option.bind_some]
  cases others with
  | nil =>
      simp only [shape]
      refine ⟨_, rfl, append_plain_placed consistent present newer writes ?_ rfl⟩
      simp only [SsBuff.append, insertSortEnd, shape]
      rfl
  | cons next rest =>
      simp only [shape]
      by_cases wide : sub32 iframe.timestamp ssbuf.mintimestamp > ssbuf.uiSortTime
      · rw [if_pos wide, move_address shape consistent.addresses]
        simp only [Option.bind_some]
        rw [if_neg (by decide)]
        have recycled := recycled_content consistent shape newer wpos position
        have kept := consistent_pop (store_consistent consistent wpos position iframe) <| by
          rw [store_end consistent present newer, shape]
          rfl
        rw [recycled] at kept
        refine append_recycled_placed consistent shape newer writes ?_ ?_
          (pop_loop_spec succeeds 2 1 (Nat.le_refl 1) (Nat.le_refl 3) ?_ ?_)
        · exact recycled.symm
        · rfl
        · exact kept
        · simp [SsBuff.append, insertSortEnd]
      · rw [if_neg wide]
        refine ⟨_, rfl, append_plain_placed consistent present newer writes ?_ rfl⟩
        simp only [SsBuff.append, insertSortEnd, shape]
        rfl

theorem put_early_placed {clock : Clock} {callback : Nat → Int}
    (succeeds : PopsSucceed callback) (consistent : Consistent ssbuf.toSsContent)
    (present : ssbuf.phead ≠ []) (fits : iframe.frame_len < ssbuf.datasize / 2)
    (newer : ssbuf.maxtimestamp ≤ iframe.timestamp) :
    Places ssbuf iframe (putEarly ssbuf iframe clock callback) := by
  by_cases early : sub32 iframe.timestamp ssbuf.maxtimestamp ≥ ssbuf.uiMaxSortTime
  · simp only [putEarly, if_pos early]
    split_ifs
    · exact ⟨_, rfl, Placed.cleaned _ rfl rfl present (Or.inr early)⟩
    · exact @append_frame_placed
        { ssbuf with
          u32EarlyFrameCount := u32 (ssbuf.u32EarlyFrameCount + 1)
          u32EarlyFrameDrop := u32 (ssbuf.u32EarlyFrameDrop + 1) }
        iframe callback succeeds consistent present fits newer
  · simp only [putEarly, if_neg early]
    exact @append_frame_placed { ssbuf with u32EarlyFrameDrop := 0 } iframe callback succeeds
      consistent present fits newer

end Place

/-- Everything `CheckStreambuff` can do. -/
inductive Checked (before : SsBuff) (frame_len : Nat) : SsBuff → List Event → Prop
  | kept (after : SsBuff) (same : after.toSsContent = before.toSsContent)
      (limit : after.uiMaxSortTime = before.uiMaxSortTime)
      (free : before.unchecked = true ∨ before.tooLong frame_len = false) :
      Checked before frame_len after []
  | cleaned (after : SsBuff) (clean : after.toSsContent = cleanContent before.toSsContent)
      (limit : after.uiMaxSortTime = before.uiMaxSortTime) (checked : before.unchecked = false)
      (close : before.tooLong frame_len = true) (big : MAX_SORT_BUFF_LEN < before.datasize) :
      Checked before frame_len after [.cleaned]
  | grown (after : SsBuff)
      (move : after.toSsContent = before.toSsContent.moved (before.datasize * 3 / 2))
      (limit : after.uiMaxSortTime = before.uiMaxSortTime) (checked : before.unchecked = false)
      (close : before.tooLong frame_len = true) (small : before.datasize ≤ MAX_SORT_BUFF_LEN) :
      Checked before frame_len after
        ((moveNodes before.toSsContent (before.datasize * 3 / 2) (fun _ => 0) 0
          before.phead).copies ++ [.remalloced])

section Check

variable {ssbuf : SsBuff} {frame_len : Nat} {clock : Clock}

theorem analyse_content (ssbuf : SsBuff) (tdef : Nat) :
    (ssbuf.analyse tdef).toSsContent = ssbuf.toSsContent ∧
      (ssbuf.analyse tdef).uiMaxSortTime = ssbuf.uiMaxSortTime := by
  simp only [SsBuff.analyse]
  split_ifs <;> exact ⟨rfl, rfl⟩

theorem note_freesize_content (ssbuf : SsBuff) (earliest willposi_e : Nat) :
    (ssbuf.noteFreesize earliest willposi_e).toSsContent = ssbuf.toSsContent ∧
      (ssbuf.noteFreesize earliest willposi_e).uiMaxSortTime = ssbuf.uiMaxSortTime := by
  simp only [SsBuff.noteFreesize]
  split_ifs <;> exact ⟨rfl, rfl⟩

/-- The analysis just before has set `analytime`, so the buffer is never found too big. -/
theorem shrink_never (ssbuf : SsBuff) (clock : Clock) :
    (ssbuf.analyse clock.tdef).shrink clock = (ssbuf.analyse clock.tdef, []) := by
  rw [SsBuff.shrink, if_neg]
  by_cases due : sub64 clock.tdef ssbuf.analytime ≥ 300
  · rw [SsBuff.analyse, if_pos due]
    change ¬sub64 clock.tdef clock.tdef ≥ 900
    simp only [sub64]
    omega
  · rw [SsBuff.analyse, if_neg due]
    omega

theorem make_room_checked {before : SsBuff} (size : MIM_SORT_BUFF_LEN ≤ before.datasize)
    (limit : DEFAULT_SORT_TIME ≤ before.uiMaxSortTime)
    (same : ssbuf.toSsContent = before.toSsContent)
    (sameLimit : ssbuf.uiMaxSortTime = before.uiMaxSortTime)
    (checked : before.unchecked = false) (close : before.tooLong frame_len = true) :
    ∃ after events, ssbuf.makeRoom clock = some (after, events) ∧
      Checked before frame_len after events := by
  rw [SsBuff.makeRoom, same]
  by_cases big : before.datasize > MAX_SORT_BUFF_LEN
  · rw [if_pos big]
    refine ⟨_, _, rfl, Checked.cleaned _ ?_ sameLimit checked close big⟩
    rw [← same]
    rfl
  · rw [if_neg big]
    have word : u32 (before.datasize * 3) = before.datasize * 3 := by
      apply u32_of_lt
      simp only [MAX_SORT_BUFF_LEN] at big
      simp only [wordSize]
      omega
    rw [word, remallocSortBuff, pCreateStreamSort, if_neg (show ¬before.datasize * 3 / 2 <
      MIM_SORT_BUFF_LEN by omega), Option.map_some]
    simp only [same]
    refine ⟨_, _, rfl, Checked.grown _ rfl ?_ checked close (by omega)⟩
    change (if ssbuf.uiMaxSortTime < DEFAULT_SORT_TIME then DEFAULT_SORT_TIME
      else ssbuf.uiMaxSortTime) = _
    rw [if_neg (by omega), sameLimit]

theorem check_spec (size : MIM_SORT_BUFF_LEN ≤ ssbuf.datasize)
    (limit : DEFAULT_SORT_TIME ≤ ssbuf.uiMaxSortTime) :
    ∃ after events, checkStreambuff ssbuf frame_len clock = some (after, events) ∧
      Checked ssbuf frame_len after events := by
  rw [checkStreambuff]
  by_cases unchecked : ssbuf.unchecked = true
  · rw [if_pos unchecked]
    exact ⟨_, _, rfl, Checked.kept _ rfl rfl (Or.inl unchecked)⟩
  rw [if_neg unchecked]
  simp only
  rw [shrink_never]
  by_cases close : ssbuf.tooLong frame_len = true
  · rw [if_pos close, if_pos close]
    have checked : ssbuf.unchecked = false := by simpa using unchecked
    split_ifs
    · exact make_room_checked size limit (analyse_content _ _).1 (analyse_content _ _).2 checked
        close
    · exact make_room_checked size limit rfl rfl checked close
  · rw [if_neg close, if_neg close]
    have free : ssbuf.tooLong frame_len = false := by simpa using close
    split_ifs
    · refine ⟨_, _, rfl, Checked.kept _ ?_ ?_ (Or.inr free)⟩
      · rw [(note_freesize_content _ _ _).1, (analyse_content _ _).1]
      · rw [(note_freesize_content _ _ _).2, (analyse_content _ _).2]
    · exact ⟨_, _, rfl, Checked.kept _ (note_freesize_content _ _ _).1
        (note_freesize_content _ _ _).2 (Or.inr free)⟩

end Check

/-- Everything one call can do. -/
inductive PutSpec (ssbuf : SsBuff) (iframe : SortFrame) : Outcome → Prop
  | tooBig (big : ssbuf.datasize / 2 ≤ iframe.frame_len) : PutSpec ssbuf iframe ⟨-1, ssbuf, []⟩
  | placed (checked : SsBuff) (events : List Event) (outcome : Outcome)
      (fits : iframe.frame_len < ssbuf.datasize / 2)
      (check : Checked ssbuf iframe.frame_len checked events)
      (place : Placed checked.toSsContent checked.uiMaxSortTime iframe outcome) :
      PutSpec ssbuf iframe (outcome.after events)

structure SorterInvariant (ssbuf : SsBuff) : Prop where
  consistent : Consistent ssbuf.toSsContent
  limit : DEFAULT_SORT_TIME ≤ ssbuf.uiMaxSortTime

section Call

variable {ssbuf checked : SsBuff} {iframe : SortFrame} {events : List Event}

/-- The check only looks at sorters that hold a frame. -/
theorem checked_present (consistent : Consistent ssbuf.toSsContent)
    (looked : ssbuf.unchecked = false) : ssbuf.phead ≠ [] := by
  intro empty
  have none := consistent.addresses
  rw [empty] at none
  have addresses : ssbuf.frameaddr = [] := List.perm_nil.mp none
  rw [SsBuff.unchecked, addresses] at looked
  simp at looked

theorem checked_invariant {frame_len : Nat} (invariant : SorterInvariant ssbuf)
    (check : Checked ssbuf frame_len checked events) :
    SorterInvariant checked ∧ ssbuf.datasize ≤ checked.datasize := by
  obtain ⟨consistent, sortLimit⟩ := invariant
  cases check with
  | kept same limit free =>
      refine ⟨⟨?_, by omega⟩, ?_⟩
      · rw [same]
        exact consistent
      · rw [same]
  | cleaned clean limit looked close big =>
      refine ⟨⟨?_, by omega⟩, ?_⟩
      · rw [clean]
        exact clean_consistent consistent
      · rw [clean]
        exact Nat.le_refl _
  | grown move limit looked close small =>
      have size := consistent.size.1
      simp only [MAX_SORT_BUFF_LEN] at small
      refine ⟨⟨?_, by omega⟩, ?_⟩
      · rw [move]
        apply moved_consistent consistent (checked_present consistent looked)
        simp only [wordSize]
        omega
      · rw [move]
        change ssbuf.datasize ≤ ssbuf.datasize * 3 / 2
        omega

theorem put_spec {clock : Clock} {callback : Nat → Int} (invariant : SorterInvariant ssbuf)
    (iframe : SortFrame) (succeeds : PopsSucceed callback) :
    ∃ outcome, putFrameStreamSort ssbuf iframe clock callback = some outcome ∧
      PutSpec ssbuf iframe outcome := by
  rw [putFrameStreamSort]
  by_cases big : ssbuf.datasize / 2 ≤ iframe.frame_len
  · rw [if_pos big]
    exact ⟨_, rfl, PutSpec.tooBig big⟩
  rw [if_neg big]
  obtain ⟨checked, events, checkResult, check⟩ :=
    @check_spec ssbuf iframe.frame_len clock invariant.consistent.size.1 invariant.limit
  obtain ⟨⟨consistent, limit⟩, grows⟩ := checked_invariant invariant check
  have fits : iframe.frame_len < checked.datasize / 2 := by omega
  rw [checkResult]
  simp only [Option.bind_eq_bind, Option.bind_some]
  have placed : Places checked iframe (placeFrame checked iframe clock callback) := by
    rw [placeFrame]
    split_ifs with empty older
    · exact put_first_placed consistent empty fits
    · exact put_late_placed consistent empty fits older
    · exact put_early_placed succeeds consistent empty fits (Nat.le_of_not_lt older)
  obtain ⟨outcome, result, place⟩ := placed
  rw [result]
  exact ⟨_, rfl, PutSpec.placed checked events outcome (by omega) check place⟩

theorem placed_invariant {outcome : Outcome} (invariant : SorterInvariant checked)
    (place : Placed checked.toSsContent checked.uiMaxSortTime iframe outcome) :
    SorterInvariant outcome.ssbuf := by
  obtain ⟨consistent, sortLimit⟩ := invariant
  cases place with
  | dropped after same limit present late =>
      exact ⟨by rw [same]; exact consistent, by change _ ≤ after.uiMaxSortTime; omega⟩
  | cleaned after clean limit present far =>
      exact ⟨by rw [clean]; exact clean_consistent consistent,
        by change _ ≤ after.uiMaxSortTime; omega⟩
  | accepted after wpos position count writes stored limit few inOrder =>
      refine ⟨?_, by change _ ≤ after.uiMaxSortTime; omega⟩
      rw [stored]
      have length : (checked.toSsContent.store wpos position iframe).phead.length =
          checked.phead.length + 1 := insert_by_length SsNode.timestamp _ _
      exact (pop_many_spec count (store_consistent consistent wpos position iframe)
        (by omega)).1

theorem put_invariant {outcome : Outcome} (invariant : SorterInvariant ssbuf)
    (spec : PutSpec ssbuf iframe outcome) : SorterInvariant outcome.ssbuf := by
  cases spec with
  | tooBig big => exact invariant
  | placed checked events outcome fits check place =>
      change SorterInvariant outcome.ssbuf
      exact placed_invariant (checked_invariant invariant check).1 place

end Call

theorem created_invariant {info : RegisterSortInfo} {freetime analytime : Nat} {ssbuf : SsBuff}
    (word : info.uiSize < wordSize)
    (created : pCreateStreamSort info freetime analytime = some ssbuf) : SorterInvariant ssbuf := by
  rw [pCreateStreamSort] at created
  split_ifs at created with small
  obtain rfl := Option.some.inj created
  refine ⟨⟨List.Perm.refl _, rfl, show sub32 0 0 = u32 0 from rfl, List.Pairwise.nil,
    fun _ _ impossible => by contradiction, fun _ impossible => by contradiction,
    fun _ => ⟨rfl, rfl, rfl, rfl⟩, Nat.le_of_not_lt small, word⟩, ?_⟩
  change DEFAULT_SORT_TIME ≤ if info.uiMaxSortTime < DEFAULT_SORT_TIME then DEFAULT_SORT_TIME
    else info.uiMaxSortTime
  split_ifs <;> omega

end Mgw.StreamSort

import Mgw.ByteArea
import Mgw.CodecDef
import Mgw.WordArithmetic

/-!
# The sorter of `stream_sort.c`

Frames are kept in a list ordered by timestamp and their payloads in a ring of
`datasize` bytes in which a payload is never split. A second list holds the
start addresses of the live payloads in the order in which they were placed.
Node positions are offsets from `pdata`; `calloc` succeeds.
-/

namespace Mgw.StreamSort

open ByteArea CodecDef WordArithmetic

set_option autoImplicit false

def DEFAULT_SORT_TIME : Nat := 1000000
def MAX_SORT_BUFF_LEN : Nat := 8388608
def MIM_SORT_BUFF_LEN : Nat := 1048576

/-- `sc_sortframe`: what is put in, and what `Datacallback` is given. -/
structure SortFrame where
  frame : Bytes
  frame_len : Nat
  timestamp : Nat
  frametype : FrameType
  priority : Int

structure SsNode where
  position : Nat
  len : Nat
  timestamp : Nat
  frametype : FrameType
  priority : Int
  deriving DecidableEq

/-- The lists, the data area and the counters that go with them. The list
`frameaddr` is the circular list read from its head on. -/
structure SsContent where
  phead : List SsNode
  frameaddr : List Nat
  datasize : Nat
  pdata : Bytes
  position : Nat
  uiPutFrameCount : Nat
  uiValidLen : Nat
  maxtimestamp : Nat
  mintimestamp : Nat
  premintimestamp : Nat
  u32PopFrameCount : Nat

/-- `SC_ssbuff`: the content with what tunes the sort time and the buffer size. -/
structure SsBuff extends SsContent where
  uiSortTime : Nat
  uiSortTimeBak : Nat
  uiMaxSortTime : Nat
  uiAnalyTime : Nat
  u32LateFrameCount : Nat
  u32EarlyFrameCount : Nat
  u32EarlyFrameDrop : Nat
  u32LateFrameDrop : Nat
  freesize : Nat
  freetime : Nat
  analytime : Nat

/-- One `memcpy` into the data area of `size` bytes. -/
structure Copy where
  offset : Nat
  len : Nat
  size : Nat
  deriving DecidableEq

/-- What a call does besides changing the sorter. -/
inductive Event where
  | copied (copy : Copy)
  | emitted (oframe : SortFrame)
  | remalloced
  | cleaned

/-- The results of `time` at the places that read the clock. -/
structure Clock where
  tdef : Nat
  nowtime : Nat
  remallocFreetime : Nat
  remallocAnalytime : Nat
  cleanFreetime : Nat
  cleanAnalytime : Nat

def Clock.frozen (now : Nat) : Clock := ⟨now, now, now, now, now, now⟩

structure RegisterSortInfo where
  uiSize : Nat
  uiSortTime : Nat
  uiMaxSortTime : Nat

/-- A difference of two `time` values, both `unsigned long long`. -/
def sub64 (left right : Nat) : Nat :=
  (18446744073709551616 - right % 18446744073709551616 + left) % 18446744073709551616

def defaultStreamSortBuff (uiSize uiSortTime uiMaxSortTime freetime analytime : Nat) : SsBuff where
  phead := []
  frameaddr := []
  datasize := uiSize
  pdata := fun _ => 0
  position := 0
  uiPutFrameCount := 0
  uiValidLen := 0
  maxtimestamp := 0
  mintimestamp := 0
  premintimestamp := 0
  u32PopFrameCount := 0
  uiSortTime := uiSortTime
  uiSortTimeBak := uiSortTime
  uiMaxSortTime := if uiMaxSortTime < DEFAULT_SORT_TIME then DEFAULT_SORT_TIME else uiMaxSortTime
  uiAnalyTime := 0
  u32LateFrameCount := 0
  u32EarlyFrameCount := 0
  u32EarlyFrameDrop := 0
  u32LateFrameDrop := 0
  freesize := uiSize
  freetime := freetime
  analytime := analytime

def pCreateStreamSort (info : RegisterSortInfo) (freetime analytime : Nat) : Option SsBuff :=
  if info.uiSize < MIM_SORT_BUFF_LEN then none
  else some (defaultStreamSortBuff info.uiSize info.uiSortTime info.uiMaxSortTime freetime analytime)

/-- `FillTheNode`. -/
def fillTheNode (position : Nat) (iframe : SortFrame) : SsNode where
  position := position
  len := iframe.frame_len
  timestamp := iframe.timestamp
  frametype := iframe.frametype
  priority := iframe.priority

/-- The loop of `InsertSortMiddle` behind the node `prev`, with its result
`alatime`. The new node is not linked when no later one is found; in front of
the head there is no previous node to link it to. -/
def insertSortMiddle (nd : SsNode) (prev : Option SsNode) :
    List SsNode → Option (List SsNode × Nat)
  | [] => some ([], 0)
  | p :: rest =>
      if p.timestamp ≤ nd.timestamp then
        (insertSortMiddle nd (some p) rest).map fun linked => (p :: linked.1, linked.2)
      else prev.map fun before => (nd :: p :: rest, before.timestamp)

def insertSortEnd (head : List SsNode) (nd : SsNode) : List SsNode := head ++ [nd]

/-- `MemcpyToSortBuff`: the offset of the copy and the sorter after it; `none`
where the `assert` fails. -/
def memcpyToSortBuff (ssbuf : SsContent) (pframe : Bytes) (frame_len : Nat) :
    Option (Nat × SsContent) :=
  if u32 (ssbuf.position + frame_len) ≤ ssbuf.datasize then
    let position := u32 (ssbuf.position + frame_len)
    some (ssbuf.position,
      { ssbuf with
        pdata := copyIn ssbuf.pdata ssbuf.position pframe frame_len
        position := if position = ssbuf.datasize then 0 else position })
  else if frame_len > ssbuf.position then none
  else
    some (0,
      { ssbuf with
        pdata := copyIn ssbuf.pdata 0 pframe frame_len
        position := frame_len })

def cleanContent (ssbuf : SsContent) : SsContent :=
  { ssbuf with
    phead := []
    frameaddr := []
    position := 0
    uiValidLen := 0
    uiPutFrameCount := 0
    maxtimestamp := 0
    mintimestamp := 0
    premintimestamp := 0
    u32PopFrameCount := 0 }

def cleanSortBuff (pssbuf : SsBuff) (clock : Clock) : SsBuff :=
  { pssbuf with
    toSsContent := cleanContent pssbuf.toSsContent
    u32LateFrameCount := 0
    u32EarlyFrameCount := 0
    uiAnalyTime := 0
    freesize := pssbuf.datasize
    freetime := clock.cleanFreetime
    analytime := clock.cleanAnalytime
    uiSortTime := pssbuf.uiSortTimeBak }

/-- The copies of one payload into the new data area at `position`: in two parts
when it runs over the end of the old one. -/
def remallocCopy (ssbuf : SsContent) (newpdata : Bytes) (newsize position : Nat) (pnode : SsNode) :
    Bytes × List Event :=
  if ssbuf.datasize < pnode.position + pnode.len then
    let left := ssbuf.datasize - pnode.position
    let len := pnode.len - left
    (copyIn (copyIn newpdata position (advance ssbuf.pdata pnode.position) left)
        (position + left) ssbuf.pdata len,
      [.copied ⟨position, left, newsize⟩, .copied ⟨position + left, len, newsize⟩])
  else
    (copyIn newpdata position (advance ssbuf.pdata pnode.position) pnode.len,
      [.copied ⟨position, pnode.len, newsize⟩])

/-- The nodes, the addresses, the data area and the position that the loop of
`RemallocSortBuff` leaves. -/
structure Moved where
  phead : List SsNode
  addresses : List Nat
  pdata : Bytes
  position : Nat
  copies : List Event

def moveNodes (ssbuf : SsContent) (newsize : Nat) (newpdata : Bytes) (position : Nat) :
    List SsNode → Moved
  | [] => { phead := [], addresses := [], pdata := newpdata, position := position, copies := [] }
  | pnode :: rest =>
      let copy := remallocCopy ssbuf newpdata newsize position pnode
      let moved := moveNodes ssbuf newsize copy.1 (u32 (position + pnode.len)) rest
      { moved with
        phead := { pnode with position := position } :: moved.phead
        addresses := position :: moved.addresses
        copies := copy.2 ++ moved.copies }

/-- The walk around the address list that gives the addresses out in turn. -/
def assignAddresses (frameaddr : List Nat) : Nat → List Nat → List Nat
  | _, [] => frameaddr
  | index, address :: rest =>
      assignAddresses (frameaddr.set (index % frameaddr.length) address) (index + 1) rest

/-- `RemallocSortBuff`, which is called with a non-empty address list only.
`premintimestamp` and the two drop counters are not among the fields copied. -/
def remallocSortBuff (ssbuf : SsBuff) (uiSize : Nat) (clock : Clock) :
    Option (SsBuff × List Event) :=
  (pCreateStreamSort ⟨uiSize, ssbuf.uiSortTime, ssbuf.uiMaxSortTime⟩
      clock.remallocFreetime clock.remallocAnalytime).map fun newssbuf =>
    let moved := moveNodes ssbuf.toSsContent uiSize newssbuf.pdata 0 ssbuf.phead
    ({ newssbuf with
        phead := moved.phead
        frameaddr := assignAddresses ssbuf.frameaddr 0 moved.addresses
        pdata := moved.pdata
        position := moved.position
        uiPutFrameCount := ssbuf.uiPutFrameCount
        uiValidLen := ssbuf.uiValidLen
        maxtimestamp := ssbuf.maxtimestamp
        mintimestamp := ssbuf.mintimestamp
        u32PopFrameCount := ssbuf.u32PopFrameCount
        u32EarlyFrameCount := ssbuf.u32EarlyFrameCount
        u32LateFrameCount := ssbuf.u32LateFrameCount
        uiAnalyTime := ssbuf.uiAnalyTime
        freesize := sub32 uiSize moved.position
        uiSortTimeBak := ssbuf.uiSortTimeBak
        freetime := clock.remallocFreetime
        analytime := clock.remallocAnalytime },
      moved.copies ++ [.remalloced])

/-- `CFrameaddrList`; `none` where it follows a null pointer or frees the only
entry while the head still points to it. -/
def cFrameaddrList (had : List Nat) (iposition oposition : Nat) : Nat → Option (Int × List Nat)
  | 0 => some (0, had ++ [iposition])
  | 1 =>
      if had = [] then none
      else if oposition ∈ had then some (0, had.erase oposition ++ [iposition])
      else some (-2, had)
  | _ =>
      if had = [] then none
      else if oposition ∈ had then
        if had.length = 1 then none else some (0, had.erase oposition)
      else some (-2, had)

namespace SsBuff

variable (ssbuf : SsBuff)

/-- `CheckStreambuff` does nothing for the first frames. -/
def unchecked : Bool := ssbuf.frameaddr = [] || ssbuf.uiPutFrameCount ≤ 2

def earliest : Nat := ssbuf.frameaddr.headD 0

/-- The test whether the write would get to the earliest live address. -/
def tooLong (frame_len : Nat) : Bool :=
  let willposi_e := u32 (ssbuf.position + frame_len)
  if willposi_e ≤ ssbuf.datasize then
    ssbuf.position ≤ ssbuf.earliest && ssbuf.earliest ≤ willposi_e
  else ssbuf.position ≤ ssbuf.earliest || ssbuf.earliest ≤ frame_len

def wraps (frame_len : Nat) : Bool := ssbuf.datasize < u32 (ssbuf.position + frame_len)

/-- The analysis of the sort time, at most every five minutes. -/
def analyse (tdef : Nat) : SsBuff :=
  if sub64 tdef ssbuf.analytime ≥ 300 then
    let uiSortTime :=
      if ssbuf.uiAnalyTime < ssbuf.uiSortTime ∧ 0 < ssbuf.uiAnalyTime then
        let defTime := ssbuf.uiSortTime - ssbuf.uiAnalyTime
        let lowered := if defTime > 200000 then sub32 ssbuf.uiSortTime 200000 else ssbuf.uiSortTime
        let lowered := if defTime > 100000 then sub32 lowered 100000 else ssbuf.uiAnalyTime
        if lowered < ssbuf.uiSortTimeBak then ssbuf.uiSortTimeBak else lowered
      else ssbuf.uiSortTime
    { ssbuf with uiSortTime := uiSortTime, uiAnalyTime := 0, analytime := tdef }
  else ssbuf

/-- The check for a buffer that is too big, every fifteen minutes. -/
def shrink (clock : Clock) : SsBuff × List Event :=
  if sub64 clock.tdef ssbuf.analytime ≥ 900 then
    let timed := { ssbuf with freetime := clock.tdef }
    let newsize := ssbuf.datasize / 2
    if MIM_SORT_BUFF_LEN < newsize ∧ ssbuf.freesize > newsize then
      (remallocSortBuff timed newsize clock).getD (timed, [])
    else (timed, [])
  else (ssbuf, [])

/-- The new estimate of the free size. -/
def noteFreesize (earliest willposi_e : Nat) : SsBuff :=
  let freesize :=
    if earliest < willposi_e then u32 (sub32 ssbuf.datasize willposi_e + earliest)
    else if earliest > willposi_e then earliest - willposi_e
    else ssbuf.freesize
  if ssbuf.freesize > freesize then { ssbuf with freesize := freesize } else ssbuf

/-- A buffer that is too small is cleaned or replaced by a larger one. -/
def makeRoom (clock : Clock) : Option (SsBuff × List Event) :=
  if ssbuf.datasize > MAX_SORT_BUFF_LEN then some (cleanSortBuff ssbuf clock, [.cleaned])
  else remallocSortBuff ssbuf (u32 (ssbuf.datasize * 3) / 2) clock

end SsBuff

/-- `CheckStreambuff`; `none` where the new buffer is not created and the caller
goes on with a null pointer. -/
def checkStreambuff (ssbuf : SsBuff) (frame_len : Nat) (clock : Clock) :
    Option (SsBuff × List Event) :=
  if ssbuf.unchecked then some (ssbuf, [])
  else
    let earliest := ssbuf.earliest
    let tooLong := ssbuf.tooLong frame_len
    if ssbuf.wraps frame_len then
      let analysed := ssbuf.analyse clock.tdef
      if tooLong then analysed.makeRoom clock
      else
        let shrunk := analysed.shrink clock
        some (shrunk.1.noteFreesize earliest frame_len, shrunk.2)
    else if tooLong then ssbuf.makeRoom clock
    else some (ssbuf.noteFreesize earliest (u32 (ssbuf.position + frame_len)), [])

/-- What one call returns, leaves and does. -/
structure Outcome where
  ret : Int
  ssbuf : SsBuff
  events : List Event

def Outcome.after (events : List Event) (outcome : Outcome) : Outcome :=
  { outcome with events := events ++ outcome.events }

/-- The frame handed to `Datacallback` for a node. -/
def SsContent.oframe (ssbuf : SsContent) (nd : SsNode) : SortFrame where
  frame := advance ssbuf.pdata nd.position
  frame_len := nd.len
  timestamp := nd.timestamp
  frametype := nd.frametype
  priority := nd.priority

/-- The remaining rounds of `PopFrameStreamSort`; `invocation` counts the calls of
`Datacallback`. -/
def popLoop (callback : Nat → Int) : Nat → Nat → SsBuff → Option Outcome
  | 0, _, ssbuf => some ⟨0, ssbuf, []⟩
  | rounds + 1, invocation, ssbuf =>
      if sub32 ssbuf.uiPutFrameCount ssbuf.u32PopFrameCount ≤ 3 then some ⟨0, ssbuf, []⟩
      else if sub32 ssbuf.maxtimestamp ssbuf.mintimestamp > ssbuf.uiSortTime then
        match ssbuf.phead with
        | [] => none
        | nd :: rest =>
            match cFrameaddrList ssbuf.frameaddr 0 nd.position 2 with
            | none => none
            | some (ret, frameaddr) =>
                if ret < 0 then some ⟨0, ssbuf, []⟩
                else
                  let handed : SsBuff :=
                    { ssbuf with frameaddr := frameaddr, premintimestamp := nd.timestamp }
                  let event : Event := .emitted (ssbuf.oframe nd)
                  -- the address is gone already, the node and the counters are not
                  if callback invocation < 0 then some ⟨callback invocation, handed, [event]⟩
                  else
                    match rest with
                    | [] => none
                    | next :: _ =>
                        (popLoop callback rounds (invocation + 1)
                          { handed with
                            uiValidLen := sub32 ssbuf.uiValidLen nd.len
                            phead := rest
                            u32PopFrameCount := u32 (ssbuf.u32PopFrameCount + 1)
                            mintimestamp := next.timestamp }).map (Outcome.after [event])
      else some ⟨0, ssbuf, []⟩

def popFrameStreamSort (callback : Nat → Int) (invocation : Nat) (ssbuf : SsBuff) :
    Option Outcome :=
  popLoop callback 2 invocation ssbuf

/-- The longer sort time after a frame that is older than the oldest one kept. -/
def increaseDelay (ssbuf : SsBuff) (timestamp : Nat) (clock : Clock) : SsBuff :=
  let timedef := sub32 ssbuf.mintimestamp timestamp
  if u32 (ssbuf.uiSortTime + timedef) < ssbuf.uiMaxSortTime then
    { ssbuf with
      uiSortTime := u32 (ssbuf.uiSortTime + if timedef > 60000 then 20000 else timedef)
      analytime := clock.nowtime
      uiAnalyTime := 0 }
  else ssbuf

/-- `PutFrameStreamSort` on an empty sorter. -/
def putFirst (ssbuf : SsBuff) (iframe : SortFrame) : Option Outcome :=
  let counted : SsBuff :=
    { ssbuf with
      uiPutFrameCount := 1
      uiValidLen := iframe.frame_len
      maxtimestamp := iframe.timestamp
      mintimestamp := iframe.timestamp
      premintimestamp := iframe.timestamp }
  (memcpyToSortBuff counted.toSsContent iframe.frame iframe.frame_len).map fun (wpos, copied) =>
    { ret := 0
      ssbuf :=
        { counted with
          toSsContent :=
            { copied with
              -- the frame is taken to be at the start of the data area
              phead := [fillTheNode 0 iframe]
              frameaddr := ssbuf.frameaddr ++ [0] } }
      events := [.copied ⟨wpos, iframe.frame_len, ssbuf.datasize⟩] }

/-- A frame older than `maxtimestamp` by more than the longest sort time. -/
def dropLate (ssbuf : SsBuff) (clock : Clock) : Outcome :=
  let counted : SsBuff :=
    { ssbuf with
      u32LateFrameCount := u32 (ssbuf.u32LateFrameCount + 1)
      u32LateFrameDrop := u32 (ssbuf.u32LateFrameDrop + 1) }
  if counted.u32LateFrameDrop > 60 then ⟨-1, cleanSortBuff counted clock, [.cleaned]⟩
  else ⟨-1, counted, []⟩

/-- A frame older than the last one that was handed out. -/
def dropReversed (ssbuf : SsBuff) (iframe : SortFrame) (clock : Clock) : Outcome :=
  let counted : SsBuff :=
    { ssbuf with
      u32LateFrameCount := u32 (ssbuf.u32LateFrameCount + 1)
      u32LateFrameDrop := u32 (ssbuf.u32LateFrameDrop + 1) }
  if iframe.timestamp < counted.mintimestamp then
    ⟨-1, increaseDelay counted iframe.timestamp clock, []⟩
  else ⟨-1, counted, []⟩

/-- The insertion of a frame between the oldest and the newest one, or before the oldest. -/
def insertLate (ssbuf : SsBuff) (iframe : SortFrame) (clock : Clock) : Option Outcome := do
  let (position, copied) ← memcpyToSortBuff ssbuf.toSsContent iframe.frame iframe.frame_len
  let nd := fillTheNode position iframe
  let stored : SsBuff :=
    { ssbuf with
      toSsContent :=
        { copied with
          frameaddr := ssbuf.frameaddr ++ [position]
          uiValidLen := u32 (ssbuf.uiValidLen + iframe.frame_len)
          uiPutFrameCount := u32 (ssbuf.uiPutFrameCount + 1) } }
  let event : Event := .copied ⟨position, iframe.frame_len, ssbuf.datasize⟩
  if iframe.timestamp < stored.mintimestamp then
    let delayed := increaseDelay stored iframe.timestamp clock
    some ⟨0,
      { delayed with phead := nd :: stored.phead, mintimestamp := iframe.timestamp }, [event]⟩
  else
    let (phead, alatime) ← insertSortMiddle nd none stored.phead
    let timedef := sub32 stored.maxtimestamp alatime
    let uiAnalyTime :=
      if alatime ≠ 0 ∧ stored.uiAnalyTime < timedef then timedef else stored.uiAnalyTime
    some ⟨0, { stored with phead := phead, uiAnalyTime := uiAnalyTime }, [event]⟩

def putLate (ssbuf : SsBuff) (iframe : SortFrame) (clock : Clock) : Option Outcome :=
  if sub32 ssbuf.maxtimestamp iframe.timestamp > ssbuf.uiMaxSortTime then some (dropLate ssbuf clock)
  else
    let punctual := { ssbuf with u32LateFrameDrop := 0 }
    if punctual.premintimestamp > iframe.timestamp then some (dropReversed punctual iframe clock)
    else insertLate punctual iframe clock

/-- The new frame at the end of the list, with `frameaddr` already updated. -/
def SsBuff.append (ssbuf : SsBuff) (nd : SsNode) : SsBuff :=
  { ssbuf with
    uiValidLen := u32 (ssbuf.uiValidLen + nd.len)
    phead := insertSortEnd ssbuf.phead nd
    uiPutFrameCount := u32 (ssbuf.uiPutFrameCount + 1)
    maxtimestamp := nd.timestamp }

/-- The newest frame; the oldest one is handed out first when the list spans
more than the sort time. -/
def appendFrame (ssbuf : SsBuff) (iframe : SortFrame) (callback : Nat → Int) : Option Outcome := do
  let (position, copied) ← memcpyToSortBuff ssbuf.toSsContent iframe.frame iframe.frame_len
  let stored : SsBuff := { ssbuf with toSsContent := copied }
  let nd := fillTheNode position iframe
  let copyEvent : Event := .copied ⟨position, iframe.frame_len, ssbuf.datasize⟩
  match stored.phead with
  | oldest :: next :: rest =>
      if sub32 iframe.timestamp stored.mintimestamp > stored.uiSortTime then
        let (revl, frameaddr) ← cFrameaddrList stored.frameaddr position oldest.position 1
        if revl < 0 then some ⟨-1, stored, [copyEvent]⟩
        else
          -- whatever the callback returns, the node is reused for the new frame
          let handed : SsBuff :=
            { stored with
              frameaddr := frameaddr
              premintimestamp := oldest.timestamp
              uiValidLen := sub32 stored.uiValidLen oldest.len
              phead := next :: rest
              u32PopFrameCount := u32 (stored.u32PopFrameCount + 1)
              mintimestamp := next.timestamp }
          (popFrameStreamSort callback 1 (handed.append nd)).map
            (Outcome.after [copyEvent, .emitted (stored.oframe oldest)])
      else
        some ⟨0, { stored with frameaddr := stored.frameaddr ++ [position] }.append nd, [copyEvent]⟩
  | _ => some ⟨0, { stored with frameaddr := stored.frameaddr ++ [position] }.append nd, [copyEvent]⟩

def putEarly (ssbuf : SsBuff) (iframe : SortFrame) (clock : Clock) (callback : Nat → Int) :
    Option Outcome :=
  let timedef := sub32 iframe.timestamp ssbuf.maxtimestamp
  if timedef ≥ ssbuf.uiMaxSortTime then
    let counted : SsBuff :=
      { ssbuf with
        u32EarlyFrameCount := u32 (ssbuf.u32EarlyFrameCount + 1)
        u32EarlyFrameDrop := u32 (ssbuf.u32EarlyFrameDrop + 1) }
    if counted.u32EarlyFrameDrop > 60 ∨ timedef > 10000000 then
      some ⟨-1, { cleanSortBuff counted clock with u32EarlyFrameDrop := 0 }, [.cleaned]⟩
    else appendFrame counted iframe callback
  else appendFrame { ssbuf with u32EarlyFrameDrop := 0 } iframe callback

/-- `PutFrameStreamSort` behind the check of the buffer. -/
def placeFrame (ssbuf : SsBuff) (iframe : SortFrame) (clock : Clock) (callback : Nat → Int) :
    Option Outcome :=
  if ssbuf.phead = [] then putFirst ssbuf iframe
  else if iframe.timestamp < ssbuf.maxtimestamp then putLate ssbuf iframe clock
  else putEarly ssbuf iframe clock callback

/-- `PutFrameStreamSort`; the events of `CheckStreambuff` come first. `callback`
gives the result of each call of `Datacallback`: call 0 is the one for a node
that is reused, calls 1 and 2 are those of `PopFrameStreamSort`. -/
def putFrameStreamSort (ssbuf : SsBuff) (iframe : SortFrame) (clock : Clock)
    (callback : Nat → Int) : Option Outcome :=
  if ssbuf.datasize / 2 ≤ iframe.frame_len then some ⟨-1, ssbuf, []⟩
  else do
    let (checked, events) ← checkStreambuff ssbuf iframe.frame_len clock
    let outcome ← placeFrame checked iframe clock callback
    some (outcome.after events)

end Mgw.StreamSort

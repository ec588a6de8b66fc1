import Mgw.ByteArea
import Mgw.CodecDef
import Mgw.WordArithmetic

/-!
# The stream ring of `stream_buff.c`

One writer stores frames into a table of slots and a circular data area; readers
copy frames out at their own pace. The shared block is the head, the table of
`uiMaxValidFrames` slots, and behind the table the data area. `InitMemoryParam`
takes its sizes as `int`, so positions and lengths add up without wrapping; the
frame counters are `unsigned int` and do wrap.
-/

namespace Mgw.StreamBuff

open ByteArea CodecDef WordArithmetic

set_option autoImplicit false

structure SmemoryHead where
  magic : Nat
  datasize : Nat
  uiWritFrameCount : Nat
  uiMaxValidFrames : Nat
  ucWriterCount : Nat
  ucReaderCount : Nat
  bLock : Nat

structure SMemFrameInfo where
  timestamp : Nat
  frametype : FrameType
  priority : Int
  deriving DecidableEq

structure SmemoryFrame where
  ucValidFlag : Bool
  position : Nat
  len : Nat
  stuFrameInfo : SMemFrameInfo
  deriving DecidableEq

/-- The three parts of one block. Bytes of `pstuData` at or behind `datasize`
are whatever memory follows the block. -/
structure SMemoryPosition where
  pstuHead : SmemoryHead
  pstuFrames : Nat → SmemoryFrame
  pstuData : Bytes

/-- `sizeof(SmemoryFrame)`: the flag at byte 0, `position` at bytes 4 to 7. -/
def sizeofSmemoryFrame : Nat := 40

/-- Sizes that `InitMemoryParam` can be given. -/
structure Geometry where
  size : Nat
  frames : Nat
  size_ge : 2 ≤ size
  size_int : size < 2147483648
  frames_ge : 2 ≤ frames
  frames_int : frames < 2147483648

/-- The arguments of `PutOneFrameToBuff` that describe a frame. -/
structure Frame where
  pframe : Bytes
  framelen : Nat
  timestamp : Nat
  frametype : FrameType
  priority : Int

def Frame.bytes (frame : Frame) : List UInt8 := takeBytes frame.pframe frame.framelen

def Frame.info (frame : Frame) : SMemFrameInfo where
  timestamp := frame.timestamp
  frametype := frame.frametype
  priority := frame.priority

def zeroFrame : SmemoryFrame where
  ucValidFlag := false
  position := 0
  len := 0
  stuFrameInfo := { timestamp := 0, frametype := .I, priority := 0 }

/-- A block fresh from `calloc`. -/
def zeroedBlock : SMemoryPosition where
  pstuHead :=
    { magic := 0
      datasize := 0
      uiWritFrameCount := 0
      uiMaxValidFrames := 0
      ucWriterCount := 0
      ucReaderCount := 0
      bLock := 0 }
  pstuFrames := fun _ => zeroFrame
  pstuData := fun _ => 0

def initMemoryParam (phead : SMemoryPosition) (frames size : Nat) : SMemoryPosition where
  pstuHead :=
    { magic := 0x12348756
      datasize := size
      uiMaxValidFrames := frames
      ucReaderCount := 0
      ucWriterCount := 0
      uiWritFrameCount := 0
      -- a fresh head is zeroed whole, a stale one only unlocked
      bLock := 0 }
  pstuFrames := fun index => if index < frames then zeroFrame else phead.pstuFrames index
  pstuData := phead.pstuData

namespace SMemoryPosition

variable (memory : SMemoryPosition)

/-- The slot `uiWritFrameCount % uiMaxValidFrames`, which the next accepted frame takes. -/
def writeSlot : Nat := memory.pstuHead.uiWritFrameCount % memory.pstuHead.uiMaxValidFrames

def setFrame (index : Nat) (frame : SmemoryFrame) : SMemoryPosition :=
  { memory with pstuFrames := Function.update memory.pstuFrames index frame }

/-- `pstuFrames[index].position`. An index past the table reads the data area
as if the table went on there. -/
def framePosition (index : Nat) : Nat :=
  if index < memory.pstuHead.uiMaxValidFrames then (memory.pstuFrames index).position
  else
    let entry := (index - memory.pstuHead.uiMaxValidFrames) * sizeofSmemoryFrame
    (memory.pstuData (entry + 4)).toNat + 256 * (memory.pstuData (entry + 5)).toNat +
      65536 * (memory.pstuData (entry + 6)).toNat + 16777216 * (memory.pstuData (entry + 7)).toNat

/-- `pstuFrames[index].ucValidFlag = 0`, again without a bound on the index. -/
def clearValidFlag (index : Nat) : SMemoryPosition :=
  if index < memory.pstuHead.uiMaxValidFrames then
    memory.setFrame index { memory.pstuFrames index with ucValidFlag := false }
  else
    let entry := (index - memory.pstuHead.uiMaxValidFrames) * sizeofSmemoryFrame
    { memory with pstuData := Function.update memory.pstuData entry 0 }

end SMemoryPosition

/-- The interval test of `CheckBuffDataCover`, for a write that ran on to
`posE` or wrapped around to it. -/
def covered (posS posE nposS : Nat) : Bool :=
  if posS < posE then posS ≤ nposS && nposS ≤ posE else posS ≤ nposS || nposS ≤ posE

/-- The loop of `CheckBuffDataCover` from slot `index` on. -/
def coverLoop (posS posE : Nat) : Nat → Nat → SMemoryPosition → SMemoryPosition
  | 0, _, memory => memory
  | remaining + 1, index, memory =>
      if covered posS posE (memory.framePosition index) then
        coverLoop posS posE remaining (index + 1) (memory.clearValidFlag index)
      else memory

def checkBuffDataCover (posS posE next : Nat) (memory : SMemoryPosition) : SMemoryPosition :=
  coverLoop posS posE (sub32 memory.pstuHead.uiMaxValidFrames 2) next memory

/-- Where a write of `length` bytes from `position` ends. Unlike the position of
the next frame it stays `datasize` when the write ends exactly there. -/
def writeEnd (datasize position length : Nat) : Nat :=
  if position + length ≤ datasize then position + length else length - (datasize - position)

/-- The copy of the payload and the entry in the writer's slot. -/
def storeFrame (memory : SMemoryPosition) (frame : Frame) : SMemoryPosition :=
  let posS := (memory.pstuFrames memory.writeSlot).position
  let copied : SMemoryPosition :=
    { memory with
      pstuData := circularCopyIn memory.pstuHead.datasize memory.pstuData posS frame.pframe
        frame.framelen }
  copied.setFrame memory.writeSlot
    { position := posS
      len := frame.framelen
      stuFrameInfo := frame.info
      ucValidFlag := true }

def putOneFrameToBuff (memory : SMemoryPosition) (frame : Frame) : Int × SMemoryPosition :=
  let head := memory.pstuHead
  let w := memory.writeSlot
  let wnext := (w + 1) % head.uiMaxValidFrames
  if head.datasize / 2 ≤ frame.framelen then (-2, memory)
  else
    let posS := (memory.pstuFrames w).position
    let posE := writeEnd head.datasize posS frame.framelen
    let checked := checkBuffDataCover posS posE wnext (storeFrame memory frame)
    -- the flag of `wnext` stays as it is: the reset is commented out in the source
    let moved := checked.setFrame wnext
      { checked.pstuFrames wnext with
        position := circularNext head.datasize posS frame.framelen }
    (0, { moved with
      pstuHead := { head with uiWritFrameCount := u32 (head.uiWritFrameCount + 1) } })

structure MemReader where
  u32RdFrameCount : Nat
  breIframe : Bool
  bReadByTime : Bool
  deriving DecidableEq

/-- The reader as `CreateStreamBuff` sets it up. -/
def MemReader.attach (readByTime : Bool) : MemReader where
  u32RdFrameCount := 0
  breIframe := true
  bReadByTime := readByTime

def SmemoryFrame.isKeyFrame (slot : SmemoryFrame) : Bool :=
  slot.ucValidFlag && slot.stuFrameInfo.frametype = .I

/-- The loop of `JumpToOldestIFrame` at its index `i`. -/
def oldestLoop (memory : SMemoryPosition) (reader : MemReader) : Nat → Nat → Option MemReader
  | 0, _ => none
  | remaining + 1, i =>
      let head := memory.pstuHead
      let pos := u32 (head.uiWritFrameCount + i) % head.uiMaxValidFrames
      if (memory.pstuFrames pos).isKeyFrame then
        let difference := int32 (sub32 (head.uiWritFrameCount + i) head.uiMaxValidFrames)
        let iNewPos := if difference < 0 then 0 else difference.toNat
        if iNewPos < reader.u32RdFrameCount ∧ reader.u32RdFrameCount < head.uiWritFrameCount then
          oldestLoop memory reader remaining (i + 1)
        else some { reader with u32RdFrameCount := iNewPos }
      else oldestLoop memory reader remaining (i + 1)

/-- `none` is the return value -1, which leaves the reader as it is. -/
def jumpToOldestIFrame (memory : SMemoryPosition) (reader : MemReader) : Option MemReader :=
  if memory.pstuHead.uiWritFrameCount = 0 then some { reader with u32RdFrameCount := 0 }
  else oldestLoop memory reader memory.pstuHead.uiMaxValidFrames 0

/-- The downward loop of `JumpTonewestIFrame`; its index is one less than the argument. -/
def newestLoop (memory : SMemoryPosition) (reader : MemReader) (min : Int) :
    Nat → Option MemReader
  | 0 => none
  | i + 1 =>
      if (i : Int) > min then
        if (memory.pstuFrames (i % memory.pstuHead.uiMaxValidFrames)).isKeyFrame then
          if reader.u32RdFrameCount ≤ i then some { reader with u32RdFrameCount := i } else none
        else newestLoop memory reader min i
      else none

def jumpTonewestIFrame (memory : SMemoryPosition) (reader : MemReader) : Option MemReader :=
  let head := memory.pstuHead
  if head.uiWritFrameCount = 0 then some { reader with u32RdFrameCount := 0 }
  else
    let diff := int32 (sub32 head.uiWritFrameCount reader.u32RdFrameCount)
    let min :=
      if diff > 0 then int32 reader.u32RdFrameCount
      else int32 (sub32 head.uiWritFrameCount head.uiMaxValidFrames)
    newestLoop memory reader min (int32 head.uiWritFrameCount).toNat

/-- What `GetOneFrameFromBuff` stores through `pframe`, `frametype` and `priority`. -/
structure CopiedFrame where
  bytes : List UInt8
  frametype : FrameType
  priority : Int
  deriving DecidableEq

/-- `timestamp` is the value left in `*timestamp`. -/
structure GetResult where
  ret : Int
  reader : MemReader
  timestamp : Nat
  copied : Option CopiedFrame
  deriving DecidableEq

/-- A reader that lags by more than the table goes to the oldest key frame.
An early return carries its code and the reader it leaves. -/
def lagStage (memory : SMemoryPosition) (reader : MemReader) :
    Except (Int × MemReader) MemReader :=
  if sub32 memory.pstuHead.uiWritFrameCount reader.u32RdFrameCount >
      memory.pstuHead.uiMaxValidFrames then
    match jumpToOldestIFrame memory reader with
    | none => .error (frameConsumeSlow, reader)
    | some jumped => .ok jumped
  else .ok reader

/-- A reader without its first key frame goes back five frames before it looks for one. -/
def waitingReader (memory : SMemoryPosition) (reader : MemReader) : MemReader :=
  if 5 ≤ memory.pstuHead.uiWritFrameCount then
    { reader with u32RdFrameCount := memory.pstuHead.uiWritFrameCount - 5 }
  else reader

def keyFrameStage (memory : SMemoryPosition) (reader : MemReader) :
    Except (Int × MemReader) MemReader :=
  if reader.breIframe then
    match jumpTonewestIFrame memory (waitingReader memory reader) with
    | none => .error (0, waitingReader memory reader)
    | some jumped => .ok { jumped with breIframe := false }
  else .ok reader

/-- An invalidated frame is skipped by going to the oldest key frame. -/
def validStage (memory : SMemoryPosition) (reader : MemReader) :
    Except (Int × MemReader) MemReader :=
  let rp := reader.u32RdFrameCount % memory.pstuHead.uiMaxValidFrames
  if (memory.pstuFrames rp).ucValidFlag then .ok reader
  else
    match jumpToOldestIFrame memory reader with
    | none => .error (frameConsumeSlow, reader)
    | some jumped => .ok jumped

/-- The copy at the end of `GetOneFrameFromBuff`, of the frame the reader stands at. -/
def readStage (memory : SMemoryPosition) (reader : MemReader) (maxframelen timestamp : Nat) :
    GetResult :=
  let slot := memory.pstuFrames (reader.u32RdFrameCount % memory.pstuHead.uiMaxValidFrames)
  let ntime := slot.stuFrameInfo.timestamp
  if slot.len > maxframelen then
    { ret := 0, reader := reader, timestamp := timestamp, copied := none }
  else if reader.bReadByTime ∧ timestamp ≠ 0 ∧ timestamp < ntime ∧ ntime - timestamp > 2000 then
    { ret := frameConsumeSlow, reader := reader, timestamp := ntime, copied := none }
  else
    { ret := slot.len
      reader := { reader with u32RdFrameCount := u32 (reader.u32RdFrameCount + 1) }
      timestamp := ntime
      copied := some
        { bytes := circularCopyOut memory.pstuHead.datasize memory.pstuData slot.position slot.len
          frametype := slot.stuFrameInfo.frametype
          priority := slot.stuFrameInfo.priority } }

/-- The reader after the jumps, or the early return. -/
def selectFrame (memory : SMemoryPosition) (reader : MemReader) :
    Except (Int × MemReader) MemReader := do
  let caught ← lagStage memory reader
  let started ← keyFrameStage memory caught
  validStage memory started

def getOneFrameFromBuff (memory : SMemoryPosition) (reader : MemReader)
    (maxframelen timestamp : Nat) : GetResult :=
  if memory.pstuHead.uiWritFrameCount = reader.u32RdFrameCount then
    { ret := frameConsumeFast, reader := reader, timestamp := timestamp, copied := none }
  else if memory.pstuHead.uiWritFrameCount < reader.u32RdFrameCount then
    { ret := frameConsumeFast
      reader := (jumpToOldestIFrame memory reader).getD reader
      timestamp := timestamp
      copied := none }
  else
    match selectFrame memory reader with
    | .error (ret, stopped) =>
        { ret := ret, reader := stopped, timestamp := timestamp, copied := none }
    | .ok selected => readStage memory selected maxframelen timestamp

end Mgw.StreamBuff

import Mgw.IntrusiveList

/-!
# The output lists of a stream

`mgw-stream.c` with the parts of `mgw-output.c` and `mgw.c` that link and unlink
an output. An output is known by its address; its context is its first member and
the name pointer the first member of that, so that a pointer to an output can be
taken for a pointer to a context pointer. What the plugins and the settings
answer is a parameter of the call.
-/

namespace Mgw.StreamOutputs

open IntrusiveList

set_option autoImplicit false

def MGW_ERR_SUCCESS : Int := 0
def MGW_ERR_INVALID_RES : Int := 2
def MGW_ERR_EXISTED : Int := 3
def MGW_ERR_ESTARTING : Int := 6

def mgwSrcErr (code : Int) : Int := 0x06000000 + code % 65536
def mgwOutErr (code : Int) : Int := 0x07000000 + code % 65536

/-- The two lists, each with a mutex of its own. -/
inductive OutputList where
  | outputs_list | outputs_whitelist
  deriving DecidableEq, Repr

/-- What a context pointer can hold: an output, or the characters of a name where
the name pointer of an output is taken for one. -/
inductive Context where
  | output (address : Nat)
  | obj_name (address : Nat)
  deriving DecidableEq, Repr

inductive Cell where
  | head (list : OutputList)
  | next (context : Context)
  | obj_name (address : Nat)
  deriving DecidableEq, Repr

def layout : Layout OutputList Context Cell where
  head := .head
  next := .next
  head_injective := fun _ _ => Cell.head.inj
  next_injective := fun _ _ => Cell.next.inj
  head_ne_next := fun _ _ => Cell.noConfusion

structure MgwOutput where
  obj_name : List UInt8
  refs : Int
  info_impl : Bool
  actived : Bool
  stopping_event : Bool
  mutex : Option OutputList

structure MgwStream where
  links : Heap Context Cell
  output : Nat → Option MgwOutput
  allocated : Nat
  source : Bool
  actived : Bool

/-- How a call ends: with a code, or never, or with the process. -/
inductive Progress where
  | returned (code : Int)
  | waiting
  | aborted
  deriving DecidableEq, Repr

structure Outcome where
  stream : MgwStream
  progress : Progress

/-- What a caller makes of a call inside that has ended. -/
def Outcome.andThen (outcome : Outcome) (continuation : MgwStream → Outcome) : Outcome :=
  match outcome.progress with
  | .returned _ => continuation outcome.stream
  | _ => outcome

def MgwStream.returns (stream : MgwStream) (code : Int) : Outcome :=
  { stream := stream, progress := .returned code }

def MgwStream.modify (stream : MgwStream) (address : Nat) (change : MgwOutput → MgwOutput) :
    MgwStream :=
  { stream with output :=
      Function.update stream.output address ((stream.output address).map change) }

section Context

variable (stream : MgwStream) (address : Nat)

/-- `none` is the failing `assert(first)`. -/
def mgwContextDataInsert (mutex : OutputList) (first : Option Cell) : Option MgwStream :=
  first.map fun cell =>
    { stream.modify address fun output => { output with mutex := some mutex } with
      links := insert layout stream.links cell (.output address) }

def mgwContextDataRemove : MgwStream :=
  match (stream.output address).bind MgwOutput.mutex with
  | none => stream
  | some _ =>
      { stream.modify address fun output => { output with mutex := none } with
        links := remove layout stream.links (.output address) }

/-- `mgw_context_data_free` and the release of the memory. -/
def mgwContextDataFree : MgwStream :=
  let removed := mgwContextDataRemove stream address
  { removed with output := Function.update removed.output address none }

end Context

section Output

variable (stream : MgwStream) (address : Nat)

/-- An output without an implementation is not started; `answer` is that of `info.start`. -/
def mgwOutputStart (answer : Bool) : Bool × MgwStream :=
  match stream.output address with
  | none => (false, stream)
  | some output =>
      if output.info_impl then
        (answer, stream.modify address fun output =>
          { output with stopping_event := true, actived := answer })
      else (false, stream)

def mgwOutputActualStop : MgwStream :=
  stream.modify address fun output => { output with stopping_event := true, actived := false }

def mgwOutputStop : MgwStream :=
  match stream.output address with
  | none => stream
  | some output => if output.actived then mgwOutputActualStop stream address else stream

/-- An output that was never started is waited for in vain. -/
def mgwOutputDestroy : Outcome :=
  match stream.output address with
  | none => { stream := stream, progress := .aborted }
  | some output =>
      let active := output.info_impl && output.actived
      let stopped := if active then mgwOutputActualStop stream address else stream
      if active || output.stopping_event then (mgwContextDataFree stopped address).returns 0
      else { stream := stopped, progress := .waiting }

def mgwOutputRelease : Outcome :=
  match stream.output address with
  | none => { stream := stream, progress := .aborted }
  | some output =>
      let released := stream.modify address fun output => { output with refs := output.refs - 1 }
      if output.refs - 1 = -1 then mgwOutputDestroy released address else released.returns 0

end Output

/-- The outcome of a search by name: the walk may not end. -/
inductive Found where
  | endless
  | missing
  | output (address : Nat)
  deriving DecidableEq, Repr

def named (stream : MgwStream) (name : List UInt8) : Context → Bool
  | .output address => (stream.output address).any fun output => output.obj_name = name
  | .obj_name _ => false

def getContextByName (stream : MgwStream) (list : OutputList) (name : List UInt8) : Found :=
  match search layout stream.links (named stream name) stream.allocated
      (stream.links.pointee (.head list)) with
  | none => .endless
  | some (some (.output address)) => .output address
  | some _ => .missing

/-- The refusal of a name that is on a list: a reference is taken and given back. -/
def refuseExisting (stream : MgwStream) (list : OutputList) (name : List UInt8)
    (otherwise : Outcome) : Outcome :=
  match getContextByName stream list name with
  | .endless => { stream := stream, progress := .waiting }
  | .missing => otherwise
  | .output address =>
      if (stream.output address).any fun output => -1 < output.refs then
        (mgwOutputRelease (stream.modify address fun output =>
          { output with refs := output.refs + 1 }) address).andThen fun released =>
            released.returns (mgwOutErr MGW_ERR_EXISTED)
      else otherwise

/-- What becomes of the settings of an output: no protocol, a failing initialisation,
or an output, of which `info_impl` tells whether its plugin made an instance. -/
inductive Creation where
  | noProtocol
  | initFailed
  | created (info_impl : Bool)

/-- `unnamed_index` is the counter for contexts without a name, and `start` and
`last_error_status` are what the plugin answers. -/
structure OutputSettings where
  output_name : List UInt8
  unnamed_index : Nat
  creation : Creation
  start : Bool
  last_error_status : Int

def decimal (value : Nat) : List UInt8 :=
  (Nat.toDigits 10 value).map fun digit => UInt8.ofNat digit.toNat

/-- `"__unnamed%04lld"` for an empty name. -/
def dupName (name : List UInt8) (unnamed_index : Nat) : List UInt8 :=
  if name = [] then
    let digits := decimal unnamed_index
    [95, 95, 117, 110, 110, 97, 109, 101, 100] ++ List.replicate (4 - digits.length) 48 ++ digits
  else name

/-- The output as `mgw_output_init` finds it, with a name pointer to its name. -/
def newOutput (stream : MgwStream) (settings : OutputSettings) (info_impl : Bool) : MgwStream :=
  { stream with
    links := stream.links.setPointee (.obj_name stream.allocated) (some (.obj_name stream.allocated))
    output := Function.update stream.output stream.allocated (some
      { obj_name := dupName settings.output_name settings.unnamed_index
        refs := 0
        info_impl := info_impl
        actived := false
        stopping_event := false
        mutex := none })
    allocated := stream.allocated + 1 }

/-- The list that `mgw_output_init` puts an output on. -/
def initList (stream : MgwStream) : OutputList :=
  if stream.source then .outputs_list else .outputs_whitelist

def startCreated (stream : MgwStream) (address : Nat) (settings : OutputSettings) : Outcome :=
  if stream.actived && stream.source then
    match mgwOutputStart stream address settings.start with
    | (true, started) => started.returns (mgwOutErr MGW_ERR_SUCCESS)
    | (false, failed) =>
        (mgwOutputDestroy failed address).andThen fun destroyed =>
          destroyed.returns (mgwOutErr settings.last_error_status)
  else stream.returns (mgwOutErr MGW_ERR_SUCCESS)

def createOutput (stream : MgwStream) (settings : OutputSettings) : Outcome :=
  match settings.creation with
  | .noProtocol => stream.returns (mgwOutErr MGW_ERR_INVALID_RES)
  | .initFailed =>
      -- the output that could not be initialised is destroyed, which waits for its event
      { stream := { stream with allocated := stream.allocated + 1 }, progress := .waiting }
  | .created info_impl =>
      match mgwContextDataInsert (newOutput stream settings info_impl) stream.allocated
          (initList stream) (some (.head (initList stream))) with
      | none => { stream := stream, progress := .aborted }
      | some linked => startCreated linked stream.allocated settings

def mgwStreamAddOutput (stream : MgwStream) (settings : OutputSettings) : Outcome :=
  refuseExisting stream .outputs_list settings.output_name
    (refuseExisting stream .outputs_whitelist settings.output_name (createOutput stream settings))

/-- `stream->outputs_list` taken for a pointer to a context pointer: the first
word of the output at the head is its name pointer. -/
def outputsListAsFirst (stream : MgwStream) : Option Cell :=
  match stream.links.pointee (.head .outputs_list) with
  | none => none
  | some (.output address) => some (.obj_name address)
  | some (.obj_name address) => some (.next (.obj_name address))

/-- The loop over the whitelist; `starts` has the plugins' answers. -/
def relinkWhitelist (starts : Nat → Bool) : Nat → MgwStream → Option Context → Outcome
  | _, stream, none => stream.returns 0
  | 0, stream, some _ => { stream := stream, progress := .waiting }
  | _ + 1, stream, some (.obj_name _) => { stream := stream, progress := .aborted }
  | rounds + 1, stream, some (.output address) =>
      let next := stream.links.pointee (.next (.output address))
      let started := (mgwOutputStart stream address (starts address)).2
      match mgwContextDataInsert started address .outputs_list (outputsListAsFirst started) with
      | none => { stream := started, progress := .aborted }
      | some inserted =>
          relinkWhitelist starts rounds (mgwContextDataRemove inserted address) next

/-- How a source comes about: not at all, without being started, or so that the
outputs are relinked (a private source is not started). -/
inductive SourceAnswer where
  | failed
  | startFailed
  | usable
  deriving DecidableEq, Repr

def mgwStreamAddSource (stream : MgwStream) (answer : SourceAnswer) (starts : Nat → Bool) : Outcome :=
  if stream.source then stream.returns (mgwSrcErr MGW_ERR_INVALID_RES)
  else
    match answer with
    | .failed => stream.returns (mgwSrcErr MGW_ERR_INVALID_RES)
    | .startFailed => { stream with source := true }.returns (mgwSrcErr MGW_ERR_ESTARTING)
    | .usable =>
        (relinkWhitelist starts stream.allocated { stream with source := true, actived := true }
          (stream.links.pointee (.head .outputs_whitelist))).andThen fun relinked =>
            { relinked with links := relinked.links.setPointee (.head .outputs_whitelist) none }.returns
              (mgwSrcErr MGW_ERR_SUCCESS)

def mgwStreamReleaseSource (stream : MgwStream) : Outcome :=
  { stream with source := false, actived := false }.returns 0

def mgwStreamReleaseOutput (stream : MgwStream) (address : Nat) : Outcome :=
  mgwOutputRelease (mgwOutputStop stream address) address

def mgwStreamReleaseOutputByName (stream : MgwStream) (name : List UInt8) : Outcome :=
  match getContextByName stream .outputs_list name with
  | .endless => { stream := stream, progress := .waiting }
  | .missing => stream.returns 0
  | .output address => mgwStreamReleaseOutput stream address

inductive Call where
  | addOutput (settings : OutputSettings)
  | addSource (answer : SourceAnswer) (starts : Nat → Bool)
  | releaseSource
  | releaseOutput (address : Nat)
  | releaseOutputByName (name : List UInt8)

def execute (stream : MgwStream) : Call → Outcome
  | .addOutput settings => mgwStreamAddOutput stream settings
  | .addSource answer starts => mgwStreamAddSource stream answer starts
  | .releaseSource => mgwStreamReleaseSource stream
  | .releaseOutput address => mgwStreamReleaseOutput stream address
  | .releaseOutputByName name => mgwStreamReleaseOutputByName stream name

/-- A call behind one that has returned; behind any other there is none. -/
def next (outcome : Outcome) (call : Call) : Outcome :=
  outcome.andThen fun stream => execute stream call

/-- The stream that `mgw_stream_create` leaves. -/
def mgwStreamCreate : Outcome :=
  MgwStream.returns
    { links := { pointee := fun _ => none, prevNext := fun _ => none }
      output := fun _ => none
      allocated := 0
      source := false
      actived := false } 0

end Mgw.StreamOutputs

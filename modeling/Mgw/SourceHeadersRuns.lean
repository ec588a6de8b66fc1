import Mgw.SourceHeadersOwned

/-!
# Runs of sources, headers and outputs

The account of a run follows the calls alone. A call is allowed as long as it neither
sets, sends nor destroys a header whose block has been released, and as long as no
plugin hands out a video header without an audio header. The program goes along with
the account exactly as long as the calls are allowed.
-/

namespace Mgw.SourceHeaders

open AacHeader AvcPacket BlockHeap TransitionRuns

set_option autoImplicit false

structure TrackedSource where
  is_private : Bool
  slot : EncoderType → HeaderSlot

structure Tracked where
  sources : Nat → Option TrackedSource
  count : Nat
  sent : List SentHeader

namespace Tracked

def initial : Tracked where
  sources := fun _ => none
  count := 0
  sent := []

variable (tracked : Tracked)

def create (source : TrackedSource) : Tracked :=
  { tracked with
    sources := Function.update tracked.sources tracked.count (some source)
    count := tracked.count + 1 }

/-- Only a private source keeps what it is given. -/
def change (index : Nat) (type : EncoderType) (into : HeaderSlot → HeaderSlot) : Tracked :=
  { tracked with
    sources := Function.update tracked.sources index ((tracked.sources index).map fun source =>
      if source.is_private then
        { source with slot := Function.update source.slot type (into (source.slot type)) }
      else source) }

def remove (index : Nat) : Tracked :=
  { tracked with sources := Function.update tracked.sources index none }

/-- The bytes behind the header of a source, of a plugin those it hands out at the call. -/
def headerBytes (source : TrackedSource) (type : EncoderType) (extra : Option (List UInt8)) :
    List UInt8 :=
  if source.is_private then (source.slot type).bytes else extra.getD []

/-- A source that is not there sends nothing. -/
def send (index : Nat) (type : EncoderType) (codes : List UInt8) (extra : Option (List UInt8))
    (dropped : Bool) : Tracked :=
  { tracked.change index type HeaderSlot.give with
    sent := tracked.sent ++ ((tracked.sources index).toList.flatMap fun source =>
      if dropped then []
      else [{ source := index, type := type, data := codes ++ headerBytes source type extra }]) }

end Tracked

/-- The header a plugin's source starts with. -/
def HeaderSlot.first (extra : Option (List UInt8)) : HeaderSlot :=
  (extra.map HeaderSlot.unset.put).getD .unset

def track (tracked : Tracked) : Action → Tracked
  | .createPrivate audio =>
      tracked.create { is_private := true
                       slot := Function.update (fun _ => .unset) .audio
                         (HeaderSlot.first (audio.map AudioMeta.header)) }
  | .createPlugin video audio =>
      tracked.create { is_private := false
                       slot := fun type => HeaderSlot.first (if type = .video then video else audio) }
  | .setVideo index extra_data => tracked.change index .video (·.put extra_data)
  | .setAudio index audio => tracked.change index .audio (·.put audio.header)
  | .sendAudio index settings extra dropped =>
      tracked.send index .audio [settings.code, 0x00] extra dropped
  | .sendVideo index extra dropped => tracked.send index .video [] extra dropped
  | .destroy index => tracked.remove index

/-- The header of a private source, if it is there, has not been released. -/
def Usable (tracked : Tracked) (index : Nat) (type : EncoderType) : Prop :=
  ∀ source ∈ tracked.sources index, source.is_private → source.slot type ≠ .spent

def Allowed (tracked : Tracked) : Action → Prop
  | .createPrivate _ => True
  | .createPlugin video audio => video.isSome → audio.isSome
  | .setVideo index _ => Usable tracked index .video
  | .setAudio index _ => Usable tracked index .audio
  | .sendAudio index _ _ _ => Usable tracked index .audio
  | .sendVideo index _ _ => Usable tracked index .video
  | .destroy index => Usable tracked index .video ∧ Usable tracked index .audio

structure Mirrors (heap : Heap) (source : MgwSource) (account : TrackedSource) : Prop where
  is_private : source.is_private = account.is_private
  backs : ∀ type, Backs heap (source.header type) (account.slot type)
  plugin : account.is_private = false → ∀ type, account.slot type ≠ .spent

structure Related (tracked : Tracked) (state : State) : Prop where
  numbered : state.heap.Numbered
  count : state.sourceCount = tracked.count
  sent : state.sent = tracked.sent
  absent : ∀ index, tracked.sources index = none → state.sources index = none
  present : ∀ index account, tracked.sources index = some account →
    ∃ source, state.sources index = some source ∧ Mirrors state.heap source account
  /-- No two headers have one block. -/
  apart : ∀ index index' source source' type type' block,
    state.sources index = some source → state.sources index' = some source' →
    (source.header type).array = some block → (source'.header type').array = some block →
    index = index' ∧ type = type'

theorem related_initial : Related Tracked.initial initial where
  numbered := numbered_empty
  count := rfl
  sent := rfl
  absent := fun _ _ => rfl
  present := nofun
  apart := nofun

section Frames

variable {tracked : Tracked} {state : State} {index : Nat} {source : MgwSource}
  {account : TrackedSource} {type : EncoderType} {heap after : Heap}

/-- The account has every source that is there. -/
theorem source_accounted (related : Related tracked state)
    (here : state.sources index = some source) :
    ∃ account, tracked.sources index = some account ∧ Mirrors state.heap source account := by
  cases accounted : tracked.sources index with
  | none =>
      rw [related.absent index accounted] at here
      contradiction
  | some account =>
      obtain ⟨own, same, mirrors⟩ := related.present index account accounted
      rw [Option.some.inj (here.symm.trans same)]
      exact ⟨account, rfl, mirrors⟩

theorem array_bounded (related : Related tracked state)
    (here : state.sources index = some source) {block : Nat}
    (array : (source.header type).array = some block) : block < state.heap.count := by
  obtain ⟨account, -, mirrors⟩ := source_accounted related here
  exact backs_bounded related.numbered (mirrors.backs type) array

theorem mirrors_kept {changed changed' : Bmem} (numbered : heap.Numbered)
    (own : OwnBlock heap changed after changed') (mirrors : Mirrors heap source account)
    (apart : ∀ type block, (source.header type).array = some block → changed.array ≠ some block) :
    Mirrors after source account where
  is_private := mirrors.is_private
  backs := fun type => backs_kept numbered own (mirrors.backs type) (apart type)
  plugin := mirrors.plugin

/-- A source and its account, where there is one, stay as they were. -/
theorem source_kept (related : Related tracked state) (other : Nat)
    (keeps : ∀ holder, state.sources other = some holder → ∀ found,
      Mirrors state.heap holder found → Mirrors after holder found) :
    Option.Rel (Mirrors after) (state.sources other) (tracked.sources other) := by
  cases accounted : tracked.sources other with
  | none =>
      rw [related.absent other accounted]
      exact Option.Rel.none
  | some found =>
      obtain ⟨holder, held, mirrors⟩ := related.present other found accounted
      rw [held]
      exact Option.Rel.some (keeps holder held found mirrors)

theorem rel_update {sources : Nat → Option MgwSource} {accounts : Nat → Option TrackedSource}
    {source' : Option MgwSource} {account' : Option TrackedSource}
    (here : Option.Rel (Mirrors after) source' account')
    (others : ∀ other, other ≠ index → Option.Rel (Mirrors after) (sources other) (accounts other))
    (other : Nat) :
    Option.Rel (Mirrors after) (Function.update sources index source' other)
      (Function.update accounts index account' other) := by
  by_cases changed : other = index
  · rw [changed, Function.update_self, Function.update_self]
    exact here
  · rw [Function.update_of_ne changed, Function.update_of_ne changed]
    exact others other changed

theorem rel_absent {sources : Nat → Option MgwSource} {accounts : Nat → Option TrackedSource}
    (same : ∀ index, Option.Rel (Mirrors heap) (sources index) (accounts index)) (index : Nat)
    (unknown : accounts index = none) : sources index = none := by
  have rel := same index
  rw [unknown] at rel
  cases held : sources index with
  | none => rfl
  | some holder =>
      rw [held] at rel
      contradiction

theorem rel_present {sources : Nat → Option MgwSource} {accounts : Nat → Option TrackedSource}
    (same : ∀ index, Option.Rel (Mirrors heap) (sources index) (accounts index)) (index : Nat)
    (found : TrackedSource) (accounted : accounts index = some found) :
    ∃ holder, sources index = some holder ∧ Mirrors heap holder found := by
  have rel := same index
  rw [accounted] at rel
  cases held : sources index with
  | none =>
      rw [held] at rel
      contradiction
  | some holder =>
      rw [held] at rel
      cases rel with
      | some mirrors => exact ⟨holder, rfl, mirrors⟩

/-- Only the heap changes, and no header's block in it. -/
theorem related_heap (related : Related tracked state) {sent sent' : List SentHeader}
    (own : OwnBlock state.heap Bmem.init after Bmem.init) (delivered : sent' = sent) :
    Related { tracked with sent := sent } { state with heap := after, sent := sent' } where
  numbered := own.numbered
  count := related.count
  sent := delivered
  absent := related.absent
  present := by
    intro index account accounted
    obtain ⟨source, here, mirrors⟩ := related.present index account accounted
    exact ⟨source, here, mirrors_kept related.numbered own mirrors fun _ _ _ => nofun⟩
  apart := related.apart

/-- Where an array after the change comes from. -/
theorem changed_array {mem' : Bmem} (here : state.sources index = some source)
    (own : OwnBlock state.heap (source.header type) after mem') {other : Nat} {holder : MgwSource}
    {kind : EncoderType} {block : Nat}
    (held : Function.update state.sources index
      (some { source with header := Function.update source.header type mem' }) other = some holder)
    (array : (holder.header kind).array = some block) :
    (∃ old, state.sources other = some old ∧ (old.header kind).array = some block) ∨
      (other = index ∧ kind = type ∧ state.heap.count ≤ block) := by
  by_cases changed : other = index
  · rw [changed, Function.update_self] at held
    rw [← Option.some.inj held] at array
    dsimp only at array
    rw [changed]
    by_cases same : kind = type
    · rw [same, Function.update_self] at array
      rw [same]
      rcases own.array with kept | ⟨new, fresh, past, -⟩
      · exact Or.inl ⟨source, here, kept.symm.trans array⟩
      · rw [Option.some.inj (fresh.symm.trans array)] at past
        exact Or.inr ⟨rfl, rfl, past⟩
    · rw [Function.update_of_ne same] at array
      exact Or.inl ⟨source, here, array⟩
  · rw [Function.update_of_ne changed] at held
    exact Or.inl ⟨holder, held, array⟩

theorem changed_mirrors (related : Related tracked state) {mem' : Bmem} {slot : HeaderSlot}
    (here : state.sources index = some source) (mirrors : Mirrors state.heap source account)
    (own : OwnBlock state.heap (source.header type) after mem') (backs : Backs after mem' slot)
    (plugin : account.is_private = false → slot ≠ .spent) :
    Mirrors after { source with header := Function.update source.header type mem' }
      { account with slot := Function.update account.slot type slot } where
  is_private := mirrors.is_private
  backs := by
    intro kind
    dsimp only
    by_cases same : kind = type
    · rw [same, Function.update_self, Function.update_self]
      exact backs
    · rw [Function.update_of_ne same, Function.update_of_ne same]
      apply backs_kept related.numbered own (mirrors.backs kind)
      intro block array clash
      exact same (related.apart index index source source kind type block here here array clash).2
  plugin := by
    intro handed kind
    dsimp only
    by_cases same : kind = type
    · rw [same, Function.update_self]
      exact plugin handed
    · rw [Function.update_of_ne same]
      exact mirrors.plugin handed kind

/-- One header of one source changes. -/
theorem related_changed (related : Related tracked state) {sent sent' : List SentHeader}
    (here : state.sources index = some source) (accounted : tracked.sources index = some account)
    {mem' : Bmem} {slot : HeaderSlot}
    (own : OwnBlock state.heap (source.header type) after mem') (backs : Backs after mem' slot)
    (plugin : account.is_private = false → slot ≠ .spent) (delivered : sent' = sent) :
    Related
      { tracked with
        sources := Function.update tracked.sources index
          (some { account with slot := Function.update account.slot type slot })
        sent := sent }
      { state with
        heap := after
        sources := Function.update state.sources index
          (some { source with header := Function.update source.header type mem' })
        sent := sent' } := by
  obtain ⟨same, accountedSame, mirrors⟩ := source_accounted related here
  rw [← Option.some.inj (accounted.symm.trans accountedSame)] at mirrors
  have accounts := rel_update
    (Option.Rel.some (changed_mirrors related here mirrors own backs plugin)) fun other changed =>
      source_kept related other fun holder held found holds =>
        mirrors_kept related.numbered own holds fun kind block array clash =>
          changed (related.apart other index holder source kind type block held here array clash).1
  refine ⟨own.numbered, related.count, delivered, rel_absent accounts, rel_present accounts, ?_⟩
  intro left right leftSource rightSource leftType rightType block leftHeld rightHeld leftArray
    rightArray
  rcases changed_array here own leftHeld leftArray with
    ⟨oldLeft, leftHere, leftOld⟩ | ⟨leftIndex, leftKind, leftPast⟩
  · have leftBound := array_bounded related leftHere leftOld
    rcases changed_array here own rightHeld rightArray with
      ⟨oldRight, rightHere, rightOld⟩ | ⟨-, -, rightPast⟩
    · exact related.apart left right oldLeft oldRight leftType rightType block leftHere rightHere
        leftOld rightOld
    · omega
  · rcases changed_array here own rightHeld rightArray with
      ⟨oldRight, rightHere, rightOld⟩ | ⟨rightIndex, rightKind, -⟩
    · have rightBound := array_bounded related rightHere rightOld
      omega
    · exact ⟨leftIndex.trans rightIndex.symm, leftKind.trans rightKind.symm⟩

/-- A source is added, whose blocks are new. -/
theorem related_created (related : Related tracked state)
    (own : OwnBlock state.heap Bmem.init after Bmem.init) (mirrors : Mirrors after source account)
    (fresh : ∀ type block, (source.header type).array = some block → state.heap.count ≤ block)
    (apart : ∀ type type' block, (source.header type).array = some block →
      (source.header type').array = some block → type = type') :
    Related (tracked.create account)
      { state with
        heap := after
        sources := Function.update state.sources state.sourceCount (some source)
        sourceCount := state.sourceCount + 1 } := by
  have accounts := @rel_update state.sourceCount after state.sources tracked.sources (some source)
    (some account) (Option.Rel.some mirrors) fun other _ =>
      source_kept related other fun _ _ _ holds =>
        mirrors_kept related.numbered own holds fun _ _ _ => nofun
  rw [Tracked.create, ← related.count]
  refine ⟨own.numbered, rfl, related.sent, rel_absent accounts, rel_present accounts, ?_⟩
  intro left right leftSource rightSource leftType rightType block leftHeld rightHeld leftArray
    rightArray
  dsimp only at leftHeld rightHeld
  by_cases leftNew : left = state.sourceCount
  · rw [leftNew, Function.update_self] at leftHeld
    rw [← Option.some.inj leftHeld] at leftArray
    by_cases rightNew : right = state.sourceCount
    · rw [rightNew, Function.update_self] at rightHeld
      rw [← Option.some.inj rightHeld] at rightArray
      exact ⟨leftNew.trans rightNew.symm, apart leftType rightType block leftArray rightArray⟩
    · rw [Function.update_of_ne rightNew] at rightHeld
      have past := fresh leftType block leftArray
      have bound := array_bounded related rightHeld rightArray
      omega
  · rw [Function.update_of_ne leftNew] at leftHeld
    have bound := array_bounded related leftHeld leftArray
    by_cases rightNew : right = state.sourceCount
    · rw [rightNew, Function.update_self] at rightHeld
      rw [← Option.some.inj rightHeld] at rightArray
      have past := fresh rightType block rightArray
      omega
    · rw [Function.update_of_ne rightNew] at rightHeld
      exact related.apart left right leftSource rightSource leftType rightType block leftHeld
        rightHeld leftArray rightArray

/-- A source is removed, whose blocks may be gone. -/
theorem related_removed (related : Related tracked state) (here : state.sources index = some source)
    (numbered : after.Numbered) (count : state.heap.count ≤ after.count)
    (others : ∀ block < state.heap.count,
      (∀ type, (source.header type).array ≠ some block) →
      after.blocks block = state.heap.blocks block) :
    Related (tracked.remove index)
      { state with heap := after, sources := Function.update state.sources index none } := by
  have kept : ∀ other holder, other ≠ index → state.sources other = some holder →
      ∀ kind block, (holder.header kind).array = some block →
      after.blocks block = state.heap.blocks block := by
    intro other holder different held kind block array
    refine others block (array_bounded related held array) fun type clash => different ?_
    exact (related.apart other index holder source kind type block held here array clash).1
  have accounts := @rel_update index after state.sources tracked.sources none none Option.Rel.none
    fun other removed => source_kept related other fun holder held _ holds =>
      ⟨holds.is_private, fun kind =>
        backs_same count (holds.backs kind) (kept other holder removed held kind), holds.plugin⟩
  refine ⟨numbered, related.count, related.sent, rel_absent accounts, rel_present accounts, ?_⟩
  intro left right leftSource rightSource leftType rightType block leftHeld rightHeld
  dsimp only at leftHeld rightHeld
  by_cases leftRemoved : left = index
  · rw [leftRemoved, Function.update_self] at leftHeld
    contradiction
  · by_cases rightRemoved : right = index
    · rw [rightRemoved, Function.update_self] at rightHeld
      contradiction
    · rw [Function.update_of_ne leftRemoved] at leftHeld
      rw [Function.update_of_ne rightRemoved] at rightHeld
      exact related.apart left right leftSource rightSource leftType rightType block leftHeld
        rightHeld

end Frames

section Steps

variable {tracked : Tracked} {state : State} {index : Nat} {source : MgwSource}
  {account : TrackedSource} {type : EncoderType}

theorem change_private (accounted : tracked.sources index = some account)
    (own : account.is_private = true) (into : HeaderSlot → HeaderSlot) :
    tracked.change index type into = { tracked with
      sources := Function.update tracked.sources index
        (some { account with
          slot := Function.update account.slot type (into (account.slot type)) }) } := by
  rw [Tracked.change, accounted, Option.map_some, if_pos own]

theorem change_plugin (accounted : tracked.sources index = some account)
    (plugin : account.is_private = false) (into : HeaderSlot → HeaderSlot) :
    tracked.change index type into = tracked := by
  rw [Tracked.change, accounted, Option.map_some, if_neg (by rw [plugin]; nofun), ← accounted,
    Function.update_eq_self]

theorem change_absent (absent : tracked.sources index = none) (into : HeaderSlot → HeaderSlot) :
    tracked.change index type into = tracked := by
  rw [Tracked.change, absent, Option.map_none, ← absent, Function.update_eq_self]

theorem send_absent (absent : tracked.sources index = none) (codes : List UInt8)
    (extra : Option (List UInt8)) (dropped : Bool) :
    tracked.send index type codes extra dropped = tracked := by
  rw [Tracked.send, change_absent absent, absent]
  exact congrArg (Tracked.mk tracked.sources tracked.count) (List.append_nil _)

theorem with_source_here (here : state.sources index = some source)
    (call : MgwSource → Option State) : withSource state index call = call source := by
  rw [withSource, here]

theorem with_source_absent (absent : state.sources index = none)
    (call : MgwSource → Option State) : withSource state index call = some state := by
  rw [withSource, absent]

/-- What a call does to a header, where the account has it that it can. -/
def Sets (call : State → Nat → MgwSource → Option State) (type : EncoderType) (data : List UInt8) :
    Prop :=
  ∀ state index source slot, state.heap.Numbered → Backs state.heap (source.header type) slot →
    (source.is_private = false → call state index source = some state) ∧
    (source.is_private = true → slot = .spent → call state index source = none) ∧
    (source.is_private = true → slot ≠ .spent → ∃ after mem',
      call state index source = some (state.setHeader index source type (after, mem')) ∧
      OwnBlock state.heap (source.header type) after mem' ∧ Backs after mem' (slot.put data))

theorem sets_video (extra_data : List UInt8) :
    Sets (fun state index source => state.mgwSourceSetVideoExtraData index source extra_data)
      .video extra_data := by
  intro state index source slot numbered backs
  unfold State.mgwSourceSetVideoExtraData
  dsimp only
  refine ⟨fun plugin => ?_, fun own spent => ?_, fun own usable => ?_⟩
  · rw [plugin]
    rfl
  · rw [spent] at backs
    rw [if_pos own, copy_spent backs, Option.map_none]
  · obtain ⟨after, mem', copied, owned, holds⟩ := buffer_copied numbered backs usable extra_data
    rw [if_pos own, copied]
    exact ⟨after, mem', rfl, owned, holds⟩

theorem sets_audio (audio : AudioMeta) :
    Sets (fun state index source => state.mgwSourceSetAudioExtraData index source audio)
      .audio audio.header := by
  intro state index source slot numbered backs
  unfold State.mgwSourceSetAudioExtraData
  dsimp only
  refine ⟨fun plugin => ?_, fun own spent => ?_, fun own usable => ?_⟩
  · rw [plugin]
    rfl
  · rw [spent] at backs
    rw [if_pos own, header_spent numbered backs, Option.map_none]
  · obtain ⟨after, mem', kept, owned, holds, -⟩ :=
      header_kept numbered backs usable none audio.header
    rw [if_pos own, kept]
    exact ⟨after, mem', rfl, owned, holds⟩

theorem set_performed {call : State → Nat → MgwSource → Option State} {data : List UInt8}
    (sets : Sets call type data) (related : Related tracked state)
    (usable : Usable tracked index type) :
    ∃ after, withSource state index (call state index) = some after ∧
      Related (tracked.change index type (·.put data)) after := by
  cases accounted : tracked.sources index with
  | none =>
      rw [with_source_absent (related.absent index accounted), change_absent accounted]
      exact ⟨state, rfl, related⟩
  | some account =>
      obtain ⟨source, here, mirrors⟩ := related.present index account accounted
      obtain ⟨ignored, -, done⟩ :=
        sets state index source (account.slot type) related.numbered (mirrors.backs type)
      rw [with_source_here here]
      cases own : account.is_private with
      | false =>
          rw [ignored (mirrors.is_private.trans own), change_plugin accounted own]
          exact ⟨state, rfl, related⟩
      | true =>
          obtain ⟨after, mem', result, owned, holds⟩ :=
            done (mirrors.is_private.trans own) (usable account accounted own)
          rw [result, change_private accounted own]
          refine ⟨_, rfl, related_changed related here accounted owned holds ?_ related.sent⟩
          intro plugin
          rw [own] at plugin
          contradiction

/-- A header that cannot be used is the spent one of a private source. -/
theorem unusable_source (related : Related tracked state)
    (unusable : ¬Usable tracked index type) :
    ∃ source account, state.sources index = some source ∧ source.is_private = true ∧
      account.slot type = .spent ∧ Mirrors state.heap source account := by
  unfold Usable at unusable
  push Not at unusable
  obtain ⟨account, accounted, own, spent⟩ := unusable
  obtain ⟨source, here, mirrors⟩ := related.present index account accounted
  exact ⟨source, account, here, mirrors.is_private.trans own, spent, mirrors⟩

theorem set_refused {call : State → Nat → MgwSource → Option State} {data : List UInt8}
    (sets : Sets call type data) (related : Related tracked state)
    (unusable : ¬Usable tracked index type) :
    withSource state index (call state index) = none := by
  obtain ⟨source, account, here, own, spent, mirrors⟩ := unusable_source related unusable
  obtain ⟨-, refused, -⟩ :=
    sets state index source (account.slot type) related.numbered (mirrors.backs type)
  rw [with_source_here here]
  exact refused own spent

theorem send_accounted (accounted : tracked.sources index = some account) (codes : List UInt8)
    (extra : Option (List UInt8)) (dropped : Bool) :
    tracked.send index type codes extra dropped =
      { tracked.change index type HeaderSlot.give with
        sent := tracked.sent ++ if dropped then [] else
          [{ source := index
             type := type
             data := codes ++ Tracked.headerBytes account type extra }] } := by
  rw [Tracked.send, accounted, Option.toList_some, List.flatMap_singleton]

/-- What an output does with the header it was handed. -/
def Sends (call : State → Nat → MgwSource → Option State) (type : EncoderType)
    (codes : List UInt8) (extra : Option (List UInt8)) (dropped : Bool) : Prop :=
  ∀ state index source heap mem slot,
    state.getHeaderInternal source type extra = ⟨heap, mem.array, mem.len⟩ →
    heap.Numbered → Backs heap mem slot →
    (slot = .spent → call state index source = none) ∧
    (slot ≠ .spent → ∃ after,
      call state index source =
        some (state.sendHeader index type after (codes ++ slot.bytes) dropped) ∧
      OwnBlock heap mem after mem ∧ Backs after mem slot.give)

theorem sends_video (extra : Option (List UInt8)) (dropped : Bool) :
    Sends (fun state index source => state.sendVideoHeader index source extra dropped)
      .video [] extra dropped := by
  intro state index source heap mem slot handed numbered backs
  unfold State.sendVideoHeader
  dsimp only
  rw [handed]
  refine ⟨fun spent => ?_, fun usable => ?_⟩
  · rw [spent] at backs
    split_ifs
    all_goals
      apply Option.bind_eq_none_iff.mpr
      intro data _
      change (heap.free mem.array).bind _ = none
      rw [(free_spent backs).1, Option.bind_none]
  · obtain ⟨read, after, freed, own, given⟩ := header_released numbered backs usable
    refine ⟨after, ?_, own, given⟩
    cases dropped with
    | false =>
        change (heap.read mem.array mem.len).bind _ = _
        rw [read, Option.bind_some, freed]
        rfl
    | true =>
        change (heap.free mem.array).bind _ = _
        rw [freed]
        rfl

theorem sends_audio (settings : EncoderSettings) (extra : Option (List UInt8)) (dropped : Bool) :
    Sends (fun state index source => state.sendAudioHeader index source settings extra dropped)
      .audio [settings.code, 0x00] extra dropped := by
  intro state index source heap mem slot handed numbered backs
  unfold State.sendAudioHeader
  dsimp only
  rw [handed]
  refine ⟨fun spent => ?_, fun usable => ?_⟩
  · rw [spent] at backs
    apply Option.bind_eq_none_iff.mpr
    intro out _
    have copied := backs_kept numbered
      (own_malloc numbered (settings.code :: 0x00 :: out)) backs fun _ _ => nofun
    change ((heap.malloc _).free mem.array).bind _ = none
    rw [(free_spent copied).1, Option.bind_none]
  · obtain ⟨read, -⟩ := header_released numbered backs usable
    have copied := backs_kept numbered
      (own_malloc numbered (settings.code :: 0x00 :: slot.bytes)) backs fun _ _ => nofun
    obtain ⟨-, freed, release, own, given⟩ :=
      header_released (malloc_numbered numbered _) copied usable
    obtain ⟨after, released, owned, holds, -⟩ := passing_released numbered backs own given
    refine ⟨after, ?_, owned, holds⟩
    change (heap.read mem.array mem.len).bind _ = _
    rw [read, Option.bind_some]
    change ((heap.malloc _).free mem.array).bind _ = _
    rw [release, Option.bind_some]
    change (freed.free (some heap.count)).bind _ = _
    rw [released]
    rfl

/-- What a private source hands out is its own. -/
theorem handed_private (own : source.is_private = true) (extra : Option (List UInt8)) :
    state.getHeaderInternal source type extra =
      ⟨state.heap, (source.header type).array, (source.header type).len⟩ := by
  rw [State.getHeaderInternal, if_pos own]

/-- What a plugin hands out is a header of no source. -/
theorem handed_plugin (numbered : state.heap.Numbered) (plugin : source.is_private = false)
    (type : EncoderType) (extra : Option (List UInt8)) :
    ∃ heap mem slot, state.getHeaderInternal source type extra = ⟨heap, mem.array, mem.len⟩ ∧
      heap.Numbered ∧ Backs heap mem slot ∧ slot ≠ .spent ∧ slot.bytes = extra.getD [] ∧
      ∀ after, OwnBlock heap mem after mem → OwnBlock state.heap Bmem.init after Bmem.init := by
  rw [State.getHeaderInternal, if_neg (by rw [plugin]; nofun)]
  cases extra with
  | none => exact ⟨state.heap, Bmem.init, .unset, rfl, numbered, rfl, nofun, rfl, fun _ own => own⟩
  | some bytes =>
      refine ⟨state.heap.malloc bytes, ⟨some state.heap.count, bytes.length⟩, .held bytes, rfl,
        malloc_numbered numbered bytes, ?_, nofun, rfl, ?_⟩
      · exact ⟨rfl, state.heap.count, [], rfl, by rw [malloc_new, List.append_nil]⟩
      · intro after own
        refine ⟨Nat.le_of_succ_le own.count, own.numbered, fun block bound _ => ?_, Or.inl rfl⟩
        rw [own.others block (Nat.lt_succ_of_lt bound)
          fun same => Nat.lt_irrefl _ (Option.some.inj same ▸ bound)]
        exact malloc_other bytes (Nat.ne_of_lt bound)

theorem send_performed {call : State → Nat → MgwSource → Option State} {codes : List UInt8}
    {extra : Option (List UInt8)} {dropped : Bool} (sends : Sends call type codes extra dropped)
    (related : Related tracked state) (usable : Usable tracked index type) :
    ∃ after, withSource state index (call state index) = some after ∧
      Related (tracked.send index type codes extra dropped) after := by
  cases accounted : tracked.sources index with
  | none =>
      rw [with_source_absent (related.absent index accounted), send_absent accounted]
      exact ⟨state, rfl, related⟩
  | some account =>
      obtain ⟨source, here, mirrors⟩ := related.present index account accounted
      rw [with_source_here here, send_accounted accounted, related.sent.symm]
      cases own : account.is_private with
      | false =>
          obtain ⟨heap, mem, slot, handed, numbered, backs, fresh, bytes, apart⟩ :=
            handed_plugin related.numbered (mirrors.is_private.trans own) type extra
          obtain ⟨after, result, owned, -⟩ :=
            (sends state index source heap mem slot handed numbered backs).2 fresh
          rw [result, change_plugin accounted own]
          refine ⟨_, rfl, related_heap related (apart after owned) ?_⟩
          rw [bytes, Tracked.headerBytes, own]
          rfl
      | true =>
          obtain ⟨after, result, owned, given⟩ := (sends state index source state.heap
            (source.header type) (account.slot type)
            (handed_private (mirrors.is_private.trans own) extra) related.numbered
            (mirrors.backs type)).2 (usable account accounted own)
          rw [result, change_private accounted own]
          have bytes : Tracked.headerBytes account type extra = (account.slot type).bytes := by
            rw [Tracked.headerBytes, if_pos own]
          have changed := related_changed related here accounted owned given
            (fun plugin => by rw [own] at plugin; contradiction)
            (@rfl _ (state.sendHeader index type after (codes ++ (account.slot type).bytes)
              dropped).sent)
          rw [Function.update_eq_self, here.symm, Function.update_eq_self] at changed
          rw [bytes]
          exact ⟨_, rfl, changed⟩

theorem send_refused {call : State → Nat → MgwSource → Option State} {codes : List UInt8}
    {extra : Option (List UInt8)} {dropped : Bool} (sends : Sends call type codes extra dropped)
    (related : Related tracked state) (unusable : ¬Usable tracked index type) :
    withSource state index (call state index) = none := by
  obtain ⟨source, account, here, own, spent, mirrors⟩ := unusable_source related unusable
  rw [with_source_here here]
  exact (sends state index source state.heap (source.header type) (account.slot type)
    (handed_private own extra) related.numbered (mirrors.backs type)).1 spent

/-- The audio header is released first, which leaves the video header as it was. -/
theorem audio_freed (related : Related tracked state) (here : state.sources index = some source)
    (mirrors : Mirrors state.heap source account) (usable : account.slot .audio ≠ .spent) :
    ∃ between mem', bmemFree state.heap (source.header .audio) = some (between, mem') ∧
      OwnBlock state.heap (source.header .audio) between mem' ∧
      Backs between (source.header .video) (account.slot .video) := by
  obtain ⟨between, mem', freed, own, -⟩ :=
    buffer_freed related.numbered (mirrors.backs .audio) usable
  refine ⟨between, mem', freed, own, backs_kept related.numbered own (mirrors.backs .video) ?_⟩
  intro block video audio
  have same := (related.apart index index source source .video .audio block here here video audio).2
  contradiction

theorem destroy_performed (related : Related tracked state)
    (video : Usable tracked index .video) (audio : Usable tracked index .audio) :
    ∃ after, withSource state index (state.mgwSourceDestroy index) = some after ∧
      Related (tracked.remove index) after := by
  cases accounted : tracked.sources index with
  | none =>
      have absent := related.absent index accounted
      have removed : tracked.remove index = tracked := by
        rw [Tracked.remove, ← accounted, Function.update_eq_self]
      rw [with_source_absent absent, removed]
      exact ⟨state, rfl, related⟩
  | some account =>
      obtain ⟨source, here, mirrors⟩ := related.present index account accounted
      have unspent : ∀ type, Usable tracked index type → account.slot type ≠ .spent := by
        intro type usable
        cases own : account.is_private with
        | false => exact mirrors.plugin own type
        | true => exact usable account accounted own
      obtain ⟨between, memAudio, freedAudio, ownAudio, kept⟩ :=
        audio_freed related here mirrors (unspent .audio audio)
      obtain ⟨after, memVideo, freedVideo, ownVideo, -⟩ :=
        buffer_freed ownAudio.numbered kept (unspent .video video)
      refine ⟨{ state.setSource index none with heap := after }, ?_,
        related_removed related here ownVideo.numbered
          (Nat.le_trans ownAudio.count ownVideo.count) ?_⟩
      · rw [with_source_here here]
        change (bmemFree state.heap (source.header .audio)).bind _ = _
        rw [freedAudio, Option.bind_some]
        change (bmemFree between (source.header .video)).bind _ = _
        rw [freedVideo]
        rfl
      · intro block bound others
        rw [ownVideo.others block (Nat.lt_of_lt_of_le bound ownAudio.count) (others .video)]
        exact ownAudio.others block bound (others .audio)

theorem destroy_refused (related : Related tracked state)
    (unusable : ¬(Usable tracked index .video ∧ Usable tracked index .audio)) :
    withSource state index (state.mgwSourceDestroy index) = none := by
  cases accounted : tracked.sources index with
  | none =>
      refine absurd ⟨?_, ?_⟩ unusable
      all_goals
        intro source member
        rw [accounted] at member
        contradiction
  | some account =>
      obtain ⟨source, here, mirrors⟩ := related.present index account accounted
      rw [with_source_here here]
      change (bmemFree state.heap (source.header .audio)).bind _ = none
      by_cases audio : account.slot .audio = .spent
      · have backs := mirrors.backs .audio
        rw [audio] at backs
        rw [(free_spent backs).2, Option.bind_none]
      · obtain ⟨between, mem', freed, -, kept⟩ := audio_freed related here mirrors audio
        have video : account.slot .video = .spent := by
          by_contra usable
          refine unusable ⟨fun other member _ => ?_, fun other member _ => ?_⟩
          all_goals
            rw [accounted] at member
            rw [← Option.some.inj member]
            assumption
        rw [video] at kept
        rw [freed, Option.bind_some]
        change (bmemFree between (source.header .video)).bind _ = none
        rw [(free_spent kept).2, Option.bind_none]

theorem first_unspent (extra : Option (List UInt8)) : HeaderSlot.first extra ≠ .spent := by
  cases extra with
  | none => nofun
  | some bytes =>
      change (if bytes = [] then HeaderSlot.unset else .held bytes) ≠ .spent
      split_ifs
      · nofun
      · nofun

/-- A new buffer points to a new block, if to any. -/
theorem own_fresh {heap after : Heap} {mem : Bmem} (own : OwnBlock heap Bmem.init after mem)
    {block : Nat} (array : mem.array = some block) : heap.count ≤ block ∧ block < after.count := by
  rcases own.array with same | ⟨new, points, past, bound⟩
  · rw [same] at array
    contradiction
  · rw [← Option.some.inj (points.symm.trans array)]
    exact ⟨past, bound⟩

theorem new_buffer {heap : Heap} : Backs heap Bmem.init .unset := rfl

theorem pair_created (related : Related tracked state) {after : Heap}
    (own : OwnBlock state.heap Bmem.init after Bmem.init) (is_private : Bool)
    (header : EncoderType → Bmem) (slot : EncoderType → HeaderSlot)
    (backs : ∀ type, Backs after (header type) (slot type)) (unspent : ∀ type, slot type ≠ .spent)
    (fresh : ∀ type block, (header type).array = some block → state.heap.count ≤ block)
    (apart : ∀ block, (header .video).array = some block → (header .audio).array ≠ some block) :
    Related (tracked.create { is_private := is_private, slot := slot })
      { state with
        heap := after
        sources := Function.update state.sources state.sourceCount
          (some { is_private := is_private, header := header })
        sourceCount := state.sourceCount + 1 } := by
  apply related_created related own ⟨rfl, backs, fun _ => unspent⟩ fresh
  intro left right block leftArray rightArray
  cases left with
  | audio =>
      cases right with
      | audio => rfl
      | video => exact absurd leftArray (apart block rightArray)
  | video =>
      cases right with
      | audio => exact absurd rightArray (apart block leftArray)
      | video => rfl

theorem create_private_performed (related : Related tracked state) (audio : Option AudioMeta) :
    ∃ after, state.createPrivate audio = some after ∧
      Related (track tracked (.createPrivate audio)) after := by
  have unspent : ∀ type, Function.update (fun _ => HeaderSlot.unset) EncoderType.audio
      (HeaderSlot.first (audio.map AudioMeta.header)) type ≠ .spent := by
    intro type
    cases type with
    | audio =>
        rw [Function.update_self]
        exact first_unspent _
    | video => nofun
  cases audio with
  | none =>
      refine ⟨_, rfl, pair_created related (own_refl related.numbered Bmem.init) true
        (fun _ => Bmem.init) _ (fun type => ?_) unspent nofun nofun⟩
      cases type with
      | audio => rfl
      | video => rfl
  | some audio =>
      obtain ⟨after, mem, kept, own, backs, -⟩ := header_kept related.numbered
        new_buffer nofun none audio.header
      have created := pair_created related ⟨own.count, own.numbered, own.others, Or.inl rfl⟩ true
        (Function.update (fun _ => Bmem.init) .audio mem) _ (fun type => ?_) unspent
        (fun type block array => ?_) nofun
      · refine ⟨_, ?_, created⟩
        unfold State.createPrivate State.mgwSourceSetAudioExtraData
        dsimp only
        rw [if_pos rfl]
        change (keepHeader (getExtraData state.heap none (some audio.header)) Bmem.init).map _ = _
        rw [kept, Option.map_some]
        unfold State.setHeader State.setSource
        dsimp only
        rw [Function.update_idem]
      · cases type with
        | audio =>
            rw [Function.update_self, Function.update_self]
            exact backs
        | video => rfl
      · cases type with
        | audio =>
            rw [Function.update_self] at array
            exact (own_fresh own array).1
        | video => contradiction

/-- A header that a plugin hands out at its creation, after what became of the pointer. -/
theorem plugin_header {heap : Heap} (numbered : heap.Numbered) (header : Option Nat)
    (extra : Option (List UInt8)) (null : extra = none → header = none) :
    ∃ after mem, keepHeader (getExtraData heap header extra) Bmem.init = some (after, mem) ∧
      OwnBlock heap Bmem.init after mem ∧ Backs after mem (HeaderSlot.first extra) ∧
      (extra.isSome → after.blocks heap.count = none) := by
  cases extra with
  | none =>
      rw [null rfl]
      exact ⟨heap, Bmem.init, rfl, own_refl numbered Bmem.init, rfl, nofun⟩
  | some bytes =>
      obtain ⟨after, mem, kept, own, backs, gone⟩ :=
        header_kept numbered new_buffer nofun header bytes
      exact ⟨after, mem, kept, own, backs, fun _ => gone⟩

theorem create_plugin_performed (related : Related tracked state)
    {video audio : Option (List UInt8)} (both : video.isSome → audio.isSome) :
    ∃ after, state.createPlugin video audio = some after ∧
      Related (track tracked (.createPlugin video audio)) after := by
  obtain ⟨between, videoMem, videoKept, videoOwn, videoBacks, -⟩ :=
    plugin_header related.numbered none video fun _ => rfl
  have null : audio = none → (getExtraData state.heap none video).header = none := by
    intro missing
    cases video with
    | none => rfl
    | some bytes =>
        rw [missing] at both
        exact absurd (both rfl) nofun
  obtain ⟨after, audioMem, audioKept, audioOwn, audioBacks, -⟩ :=
    plugin_header videoOwn.numbered _ audio null
  have videoStays := backs_kept videoOwn.numbered audioOwn videoBacks fun _ _ => nofun
  have own : OwnBlock state.heap Bmem.init after Bmem.init := by
    refine ⟨Nat.le_trans videoOwn.count audioOwn.count, audioOwn.numbered, ?_, Or.inl rfl⟩
    intro block bound none
    rw [audioOwn.others block (Nat.lt_of_lt_of_le bound videoOwn.count) none]
    exact videoOwn.others block bound none
  have created := pair_created related own false
    (fun type => if type = .video then videoMem else audioMem)
    (fun type => HeaderSlot.first (if type = .video then video else audio))
    (fun type => ?_) (fun type => first_unspent _) (fun type block array => ?_)
    (fun block videoArray audioArray => ?_)
  · refine ⟨_, ?_, created⟩
    change (keepHeader (getExtraData state.heap none video) Bmem.init).bind _ = _
    rw [videoKept, Option.bind_some]
    change (keepHeader (getExtraData between _ audio) Bmem.init).bind _ = _
    rw [audioKept]
    rfl
  · cases type with
    | audio => exact audioBacks
    | video => exact videoStays
  · cases type with
    | audio => exact Nat.le_trans videoOwn.count (own_fresh audioOwn array).1
    | video => exact (own_fresh videoOwn array).1
  · have early := (own_fresh videoOwn videoArray).2
    have late := (own_fresh audioOwn audioArray).1
    omega

theorem create_plugin_refused (related : Related tracked state)
    {video audio : Option (List UInt8)} (missing : ¬(video.isSome → audio.isSome)) :
    state.createPlugin video audio = none := by
  cases audio with
  | some bytes => exact absurd (fun _ => rfl) missing
  | none =>
      cases video with
      | none => exact absurd nofun missing
      | some bytes =>
          obtain ⟨between, mem, kept, -, -, gone⟩ :=
            plugin_header related.numbered none (some bytes) nofun
          change (keepHeader (getExtraData state.heap none (some bytes)) Bmem.init).bind _ = none
          rw [kept, Option.bind_some]
          change ((between.free (some state.heap.count)).bind _).bind _ = none
          rw [free_released (gone rfl)]
          rfl

theorem step_performed (tracked : Tracked) (state : State) (action : Action)
    (related : Related tracked state) (allowed : Allowed tracked action) :
    ∃ after, next state action = some after ∧ Related (track tracked action) after := by
  cases action with
  | createPrivate audio => exact create_private_performed related audio
  | createPlugin video audio => exact create_plugin_performed related allowed
  | setVideo index extra_data => exact set_performed (sets_video extra_data) related allowed
  | setAudio index audio => exact set_performed (sets_audio audio) related allowed
  | sendAudio index settings extra dropped =>
      exact send_performed (sends_audio settings extra dropped) related allowed
  | sendVideo index extra dropped =>
      exact send_performed (sends_video extra dropped) related allowed
  | destroy index => exact destroy_performed related allowed.1 allowed.2

theorem step_refused (tracked : Tracked) (state : State) (action : Action)
    (related : Related tracked state) (refused : ¬Allowed tracked action) :
    next state action = none := by
  cases action with
  | createPrivate audio => exact absurd trivial refused
  | createPlugin video audio => exact create_plugin_refused related refused
  | setVideo index extra_data => exact set_refused (sets_video extra_data) related refused
  | setAudio index audio => exact set_refused (sets_audio audio) related refused
  | sendAudio index settings extra dropped =>
      exact send_refused (sends_audio settings extra dropped) related refused
  | sendVideo index extra dropped =>
      exact send_refused (sends_video extra dropped) related refused
  | destroy index => exact destroy_refused related refused

end Steps

/-- A run comes to its end, with every block released at most once and none read or
written after its release, and every header is delivered as it was last set, exactly
when the account allows each of its calls. -/
theorem headers_have_one_owner (actions : List Action) :
    (∃ final, tryRun next initial actions = some final ∧
      final.sent = (run track Tracked.initial actions).sent) ↔
      Meets track Allowed Tracked.initial actions := by
  obtain ⟨performed, refused⟩ :=
    try_run_tracked step_performed step_refused actions Tracked.initial initial related_initial
  constructor
  · intro whole
    obtain ⟨final, reached, -⟩ := whole
    by_contra broken
    rw [refused broken] at reached
    contradiction
  · intro meets
    obtain ⟨final, reached, related⟩ := performed meets
    exact ⟨final, reached, related.sent⟩

/-- A private source whose video header is sent twice, one whose video header is sent
before the source is destroyed, and a plugin without audio. -/
theorem header_released_twice :
    tryRun next initial
        [.createPrivate none, .setVideo 0 [1], .sendVideo 0 none false, .sendVideo 0 none false]
      = none ∧
    tryRun next initial
        [.createPrivate none, .setVideo 0 [1], .sendVideo 0 none false, .destroy 0] = none ∧
    tryRun next initial [.createPlugin (some [1]) none] = none := by
  refine ⟨rfl, rfl, rfl⟩

end Mgw.SourceHeaders

import Mathlib.Data.Finset.Card
import Mgw.KeyedHistory
import Mgw.TransitionRuns
import Mgw.WsRepeated

/-!
# The duplicate filter over whole histories

A message is repeated when the latest one recorded from its address in its slot has
the same number and is less than thirty seconds away. The table holds that latest
message for each address and slot, as long as the second and later addresses are
heard once only; the clock then decides whether the answer is right.
-/

namespace Mgw.WsRepeatedHistory

open KeyedHistory TransitionRuns WordArithmetic WsRepeated

set_option autoImplicit false

/-- The table, with all messages that were recorded. -/
structure Session where
  record : Records
  recorded : List TextMessage

def Session.start : Session where
  record := emptyRecords
  recorded := []

def Session.next (session : Session) (text : TextMessage) : Session :=
  match repeatedMessage session.record text with
  | none => session
  | some filtered =>
      { record := filtered.record
        recorded := if filtered.recorded then session.recorded ++ [text] else session.recorded }

/-- The address and the slot of a message. -/
def keyOf (text : TextMessage) : List UInt8 × Int := (text.local_addr, slotOf text.msg_no)

/-- Less than thirty seconds lie between the two clocks. -/
def Recent (earlier now : Int) : Prop := |now - earlier| < REPEATED_GAP_MAX

def Repeats (recorded : List TextMessage) (text : TextMessage) : Prop :=
  ∃ last, latest keyOf recorded (keyOf text) = some last ∧ last.msg_no = text.msg_no ∧
    Recent last.cur_ts text.cur_ts

/-- The clock is less than thirty seconds from a multiple of 2^32, or half way between two. -/
def NearWrap (now : Int) : Prop :=
  now % 4294967296 < 30 ∨ 4294967266 < now % 4294967296 ∨ now % 4294967296 = 2147483648

/-- Where the number is that of the slot, the clock is near a wrap just when the
latest message is recent; a slot that was never used has the number zero. -/
def ClockAgrees (recorded : List TextMessage) (text : TextMessage) : Prop :=
  match latest keyOf recorded (keyOf text) with
  | none => text.msg_no = 0 → ¬NearWrap text.cur_ts
  | some last => last.msg_no = text.msg_no → (Recent last.cur_ts text.cur_ts ↔ NearWrap text.cur_ts)

/-- The slot is not negative, the first record has an address, no later record has
that of the message, and the clock agrees. -/
structure FilterKept (session : Session) (text : TextMessage) : Prop where
  slot : 0 ≤ slotOf text.msg_no
  addressed : (session.record 0).used = true → (session.record 0).dest_addr ≠ none
  first : ∀ i < RECORD_DEST_MAX, 0 < i → (session.record i).used = true →
    (session.record i).dest_addr ≠ dstrCopy text.local_addr
  clock : (session.record 0).used = true → (session.record 0).dest_addr = some text.local_addr →
    ClockAgrees session.recorded text

instance recent_decidable (earlier now : Int) : Decidable (Recent earlier now) :=
  inferInstanceAs (Decidable (|now - earlier| < REPEATED_GAP_MAX))

instance near_wrap_decidable (now : Int) : Decidable (NearWrap now) :=
  inferInstanceAs (Decidable (_ ∨ _ ∨ _))

instance clock_agrees_decidable (recorded : List TextMessage) (text : TextMessage) :
    Decidable (ClockAgrees recorded text) :=
  match found : latest keyOf recorded (keyOf text) with
  | none => decidable_of_iff (text.msg_no = 0 → ¬NearWrap text.cur_ts) (by simp [ClockAgrees, found])
  | some last =>
      decidable_of_iff (last.msg_no = text.msg_no →
        (Recent last.cur_ts text.cur_ts ↔ NearWrap text.cur_ts)) (by simp [ClockAgrees, found])

instance filter_kept_decidable (session : Session) (text : TextMessage) :
    Decidable (FilterKept session text) :=
  decidable_of_iff (0 ≤ slotOf text.msg_no ∧
      ((session.record 0).used = true → (session.record 0).dest_addr ≠ none) ∧
      (∀ i < RECORD_DEST_MAX, 0 < i → (session.record i).used = true →
        (session.record i).dest_addr ≠ dstrCopy text.local_addr) ∧
      ((session.record 0).used = true → (session.record 0).dest_addr = some text.local_addr →
        ClockAgrees session.recorded text))
    ⟨fun ⟨slot, addressed, first, clock⟩ => ⟨slot, addressed, first, clock⟩,
      fun ⟨slot, addressed, first, clock⟩ => ⟨slot, addressed, first, clock⟩⟩

section Arithmetic

theorem slot_lt (msg_no : UInt32) : slotOf msg_no < 30 :=
  Int.tmod_lt_of_pos _ (by decide)

/-- The entry that is looked at was never written, so only the clock counts. -/
theorem gap_small_iff (now : Int) : gapSmall 0 now = true ↔ NearWrap now := by
  unfold gapSmall NearWrap absInt toInt int32 u32 wordSize REPEATED_GAP_MAX
  rw [decide_eq_true_iff]
  split_ifs with positive least least'
  · omega
  · rw [abs_lt]
    omega
  · omega
  · rw [abs_lt]
    omega

theorem dstr_copy_injective {left right : List UInt8} (same : dstrCopy left = dstrCopy right) :
    left = right := by
  unfold dstrCopy at same
  split_ifs at same with leftEmpty rightEmpty
  · rw [leftEmpty, rightEmpty]
  · exact Option.some.inj same

theorem dstr_copy_some {address : List UInt8} (nonempty : dstrCopy address ≠ none) :
    dstrCopy address = some address := by
  unfold dstrCopy at nonempty ⊢
  split_ifs at nonempty ⊢
  · contradiction
  · rfl

end Arithmetic

/-- The entry that a slot has after its latest message. -/
def infoOf : Option TextMessage → RecordInfo
  | none => { last_msg_no := 0, last_ts := 0 }
  | some text => { last_msg_no := text.msg_no, last_ts := (text.cur_ts % 4294967296).toNat }

/-- The addresses in the order in which they were first recorded, and what the table
holds for them. -/
structure TableInvariant (session : Session) (addresses : List (List UInt8)) : Prop where
  entry : ∀ i address, addresses[i]? = some address →
    (session.record i).used = true ∧ (session.record i).dest_addr = dstrCopy address ∧
      ∀ pos : Nat, (session.record i).rec_info pos =
        infoOf (latest keyOf session.recorded (address, (pos : Int)))
  unused : ∀ i, addresses.length ≤ i → (session.record i).used = false ∧
    ∀ pos, (session.record i).rec_info pos = infoOf none
  unwritten : ∀ i, (session.record i).last_recv_ts = 0
  distinct : addresses.Nodup
  noted : ∀ text ∈ session.recorded, text.local_addr ∈ addresses

section Search

variable {session : Session} {addresses : List (List UInt8)}

/-- Where no address matches, the loop ends behind the used records. -/
theorem search_other (invariant : TableInvariant session addresses) (rounds i : Nat)
    (inside : i ≤ addresses.length) (room : addresses.length < i + rounds) :
    searchLoop session.record false rounds i = .free addresses.length := by
  induction rounds generalizing i with
  | zero => omega
  | succ rounds ih =>
      unfold searchLoop
      by_cases last : i = addresses.length
      · rw [last, if_pos (invariant.unused _ (Nat.le_refl _)).1]
      · have more : i < addresses.length := by omega
        have used := (invariant.entry i _ (List.getElem?_eq_getElem more)).1
        rw [if_neg (by simp [used]), if_neg (by simp)]
        exact ih (i + 1) (by omega) (by omega)

theorem search_first (invariant : TableInvariant session addresses) (nonempty : addresses ≠ []) :
    searchLoop session.record true RECORD_DEST_MAX 0 = .found 0 := by
  have more : 0 < addresses.length := List.length_pos_of_ne_nil nonempty
  exact search_known (invariant.entry 0 _ (List.getElem?_eq_getElem more)).1

/-- A used record is that of some address. -/
theorem used_address (invariant : TableInvariant session addresses) {i : Nat}
    (used : (session.record i).used = true) :
    ∃ address, addresses[i]? = some address ∧ (session.record i).dest_addr = dstrCopy address := by
  by_cases inside : i < addresses.length
  · have found := List.getElem?_eq_getElem inside
    exact ⟨_, found, (invariant.entry i _ found).2.1⟩
  · rw [(invariant.unused i (Nat.le_of_not_lt inside)).1] at used
    contradiction

/-- The table has one used record for an address at most. -/
theorem record_unique (invariant : TableInvariant session addresses) {i j : Nat}
    (usedI : (session.record i).used = true) (usedJ : (session.record j).used = true)
    (same : (session.record i).dest_addr = (session.record j).dest_addr) : i = j := by
  obtain ⟨left, atI, leftDest⟩ := used_address invariant usedI
  obtain ⟨right, atJ, rightDest⟩ := used_address invariant usedJ
  have equal : left = right := dstr_copy_injective (by rw [← leftDest, ← rightDest, same])
  rw [← equal] at atJ
  have insideI := (List.getElem?_eq_some_iff.mp atI).1
  exact (List.getElem?_inj insideI invariant.distinct).mp (atI.trans atJ.symm)

end Search

section Recording

variable {session : Session} {addresses : List (List UInt8)} {text : TextMessage}

theorem slot_cast (slot : 0 ≤ slotOf text.msg_no) :
    ((slotOf text.msg_no).toNat : Int) = slotOf text.msg_no := Int.toNat_of_nonneg slot

/-- The slot of the message has its data, every other one keeps what it has. -/
theorem note_slots (slot : 0 ≤ slotOf text.msg_no) {record : MessageRecord}
    {recorded : List TextMessage} {address : List UInt8} (same : text.local_addr = address)
    (slots : ∀ pos : Nat, record.rec_info pos = infoOf (latest keyOf recorded (address, (pos : Int))))
    (pos : Nat) :
    (record.note (slotOf text.msg_no).toNat text).rec_info pos =
      infoOf (latest keyOf (recorded ++ [text]) (address, (pos : Int))) := by
  unfold MessageRecord.note
  by_cases here : pos = (slotOf text.msg_no).toNat
  · rw [latest_append_same]
    · rw [here]
      exact Function.update_self ..
    · rw [here, slot_cast slot, ← same]
      rfl
  · rw [latest_append_other]
    · exact (Function.update_of_ne here ..).trans (slots pos)
    · intro equal
      have slots : slotOf text.msg_no = pos := congrArg Prod.snd equal
      apply here
      rw [slots]
      rfl

theorem latest_other {recorded : List TextMessage} {address : List UInt8}
    (different : text.local_addr ≠ address) (slot : Int) :
    latest keyOf (recorded ++ [text]) (address, slot) = latest keyOf recorded (address, slot) := by
  apply latest_append_other
  intro equal
  exact different (congrArg Prod.fst equal)

theorem new_latest_none (invariant : TableInvariant session addresses)
    (new : text.local_addr ∉ addresses) (slot : Int) :
    latest keyOf session.recorded (text.local_addr, slot) = none := by
  apply latest_eq_none
  intro noted member equal
  have same : noted.local_addr = text.local_addr := congrArg Prod.fst equal
  exact new (same ▸ invariant.noted noted member)

/-- A record that is not written keeps what it holds for its address. -/
theorem entry_elsewhere (invariant : TableInvariant session addresses) {i place : Nat}
    {address : List UInt8} (found : addresses[i]? = some address) (elsewhere : i ≠ place)
    (different : text.local_addr ≠ address) (written : MessageRecord) :
    (Function.update session.record place written i).used = true ∧
      (Function.update session.record place written i).dest_addr = dstrCopy address ∧
      ∀ pos : Nat, (Function.update session.record place written i).rec_info pos =
        infoOf (latest keyOf (session.recorded ++ [text]) (address, (pos : Int))) := by
  obtain ⟨used, dest, slots⟩ := invariant.entry i address found
  rw [Function.update_of_ne elsewhere]
  refine ⟨used, dest, ?_⟩
  intro pos
  rw [latest_other different]
  exact slots pos

theorem unwritten_update (invariant : TableInvariant session addresses) {place : Nat}
    {written : MessageRecord} (same : written.last_recv_ts = (session.record place).last_recv_ts)
    (i : Nat) : (Function.update session.record place written i).last_recv_ts = 0 := by
  by_cases here : i = place
  · rw [here, Function.update_self, same]
    exact invariant.unwritten place
  · rw [Function.update_of_ne here]
    exact invariant.unwritten i

/-- A message of the first address, noted in the first record. -/
theorem note_first_invariant (invariant : TableInvariant session addresses)
    (slot : 0 ≤ slotOf text.msg_no) (first : addresses[0]? = some text.local_addr) :
    TableInvariant
      { record := Function.update session.record 0
          ((session.record 0).note (slotOf text.msg_no).toNat text)
        recorded := session.recorded ++ [text] } addresses := by
  have inside := (List.getElem?_eq_some_iff.mp first).1
  constructor
  · intro i address found
    by_cases zero : i = 0
    · rw [zero] at found ⊢
      obtain ⟨used, dest, slots⟩ := invariant.entry 0 address found
      have same : text.local_addr = address := Option.some.inj (first.symm.trans found)
      simp only [Function.update_self]
      exact ⟨used, dest, note_slots slot same slots⟩
    · apply entry_elsewhere invariant found zero
      intro same
      rw [← same] at found
      have insideI := (List.getElem?_eq_some_iff.mp found).1
      exact zero ((List.getElem?_inj insideI invariant.distinct).mp (found.trans first.symm))
  · intro i outside
    have notFirst : i ≠ 0 := by omega
    simp only [Function.update_of_ne notFirst]
    exact invariant.unused i outside
  · exact unwritten_update invariant rfl
  · exact invariant.distinct
  · intro noted member
    rcases List.mem_append.mp member with old | new
    · exact invariant.noted noted old
    · rw [List.mem_singleton.mp new]
      exact List.mem_of_getElem? first

/-- The record that a new address takes. -/
def newRecord (record : MessageRecord) (text : TextMessage) : MessageRecord :=
  let noted := record.note (slotOf text.msg_no).toNat text
  { noted with
    dest_addr := dstrCopy text.local_addr
    last_recv_total := u32 (noted.last_recv_total + 1)
    used := true }

/-- The slots of an unused record that a new address takes. -/
theorem new_record_slots (invariant : TableInvariant session addresses)
    (slot : 0 ≤ slotOf text.msg_no) (new : text.local_addr ∉ addresses) (pos : Nat) :
    (newRecord (session.record addresses.length) text).rec_info pos =
      infoOf (latest keyOf (session.recorded ++ [text]) (text.local_addr, (pos : Int))) := by
  apply note_slots slot rfl
  intro pos
  rw [new_latest_none invariant new]
  exact (invariant.unused _ (Nat.le_refl _)).2 pos

/-- A message of a new address, noted behind the used records. -/
theorem note_new_invariant (invariant : TableInvariant session addresses)
    (slot : 0 ≤ slotOf text.msg_no) (new : text.local_addr ∉ addresses) :
    TableInvariant
      { record := Function.update session.record addresses.length
          (newRecord (session.record addresses.length) text)
        recorded := session.recorded ++ [text] } (addresses ++ [text.local_addr]) := by
  constructor
  · intro i address found
    by_cases last : i = addresses.length
    · rw [last, List.getElem?_concat_length] at found
      rw [← Option.some.inj found, last]
      simp only [Function.update_self]
      exact ⟨rfl, rfl, new_record_slots invariant slot new⟩
    · have inside := (List.getElem?_eq_some_iff.mp found).1
      rw [List.length_append, List.length_singleton] at inside
      rw [List.getElem?_append_left (by omega)] at found
      apply entry_elsewhere invariant found last
      intro same
      exact new (same ▸ List.mem_of_getElem? found)
  · intro i outside
    rw [List.length_append, List.length_singleton] at outside
    have notLast : i ≠ addresses.length := by omega
    simp only [Function.update_of_ne notLast]
    exact invariant.unused i (by omega)
  · exact unwritten_update invariant rfl
  · apply List.nodup_append.mpr
    refine ⟨invariant.distinct, List.nodup_singleton _, ?_⟩
    intro left here right there same
    rw [List.mem_singleton.mp there] at same
    exact new (same ▸ here)
  · intro noted member
    rcases List.mem_append.mp member with old | latest
    · exact List.mem_append_left _ (invariant.noted noted old)
    · rw [List.mem_singleton.mp latest]
      exact List.mem_append_right _ List.mem_cons_self

end Recording

/-- One call: the answer is right, and the table is kept for the addresses, of which
that of the message may be a new one. -/
structure Answers (session : Session) (text : TextMessage) (addresses : List (List UInt8)) :
    Prop where
  result : ∃ filtered, repeatedMessage session.record text = some filtered ∧
    (session.next text).record = filtered.record ∧
      (filtered.repeated = true ↔ Repeats session.recorded text)
  kept : ∃ addresses', TableInvariant (session.next text) addresses' ∧
    addresses' ⊆ text.local_addr :: addresses

section Calls

variable {session : Session} {addresses : List (List UInt8)} {text : TextMessage}

theorem next_of_result {filtered : Filtered}
    (result : repeatedMessage session.record text = some filtered) :
    session.next text = { record := filtered.record
                          recorded := if filtered.recorded then session.recorded ++ [text]
                            else session.recorded } := by
  unfold Session.next
  rw [result]

/-- In the slot of the first address the number and the clock decide. -/
theorem check_iff (invariant : TableInvariant session addresses)
    (first : addresses[0]? = some text.local_addr) (slot : 0 ≤ slotOf text.msg_no)
    (clock : ClockAgrees session.recorded text) :
    (((session.record 0).rec_info (slotOf text.msg_no).toNat).last_msg_no = text.msg_no ∧
      gapSmall (session.record (slotOf text.msg_no).toNat).last_recv_ts text.cur_ts = true) ↔
        Repeats session.recorded text := by
  have slots := (invariant.entry 0 _ first).2.2 (slotOf text.msg_no).toNat
  rw [slot_cast slot] at slots
  change _ = infoOf (latest keyOf session.recorded (keyOf text)) at slots
  rw [slots, invariant.unwritten, gap_small_iff]
  unfold ClockAgrees at clock
  unfold Repeats
  cases found : latest keyOf session.recorded (keyOf text) with
  | none =>
      rw [found] at clock
      constructor
      · rintro ⟨number, near⟩
        exact absurd near (clock number.symm)
      · rintro ⟨last, impossible, -⟩
        contradiction
  | some last =>
      rw [found] at clock
      constructor
      · rintro ⟨number, near⟩
        exact ⟨last, rfl, number, (clock number).mpr near⟩
      · rintro ⟨other, same, number, recent⟩
        rw [← Option.some.inj same] at number recent
        exact ⟨number, (clock number).mp recent⟩

theorem answers_first (invariant : TableInvariant session addresses) (kept : FilterKept session text)
    (first : addresses[0]? = some text.local_addr) : Answers session text addresses := by
  obtain ⟨used, dest, -⟩ := invariant.entry 0 _ first
  have addressed := kept.addressed used
  rw [dest] at addressed
  have same : (session.record 0).dest_addr = some text.local_addr := by
    rw [dest, dstr_copy_some addressed]
  have check := check_iff invariant first kept.slot (kept.clock used same)
  have nonempty : addresses ≠ [] := by
    rintro rfl
    contradiction
  have found := search_first invariant nonempty
  by_cases again : Repeats session.recorded text
  · have result : repeatedMessage session.record text =
        some { repeated := true, recorded := false, record := session.record } := by
      unfold repeatedMessage
      simp only [same, used, decide_true, found]
      rw [if_neg (by simp), if_neg (Int.not_lt.mpr kept.slot), if_pos (check.mpr again)]
    constructor
    · exact ⟨_, result, by rw [next_of_result result], by simpa using again⟩
    · refine ⟨addresses, ?_, List.subset_cons_self _ _⟩
      rw [next_of_result result]
      exact invariant
  · have result : repeatedMessage session.record text =
        some { repeated := false
               recorded := true
               record := Function.update session.record 0
                ((session.record 0).note (slotOf text.msg_no).toNat text) } := by
      unfold repeatedMessage
      simp only [same, used, decide_true, found]
      rw [if_neg (by simp), if_neg (Int.not_lt.mpr kept.slot), if_neg (again ∘ check.mp)]
    constructor
    · exact ⟨_, result, by rw [next_of_result result], by simpa using again⟩
    · refine ⟨addresses, ?_, List.subset_cons_self _ _⟩
      rw [next_of_result result]
      exact note_first_invariant invariant kept.slot first

theorem search_new (invariant : TableInvariant session addresses) {same : Bool}
    (different : addresses ≠ [] → same = false) (room : addresses.length < RECORD_DEST_MAX) :
    searchLoop session.record same RECORD_DEST_MAX 0 = .free addresses.length := by
  by_cases empty : addresses = []
  · rw [search_unused (invariant.unused 0 (by simp [empty])).1, empty]
    rfl
  · rw [different empty]
    exact search_other invariant RECORD_DEST_MAX 0 (Nat.zero_le _) (by simpa using room)

/-- The address of the first record is not a new one. -/
theorem first_differs (invariant : TableInvariant session addresses) (kept : FilterKept session text)
    (new : text.local_addr ∉ addresses) (nonempty : addresses ≠ []) :
    decide ((session.record 0).dest_addr = some text.local_addr) = false := by
  have more : 0 < addresses.length := List.length_pos_of_ne_nil nonempty
  obtain ⟨used, dest, -⟩ := invariant.entry 0 _ (List.getElem?_eq_getElem more)
  have addressed := kept.addressed used
  rw [dest] at addressed
  rw [dest, dstr_copy_some addressed, decide_eq_false_iff_not]
  intro same
  exact new (Option.some.inj same ▸ List.getElem_mem more)

theorem result_new (invariant : TableInvariant session addresses) (kept : FilterKept session text)
    (new : text.local_addr ∉ addresses) (room : addresses.length < RECORD_DEST_MAX) :
    repeatedMessage session.record text =
      some { repeated := false
             recorded := true
             record := Function.update session.record addresses.length
              (newRecord (session.record addresses.length) text) } := by
  have free := search_new invariant (first_differs invariant kept new) room
  have notNull : ¬((session.record 0).used && decide ((session.record 0).dest_addr = none)) = true := by
    intro both
    rw [Bool.and_eq_true, decide_eq_true_iff] at both
    exact kept.addressed both.1 both.2
  unfold repeatedMessage
  simp only [free]
  rw [if_neg notNull, if_neg (Int.not_lt.mpr kept.slot)]
  rfl

theorem answers_new (invariant : TableInvariant session addresses) (kept : FilterKept session text)
    (new : text.local_addr ∉ addresses) (room : addresses.length < RECORD_DEST_MAX) :
    Answers session text addresses := by
  have result := result_new invariant kept new room
  have fresh : ¬Repeats session.recorded text := by
    rintro ⟨last, found, -⟩
    change latest keyOf session.recorded (text.local_addr, _) = _ at found
    rw [new_latest_none invariant new] at found
    contradiction
  constructor
  · exact ⟨_, result, by rw [next_of_result result], by simpa using fresh⟩
  · refine ⟨addresses ++ [text.local_addr], ?_, ?_⟩
    · rw [next_of_result result]
      exact note_new_invariant invariant kept.slot new
    · intro address member
      rcases List.mem_append.mp member with old | latest
      · exact List.mem_cons_of_mem _ old
      · rw [List.mem_singleton.mp latest]
        exact List.mem_cons_self

/-- Each message that meets the condition is from the first address or a new one. -/
theorem answers_step (invariant : TableInvariant session addresses) (kept : FilterKept session text)
    (room : text.local_addr ∉ addresses → addresses.length < RECORD_DEST_MAX)
    (few : addresses.length ≤ RECORD_DEST_MAX) : Answers session text addresses := by
  by_cases known : text.local_addr ∈ addresses
  · obtain ⟨i, inside, found⟩ := List.getElem_of_mem known
    have entry : addresses[i]? = some text.local_addr := by
      rw [List.getElem?_eq_getElem inside, found]
    have zero : i = 0 := by
      by_contra later
      obtain ⟨used, dest, -⟩ := invariant.entry i _ entry
      exact kept.first i (by omega) (Nat.pos_of_ne_zero later) used dest
    exact answers_first invariant kept (zero ▸ entry)
  · exact answers_new invariant kept known (room known)

theorem start_invariant : TableInvariant Session.start [] where
  entry := by
    intro i address found
    contradiction
  unused := fun _ _ => ⟨rfl, fun _ => rfl⟩
  unwritten := fun _ => rfl
  distinct := List.nodup_nil
  noted := by
    intro text member
    contradiction

end Calls

section Runs

variable {allowed : Finset (List UInt8)}

/-- Different addresses out of few leave room for another one. -/
theorem few_addresses (few : allowed.card ≤ RECORD_DEST_MAX) {addresses : List (List UInt8)}
    (distinct : addresses.Nodup) (inside : ∀ address ∈ addresses, address ∈ allowed) :
    addresses.length ≤ RECORD_DEST_MAX := by
  rw [← List.toFinset_card_of_nodup distinct]
  apply Nat.le_trans (Finset.card_le_card _) few
  intro address member
  exact inside address (List.mem_toFinset.mp member)

theorem room_for_new (few : allowed.card ≤ RECORD_DEST_MAX) {addresses : List (List UInt8)}
    (distinct : addresses.Nodup) (inside : ∀ address ∈ addresses, address ∈ allowed)
    {address : List UInt8} (known : address ∈ allowed) (new : address ∉ addresses) :
    addresses.length < RECORD_DEST_MAX := by
  apply few_addresses few (List.nodup_cons.mpr ⟨new, distinct⟩)
  intro other member
  rcases List.mem_cons.mp member with same | old
  · exact same ▸ known
  · exact inside other old

/-- The table is that of some of the allowed addresses. -/
def TableKept (allowed : Finset (List UInt8)) (session : Session) : Prop :=
  ∃ addresses, TableInvariant session addresses ∧ ∀ address ∈ addresses, address ∈ allowed

theorem table_step (few : allowed.card ≤ RECORD_DEST_MAX) {session : Session} {text : TextMessage}
    (table : TableKept allowed session) (known : text.local_addr ∈ allowed)
    (kept : FilterKept session text) :
    (∃ addresses, Answers session text addresses) ∧ TableKept allowed (session.next text) := by
  obtain ⟨addresses, invariant, inside⟩ := table
  have answers := answers_step invariant kept
    (room_for_new few invariant.distinct inside known) (few_addresses few invariant.distinct inside)
  obtain ⟨addresses', invariant', sub⟩ := answers.kept
  refine ⟨⟨addresses, answers⟩, addresses', invariant', ?_⟩
  intro address member
  rcases List.mem_cons.mp (sub member) with same | old
  · exact same ▸ known
  · exact inside address old

/-- Over every history the answer is true exactly for a message that repeats the
latest one recorded in its slot, each slot is in the table, and no address has two
records. -/
theorem duplicates_filtered (allowed : Finset (List UInt8))
    (few : allowed.card ≤ RECORD_DEST_MAX) (texts : List TextMessage)
    (text : TextMessage) (known : ∀ each ∈ texts ++ [text], each.local_addr ∈ allowed)
    (kept : Meets Session.next FilterKept Session.start (texts ++ [text])) :
    let session := run Session.next Session.start texts
    ∃ filtered, repeatedMessage session.record text = some filtered ∧
      (filtered.repeated = true ↔ Repeats session.recorded text) ∧
      (0 ≤ slotOf text.msg_no ∧ slotOf text.msg_no < 30) ∧
      ∀ i j, (filtered.record i).used = true → (filtered.record j).used = true →
        (filtered.record i).dest_addr = (filtered.record j).dest_addr → i = j := by
  intro session
  have parts := (meets_append texts [text] Session.start).mp kept
  have earlier : ∀ each ∈ texts, each.local_addr ∈ allowed := fun each member =>
    known each (List.mem_append_left _ member)
  have step : ∀ session each, TableKept allowed session →
      FilterKept session each ∧ each.local_addr ∈ allowed →
        TableKept allowed (session.next each) := by
    intro session each table both
    exact (table_step few table both.2 both.1).2
  have table : TableKept allowed session := by
    apply run_invariant step texts Session.start
    · exact ⟨[], start_invariant, by simp⟩
    · exact meets_and parts.1 (meets_of_mem texts earlier _)
  have last : text.local_addr ∈ allowed := known text (by simp)
  obtain ⟨⟨_, answers⟩, _, invariant, _⟩ := table_step few table last parts.2.1
  obtain ⟨filtered, result, record, repeats⟩ := answers.result
  refine ⟨filtered, result, repeats, ⟨parts.2.1.slot, slot_lt _⟩, ?_⟩
  intro i j
  rw [← record]
  exact record_unique invariant

def textOf (address : UInt8) (msg_no : UInt32) (cur_ts : Int) : TextMessage where
  local_addr := [address]
  msg_no := msg_no
  cur_ts := cur_ts

theorem duplicates_filtered_two_addresses :
    let texts := [textOf 65 7 1700000000, textOf 66 7 1700000001, textOf 65 8 1700000002]
    let text := textOf 65 7 1700000040
    let session := run Session.next Session.start texts
    session.recorded.length = 3 ∧
      ∃ filtered, repeatedMessage session.record text = some filtered ∧
        (filtered.repeated = true ↔ Repeats session.recorded text) ∧
        (0 ≤ slotOf text.msg_no ∧ slotOf text.msg_no < 30) ∧
        ∀ i j, (filtered.record i).used = true → (filtered.record j).used = true →
          (filtered.record i).dest_addr = (filtered.record j).dest_addr → i = j :=
  ⟨by decide, duplicates_filtered {[65], [66]} (by decide)
    [textOf 65 7 1700000000, textOf 66 7 1700000001, textOf 65 8 1700000002]
      (textOf 65 7 1700000040) (by decide) (by decide)⟩

/-- A repetition after one second is let through; a number from 2^31 on has a negative
slot; and a second address that is heard twice gets two records. -/
theorem repetition_let_through :
    (let session := run Session.next Session.start [textOf 65 7 1700000000]
    Repeats session.recorded (textOf 65 7 1700000001) ∧
      ((repeatedMessage session.record (textOf 65 7 1700000001)).map Filtered.repeated) =
        some false) ∧
    (slotOf 2147483649 < 0 ∧ (repeatedMessage emptyRecords (textOf 65 2147483649 0)).isNone) ∧
    (let session := run Session.next Session.start [textOf 65 1 1700000000, textOf 66 2 1700000001,
      textOf 66 3 1700000002]
    (session.record 1).used = true ∧ (session.record 2).used = true ∧
      (session.record 1).dest_addr = (session.record 2).dest_addr) := by
  refine ⟨⟨⟨textOf 65 7 1700000000, rfl, rfl, by decide⟩, by decide⟩, by decide, by decide⟩

end Runs

end Mgw.WsRepeatedHistory

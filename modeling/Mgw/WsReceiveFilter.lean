import Mathlib.Data.List.GetD
import Mgw.WsReceive

/-!
# The duplicate filter on a frame

What `repeated_message` reads of a frame, when all of that lies within it, and which
text messages it takes for repetitions.
-/

namespace Mgw.WsReceiveFilter

open BigEndian WsMessage WsRepeated WsReceive

set_option autoImplicit false

/-- The fields of a frame, zero where it has none. -/
def byteOf (frame : List UInt8) (offset : Nat) : UInt8 := frame.getD offset 0

def messageNo (frame : List UInt8) : UInt32 :=
  UInt32.ofNat (beValue ((frame.drop MSG_NO_AT).take 4))

/-- The address of a text message is that of the first record. -/
def Known (record : Records) (frame : List UInt8) : Prop :=
  (record 0).used = true ∧
    ∃ stored, (record 0).dest_addr = some stored ∧ stored ++ [0] <+: frame.drop LOCAL_ADDR_AT

/-- The table has a record to write to. -/
def Room (record : Records) : Prop := ∃ i < RECORD_DEST_MAX, (record i).used = false

/-- The first record, where it is used, has an address, and the comparison with it
ends within the frame. -/
def Compared (record : Records) (frame : List UInt8) : Prop :=
  (record 0).used = true →
    ∃ stored, (record 0).dest_addr = some stored ∧ ¬frame.drop LOCAL_ADDR_AT <+: stored

/-- The filter finds what it reads: the number, what it compares, the end of an address
to be recorded, and a slot that is not negative. -/
structure FilterReads (record : Records) (frame : List UInt8) : Prop where
  number : MSG_NO_AT + 4 ≤ frame.length
  compared : Compared record frame
  copied : ¬Known record frame → Room record → 0 ∈ frame.drop LOCAL_ADDR_AT
  slot : Known record frame ∨ Room record → 0 ≤ slotOf (messageNo frame)

/-- The number stands in its slot of the first record, and the clock is near what the
record of that place has. -/
def Repeats (record : Records) (cur_ts : Int) (frame : List UInt8) : Prop :=
  Known record frame ∧
    ((record 0).rec_info (slotOf (messageNo frame)).toNat).last_msg_no = messageNo frame ∧
      gapSmall (record (slotOf (messageNo frame)).toNat).last_recv_ts cur_ts = true

section Reads

variable {frame : List UInt8} {offset count : Nat}

theorem byte_read (inside : offset < frame.length) : frame[offset]? = some (byteOf frame offset) := by
  unfold byteOf
  rw [List.getD_eq_getElem _ _ inside, List.getElem?_eq_getElem inside]

theorem byte_missing (outside : frame.length ≤ offset) : frame[offset]? = none :=
  List.getElem?_eq_none outside

theorem bytes_read (inside : offset + count ≤ frame.length) :
    bytesAt frame offset count = some ((frame.drop offset).take count) := by
  unfold bytesAt readFixed
  rw [if_pos (by rw [List.length_drop]; omega)]
  rfl

theorem bytes_missing (some : 0 < count) (outside : frame.length < offset + count) :
    bytesAt frame offset count = none := by
  unfold bytesAt readFixed
  rw [if_neg (by rw [List.length_drop]; omega)]
  rfl

/-- A string has its end in the frame. -/
theorem c_string_iff (text : List UInt8) : (cString text).isSome = true ↔ 0 ∈ text := by
  induction text with
  | nil => simp [cString]
  | cons byte rest ih =>
      unfold cString
      by_cases last : byte = 0
      · simp [last]
      · rw [if_neg last, Option.isSome_map, ih, List.mem_cons]
        constructor
        · exact Or.inr
        · intro member
          exact member.resolve_left fun zero => last zero.symm

theorem two_bytes (inside : offset + 2 ≤ frame.length) :
    (frame.drop offset).take 2 = [byteOf frame offset, byteOf frame (offset + 1)] := by
  unfold byteOf
  rw [List.drop_eq_getElem_cons (by omega), List.drop_eq_getElem_cons (by omega),
    List.getD_eq_getElem _ _ (by omega), List.getD_eq_getElem _ _ (by omega)]
  rfl

/-- Both byte orders agree on a length of zero. -/
theorem le_value_zero (left right : UInt8) :
    leValue [left, right] = 0 ↔ beValue [left, right] = 0 := by
  change (0 * 256 + right.toNat) * 256 + left.toNat = 0 ↔
    (0 * 256 + left.toNat) * 256 + right.toNat = 0
  omega

end Reads

section Addresses

variable {record : Records} {frame : List UInt8}

theorem c_string_clean {text address : List UInt8} (ends : cString text = some address) :
    0 ∉ address := by
  induction text generalizing address with
  | nil => contradiction
  | cons byte rest ih =>
      unfold cString at ends
      split_ifs at ends with last
      · rw [← Option.some.inj ends]
        exact List.not_mem_nil
      · obtain ⟨tail, found, whole⟩ := Option.map_eq_some_iff.mp ends
        rw [← whole]
        intro member
        rcases List.mem_cons.mp member with here | there
        · exact last here.symm
        · exact ih found there

/-- A string in the frame is compared as a whole. -/
theorem strcmp_c_string {stored text address : List UInt8} (ends : cString text = some address)
    (clean : 0 ∉ stored) : strcmp stored text = some (decide (stored = address)) := by
  induction text generalizing stored address with
  | nil => contradiction
  | cons byte rest ih =>
      unfold cString at ends
      split_ifs at ends with last
      · rw [← Option.some.inj ends]
        cases stored with
        | nil => simp [strcmp, last]
        | cons first more =>
            have different : byte ≠ first := fun same => clean (by simp [← same, last])
            simp [strcmp, different]
      · obtain ⟨tail, found, whole⟩ := Option.map_eq_some_iff.mp ends
        rw [← whole]
        cases stored with
        | nil => simp [strcmp, last]
        | cons first more =>
            unfold strcmp
            split_ifs with same
            · rw [ih found fun member => clean (List.mem_cons_of_mem _ member)]
              simp [same]
            · have different : ¬first = byte := fun equal => same equal.symm
              simp [different]

theorem found_same {same : Bool} {rounds i place : Nat}
    (found : searchLoop record same rounds i = .found place) : same = true := by
  induction rounds generalizing i with
  | zero => contradiction
  | succ rounds ih =>
      unfold searchLoop at found
      split_ifs at found with unused matching
      · exact matching
      · exact ih found

/-- No address in the table holds the byte that ends a string. -/
def CleanTable (record : Records) : Prop :=
  ∀ i stored, (record i).dest_addr = some stored → 0 ∉ stored

theorem clean_update (clean : CleanTable record) {place : Nat} {entry : MessageRecord}
    (cleanEntry : ∀ stored, entry.dest_addr = some stored → 0 ∉ stored) :
    CleanTable (Function.update record place entry) := by
  intro i stored dest
  by_cases here : i = place
  · rw [here, Function.update_self] at dest
    exact cleanEntry stored dest
  · rw [Function.update_of_ne here] at dest
    exact clean i stored dest

theorem repeated_message_clean {text : TextMessage} {filtered : Filtered}
    (clean : CleanTable record) (cleanText : 0 ∉ text.local_addr)
    (result : repeatedMessage record text = some filtered) : CleanTable filtered.record := by
  unfold repeatedMessage at result
  by_cases null : ((record 0).used && decide ((record 0).dest_addr = none)) = true
  · rw [if_pos null] at result
    contradiction
  rw [if_neg null] at result
  generalize decide ((record 0).dest_addr = some text.local_addr) = same at result
  dsimp only at result
  cases search : searchLoop record same RECORD_DEST_MAX 0 with
  | found i =>
      simp only [search] at result
      split_ifs at result
      · rw [← Option.some.inj result]
        exact clean
      · rw [← Option.some.inj result]
        exact clean_update clean (clean i)
  | free i =>
      simp only [search] at result
      split_ifs at result
      rw [← Option.some.inj result]
      apply clean_update clean
      intro stored dest
      change dstrCopy text.local_addr = some stored at dest
      unfold dstrCopy at dest
      split_ifs at dest
      rw [← Option.some.inj dest]
      exact cleanText
  | full =>
      simp only [search] at result
      rw [← Option.some.inj result]
      exact clean

/-- The filter keeps the table clean, whatever the frame. -/
theorem repeated_text_clean {cur_ts : Int} {filtered : Filtered} (clean : CleanTable record)
    (result : repeatedText record cur_ts frame = some filtered) : CleanTable filtered.record := by
  unfold repeatedText at result
  obtain ⟨number, -, compared⟩ := Option.bind_eq_some_iff.mp result
  obtain ⟨same, -, searched⟩ := Option.bind_eq_some_iff.mp compared
  dsimp only at searched
  split at searched
  · apply repeated_message_clean clean _ searched
    cases dest : (record 0).dest_addr with
    | none => exact List.not_mem_nil
    | some stored => exact clean 0 stored dest
  · obtain ⟨copied, ends, answer⟩ := Option.bind_eq_some_iff.mp searched
    exact repeated_message_clean clean (c_string_clean ends) answer
  · rw [← Option.some.inj searched]
    exact clean

/-- On a frame whose address ends in it the filter is that of the message it holds. -/
theorem repeated_text_eq (cur_ts : Int) {address : List UInt8}
    (numbered : LOCAL_ADDR_AT ≤ frame.length)
    (ends : cString (frame.drop LOCAL_ADDR_AT) = some address)
    (clean : CleanTable record) :
    repeatedText record cur_ts frame = repeatedMessage record
      ⟨address, UInt32.ofNat (beValue ((frame.drop MSG_NO_AT).take 4)), cur_ts⟩ := by
  have number : bytesAt frame MSG_NO_AT 4 = some _ :=
    bytes_read (by simp only [LOCAL_ADDR_AT] at numbered; simp only [MSG_NO_AT]; omega)
  unfold repeatedText sameAddress
  simp only [number, ends, Option.bind_eq_bind, Option.bind_some]
  cases used : (record 0).used with
  | false =>
      simp only [Bool.false_eq_true, if_false, Option.bind_some, search_unused used]
  | true =>
      simp only [if_true]
      cases dest : (record 0).dest_addr with
      | none =>
          unfold repeatedMessage
          simp [used, dest]
      | some stored =>
          have compared := strcmp_c_string ends (clean 0 stored dest)
          simp only [Option.bind_some, compared]
          cases search : searchLoop record (decide (stored = address)) RECORD_DEST_MAX 0 with
          | found place =>
              have same : stored = address := of_decide_eq_true (found_same search)
              simp [same]
          | free place => rfl
          | full =>
              unfold repeatedMessage
              simp [dest, search]

end Addresses

section Filter

variable {record : Records} {frame : List UInt8}

/-- The comparison leaves the frame where the field ends within the stored address. -/
theorem strcmp_none_iff (stored text : List UInt8) : strcmp stored text = none ↔ text <+: stored := by
  induction text generalizing stored with
  | nil => simp [strcmp]
  | cons byte rest ih =>
      cases stored with
      | nil => simp [strcmp]
      | cons first more =>
          unfold strcmp
          rw [List.cons_prefix_cons]
          split_ifs with same
          · rw [ih, and_iff_right same]
          · simp [same]

theorem strcmp_true_iff (stored text : List UInt8) :
    strcmp stored text = some true ↔ stored ++ [0] <+: text := by
  induction text generalizing stored with
  | nil => simp [strcmp]
  | cons byte rest ih =>
      cases stored with
      | nil => simp [strcmp, eq_comm]
      | cons first more =>
          unfold strcmp
          rw [List.cons_append, List.cons_prefix_cons]
          split_ifs with same
          · rw [ih, and_iff_right same.symm]
          · have different : ¬first = byte := fun equal => same equal.symm
            simp [different]

/-- Where no address matches, the loop ends at an unused record or at the end. -/
theorem search_unknown (rounds i : Nat) :
    (∃ place, i ≤ place ∧ place < i + rounds ∧ (record place).used = false ∧
        searchLoop record false rounds i = .free place) ∨
      (∀ place, i ≤ place → place < i + rounds → (record place).used = true) ∧
        searchLoop record false rounds i = .full := by
  induction rounds generalizing i with
  | zero =>
      apply Or.inr
      exact ⟨fun place above below => absurd below (by omega), rfl⟩
  | succ rounds ih =>
      unfold searchLoop
      cases used : (record i).used with
      | false => exact Or.inl ⟨i, Nat.le_refl i, by omega, used, by simp⟩
      | true =>
          rw [if_neg (by simp), if_neg (by simp)]
          rcases ih (i + 1) with ⟨place, above, below, unused, ends⟩ | ⟨all, ends⟩
          · exact Or.inl ⟨place, by omega, by omega, unused, ends⟩
          · apply Or.inr
            refine ⟨?_, ends⟩
            intro place above below
            by_cases here : place = i
            · rw [here]
              exact used
            · exact all place (by omega) (by omega)

theorem c_string_prefix {text address : List UInt8} (ends : cString text = some address) :
    address ++ [0] <+: text := by
  induction text generalizing address with
  | nil => contradiction
  | cons byte rest ih =>
      unfold cString at ends
      split_ifs at ends with last
      · rw [← Option.some.inj ends, last]
        exact ⟨rest, rfl⟩
      · obtain ⟨tail, found, whole⟩ := Option.map_eq_some_iff.mp ends
        rw [← whole, List.cons_append]
        exact (List.cons_prefix_cons).mpr ⟨rfl, ih found⟩

theorem same_address_iff (same : Bool) :
    sameAddress record (frame.drop LOCAL_ADDR_AT) = some same ↔
      Compared record frame ∧ (same = true ↔ Known record frame) := by
  unfold sameAddress Compared Known
  cases used : (record 0).used with
  | false => cases same <;> simp
  | true =>
      cases dest : (record 0).dest_addr with
      | none => simp
      | some stored =>
          simp only [if_true, Option.bind_some, Option.some.injEq, exists_eq_left', true_and,
            forall_const]
          rw [← strcmp_none_iff, ← strcmp_true_iff]
          cases strcmp stored (frame.drop LOCAL_ADDR_AT) with
          | none => simp
          | some answer => cases answer <;> cases same <;> simp

section Message

variable {address : List UInt8} {number : UInt32} {cur_ts : Int}

theorem message_known (used : (record 0).used = true) (dest : (record 0).dest_addr = some address)
    (slot : 0 ≤ slotOf number) :
    ∃ filtered, repeatedMessage record ⟨address, number, cur_ts⟩ = some filtered ∧
      (filtered.repeated = true ↔
        ((record 0).rec_info (slotOf number).toNat).last_msg_no = number ∧
          gapSmall (record (slotOf number).toNat).last_recv_ts cur_ts = true) := by
  unfold repeatedMessage
  simp only [dest, decide_true, search_known used, if_neg (Int.not_lt.mpr slot)]
  rw [if_neg (by simp)]
  split_ifs with repeats
  · exact ⟨_, rfl, iff_of_true rfl repeats⟩
  · exact ⟨_, rfl, iff_of_false (by simp) repeats⟩

theorem message_slot_known (used : (record 0).used = true)
    (dest : (record 0).dest_addr = some address) (slot : slotOf number < 0) :
    repeatedMessage record ⟨address, number, cur_ts⟩ = none := by
  unfold repeatedMessage
  simp only [dest, decide_true, search_known used, if_pos slot]
  rw [if_neg (by simp)]

theorem search_unmatched {place : Nat}
    (other : (record 0).used = true → (record 0).dest_addr ≠ some address)
    (free : searchLoop record false RECORD_DEST_MAX 0 = .free place) :
    searchLoop record (decide ((record 0).dest_addr = some address)) RECORD_DEST_MAX 0 =
      .free place := by
  cases used : (record 0).used with
  | false => rw [search_unused used, ← free, search_unused used]
  | true => rw [decide_eq_false (other used), free]

theorem message_new {place : Nat}
    (other : (record 0).used = true → (record 0).dest_addr ≠ some address)
    (addressed : (record 0).used = true → (record 0).dest_addr ≠ none)
    (free : searchLoop record false RECORD_DEST_MAX 0 = .free place) (slot : 0 ≤ slotOf number) :
    ∃ filtered, repeatedMessage record ⟨address, number, cur_ts⟩ = some filtered ∧
      filtered.repeated = false := by
  unfold repeatedMessage
  simp only [search_unmatched other free, if_neg (Int.not_lt.mpr slot)]
  rw [if_neg (by simpa using addressed)]
  exact ⟨_, rfl, rfl⟩

theorem message_slot_new {place : Nat}
    (other : (record 0).used = true → (record 0).dest_addr ≠ some address)
    (free : searchLoop record false RECORD_DEST_MAX 0 = .free place) (slot : slotOf number < 0) :
    repeatedMessage record ⟨address, number, cur_ts⟩ = none := by
  unfold repeatedMessage
  simp only [search_unmatched other free, if_pos slot, ite_self]

end Message

section Frames

variable {cur_ts : Int}

theorem text_known (cur_ts : Int) (number : MSG_NO_AT + 4 ≤ frame.length) (known : Known record frame)
    (compared : Compared record frame) :
    ∃ stored, (record 0).dest_addr = some stored ∧
      repeatedText record cur_ts frame = repeatedMessage record ⟨stored, messageNo frame, cur_ts⟩ := by
  obtain ⟨stored, dest, -⟩ := known.2
  have same := (same_address_iff true).mpr ⟨compared, iff_of_true rfl known⟩
  unfold repeatedText
  simp only [bytes_read number, same, Option.bind_eq_bind, Option.bind_some, search_known known.1,
    dest]
  exact ⟨stored, rfl, rfl⟩

theorem text_unknown (number : MSG_NO_AT + 4 ≤ frame.length) (unknown : ¬Known record frame)
    (compared : Compared record frame) :
    repeatedText record cur_ts frame =
      match searchLoop record false RECORD_DEST_MAX 0 with
      | .found _ => repeatedMessage record ⟨(record 0).dest_addr.getD [], messageNo frame, cur_ts⟩
      | .free _ => (cString (frame.drop LOCAL_ADDR_AT)).bind fun copied =>
          repeatedMessage record ⟨copied, messageNo frame, cur_ts⟩
      | .full => some { repeated := false, recorded := false, record := record } := by
  have same := (same_address_iff false).mpr ⟨compared, iff_of_false (by simp) unknown⟩
  unfold repeatedText
  simp only [bytes_read number, same, Option.bind_eq_bind, Option.bind_some]
  rfl

/-- An address that is copied is not that of the first record. -/
theorem copied_other {copied : List UInt8} (unknown : ¬Known record frame)
    (ends : cString (frame.drop LOCAL_ADDR_AT) = some copied) :
    (record 0).used = true → (record 0).dest_addr ≠ some copied := by
  intro used dest
  exact unknown ⟨used, copied, dest, c_string_prefix ends⟩

theorem full_no_room (all : ∀ place, 0 ≤ place → place < 0 + RECORD_DEST_MAX →
    (record place).used = true) : ¬Room record := by
  rintro ⟨place, inside, unused⟩
  rw [all place (Nat.zero_le _) (by omega)] at unused
  contradiction

theorem filter_answers (reads : FilterReads record frame) :
    ∃ filtered, repeatedText record cur_ts frame = some filtered ∧
      (filtered.repeated = true ↔ Repeats record cur_ts frame) := by
  by_cases known : Known record frame
  · obtain ⟨stored, dest, whole⟩ := text_known cur_ts reads.number known reads.compared
    rw [whole]
    obtain ⟨filtered, answer, repeats⟩ := message_known known.1 dest (reads.slot (Or.inl known))
    refine ⟨filtered, answer, ?_⟩
    unfold Repeats
    rw [and_iff_right known]
    exact repeats
  · have fresh : ¬Repeats record cur_ts frame := fun repeats => known repeats.1
    rw [text_unknown reads.number known reads.compared]
    rcases search_unknown RECORD_DEST_MAX 0 with ⟨place, -, below, unused, ends⟩ | ⟨-, ends⟩
    · rw [ends]
      have room : Room record := ⟨place, by omega, unused⟩
      have last := (c_string_iff _).mpr (reads.copied known room)
      obtain ⟨copied, found⟩ := Option.isSome_iff_exists.mp last
      have addressed : (record 0).used = true → (record 0).dest_addr ≠ none := by
        intro used missing
        obtain ⟨stored, dest, -⟩ := reads.compared used
        rw [missing] at dest
        contradiction
      obtain ⟨filtered, answer, unrepeated⟩ := message_new (copied_other known found) addressed ends
        (reads.slot (Or.inr room))
      rw [found]
      exact ⟨filtered, answer, iff_of_false (by simp [unrepeated]) fresh⟩
    · rw [ends]
      exact ⟨_, rfl, iff_of_false (by simp) fresh⟩

theorem filter_reads {filtered : Filtered}
    (answer : repeatedText record cur_ts frame = some filtered) : FilterReads record frame := by
  have number : MSG_NO_AT + 4 ≤ frame.length := by
    by_contra short
    unfold repeatedText at answer
    rw [bytes_missing (by decide) (Nat.lt_of_not_le short)] at answer
    contradiction
  have compared : Compared record frame := by
    unfold repeatedText at answer
    obtain ⟨bytes, -, rest⟩ := Option.bind_eq_some_iff.mp answer
    obtain ⟨same, found, -⟩ := Option.bind_eq_some_iff.mp rest
    exact ((same_address_iff same).mp found).1
  by_cases known : Known record frame
  · refine ⟨number, compared, fun unknown => absurd known unknown, fun _ => ?_⟩
    obtain ⟨stored, dest, whole⟩ := text_known cur_ts number known compared
    by_contra negative
    rw [whole, message_slot_known known.1 dest (Int.not_le.mp negative)] at answer
    contradiction
  · rw [text_unknown number known compared] at answer
    rcases search_unknown RECORD_DEST_MAX 0 with ⟨place, -, -, -, ends⟩ | ⟨all, ends⟩
    · rw [ends] at answer
      obtain ⟨copied, found, noted⟩ := Option.bind_eq_some_iff.mp answer
      refine ⟨number, compared, ?_, ?_⟩
      · intro _ _
        exact (c_string_iff _).mp (by rw [found]; rfl)
      · intro _
        by_contra negative
        rw [message_slot_new (copied_other known found) ends (Int.not_le.mp negative)] at noted
        contradiction
    · have full := full_no_room all
      refine ⟨number, compared, fun _ room => absurd room full, ?_⟩
      rintro (impossible | room)
      · exact absurd impossible known
      · exact absurd room full

end Frames

end Filter

end Mgw.WsReceiveFilter

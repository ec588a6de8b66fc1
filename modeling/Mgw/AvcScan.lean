import Mgw.AvcPacket

/-!
# The search for the key frame

In a packet of well-formed units `mgw_avc_get_nal` finds start codes only where a
unit begins. It starts one byte behind the packet's beginning, so that a start
code of three bytes in front of the first unit is not seen.
-/

namespace Mgw.AvcPacket

open ByteArea WordArithmetic AnnexB

set_option autoImplicit false

/-- The bytes stand in the memory from that address on. -/
def Holds (memory : Bytes) (address : Nat) (bytes : List UInt8) : Prop :=
  takeBytes (advance memory address) bytes.length = bytes

section Holds

variable {memory : Bytes} {address : Nat}

theorem holds_append {left right : List UInt8} (holds : Holds memory address (left ++ right)) :
    Holds memory address left ∧ Holds memory (address + left.length) right := by
  rw [Holds, List.length_append, take_bytes_add, advance_advance] at holds
  exact List.append_inj holds (take_bytes_length _ _)

theorem holds_byte {bytes : List UInt8} (holds : Holds memory address bytes) {index : Nat}
    {byte : UInt8} (present : bytes[index]? = some byte) : memory (address + index) = byte := by
  obtain ⟨bound, -⟩ := List.getElem?_eq_some_iff.mp present
  rw [← holds, takeBytes, List.getElem?_map, List.getElem?_range bound] at present
  exact Option.some.inj present

theorem start_code_read {long : Bool} (holds : Holds memory address (startCode long)) :
    mgwAvcGetStartcodeLen memory address = some (startCode long).length := by
  cases long with
  | false =>
      have first : memory address = 0 := @holds_byte memory address _ holds 0 0 rfl
      have second : memory (address + 1) = 0 := holds_byte holds rfl
      have third : memory (address + 2) = 1 := holds_byte holds rfl
      simp [mgwAvcGetStartcodeLen, first, second, third, startCode]
  | true =>
      have first : memory address = 0 := @holds_byte memory address _ holds 0 0 rfl
      have second : memory (address + 1) = 0 := holds_byte holds rfl
      have third : memory (address + 2) = 0 := holds_byte holds rfl
      have fourth : memory (address + 3) = 1 := holds_byte holds rfl
      simp [mgwAvcGetStartcodeLen, first, second, third, fourth, startCode]

/-- No start code begins inside a unit, whatever follows it. -/
theorem no_code_inside {nal : NalUnit} (holds : Holds memory address nal.bytes) {index : Nat}
    (bound : index < nal.bytes.length) :
    mgwAvcGetStartcodeLen memory (address + index) = none := by
  rw [mgwAvcGetStartcodeLen]
  by_cases zeros : memory (address + index) ≠ 0 ∨ memory (address + index + 1) ≠ 0
  · rw [if_pos zeros]
  · rw [not_or, not_ne_iff, not_ne_iff] at zeros
    obtain ⟨last, lastByte, nonzero⟩ := nal.last_byte
    have byteAt : ∀ i < nal.bytes.length, nal.bytes[i]? = some (memory (address + i)) := by
      intro i inside
      rw [List.getElem?_eq_getElem inside, holds_byte holds (List.getElem?_eq_getElem inside)]
    -- the last byte is not zero, so two more bytes of the unit follow
    have lastValue : memory (address + (nal.bytes.length - 1)) ≠ 0 := by
      rwa [holds_byte holds lastByte]
    have room : index + 2 < nal.bytes.length := by
      by_contra short
      obtain same | same : index = nal.bytes.length - 1 ∨ index + 1 = nal.bytes.length - 1 := by
        omega
      · rw [← same] at lastValue
        exact lastValue zeros.1
      · rw [← same] at lastValue
        exact lastValue zeros.2
    have third := nal.clean index _ (by rw [byteAt index bound, zeros.1])
      (by rw [byteAt (index + 1) (by omega), ← Nat.add_assoc, zeros.2]) (byteAt (index + 2) room)
    rw [← Nat.add_assoc] at third
    have notOne : memory (address + index + 2) ≠ 1 := fun one => by
      rw [one] at third
      exact absurd third (by decide)
    have notZero : memory (address + index + 2) ≠ 0 := fun zero => by
      rw [zero] at third
      exact absurd third (by decide)
    rw [if_neg (by simp [zeros]), if_neg notOne, if_neg (fun both => notZero both.1)]

end Holds

section Scan

variable {memory : Bytes} {data size p : Nat}

theorem scan_skip (count rounds : Nat) (p : Nat)
    (none : ∀ index < count, mgwAvcGetStartcodeLen memory (p + 1 + index) = none) :
    getNalLoop memory data size 0x5 (count + rounds) p Option.none =
      getNalLoop memory data size 0x5 rounds (p + count) Option.none := by
  induction count generalizing p with
  | zero => rw [Nat.zero_add, Nat.add_zero]
  | succ count ih =>
      have first := none 0 (Nat.succ_pos count)
      rw [Nat.add_zero] at first
      rw [Nat.add_right_comm, getNalLoop, first]
      change getNalLoop memory data size 0x5 (count + rounds) (p + 1) Option.none = _
      rw [ih (p + 1), Nat.add_assoc, Nat.add_comm 1]
      intro index bound
      have later := none (index + 1) (by omega)
      rwa [Nat.add_comm index, ← Nat.add_assoc] at later

/-- The type in the first byte of a unit. -/
theorem unit_type_read {nal : NalUnit} {address : Nat} (holds : Holds memory address nal.bytes) :
    memory address &&& 0x1f = nal.unitType := by
  have first : nal.bytes[0]? = some (nal.bytes.headD 0) := by
    cases shape : nal.bytes with
    | nil => exact absurd shape nal.nonempty
    | cons head rest => rfl
  have byte := holds_byte holds first
  rw [Nat.add_zero] at byte
  rw [byte, NalUnit.unitType]

theorem unit_found {unit : CodedUnit} (rounds : Nat) (holds : Holds memory (p + 1) unit.bytes)
    (key : unit.nal.unitType = 0x5) :
    getNalLoop memory data size 0x5 (rounds + 1) p none =
      (subSize size (p + 1 + (startCode unit.long).length - data),
        some (p + 1 + (startCode unit.long).length)) := by
  obtain ⟨code, nal⟩ := holds_append holds
  rw [getNalLoop, start_code_read code]
  simp only [unit_type_read nal, key, if_true]

theorem unit_skipped {unit : CodedUnit} (rounds : Nat) (holds : Holds memory (p + 1) unit.bytes)
    (other : unit.nal.unitType ≠ 0x5) :
    getNalLoop memory data size 0x5 (unit.nal.bytes.length + rounds) p none =
      getNalLoop memory data size 0x5 rounds (p + unit.bytes.length) none := by
  obtain ⟨code, nal⟩ := holds_append holds
  have positive := unit.nal.length_pos
  have shape : unit.nal.bytes.length + rounds = (unit.nal.bytes.length - 1 + rounds) + 1 := by omega
  rw [shape, getNalLoop, start_code_read code]
  simp only [unit_type_read nal, if_neg other.symm]
  rw [scan_skip]
  · congr 1
    rw [coded_unit_length]
    omega
  · intro index bound
    have inside := no_code_inside nal (show index + 1 < unit.nal.bytes.length by omega)
    rwa [Nat.add_comm index, ← Nat.add_assoc] at inside

/-- Units of other types are passed over. -/
theorem units_skipped (units : List CodedUnit) (rounds p : Nat)
    (holds : Holds memory (p + 1) (annexB units)) (enough : (annexB units).length ≤ rounds)
    (others : ∀ unit ∈ units, unit.nal.unitType ≠ 0x5) :
    ∃ remaining, remaining ≤ rounds ∧ rounds ≤ remaining + (annexB units).length ∧
      getNalLoop memory data size 0x5 rounds p none =
        getNalLoop memory data size 0x5 remaining (p + (annexB units).length) none := by
  induction units generalizing rounds p with
  | nil => exact ⟨rounds, Nat.le_refl _, by simp, rfl⟩
  | cons unit units ih =>
      rw [annex_b_cons] at holds enough ⊢
      obtain ⟨first, later⟩ := holds_append holds
      have length := coded_unit_length unit
      rw [List.length_append] at enough ⊢
      obtain ⟨more, moreDef⟩ : ∃ more, rounds = unit.nal.bytes.length + more :=
        ⟨rounds - unit.nal.bytes.length, by omega⟩
      have here := @unit_skipped memory data size p unit more first (others unit List.mem_cons_self)
      rw [Nat.add_right_comm] at later
      obtain ⟨remaining, upper, lower, result⟩ := ih more (p + unit.bytes.length) later (by omega)
        fun other member => others other (List.mem_cons_of_mem _ member)
      refine ⟨remaining, by omega, by omega, ?_⟩
      rw [moreDef, here, result, Nat.add_assoc]

/-- What the search can result in, wherever it stands. -/
theorem search_bounds (rounds p : Nat) :
    getNalLoop memory data size 0x5 rounds p none = (0, none) ∨
      ∃ next, p + 4 ≤ next ∧ next ≤ p + 5 * rounds ∧
        getNalLoop memory data size 0x5 rounds p none = (subSize size (next - data), some next) := by
  induction rounds generalizing p with
  | zero => exact Or.inl rfl
  | succ rounds ih =>
      have further : ∀ step, 1 ≤ step → step ≤ 5 →
          getNalLoop memory data size 0x5 rounds (p + step) none = (0, none) ∨
            ∃ next, p + 4 ≤ next ∧ next ≤ p + 5 * (rounds + 1) ∧
              getNalLoop memory data size 0x5 rounds (p + step) none =
                (subSize size (next - data), some next) := by
        intro step lower upper
        rcases ih (p + step) with nothing | ⟨next, low, high, result⟩
        · exact Or.inl nothing
        · exact Or.inr ⟨next, by omega, by omega, result⟩
      rw [getNalLoop]
      cases code : mgwAvcGetStartcodeLen memory (p + 1) with
      | none => exact further 1 (by omega) (by omega)
      | some length =>
          have three : 3 ≤ length ∧ length ≤ 4 := by
            rw [mgwAvcGetStartcodeLen] at code
            split_ifs at code <;> obtain rfl := Option.some.inj code <;> decide
          simp only [if_true]
          split_ifs
          · exact Or.inr ⟨p + 1 + length, by omega, by omega, rfl⟩
          · rw [Nat.add_assoc]
            exact further (1 + length) (by omega) (by omega)

end Scan

end Mgw.AvcPacket

import Mathlib.Data.List.Basic

/-!
Bytes that are taken block by block. A state takes whole blocks, and what is not one yet is
left over; whether bytes come at once or one part after another makes no difference.
-/

namespace Mgw.BlockStream

set_option autoImplicit false

variable {State Byte : Type*} (size : Nat) (compress : State → List Byte → State)

/-- So many blocks, and what is behind them. -/
def blocks : Nat → State → List Byte → State × List Byte
  | 0, state, bytes => (state, bytes)
  | count + 1, state, bytes =>
      blocks count (compress state (bytes.take size)) (bytes.drop size)

/-- All whole blocks. -/
def absorb (state : State) (bytes : List Byte) : State × List Byte :=
  blocks size compress (bytes.length / size) state bytes

variable {size} {compress}

@[simp] theorem absorb_nil (state : State) : absorb size compress state [] = (state, []) := by
  simp [absorb, blocks]

theorem absorb_short {bytes : List Byte} (short : bytes.length < size) (state : State) :
    absorb size compress state bytes = (state, bytes) := by
  rw [absorb, Nat.div_eq_of_lt short, blocks]

theorem absorb_step {bytes : List Byte} (positive : 0 < size) (enough : size ≤ bytes.length)
    (state : State) :
    absorb size compress state bytes =
      absorb size compress (compress state (bytes.take size)) (bytes.drop size) := by
  have count : bytes.length / size = (bytes.drop size).length / size + 1 := by
    rw [List.length_drop, ← Nat.add_div_right _ positive, Nat.sub_add_cancel enough]
  rw [absorb, count, blocks, absorb]

/-- A block in front. -/
theorem absorb_block {block : List Byte} (positive : 0 < size) (whole : block.length = size)
    (state : State) (bytes : List Byte) :
    absorb size compress state (block ++ bytes) =
      absorb size compress (compress state block) bytes := by
  rw [absorb_step positive (by simp [whole]), List.take_left' whole, List.drop_left' whole]

theorem blocks_append (count : Nat) (state : State) (bytes more : List Byte)
    (enough : count * size ≤ bytes.length) :
    blocks size compress count state (bytes ++ more) =
      ((blocks size compress count state bytes).1,
        (blocks size compress count state bytes).2 ++ more) := by
  induction count generalizing state bytes with
  | zero => rfl
  | succ count ih =>
    rw [Nat.succ_mul] at enough
    have first : size ≤ bytes.length := by omega
    rw [blocks, blocks, List.take_append_of_le_length first, List.drop_append_of_le_length first]
    apply ih
    rw [List.length_drop]
    omega

theorem blocks_rest (count : Nat) (state : State) (bytes : List Byte) :
    (blocks size compress count state bytes).2 = bytes.drop (count * size) := by
  induction count generalizing state bytes with
  | zero => simp [blocks]
  | succ count ih =>
    rw [blocks, ih, List.drop_drop, Nat.succ_mul]
    congr 1
    omega

theorem blocks_add (first second : Nat) (state : State) (bytes : List Byte) :
    blocks size compress (first + second) state bytes =
      blocks size compress second (blocks size compress first state bytes).1
        (blocks size compress first state bytes).2 := by
  induction first generalizing state bytes with
  | zero => simp [blocks]
  | succ first ih =>
    rw [Nat.succ_add, blocks, blocks]
    exact ih _ _

theorem absorb_rest_length (state : State) (bytes : List Byte) :
    (absorb size compress state bytes).2.length = bytes.length % size := by
  rw [absorb, blocks_rest, List.length_drop, Nat.mul_comm]
  have whole := Nat.div_add_mod bytes.length size
  omega

/-- What is left over waits in front of what comes next. -/
theorem absorb_append (positive : 0 < size) (state : State) (bytes more : List Byte) :
    absorb size compress state (bytes ++ more) =
      absorb size compress (absorb size compress state bytes).1
        ((absorb size compress state bytes).2 ++ more) := by
  have rest := @absorb_rest_length _ _ size compress state bytes
  have count : (bytes ++ more).length / size =
      bytes.length / size + ((absorb size compress state bytes).2 ++ more).length / size := by
    rw [List.length_append, List.length_append, rest]
    have whole := Nat.div_add_mod bytes.length size
    conv_lhs => rw [← whole, Nat.add_assoc, Nat.mul_add_div positive]
  rw [absorb, count, blocks_add, blocks_append _ _ _ _ (Nat.div_mul_le_self _ _)]
  rfl

/-- Only what becomes of whole blocks matters. -/
theorem absorb_congr {other : State → List Byte → State}
    (same : ∀ state block, block.length = size → compress state block = other state block)
    (state : State) (bytes : List Byte) :
    absorb size compress state bytes = absorb size other state bytes := by
  have counted : ∀ (count : Nat) (state : State) (bytes : List Byte),
      count * size ≤ bytes.length →
      blocks size compress count state bytes = blocks size other count state bytes := by
    intro count
    induction count with
    | zero => intros; rfl
    | succ count ih =>
      intro state bytes enough
      rw [Nat.succ_mul] at enough
      have whole : (bytes.take size).length = size := by
        rw [List.length_take]
        omega
      rw [blocks, blocks, same state _ whole]
      apply ih
      rw [List.length_drop]
      omega
  exact counted _ state bytes (Nat.div_mul_le_self _ _)

end Mgw.BlockStream

import Mathlib.Data.List.Basic

/-!
Two programs that write to each other and read from each other, a byte at a time. They go on
in any order, and it makes no difference: the one end that an order leads to is the end of
every order, after as many steps.
-/

namespace Mgw.Dialogue

set_option autoImplicit false

section Diamond

variable {State : Type*} (step : State → State → Prop)

/-- So many steps. -/
inductive Steps : Nat → State → State → Prop
  | refl (state : State) : Steps 0 state state
  | head {count : Nat} {before between after : State} :
      step before between → Steps count between after → Steps (count + 1) before after

/-- Two steps from one state are the same one, or each can be made behind the other. -/
def Diamond : Prop :=
  ∀ before left right, step before left → step before right →
    left = right ∨ ∃ after, step left after ∧ step right after

variable {step} {before between after last : State} {first second : Nat}

theorem Steps.trans (front : Steps step first before between)
    (back : Steps step second between after) : Steps step (first + second) before after := by
  induction front with
  | refl state => simpa using back
  | head one _ ih =>
    rw [Nat.succ_add]
    exact .head one (ih back)

theorem Steps.zero (none_ : Steps step 0 before after) : before = after := by
  cases none_
  rfl

theorem Steps.succ {count : Nat} (steps : Steps step (count + 1) before after) :
    ∃ between, step before between ∧ Steps step count between after := by
  cases steps with
  | head one rest => exact ⟨_, one, rest⟩

/-- A step cannot lead away from an end. -/
theorem step_towards (diamond : Diamond step) (ends : ∀ next, ¬step last next) {count : Nat}
    (run : Steps step count before last) (one : step before after) :
    ∃ rest, count = rest + 1 ∧ Steps step rest after last := by
  induction run generalizing after with
  | refl state => exact absurd one (ends after)
  | head other run ih =>
    rcases diamond _ _ _ other one with same | ⟨meeting, there, here⟩
    · exact ⟨_, rfl, same ▸ run⟩
    · obtain ⟨rest, count, later⟩ := ih ends there
      exact ⟨rest + 1, by rw [count], .head here later⟩

theorem run_towards (diamond : Diamond step) (ends : ∀ next, ¬step last next) {whole part : Nat}
    (run : Steps step whole before last) (other : Steps step part before after) :
    part ≤ whole ∧ Steps step (whole - part) after last := by
  induction other generalizing whole with
  | refl state => exact ⟨Nat.zero_le _, run⟩
  | head one _ ih =>
    obtain ⟨rest, count, later⟩ := step_towards diamond ends run one
    obtain ⟨bound, end_⟩ := ih later
    refine ⟨by omega, ?_⟩
    rw [count, Nat.add_sub_add_right]
    exact end_

end Diamond

/-- A program that ends, or writes bytes, or reads so many more than it got. -/
inductive Script (Byte Result : Type) where
  | done (result : Result)
  | write (bytes : List Byte) (next : Script Byte Result)
  | read (count : Nat) (got : List Byte) (next : List Byte → Script Byte Result)

namespace Script

variable {Byte Result : Type}

/-- Nothing is left to write or to read before what is next. -/
def settle : Script Byte Result → Script Byte Result
  | .done result => .done result
  | .write [] next => next.settle
  | .write (byte :: bytes) next => .write (byte :: bytes) next
  | .read 0 got next => (next got).settle
  | .read (count + 1) got next => .read (count + 1) got next

/-- The byte that is written next. -/
def offer : Script Byte Result → Option (Byte × Script Byte Result)
  | .write (byte :: bytes) next => some (byte, (write bytes next).settle)
  | _ => none

/-- What becomes of the byte that is read next. -/
def accept : Script Byte Result → Option (Byte → Script Byte Result)
  | .read (count + 1) got next => some fun byte => (read count (got ++ [byte]) next).settle
  | _ => none

theorem settle_write {bytes : List Byte} (some_ : bytes ≠ []) (next : Script Byte Result) :
    (write bytes next).settle = write bytes next := by
  cases bytes with
  | nil => exact absurd rfl some_
  | cons byte bytes => rfl

theorem offer_of_accept {script : Script Byte Result} {next : Byte → Script Byte Result}
    (accepts : script.accept = some next) : script.offer = none := by
  cases script with
  | read count got next => rfl
  | done result => cases accepts
  | write bytes next => cases accepts

end Script

/-- Two programs with what is on its way to each. -/
structure Config (Byte Left Right : Type) where
  left : Script Byte Left
  right : Script Byte Right
  toRight : List Byte
  toLeft : List Byte

section Steps

variable {Byte Left Right : Type}

inductive Step : Config Byte Left Right → Config Byte Left Right → Prop
  | leftWrites {left next : Script Byte Left} {right : Script Byte Right}
      {toRight toLeft : List Byte} {byte : Byte} (offers : left.offer = some (byte, next)) :
      Step ⟨left, right, toRight, toLeft⟩ ⟨next, right, toRight ++ [byte], toLeft⟩
  | leftReads {left : Script Byte Left} {next : Byte → Script Byte Left}
      {right : Script Byte Right} {toRight toLeft : List Byte} {byte : Byte}
      (accepts : left.accept = some next) :
      Step ⟨left, right, toRight, byte :: toLeft⟩ ⟨next byte, right, toRight, toLeft⟩
  | rightWrites {left : Script Byte Left} {right next : Script Byte Right}
      {toRight toLeft : List Byte} {byte : Byte} (offers : right.offer = some (byte, next)) :
      Step ⟨left, right, toRight, toLeft⟩ ⟨left, next, toRight, toLeft ++ [byte]⟩
  | rightReads {left : Script Byte Left} {right : Script Byte Right}
      {next : Byte → Script Byte Right} {toRight toLeft : List Byte} {byte : Byte}
      (accepts : right.accept = some next) :
      Step ⟨left, right, byte :: toRight, toLeft⟩ ⟨left, next byte, toRight, toLeft⟩

/-- What is needed for a step. -/
theorem Step.enabled {before after : Config Byte Left Right} (step : Step before after) :
    (∃ offered, before.left.offer = some offered) ∨
      (∃ accepted byte rest, before.left.accept = some accepted ∧ before.toLeft = byte :: rest) ∨
      (∃ offered, before.right.offer = some offered) ∨
      (∃ accepted byte rest, before.right.accept = some accepted ∧
        before.toRight = byte :: rest) := by
  cases step with
  | leftWrites offers => exact .inl ⟨_, offers⟩
  | leftReads accepts => exact .inr (.inl ⟨_, _, _, accepts, rfl⟩)
  | rightWrites offers => exact .inr (.inr (.inl ⟨_, offers⟩))
  | rightReads accepts => exact .inr (.inr (.inr ⟨_, _, _, accepts, rfl⟩))

/-- What the two do does not get in each other's way. -/
theorem step_diamond : Diamond (@Step Byte Left Right) := by
  intro before one other first second
  cases first with
  | leftWrites offers =>
    cases second with
    | leftWrites again =>
      cases offers.symm.trans again
      exact .inl rfl
    | leftReads accepts => cases offers.symm.trans (Script.offer_of_accept accepts)
    | rightWrites offered => exact .inr ⟨_, .rightWrites offered, .leftWrites offers⟩
    | rightReads accepts => exact .inr ⟨_, .rightReads accepts, .leftWrites offers⟩
  | leftReads accepts =>
    cases second with
    | leftWrites offers => cases offers.symm.trans (Script.offer_of_accept accepts)
    | leftReads again =>
      cases accepts.symm.trans again
      exact .inl rfl
    | rightWrites offers => exact .inr ⟨_, .rightWrites offers, .leftReads accepts⟩
    | rightReads accepted => exact .inr ⟨_, .rightReads accepted, .leftReads accepts⟩
  | rightWrites offers =>
    cases second with
    | leftWrites offered => exact .inr ⟨_, .leftWrites offered, .rightWrites offers⟩
    | leftReads accepts => exact .inr ⟨_, .leftReads accepts, .rightWrites offers⟩
    | rightWrites again =>
      cases offers.symm.trans again
      exact .inl rfl
    | rightReads accepts => cases offers.symm.trans (Script.offer_of_accept accepts)
  | rightReads accepts =>
    cases second with
    | leftWrites offers => exact .inr ⟨_, .leftWrites offers, .rightReads accepts⟩
    | leftReads accepted => exact .inr ⟨_, .leftReads accepted, .rightReads accepts⟩
    | rightWrites offers => cases offers.symm.trans (Script.offer_of_accept accepts)
    | rightReads again =>
      cases accepts.symm.trans again
      exact .inl rfl

/-- The two changed for each other. -/
def Config.swap (config : Config Byte Left Right) : Config Byte Right Left :=
  ⟨config.right, config.left, config.toLeft, config.toRight⟩

theorem Step.swap {before after : Config Byte Left Right} (step : Step before after) :
    Step before.swap after.swap := by
  cases step with
  | leftWrites offers => exact .rightWrites offers
  | leftReads accepts => exact .rightReads accepts
  | rightWrites offers => exact .leftWrites offers
  | rightReads accepts => exact .leftReads accepts

theorem Steps.swap {count : Nat} {before after : Config Byte Left Right}
    (steps : Steps Step count before after) : Steps Step count before.swap after.swap := by
  induction steps with
  | refl state => exact .refl state.swap
  | head one _ ih => exact .head one.swap ih

end Steps

section Pieces

variable {Byte Left Right : Type} {left : Script Byte Left} {right : Script Byte Right}
  {toRight toLeft : List Byte}

/-- A piece of what is to be written. -/
theorem left_writes (sent more : List Byte) (next : Script Byte Left) :
    Steps Step sent.length ⟨(Script.write (sent ++ more) next).settle, right, toRight, toLeft⟩
      ⟨(Script.write more next).settle, right, toRight ++ sent, toLeft⟩ := by
  induction sent generalizing toRight with
  | nil =>
    simp only [List.nil_append, List.append_nil]
    exact .refl _
  | cons byte sent ih =>
    have rest := @ih (toRight ++ [byte])
    rw [List.append_assoc] at rest
    exact .head (.leftWrites rfl) rest

/-- A piece of what is to be read. -/
theorem left_reads (bytes got : List Byte) (more : Nat) (next : List Byte → Script Byte Left) :
    Steps Step bytes.length
      ⟨(Script.read (bytes.length + more) got next).settle, right, toRight, bytes ++ toLeft⟩
      ⟨(Script.read more (got ++ bytes) next).settle, right, toRight, toLeft⟩ := by
  induction bytes generalizing got with
  | nil =>
    simp only [List.length_nil, Nat.zero_add, List.nil_append, List.append_nil]
    exact .refl _
  | cons byte bytes ih =>
    have rest := ih (got ++ [byte])
    rw [List.append_assoc] at rest
    rw [List.length_cons, Nat.succ_add]
    exact .head (.leftReads rfl) rest

theorem right_writes (sent more : List Byte) (next : Script Byte Right) :
    Steps Step sent.length ⟨left, (Script.write (sent ++ more) next).settle, toRight, toLeft⟩
      ⟨left, (Script.write more next).settle, toRight, toLeft ++ sent⟩ :=
  (left_writes sent more next).swap

theorem right_reads (bytes got : List Byte) (more : Nat) (next : List Byte → Script Byte Right) :
    Steps Step bytes.length
      ⟨left, (Script.read (bytes.length + more) got next).settle, bytes ++ toRight, toLeft⟩
      ⟨left, (Script.read more (got ++ bytes) next).settle, toRight, toLeft⟩ :=
  (left_reads bytes got more next).swap

theorem left_writes_all {count : Nat} {bytes : List Byte} (size : bytes.length = count)
    (next : Script Byte Left) :
    Steps Step count ⟨(Script.write bytes next).settle, right, toRight, toLeft⟩
      ⟨next.settle, right, toRight ++ bytes, toLeft⟩ := by
  have steps := @left_writes _ _ _ right toRight toLeft bytes [] next
  rw [List.append_nil, size] at steps
  exact steps

theorem left_reads_all {count : Nat} {bytes : List Byte} (size : bytes.length = count)
    (next : List Byte → Script Byte Left) :
    Steps Step count ⟨(Script.read count [] next).settle, right, toRight, bytes ++ toLeft⟩
      ⟨(next bytes).settle, right, toRight, toLeft⟩ := by
  subst size
  exact left_reads bytes [] 0 next

/-- The last bytes that are on their way. -/
theorem left_reads_rest {count : Nat} {bytes : List Byte} (size : bytes.length = count)
    (next : List Byte → Script Byte Left) :
    Steps Step count ⟨(Script.read count [] next).settle, right, toRight, bytes⟩
      ⟨(next bytes).settle, right, toRight, []⟩ := by
  have steps := @left_reads_all _ _ _ right toRight [] _ _ size next
  rw [List.append_nil] at steps
  exact steps

theorem right_writes_all {count : Nat} {bytes : List Byte} (size : bytes.length = count)
    (next : Script Byte Right) :
    Steps Step count ⟨left, (Script.write bytes next).settle, toRight, toLeft⟩
      ⟨left, next.settle, toRight, toLeft ++ bytes⟩ :=
  (left_writes_all size next).swap

theorem right_reads_all {count : Nat} {bytes : List Byte} (size : bytes.length = count)
    (next : List Byte → Script Byte Right) :
    Steps Step count ⟨left, (Script.read count [] next).settle, bytes ++ toRight, toLeft⟩
      ⟨left, (next bytes).settle, toRight, toLeft⟩ :=
  (left_reads_all size next).swap

theorem right_reads_rest {count : Nat} {bytes : List Byte} (size : bytes.length = count)
    (next : List Byte → Script Byte Right) :
    Steps Step count ⟨left, (Script.read count [] next).settle, bytes, toLeft⟩
      ⟨left, (next bytes).settle, [], toLeft⟩ :=
  (left_reads_rest size next).swap

end Pieces

end Mgw.Dialogue

import Mgw.G726
import Mathlib.Tactic.SplitIfs

/-!
# The ranges of the G.726 codec

Whatever is encoded or decoded, the adaptive state stays within bounds, and no shift is
by a count that C does not define.
-/

namespace Mgw.G726

open WordArithmetic

set_option autoImplicit false

section Ranges

/-- The values of a `short`. -/
def InShort (value : Int) : Prop := -32768 ≤ value ∧ value < 32768

instance (value : Int) : Decidable (InShort value) :=
  inferInstanceAs (Decidable (_ ≤ _ ∧ _ < _))

/-- The values in the floating format. -/
def InFloat (value : Int) : Prop := -1024 ≤ value ∧ value < 1024

/-- The bounds of the adaptive state. The poles of the predictor are those of a stable
filter. -/
structure Bounded (s : State) : Prop where
  yl : 34816 ≤ s.yl ∧ s.yl ≤ 327680
  yu : 544 ≤ s.yu ∧ s.yu ≤ 5120
  dms : 0 ≤ s.dms ∧ s.dms ≤ 3584
  dml : 0 ≤ s.dml ∧ s.dml ≤ 14336
  ap : 0 ≤ s.ap ∧ s.ap ≤ 512
  a1 : -12288 ≤ s.a1 ∧ s.a1 ≤ 12288
  a0 : s.a1 - 15360 ≤ s.a0 ∧ s.a0 ≤ 15360 - s.a1
  b : s.b.length = 6 ∧ ∀ b ∈ s.b, InShort b
  dq : s.dq.length = 6 ∧ ∀ dq ∈ s.dq, InFloat dq
  sr0 : InFloat s.sr0
  sr1 : InFloat s.sr1

/-- The tables of a rate fit its codes. -/
structure Coding.Fits (coding : Coding) : Prop where
  bits : 2 ≤ coding.bits_per_sample ∧ coding.bits_per_sample ≤ 5
  size : (coding.quantizer_states - 1) / 2 * 2 + 1 < 2 ^ coding.bits_per_sample
  states : coding.quantizer_states ≤ 2 ^ coding.bits_per_sample
  dqlntab : ∀ code, -2048 ≤ coding.dqlntab.getD code 0 ∧ coding.dqlntab.getD code 0 ≤ 566
  witab : ∀ code, -704 ≤ coding.witab.getD code 0 ∧ coding.witab.getD code 0 ≤ 35904
  fitab : ∀ code, 0 ≤ coding.fitab.getD code 0 ∧ coding.fitab.getD code 0 ≤ 3584

theorem short_in (value : Int) : InShort (short value) := by
  unfold InShort short
  omega

theorem short_of_in {value : Int} (inside : InShort value) : short value = value := by
  unfold InShort at inside
  unfold short
  omega

theorem top_bit_zero : topBit 0 = -1 := rfl

theorem top_bit_pos {bits : Nat} (positive : bits ≠ 0) : topBit bits = bits.log2 :=
  if_neg positive

/-- The mantissa of a magnitude is behind its exponent. -/
theorem floating_range {mag : Int} (positive : 0 < mag) (small : mag < 32768) :
    64 ≤ floating mag ∧ floating mag < 1024 := by
  obtain ⟨magnitude, rfl⟩ := Int.eq_ofNat_of_zero_le (Int.le_of_lt positive)
  have some : magnitude ≠ 0 := by omega
  have top : (topBit magnitude + 1).toNat = magnitude.log2 + 1 := by
    rw [top_bit_pos some]
    omega
  have most : magnitude.log2 < 15 := (Nat.log2_lt some).mpr (by omega)
  have bound : magnitude < 2 ^ (magnitude.log2 + 1) := Nat.lt_log2_self
  have mantissa : magnitude * 64 / 2 ^ (magnitude.log2 + 1) < 64 := by
    rw [Nat.div_lt_iff_lt_mul (Nat.two_pow_pos _), Nat.mul_comm]
    exact (Nat.mul_lt_mul_left (by decide)).mpr bound
  have value : floating (magnitude : Int) =
      (((magnitude.log2 + 1) * 64 + magnitude * 64 / 2 ^ (magnitude.log2 + 1) : Nat) : Int) := by
    rw [floating, Int.toNat_natCast, top]
    push_cast
    rfl
  rw [value]
  generalize magnitude * 64 / 2 ^ (magnitude.log2 + 1) = behind at mantissa
  generalize magnitude.log2 = exponent at most
  omega

theorem float_a_in {dq : Int} : InFloat (floatA dq) := by
  unfold floatA InFloat
  dsimp only
  split_ifs with zero sign sign
  · omega
  · omega
  · have range := @floating_range (dq % 32768) (by omega) (by omega)
    omega
  · have range := @floating_range (dq % 32768) (by omega) (by omega)
    omega

theorem float_b_in {sr : Int} (inside : InShort sr) : InFloat (floatB sr) := by
  unfold InShort at inside
  unfold floatB InFloat
  split_ifs with zero positive least
  · omega
  · have range := @floating_range sr positive (by omega)
    omega
  · have range := @floating_range (-sr) (by omega) (by omega)
    omega
  · omega

end Ranges

section Adaptation

variable {s : State}

/-- The share of a difference is within it. -/
theorem share_bound {dif al : Int} (share : 0 ≤ al ∧ al < 64) :
    (0 ≤ dif → 0 ≤ dif * al ∧ dif * al ≤ dif * 64) ∧ (dif ≤ 0 → dif * 64 ≤ dif * al ∧ dif * al ≤ 0) := by
  refine ⟨fun up => ⟨Int.mul_nonneg up share.1, Int.mul_le_mul_of_nonneg_left (by omega) up⟩,
    fun down => ⟨?_, Int.mul_nonpos_of_nonpos_of_nonneg down share.1⟩⟩
  exact Int.mul_le_mul_of_nonpos_left down (by omega)

theorem step_size_range (bounded : Bounded s) : 544 ≤ stepSize s ∧ stepSize s ≤ 5120 := by
  obtain ⟨yl, yu, -, -, ap, -⟩ := bounded
  unfold stepSize
  dsimp only
  have share := @share_bound (s.yu - s.yl / 64) (s.ap / 4)
  split_ifs with fast up down
  · exact yu
  · have within := (share (by omega)).1 (by omega)
    omega
  · have within := (share (by omega)).2 (by omega)
    omega
  · omega

theorem reconstruct_some {dqln y : Int} (table : -2048 ≤ dqln ∧ dqln ≤ 566)
    (step : 544 ≤ y ∧ y ≤ 5120) (sign : Bool) :
    ∃ dq, reconstruct sign dqln y = some dq ∧ InShort dq := by
  have dql : short (dqln + y / 4) = dqln + y / 4 := short_of_in (by unfold InShort; omega)
  unfold reconstruct
  rw [dql]
  dsimp only
  by_cases negative : dqln + y / 4 < 0
  · rw [if_pos negative]
    refine ⟨_, rfl, ?_⟩
    unfold InShort
    split_ifs <;> omega
  · rw [if_neg negative, if_neg (by omega)]
    have least : (0 : Int) ≤ (128 + (dqln + y / 4) % 128) * 128 /
        2 ^ (14 - (dqln + y / 4) / 128 % 16).toNat :=
      Int.ediv_nonneg (by omega) (Int.pow_nonneg (by decide))
    have most : (128 + (dqln + y / 4) % 128) * 128 /
        2 ^ (14 - (dqln + y / 4) / 128 % 16).toNat ≤ (128 + (dqln + y / 4) % 128) * 128 :=
      Int.ediv_le_self _ (by omega)
    refine ⟨_, rfl, ?_⟩
    unfold InShort
    split_ifs <;> omega

theorem above_threshold_some (bounded : Bounded s) (mag : Int) :
    ∃ above, aboveThreshold s.yl mag = some above := by
  have yl := bounded.yl
  unfold aboveThreshold
  dsimp only
  rw [if_neg (by omega)]
  exact ⟨_, rfl⟩

theorem limit_step_range (yu : Int) : 544 ≤ limitStep yu ∧ limitStep yu ≤ 5120 := by
  unfold limitStep
  split_ifs <;> omega

theorem update_a1_range (bounded : Bounded s) (pk0 : Bool) (dqsez : Int) :
    -12288 ≤ updateA1 s pk0 dqsez ∧ updateA1 s pk0 dqsez ≤ 12288 := by
  have a1 := bounded.a1
  unfold updateA1
  dsimp only
  generalize (if pk0 ≠ s.pk0 then s.a0 else short (-s.a0)) = fa1
  split_ifs <;> omega

theorem update_a0_range (pk0 : Bool) (dqsez : Int) {a2p : Int} (most : a2p ≤ 12288) :
    a2p - 15360 ≤ updateA0 s pk0 dqsez a2p ∧ updateA0 s pk0 dqsez a2p ≤ 15360 - a2p := by
  unfold updateA0
  dsimp only
  generalize (if dqsez = 0 then s.a0 - s.a0 / 256
    else if pk0 = s.pk0 then short (s.a0 - s.a0 / 256 + 192)
    else short (s.a0 - s.a0 / 256 - 192)) = a0
  split_ifs <;> omega

theorem update_b_in (bits_per_sample : Nat) (dq dqi : Int) {b : Int} (inside : InShort b) :
    InShort (updateB bits_per_sample dq b dqi) := by
  unfold updateB
  dsimp only
  split_ifs with five
  all_goals first
    | exact short_in _
    | unfold InShort at inside ⊢
      omega

theorem zip_with_in {list : List Int} (inside : ∀ b ∈ list, InShort b) (bits_per_sample : Nat)
    (dq : Int) (others : List Int) :
    ∀ b ∈ list.zipWith (updateB bits_per_sample dq) others, InShort b := by
  induction list generalizing others with
  | nil => simp
  | cons b list induction =>
      cases others with
      | nil => simp
      | cons dqi others =>
          rw [List.zipWith_cons_cons, List.forall_mem_cons]
          exact ⟨update_b_in bits_per_sample dq dqi (inside b List.mem_cons_self),
            induction (fun other member => inside other (List.mem_cons_of_mem _ member)) others⟩

theorem update_ap_range {ap : Int} (range : 0 ≤ ap ∧ ap ≤ 512) (dms dml y : Int) (tr td : Bool) :
    0 ≤ updateAp ap dms dml y tr td ∧ updateAp ap dms dml y tr td ≤ 512 := by
  unfold updateAp
  split_ifs <;> omega

theorem update_bounded (bounded : Bounded s) (bits_per_sample : Nat) {y wi fi dq sr : Int}
    (dqsez : Int) (energy : 0 ≤ fi ∧ fi ≤ 3584) (signal : InShort sr) :
    ∃ after, update bits_per_sample s y wi fi dq sr dqsez = some after ∧ Bounded after := by
  obtain ⟨above, known⟩ := above_threshold_some bounded (dq % 32768)
  have step := limit_step_range (short (y + (wi - y) / 32))
  have pole := update_a1_range bounded (decide (dqsez < 0)) dqsez
  rw [update, known, Option.map_some]
  refine ⟨_, rfl, ?_⟩
  obtain ⟨yl, yu, dms, dml, ap, a1, a0, b, dqs, sr0, sr1⟩ := bounded
  constructor
  · dsimp only
    omega
  · exact step
  · dsimp only
    omega
  · dsimp only
    omega
  · exact update_ap_range ap _ _ _ _ _
  · dsimp only
    split_ifs
    · omega
    · exact pole
  · dsimp only
    split_ifs
    · omega
    · exact update_a0_range _ _ pole.2
  · dsimp only
    split_ifs
    · refine ⟨by rw [List.length_map, b.1], ?_⟩
      intro value member
      obtain ⟨_, _, rfl⟩ := List.mem_map.mp member
      unfold InShort
      omega
    · exact ⟨by rw [List.length_zipWith, b.1, dqs.1]; rfl, zip_with_in b.2 _ _ _⟩
  · refine ⟨by simp [dqs.1], ?_⟩
    intro value member
    obtain rfl | there := List.mem_cons.mp member
    · exact float_a_in
    · exact dqs.2 value (List.mem_of_mem_take there)
  · exact float_b_in signal
  · exact sr0

end Adaptation

section Coders

variable {coding : Coding} {s : State}

theorem quan_le (dln : Int) (table : List Int) : quan dln table ≤ table.length := by
  induction table with
  | nil => exact Nat.le_refl 0
  | cons bound table induction =>
      rw [quan, List.length_cons]
      split_ifs <;> omega

/-- The code of a difference that has a magnitude. -/
theorem quantize_some (fits : coding.Fits) {d : Int} (inside : -32768 < d ∧ d < 32768) (y : Int) :
    ∃ code, quantize d y coding.qtab coding.quantizer_states = some code ∧
      code < 2 ^ coding.bits_per_sample := by
  have positive : 0 ≤ |d| ∧ |d| < 32768 := ⟨abs_nonneg d, abs_lt.mpr inside⟩
  have magnitude : short |d| = |d| := short_of_in (by unfold InShort; omega)
  have half : unsigned (|d| / 2) < 2 ^ 14 := by
    unfold unsigned
    omega
  have exponent : (topBit (unsigned (|d| / 2)) + 1).toNat < 32 := by
    by_cases zero : unsigned (|d| / 2) = 0
    · rw [zero, top_bit_zero]
      decide
    · have top := (Nat.log2_lt zero).mpr half
      rw [top_bit_pos zero]
      omega
  have size := fits.size
  have states := fits.states
  unfold quantize
  rw [magnitude]
  dsimp only
  rw [if_neg (by omega)]
  generalize short (short ((topBit (unsigned (|d| / 2)) + 1).toNat * 128 +
    |d| * 128 / 2 ^ (topBit (unsigned (|d| / 2)) + 1).toNat % 128) - short (y / 4)) = dln
  have within := quan_le dln (coding.qtab.take ((coding.quantizer_states - 1) / 2))
  rw [List.length_take] at within
  split_ifs with negative even
  · exact ⟨_, rfl, by omega⟩
  · refine ⟨_, rfl, Nat.lt_of_le_of_ne states ?_⟩
    intro same
    have odd := even.2
    rw [same, Nat.pow_mod, Nat.mod_self, Nat.zero_pow (by have := fits.bits; omega)] at odd
    exact absurd odd (by decide)
  · exact ⟨_, rfl, by omega⟩

theorem follow_bounded (fits : coding.Fits) (bounded : Bounded s) (sezi se : Int) (code : Nat) :
    ∃ after sr, follow coding s sezi se (stepSize s) code = some (after, sr) ∧ Bounded after ∧
      InShort sr := by
  obtain ⟨dq, reconstructed, -⟩ := reconstruct_some (fits.dqlntab code) (step_size_range bounded)
    (decide (code / 2 ^ (coding.bits_per_sample - 1) % 2 = 1))
  have signal := short_in (if dq < 0 then se - dq % coding.dqRange else se + dq)
  obtain ⟨after, updated, kept⟩ := @update_bounded s bounded coding.bits_per_sample (stepSize s)
    (coding.witab.getD code 0) (coding.fitab.getD code 0) dq
    (short (if dq < 0 then se - dq % coding.dqRange else se + dq))
    (short (short (if dq < 0 then se - dq % coding.dqRange else se + dq) + sezi / 2 - se))
    (fits.fitab code) signal
  refine ⟨after, _, ?_, kept, signal⟩
  rw [follow, reconstructed]
  simp only [Option.bind_eq_bind, Option.bind_some, updated]
  rfl

theorem decoder_bounded (fits : coding.Fits) (bounded : Bounded s) (code : Nat) :
    ∃ after sl, decoder coding s code = some (after, sl) ∧ Bounded after ∧ InShort sl := by
  obtain ⟨after, sr, followed, kept, -⟩ := follow_bounded fits bounded (predictorZero s)
    (short (predictorZero s + predictorPole s) / 2) (code % 2 ^ coding.bits_per_sample)
  refine ⟨after, short (sr * 4), ?_, kept, short_in _⟩
  rw [decoder, followed]
  rfl

/-- An encoder goes on as a decoder does with its code. -/
theorem encoder_bounded (fits : coding.Fits) (bounded : Bounded s) {sample : Int}
    (inside : InShort sample) :
    ∃ after code sr, encoder coding s (sample / 4) = some (after, code, sr) ∧ Bounded after ∧
      code < 2 ^ coding.bits_per_sample ∧
      decoder coding s code = some (after, short (sr * 4)) := by
  have sei := short_in (predictorZero s + predictorPole s)
  have d : short (sample / 4 - short (predictorZero s + predictorPole s) / 2) =
      sample / 4 - short (predictorZero s + predictorPole s) / 2 := by
    refine short_of_in ?_
    unfold InShort at inside sei ⊢
    omega
  obtain ⟨code, quantized, small⟩ := @quantize_some coding fits
    (sample / 4 - short (predictorZero s + predictorPole s) / 2)
    (by unfold InShort at inside sei; omega) (stepSize s)
  obtain ⟨after, sr, followed, kept, -⟩ := follow_bounded fits bounded (predictorZero s)
    (short (predictorZero s + predictorPole s) / 2) code
  refine ⟨after, code, sr, ?_, kept, small, ?_⟩
  · rw [encoder, d, quantized]
    simp only [Option.bind_eq_bind, Option.bind_some, followed]
    rfl
  · rw [decoder, Nat.mod_eq_of_lt small, followed]
    rfl

theorem table_range {table : List Int} {least most : Int} (zero : least ≤ 0 ∧ 0 ≤ most)
    (entries : ∀ entry ∈ table, least ≤ entry ∧ entry ≤ most) (code : Nat) :
    least ≤ table.getD code 0 ∧ table.getD code 0 ≤ most := by
  rw [List.getD_eq_getElem?_getD]
  cases present : table[code]? with
  | none => exact zero
  | some entry => exact entries entry (List.mem_of_getElem? present)

theorem rates_fit {bit_rate : Nat} (coded : codingOf bit_rate = some coding) : coding.Fits := by
  have fit {coding : Coding} (sizes : 2 ≤ coding.bits_per_sample ∧ coding.bits_per_sample ≤ 5 ∧
      (coding.quantizer_states - 1) / 2 * 2 + 1 < 2 ^ coding.bits_per_sample ∧
      coding.quantizer_states ≤ 2 ^ coding.bits_per_sample)
      (tables : (∀ entry ∈ coding.dqlntab, -2048 ≤ entry ∧ entry ≤ 566) ∧
        (∀ entry ∈ coding.witab, -704 ≤ entry ∧ entry ≤ 35904) ∧
        ∀ entry ∈ coding.fitab, 0 ≤ entry ∧ entry ≤ 3584) : coding.Fits :=
    ⟨⟨sizes.1, sizes.2.1⟩, sizes.2.2.1, sizes.2.2.2, table_range (by decide) tables.1,
      table_range (by decide) tables.2.1, table_range (by decide) tables.2.2⟩
  unfold codingOf at coded
  split_ifs at coded <;> cases coded <;> exact fit (by decide) (by decide)

theorem init_bounded : Bounded State.init := by
  refine ⟨by decide, by decide, by decide, by decide, by decide, by decide, by decide, ⟨rfl, ?_⟩,
    ⟨rfl, ?_⟩, ?_, ?_⟩ <;> simp [State.init, InShort, InFloat]

end Coders

end Mgw.G726

import Mgw.AacHeader
import Mgw.BitFields

/-!
# The AudioSpecificConfig

`mgw_get_aac_lc_header` and `mgw_get_aaclc_flv_header` of `codec-common.c` with
the pointer they fill, and the syntax that reads the configuration back. The
second function calls the first with a pointer into its own array.
-/

namespace Mgw.AudioConfig

open AacHeader BitFields ByteArea

set_option autoImplicit false

/-- The memory behind a call, `*header`, and the size that is returned. -/
structure Written where
  memory : Bytes
  header : Nat
  size : Nat

def Written.bytes (written : Written) : List UInt8 :=
  takeBytes (advance written.memory written.header) written.size

def copyBytes (memory : Bytes) (address : Nat) (bytes : List UInt8) : Bytes :=
  copyIn memory address (fun index => bytes.getD index 0) bytes.length

/-- The end of both functions: `bzalloc`, which gives the block at `fresh`, unless there is
a buffer, and `memcpy`. -/
def putHeader (memory : Bytes) (header : Option Nat) (fresh : Nat) (buf : List UInt8) : Written :=
  let zeroed := match header with
    | none => copyIn memory fresh (fun _ => 0) buf.length
    | some _ => memory
  let target := header.getD fresh
  { memory := copyBytes zeroed target buf, header := target, size := buf.length }

def mgwGetAacLcHeader (memory : Bytes) (fresh : Nat) (channels _samplesize : UInt8)
    (samplerate : UInt32) (header : Option Nat) : Written :=
  putHeader memory header fresh (AacHeader.mgwGetAacLcHeader channels samplerate)

/-- `temp_header` points behind the two codes in the array. -/
def mgwGetAaclcFlvHeader (memory : Bytes) (fresh : Nat) (channels samplesize : UInt8)
    (samplerate : UInt32) (header : Option Nat) : Written :=
  let codes := copyBytes (fun _ => 0) 0 [0xaf, 0x00]
  let filled := mgwGetAacLcHeader codes fresh channels samplesize samplerate (some 2)
  let buf := copyBytes filled.memory 0 [audioCode (samplesize = 8) (channels = 1)]
  putHeader memory header fresh (takeBytes buf (2 + filled.size))

/-- What the configuration says. -/
structure AudioSpecificConfig where
  audioObjectType : Nat
  samplingFrequency : Nat
  channelConfiguration : Nat
  deriving DecidableEq

/-- The syntax of the configuration, with the bits behind it. -/
def parseConfig (bytes : List UInt8) : Option (AudioSpecificConfig × List Bool) :=
  (readField 5 (byteBits bytes)).bind fun object =>
    (readField 4 object.2).bind fun index =>
      let frequency :=
        if index.1 = 15 then readField 24 index.2
        else (samplingFrequencies[index.1]?).map fun rate => (rate, index.2)
      frequency.bind fun rate =>
        (readField 4 rate.2).map fun channels =>
          ({ audioObjectType := object.1
             samplingFrequency := rate.1
             channelConfiguration := channels.1 }, channels.2)

section Bits

/-- A statement about bytes below 16 is one about sixteen of them. -/
theorem small_byte {property : UInt8 → Prop} (each : ∀ small : Fin 16, property (UInt8.ofNat small))
    {byte : UInt8} (bound : byte.toNat < 16) : property byte := by
  have here := each ⟨byte.toNat, bound⟩
  rwa [UInt8.ofNat_toNat] at here

theorem first_byte {index : UInt8} (bound : index.toNat < 16) :
    (((AUDIO_AAC_LC <<< 3) &&& (0xf8 : UInt8)) ||| ((index >>> 1) &&& 0x07)).toNat =
      16 + index.toNat / 2 := by
  apply small_byte _ bound
  decide

theorem configuration_bits {channels : UInt8} (bound : channels.toNat < 16) :
    ((channels <<< 3) &&& (0x78 : UInt8)).toNat = channels.toNat * 8 := by
  apply small_byte _ bound
  decide

theorem top_bit (byte : UInt8) :
    ((byte <<< 7) &&& (0x80 : UInt8)).toNat = 2 ^ 7 * (byte.toNat % 2) := by
  have shifted : byte <<< 7 = UInt8.ofNat (byte.toNat % 2) <<< 7 := by
    apply UInt8.toNat_inj.mp
    simp [Nat.shiftLeft_eq]
    omega
  have bits : ∀ bit : Fin 2,
      ((UInt8.ofNat bit.val <<< 7) &&& (0x80 : UInt8)).toNat = 2 ^ 7 * bit.val := by decide
  rw [shifted]
  exact bits ⟨byte.toNat % 2, Nat.mod_lt _ Nat.two_pos⟩

/-- The highest bit and seven more. -/
theorem top_bit_or (byte : UInt8) {low : UInt8} (bound : low.toNat < 128) :
    (((byte <<< 7) &&& (0x80 : UInt8)) ||| low).toNat = byte.toNat % 2 * 128 + low.toNat := by
  rw [UInt8.toNat_or, top_bit, ← Nat.two_pow_add_eq_or_of_lt bound, Nat.mul_comm]

theorem low_bits {byte : UInt8} (bound : byte.toNat < 128) : byte &&& 0x7f = byte := by
  apply UInt8.toNat_inj.mp
  rw [UInt8.toNat_and]
  exact (Nat.and_two_pow_sub_one_eq_mod _ 7).trans (Nat.mod_eq_of_lt bound)

variable {channels : UInt8} {samplerate : UInt32}

/-- With an index the configuration takes thirteen bits. -/
theorem short_bits (small : channels.toNat < 16) (listed : getSamplerateIndex samplerate ≠ 0xf) :
    byteBits (AacHeader.mgwGetAacLcHeader channels samplerate) =
      layOut [(5, 2), (4, (getSamplerateIndex samplerate).toNat), (4, channels.toNat), (3, 0)] := by
  have index := samplerate_index_lt samplerate
  have configuration := configuration_bits small
  unfold AacHeader.mgwGetAacLcHeader
  dsimp only
  rw [if_neg listed, byte_bits_lay_out]
  apply lay_out_congr (bytes_fit _)
  · simp [Fit, index, small]
  · rfl
  · rw [List.map_cons, List.map_cons, List.map_nil, first_byte index,
      top_bit_or _ (by omega), configuration]
    simp [packed]
    omega

/-- With the rate itself it takes thirty-seven. -/
theorem long_bits (small : channels.toNat < 16) (rate : samplerate.toNat < 2 ^ 24)
    (outside : getSamplerateIndex samplerate = 0xf) :
    byteBits (AacHeader.mgwGetAacLcHeader channels samplerate) =
      layOut [(5, 2), (4, 15), (24, samplerate.toNat), (4, channels.toNat), (3, 0)] := by
  have configuration := configuration_bits small
  have high : (samplerate >>> 17).toUInt8.toNat = samplerate.toNat / 131072 := by
    simp [Nat.shiftRight_eq_div_pow]
    omega
  have second : (samplerate >>> 9).toUInt8.toNat = samplerate.toNat / 512 % 256 := by
    simp [Nat.shiftRight_eq_div_pow]
  have third : (samplerate >>> 1).toUInt8.toNat = samplerate.toNat / 2 % 256 := by
    simp [Nat.shiftRight_eq_div_pow]
  have low : samplerate.toUInt8.toNat = samplerate.toNat % 256 := by simp
  unfold AacHeader.mgwGetAacLcHeader
  dsimp only
  rw [if_pos outside, byte_bits_lay_out, outside]
  apply lay_out_congr (bytes_fit _)
  · simp [Fit, small]
    omega
  · rfl
  · have parts : samplerate.toNat = ((samplerate.toNat / 131072 * 256 +
        samplerate.toNat / 512 % 256) * 256 + samplerate.toNat / 2 % 256) * 2 +
        samplerate.toNat % 256 % 2 := by omega
    simp only [List.map_cons, List.map_nil]
    rw [first_byte (by decide), low_bits (by omega), top_bit_or _ (by omega), top_bit_or _ (by omega),
      configuration, high, second, third, low]
    generalize samplerate.toNat / 131072 = first at parts ⊢
    generalize samplerate.toNat / 512 % 256 = second at parts ⊢
    generalize samplerate.toNat / 2 % 256 = third at parts ⊢
    generalize samplerate.toNat % 256 % 2 = last at parts ⊢
    have index : UInt8.toNat 15 = 15 := rfl
    rw [parts, index]
    simp only [packed, List.foldl_cons, List.foldl_nil]
    omega

/-- The rate is read back in either form; three bits are left of the last byte. -/
theorem parse_config (small : channels.toNat < 16) (rate : samplerate.toNat < 2 ^ 24) :
    parseConfig (AacHeader.mgwGetAacLcHeader channels samplerate) =
      some (⟨2, samplerate.toNat, channels.toNat⟩, [false, false, false]) := by
  have index := samplerate_index_lt samplerate
  unfold parseConfig
  rcases samplerate_index samplerate with outside | listed
  · rw [long_bits small rate outside, lay_out_cons, read_field_append (by decide), Option.bind_some,
      lay_out_cons, read_field_append (by decide), Option.bind_some, if_pos rfl, lay_out_cons,
      read_field_append rate, Option.bind_some, lay_out_cons, read_field_append small]
    rfl
  · have known : (getSamplerateIndex samplerate).toNat ≠ 15 := by
      have bound := (List.getElem?_eq_some_iff.mp listed).1
      change _ < 13 at bound
      omega
    have inner : getSamplerateIndex samplerate ≠ 0xf := fun same => known (congrArg UInt8.toNat same)
    rw [short_bits small inner, lay_out_cons, read_field_append (by decide), Option.bind_some,
      lay_out_cons, read_field_append index, Option.bind_some, if_neg known, listed,
      Option.map_some, Option.bind_some, lay_out_cons, read_field_append small]
    rfl

end Bits

section Memory

variable {memory : Bytes} {header : Option Nat} {fresh : Nat}

theorem put_header_bytes (buf : List UInt8) : (putHeader memory header fresh buf).bytes = buf :=
  take_bytes_copied _ _ buf

/-- Nothing is written but the bytes behind the pointer. -/
theorem put_header_outside (buf : List UInt8) {address : Nat}
    (outside : address < header.getD fresh ∨ header.getD fresh + buf.length ≤ address) :
    (putHeader memory header fresh buf).memory address = memory address := by
  unfold putHeader copyBytes
  dsimp only
  rw [copy_in_outside _ _ _ _ _ outside]
  cases header with
  | none => exact copy_in_outside _ _ _ _ _ outside
  | some target => rfl

/-- What the second function has put together in its array. -/
theorem flv_array (fresh : Nat) (channels samplesize : UInt8) (samplerate : UInt32) :
    let filled := mgwGetAacLcHeader (copyBytes (fun _ => 0) 0 [0xaf, 0x00]) fresh channels samplesize
      samplerate (some 2)
    takeBytes (copyBytes filled.memory 0 [audioCode (samplesize = 8) (channels = 1)])
        (2 + filled.size) =
      AacHeader.mgwGetAaclcFlvHeader channels samplesize samplerate := by
  intro filled
  have config : takeBytes (advance filled.memory 2) filled.size =
      AacHeader.mgwGetAacLcHeader channels samplerate := put_header_bytes _
  have second : filled.memory 1 = 0x00 := put_header_outside _ (Or.inl Nat.one_lt_two)
  have behind : takeBytes (advance (copyBytes filled.memory 0
      [audioCode (samplesize = 8) (channels = 1)]) 2) filled.size =
        takeBytes (advance filled.memory 2) filled.size := by
    apply take_bytes_congr
    intro place _
    rw [advance_apply, advance_apply, copyBytes]
    apply copy_in_outside
    rw [List.length_singleton]
    omega
  rw [take_bytes_add, behind, config]
  change [_, filled.memory 1] ++ _ = _
  rw [second]
  rfl

/-- For every rate below `2 ^ 24` and every channel count below 16, with a buffer of the
caller or without one: the configuration is read back from the bytes that are written, of
which all but three bits are used, the FLV header is two bytes and the same bytes, and
nothing else is written. -/
theorem audio_config_round_trip (memory : Bytes) (header : Option Nat) (fresh : Nat)
    (channels samplesize : UInt8) (samplerate : UInt32) (small : channels.toNat < 16)
    (rate : samplerate.toNat < 2 ^ 24) :
    let config := mgwGetAacLcHeader memory fresh channels samplesize samplerate header
    let flv := mgwGetAaclcFlvHeader memory fresh channels samplesize samplerate header
    parseConfig config.bytes =
        some (⟨2, samplerate.toNat, channels.toNat⟩, [false, false, false]) ∧
      config.header = header.getD fresh ∧
      (∀ address, address < config.header ∨ config.header + config.size ≤ address →
        config.memory address = memory address) ∧
      flv.bytes = audioCode (samplesize = 8) (channels = 1) :: 0x00 :: config.bytes ∧
      flv.header = header.getD fresh ∧
      ∀ address, address < flv.header ∨ flv.header + flv.size ≤ address →
        flv.memory address = memory address := by
  intro config flv
  have bytes : config.bytes = AacHeader.mgwGetAacLcHeader channels samplerate := put_header_bytes _
  have flvBytes : flv.bytes = AacHeader.mgwGetAaclcFlvHeader channels samplesize samplerate :=
    (put_header_bytes _).trans (flv_array fresh channels samplesize samplerate)
  rw [bytes, flvBytes]
  exact ⟨parse_config small rate, rfl, fun address outside => put_header_outside _ outside, rfl, rfl,
    fun address outside => put_header_outside _ outside⟩

/-- A rate outside the table, with a buffer that is allocated. -/
theorem audio_config_round_trip_explicit :
    let config := mgwGetAacLcHeader (fun _ => 0) 64 2 16 37800 none
    let flv := mgwGetAaclcFlvHeader (fun _ => 0) 64 2 16 37800 none
    parseConfig config.bytes =
        some (⟨2, (37800 : UInt32).toNat, (2 : UInt8).toNat⟩, [false, false, false]) ∧
      config.header = (none : Option Nat).getD 64 ∧
      (∀ address, address < config.header ∨ config.header + config.size ≤ address →
        config.memory address = (fun _ => 0 : Bytes) address) ∧
      flv.bytes = audioCode ((16 : UInt8) = 8) ((2 : UInt8) = 1) :: 0x00 :: config.bytes ∧
      flv.header = (none : Option Nat).getD 64 ∧
      ∀ address, address < flv.header ∨ flv.header + flv.size ≤ address →
        flv.memory address = (fun _ => 0 : Bytes) address :=
  audio_config_round_trip (fun _ => 0) none 64 2 16 37800 (by decide) (by decide)

end Memory

end Mgw.AudioConfig

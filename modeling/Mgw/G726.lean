import Mgw.WordArithmetic
import Mathlib.Algebra.Ring.Int.Defs
import Mathlib.Data.Int.Order.Basic

/-!
# The G.726 codec

The encoders and decoders of `g726.c` and the packing of their codes into bytes. A `short`
is an integer that is wrapped where it can leave its range. There is no result where a
value is shifted by less than nothing or by the bits of an `int` or more.
-/

namespace Mgw.G726

open WordArithmetic

set_option autoImplicit false

/-- The conversion to `short`. -/
def short (value : Int) : Int := (value + 32768) % 65536 - 32768

/-- The conversion of an `int` to `unsigned int`. -/
def unsigned (value : Int) : Nat := (value % 4294967296).toNat

def topBit (bits : Nat) : Int := if bits = 0 then -1 else bits.log2

/-- What differs between the rates. -/
structure Coding where
  bits_per_sample : Nat
  qtab : List Int
  quantizer_states : Nat
  dqlntab : List Int
  witab : List Int
  fitab : List Int
  /-- `0x3FFF` or `0x7FFF`, and one. -/
  dqRange : Int

/-- `g726_state_t` without the stream of bits. -/
structure State where
  yl : Int
  yu : Int
  dms : Int
  dml : Int
  ap : Int
  a0 : Int
  a1 : Int
  b : List Int
  pk0 : Bool
  pk1 : Bool
  dq : List Int
  sr0 : Int
  sr1 : Int
  td : Bool

section Quantizer

/-- The loop over the table. -/
def quan (dln : Int) : List Int → Nat
  | [] => 0
  | bound :: table => if dln < bound then 0 else quan dln table + 1

def quantize (d y : Int) (table : List Int) (quantizer_states : Nat) : Option Nat :=
  let dqm := short |d|
  let exp := (topBit (unsigned (dqm / 2)) + 1).toNat
  if 32 ≤ exp then none
  else
    let mant := dqm * 128 / 2 ^ exp % 128
    let dl := short (exp * 128 + mant)
    let dln := short (dl - short (y / 4))
    let size := (quantizer_states - 1) / 2
    let i := quan dln (table.take size)
    if d < 0 then some (size * 2 + 1 - i)
    else if i = 0 ∧ quantizer_states % 2 = 1 then some quantizer_states
    else some i

def reconstruct (sign : Bool) (dqln y : Int) : Option Int :=
  let dql := short (dqln + y / 4)
  if dql < 0 then some (if sign then -0x8000 else 0)
  else
    let dex := dql / 128 % 16
    let dqt := 128 + dql % 128
    if 14 < dex then none
    else
      let dq := dqt * 128 / 2 ^ (14 - dex).toNat
      some (if sign then dq - 0x8000 else dq)

end Quantizer

section Predictor

def fmult (an srn : Int) : Int :=
  let anmag := if 0 < an then an else -an % 8192
  let anexp := topBit anmag.toNat - 5
  let anmant :=
    if anmag = 0 then 32
    else if 0 ≤ anexp then anmag / 2 ^ anexp.toNat
    else anmag * 2 ^ (-anexp).toNat
  let wanexp := anexp + srn / 64 % 16 - 13
  let wanmant := (anmant * (srn % 64) + 0x30) / 16
  let retval :=
    if 0 ≤ wanexp then wanmant * 2 ^ wanexp.toNat % 32768 else wanmant / 2 ^ (-wanexp).toNat
  if (an < 0) ≠ (srn < 0) then -retval else retval

def predictorZero (s : State) : Int :=
  short (s.b.zipWith (fun b dq => fmult (b / 4) dq) s.dq).sum

def predictorPole (s : State) : Int :=
  short (fmult (s.a1 / 4) s.sr1 + fmult (s.a0 / 4) s.sr0)

def stepSize (s : State) : Int :=
  if 256 ≤ s.ap then s.yu
  else
    let y := s.yl / 64
    let dif := s.yu - y
    let al := s.ap / 4
    if 0 < dif then y + dif * al / 64
    else if dif < 0 then y + (dif * al + 0x3F) / 64
    else y

end Predictor

section Update

/-- Whether a magnitude is above three quarters of the threshold. -/
def aboveThreshold (yl mag : Int) : Option Bool :=
  let ylint := yl / 32768
  let ylfrac := yl / 1024 % 32
  if ylint < 0 then none
  else
    let thr := if 9 < ylint then 31 * 1024 else (32 + ylfrac) * 2 ^ ylint.toNat
    let dqthr := (thr + thr / 2) / 2
    some (dqthr < mag)

/-- `LIMB`. -/
def limitStep (yu : Int) : Int := if yu < 544 then 544 else if 5120 < yu then 5120 else yu

/-- `UPA2` and `LIMC`. -/
def updateA1 (s : State) (pk0 : Bool) (dqsez : Int) : Int :=
  let a2p := s.a1 - s.a1 / 128
  if dqsez = 0 then a2p
  else
    let fa1 := if pk0 ≠ s.pk0 then s.a0 else short (-s.a0)
    let a2p := a2p + if fa1 < -8191 then -0x100 else if 8191 < fa1 then 0xFF else fa1 / 32
    if pk0 ≠ s.pk1 then
      if a2p ≤ -12160 then -12288 else if 12416 ≤ a2p then 12288 else a2p - 0x80
    else if a2p ≤ -12416 then -12288
    else if 12160 ≤ a2p then 12288
    else a2p + 0x80

/-- `UPA1` and `LIMD`. -/
def updateA0 (s : State) (pk0 : Bool) (dqsez a2p : Int) : Int :=
  let a0 := s.a0 - s.a0 / 256
  let a0 :=
    if dqsez = 0 then a0 else if pk0 = s.pk0 then short (a0 + 192) else short (a0 - 192)
  let a1ul := 15360 - a2p
  if a0 < -a1ul then -a1ul else if a1ul < a0 then a1ul else a0

/-- `UPB`. -/
def updateB (bits_per_sample : Nat) (dq b dqi : Int) : Int :=
  let b := b - b / if bits_per_sample = 5 then 512 else 256
  if dq % 32768 = 0 then b
  else if (dq < 0) = (dqi < 0) then short (b + 128)
  else short (b - 128)

/-- The exponent in four bits and the mantissa in six. -/
def floating (mag : Int) : Int :=
  let exp := (topBit mag.toNat + 1).toNat
  exp * 64 + mag * 64 / 2 ^ exp

/-- `FLOAT A`. -/
def floatA (dq : Int) : Int :=
  let mag := dq % 32768
  if mag = 0 then if 0 ≤ dq then 0x20 else 0xFC20 - 0x10000
  else if 0 ≤ dq then floating mag
  else floating mag - 0x400

/-- `FLOAT B`. -/
def floatB (sr : Int) : Int :=
  if sr = 0 then 0x20
  else if 0 < sr then floating sr
  else if -32768 < sr then floating (-sr) - 0x400
  else 0xFC20 - 0x10000

/-- The adaptation speed control. -/
def updateAp (ap dms dml y : Int) (tr td : Bool) : Int :=
  if tr then 256
  else if y < 1536 then ap + (0x200 - ap) / 16
  else if td then ap + (0x200 - ap) / 16
  else if dml / 8 ≤ |dms * 4 - dml| then ap + (0x200 - ap) / 16
  else ap + -ap / 16

def update (bits_per_sample : Nat) (s : State) (y wi fi dq sr dqsez : Int) : Option State :=
  (aboveThreshold s.yl (dq % 32768)).map fun above =>
    let tr := s.td && above
    let pk0 := decide (dqsez < 0)
    let yu := limitStep (short (y + (wi - y) / 32))
    let a2p := if tr then 0 else updateA1 s pk0 dqsez
    let td := !tr && decide (a2p < -11776)
    let dms := s.dms + (fi - s.dms) / 32
    let dml := s.dml + (fi * 4 - s.dml) / 128
    { yl := s.yl + yu + -s.yl / 64
      yu := yu
      dms := dms
      dml := dml
      ap := updateAp s.ap dms dml y tr td
      a0 := if tr then 0 else updateA0 s pk0 dqsez a2p
      a1 := a2p
      b := if tr then s.b.map fun _ => 0 else s.b.zipWith (updateB bits_per_sample dq) s.dq
      pk0 := pk0
      pk1 := s.pk0
      dq := floatA dq :: s.dq.take 5
      sr0 := floatB sr
      sr1 := s.sr0
      td := td }

end Update

section Coders

variable (coding : Coding)

/-- What an encoder and a decoder do with a code, with the reconstructed signal. -/
def follow (s : State) (sezi se y : Int) (code : Nat) : Option (State × Int) := do
  let sign := decide (code / 2 ^ (coding.bits_per_sample - 1) % 2 = 1)
  let dq ← reconstruct sign (coding.dqlntab.getD code 0) y
  let sr := short (if dq < 0 then se - dq % coding.dqRange else se + dq)
  let dqsez := short (sr + sezi / 2 - se)
  let after ← update coding.bits_per_sample s y (coding.witab.getD code 0)
    (coding.fitab.getD code 0) dq sr dqsez
  return (after, sr)

/-- A decoder, with the sample. -/
def decoder (s : State) (code : Nat) : Option (State × Int) := do
  let code := code % 2 ^ coding.bits_per_sample
  let sezi := predictorZero s
  let sei := short (sezi + predictorPole s)
  let (after, sr) ← follow coding s sezi (sei / 2) (stepSize s) code
  return (after, short (sr * 4))

/-- An encoder, with the code and the signal that it goes on with. -/
def encoder (s : State) (amp : Int) : Option (State × Nat × Int) := do
  let sezi := predictorZero s
  let sei := short (sezi + predictorPole s)
  let se := sei / 2
  let d := short (amp - se)
  let i ← quantize d (stepSize s) coding.qtab coding.quantizer_states
  let (after, sr) ← follow coding s sezi se (stepSize s) i
  return (after, i, sr)

end Coders

section Rates

def g726_16 : Coding where
  bits_per_sample := 2
  qtab := [261]
  quantizer_states := 4
  dqlntab := [116, 365, 365, 116]
  witab := [-704, 14048, 14048, -704]
  fitab := [0x000, 0xE00, 0xE00, 0x000]
  dqRange := 0x4000

def g726_24 : Coding where
  bits_per_sample := 3
  qtab := [8, 218, 331]
  quantizer_states := 7
  dqlntab := [-2048, 135, 273, 373, 373, 273, 135, -2048]
  witab := [-128, 960, 4384, 18624, 18624, 4384, 960, -128]
  fitab := [0x000, 0x200, 0x400, 0xE00, 0xE00, 0x400, 0x200, 0x000]
  dqRange := 0x4000

def g726_32 : Coding where
  bits_per_sample := 4
  qtab := [-124, 80, 178, 246, 300, 349, 400]
  quantizer_states := 15
  dqlntab :=
    [-2048, 4, 135, 213, 273, 323, 373, 425, 425, 373, 323, 273, 213, 135, 4, -2048]
  witab :=
    [-384, 576, 1312, 2048, 3584, 6336, 11360, 35904, 35904, 11360, 6336, 3584, 2048, 1312, 576,
      -384]
  fitab :=
    [0x000, 0x000, 0x000, 0x200, 0x200, 0x200, 0x600, 0xE00, 0xE00, 0x600, 0x200, 0x200, 0x200,
      0x000, 0x000, 0x000]
  dqRange := 0x4000

def g726_40 : Coding where
  bits_per_sample := 5
  qtab := [-122, -16, 68, 139, 198, 250, 298, 339, 378, 413, 445, 475, 502, 528, 553]
  quantizer_states := 31
  dqlntab :=
    [-2048, -66, 28, 104, 169, 224, 274, 318, 358, 395, 429, 459, 488, 514, 539, 566, 566, 539, 514,
      488, 459, 429, 395, 358, 318, 274, 224, 169, 104, 28, -66, -2048]
  witab :=
    [448, 448, 768, 1248, 1280, 1312, 1856, 3200, 4512, 5728, 7008, 8960, 11456, 14080, 16928, 22272,
      22272, 16928, 14080, 11456, 8960, 7008, 5728, 4512, 3200, 1856, 1312, 1280, 1248, 768, 448,
      448]
  fitab :=
    [0x000, 0x000, 0x000, 0x000, 0x000, 0x200, 0x200, 0x200, 0x200, 0x200, 0x400, 0x600, 0x800,
      0xA00, 0xC00, 0xC00, 0xC00, 0xC00, 0xA00, 0x800, 0x600, 0x400, 0x200, 0x200, 0x200, 0x200,
      0x200, 0x000, 0x000, 0x000, 0x000, 0x000]
  dqRange := 0x8000

def g726_16_decoder := decoder g726_16
def g726_16_encoder := encoder g726_16
def g726_24_decoder := decoder g726_24
def g726_24_encoder := encoder g726_24
def g726_32_decoder := decoder g726_32
def g726_32_encoder := encoder g726_32
def g726_40_decoder := decoder g726_40
def g726_40_encoder := encoder g726_40

/-- The coding of `bit_rate`, which stands for `enc_func` and `dec_func` too. -/
def codingOf (bit_rate : Nat) : Option Coding :=
  if bit_rate = 16000 then some g726_16
  else if bit_rate = 24000 then some g726_24
  else if bit_rate = 32000 then some g726_32
  else if bit_rate = 40000 then some g726_40
  else none

end Rates

section Streams

/-- `g726_state_t` with its coding. -/
structure Codec where
  coding : Coding
  s : State
  bitstream : Nat
  residue : Nat

def State.init : State where
  yl := 34816
  yu := 544
  dms := 0
  dml := 0
  ap := 0
  a0 := 0
  a1 := 0
  b := [0, 0, 0, 0, 0, 0]
  pk0 := false
  pk1 := false
  dq := [32, 32, 32, 32, 32, 32]
  sr0 := 32
  sr1 := 32
  td := false

/-- `g726_init`. -/
def g726Init (bit_rate : Nat) : Option Codec :=
  (codingOf bit_rate).map fun coding =>
    { coding := coding, s := State.init, bitstream := 0, residue := 0 }

/-- The next code in the stream, where enough bits are left. -/
def decodeCode (codec : Codec) : Option (Codec × Int) :=
  let bits_per_sample := codec.coding.bits_per_sample
  let residue := codec.residue - bits_per_sample
  let code := codec.bitstream / 2 ^ residue % 2 ^ bits_per_sample
  (decoder codec.coding codec.s code).map fun (after, sl) =>
    ({ codec with s := after, residue := residue }, sl)

/-- The loop of `g726_decode`. -/
def decodeLoop : Nat → Codec → List UInt8 → Option (Codec × List Int)
  | 0, _, _ => none
  | rounds + 1, codec, g726_data =>
      if codec.residue < codec.coding.bits_per_sample then
        match g726_data with
        | [] => some (codec, [])
        | byte :: g726_data => do
            let filled := { codec with
              bitstream := u32 (codec.bitstream <<< 8) ||| byte.toNat
              residue := codec.residue + 8 }
            let (after, sl) ← decodeCode filled
            let (last, amp) ← decodeLoop rounds after g726_data
            return (last, sl :: amp)
      else do
        let (after, sl) ← decodeCode codec
        let (last, amp) ← decodeLoop rounds after g726_data
        return (last, sl :: amp)

/-- `g726_decode`. -/
def g726Decode (codec : Codec) (g726_data : List UInt8) : Option (Codec × List Int) :=
  decodeLoop (codec.residue + 8 * g726_data.length + 1) codec g726_data

/-- A code is put behind the others, and a byte is taken where there is a whole one. -/
def pushCode (codec : Codec) (code : Nat) : Codec × List UInt8 :=
  let bits_per_sample := codec.coding.bits_per_sample
  let bitstream := u32 (codec.bitstream <<< bits_per_sample) ||| code
  let residue := codec.residue + bits_per_sample
  if 8 ≤ residue then
    ({ codec with bitstream := bitstream, residue := residue - 8 },
      [UInt8.ofNat (bitstream / 2 ^ (residue - 8) % 256)])
  else ({ codec with bitstream := bitstream, residue := residue }, [])

/-- `g726_encode`. -/
def g726Encode (codec : Codec) : List Int → Option (Codec × List UInt8)
  | [] => some (codec, [])
  | amp :: others => do
      let (after, code, _) ← encoder codec.coding codec.s (amp / 4)
      let (pushed, bytes) := pushCode { codec with s := after } code
      let (last, g726_data) ← g726Encode pushed others
      return (last, bytes ++ g726_data)

end Streams

end Mgw.G726

import Mgw.BitFields
import Mgw.G726Bounds

/-!
# Streams of the G.726 codec

The codes go over the bounds of bytes and of calls. A decoder of what an encoder wrote
takes the same codes out of it, and goes through the states of the encoder with them.
-/

namespace Mgw.G726

open BitFields WordArithmetic

set_option autoImplicit false

section Codes

variable (coding : Coding)

/-- The samples of codes, with the state behind them. -/
def decodeCodes : State → List Nat → Option (State × List Int)
  | s, [] => some (s, [])
  | s, code :: codes => do
      let (after, sl) ← decoder coding s code
      let (last, amp) ← decodeCodes after codes
      return (last, sl :: amp)

/-- The codes of samples with the signals that the encoder goes on with. -/
def encodeSamples : State → List Int → Option (State × List (Nat × Int))
  | s, [] => some (s, [])
  | s, amp :: others => do
      let (after, code, sr) ← encoder coding s (amp / 4)
      let (last, pairs) ← encodeSamples after others
      return (last, (code, sr) :: pairs)

variable {coding} {s : State}

theorem decode_codes_bounded (fits : coding.Fits) (bounded : Bounded s) (codes : List Nat) :
    ∃ last amp, decodeCodes coding s codes = some (last, amp) ∧ Bounded last ∧
      amp.length = codes.length := by
  induction codes generalizing s with
  | nil => exact ⟨s, [], rfl, bounded, rfl⟩
  | cons code codes induction =>
      obtain ⟨after, sl, decoded, kept, -⟩ := decoder_bounded fits bounded code
      obtain ⟨last, amp, others, keptLast, length⟩ := induction kept
      refine ⟨last, sl :: amp, ?_, keptLast, by rw [List.length_cons, List.length_cons, length]⟩
      rw [decodeCodes, decoded]
      simp only [Option.bind_eq_bind, Option.bind_some, others]
      rfl

theorem decode_codes_append {codes others : List Nat} {between last : State} {amp more : List Int}
    (first : decodeCodes coding s codes = some (between, amp))
    (second : decodeCodes coding between others = some (last, more)) :
    decodeCodes coding s (codes ++ others) = some (last, amp ++ more) := by
  induction codes generalizing s amp with
  | nil =>
      cases first
      exact second
  | cons code codes induction =>
      obtain ⟨⟨after, sl⟩, decoded, goes⟩ := Option.bind_eq_some_iff.mp first
      obtain ⟨⟨final, rest⟩, behind, same⟩ := Option.bind_eq_some_iff.mp goes
      cases same
      rw [List.cons_append, decodeCodes, decoded]
      simp only [Option.bind_eq_bind, Option.bind_some, induction behind]
      rfl

/-- A decoder goes through the states of the encoder with its codes. -/
theorem encode_samples_decoded (fits : coding.Fits) (bounded : Bounded s) (samples : List Int)
    (inside : ∀ sample ∈ samples, InShort sample) :
    ∃ last pairs, encodeSamples coding s samples = some (last, pairs) ∧ Bounded last ∧
      pairs.length = samples.length ∧ (∀ code ∈ pairs.map Prod.fst, code < 2 ^ coding.bits_per_sample) ∧
      decodeCodes coding s (pairs.map Prod.fst) =
        some (last, pairs.map fun pair => short (pair.2 * 4)) := by
  induction samples generalizing s with
  | nil => exact ⟨s, [], rfl, bounded, rfl, by simp, rfl⟩
  | cons sample samples induction =>
      obtain ⟨after, code, sr, encoded, kept, small, decoded⟩ :=
        encoder_bounded fits bounded (inside sample List.mem_cons_self)
      obtain ⟨last, pairs, others, keptLast, length, fit, follows⟩ := induction kept
        fun other member => inside other (List.mem_cons_of_mem _ member)
      refine ⟨last, (code, sr) :: pairs, ?_, keptLast, ?_, ?_, ?_⟩
      · rw [encodeSamples, encoded]
        simp only [Option.bind_eq_bind, Option.bind_some, others]
        rfl
      · rw [List.length_cons, List.length_cons, length]
      · rw [List.map_cons, List.forall_mem_cons]
        exact ⟨small, fit⟩
      · rw [List.map_cons, decodeCodes, decoded]
        simp only [Option.bind_eq_bind, Option.bind_some, follows]
        rfl

theorem encode_samples_append {samples others : List Int} {between last : State}
    {pairs more : List (Nat × Int)} (first : encodeSamples coding s samples = some (between, pairs))
    (second : encodeSamples coding between others = some (last, more)) :
    encodeSamples coding s (samples ++ others) = some (last, pairs ++ more) := by
  induction samples generalizing s pairs with
  | nil =>
      cases first
      exact second
  | cons sample samples induction =>
      obtain ⟨⟨after, code, sr⟩, encoded, goes⟩ := Option.bind_eq_some_iff.mp first
      obtain ⟨⟨final, rest⟩, behind, same⟩ := Option.bind_eq_some_iff.mp goes
      cases same
      rw [List.cons_append, encodeSamples, encoded]
      simp only [Option.bind_eq_bind, Option.bind_some, induction behind]
      rfl

/-- The encoder does not look ahead. -/
theorem encode_samples_take (samples : List Int) {last : State} {pairs : List (Nat × Int)}
    (encoded : encodeSamples coding s samples = some (last, pairs)) (count : Nat) :
    ∃ between, encodeSamples coding s (samples.take count) = some (between, pairs.take count) := by
  induction samples generalizing s pairs count with
  | nil =>
      cases encoded
      exact ⟨_, by rw [List.take_nil, List.take_nil]; rfl⟩
  | cons sample samples induction =>
      obtain ⟨⟨after, code, sr⟩, first, goes⟩ := Option.bind_eq_some_iff.mp encoded
      obtain ⟨⟨final, others⟩, rest, same⟩ := Option.bind_eq_some_iff.mp goes
      cases same
      cases count with
      | zero => exact ⟨s, rfl⟩
      | succ count =>
          obtain ⟨between, taken⟩ := induction rest count
          refine ⟨between, ?_⟩
          rw [List.take_succ_cons, encodeSamples, first]
          simp only [Option.bind_eq_bind, Option.bind_some, taken]
          rfl

end Codes

section Packing

variable {codec : Codec}

/-- What an encoder writes, and what is left of it. -/
structure Encoded (codec : Codec) (samples : List Int) (last : Codec) (g726_data : List UInt8)
    (pairs : List (Nat × Int)) : Prop where
  own : encodeSamples codec.coding codec.s samples = some (last.s, pairs)
  coding : last.coding = codec.coding
  residue : last.residue < 8
  bits : byteBits g726_data ++ bitsOf last.residue last.bitstream =
    bitsOf codec.residue codec.bitstream ++
      (pairs.map Prod.fst).flatMap (bitsOf codec.coding.bits_per_sample)

/-- What a decoder takes out, and what is left of it. -/
structure Decoded (codec : Codec) (g726_data : List UInt8) (last : Codec) (amp : List Int)
    (codes : List Nat) : Prop where
  own : decodeCodes codec.coding codec.s codes = some (last.s, amp)
  coding : last.coding = codec.coding
  residue : last.residue < codec.coding.bits_per_sample
  small : ∀ code ∈ codes, code < 2 ^ codec.coding.bits_per_sample
  bits : bitsOf codec.residue codec.bitstream ++ byteBits g726_data =
    codes.flatMap (bitsOf codec.coding.bits_per_sample) ++ bitsOf last.residue last.bitstream

theorem push_code_bits (fits : codec.coding.Fits) (residue : codec.residue < 8) {code : Nat}
    (small : code < 2 ^ codec.coding.bits_per_sample) :
    let (pushed, bytes) := pushCode codec code
    pushed.coding = codec.coding ∧ pushed.s = codec.s ∧ pushed.residue < 8 ∧
      byteBits bytes ++ bitsOf pushed.residue pushed.bitstream =
        bitsOf codec.residue codec.bitstream ++ bitsOf codec.coding.bits_per_sample code := by
  have bits := fits.bits
  have shifted := @bits_of_shifted codec.residue codec.coding.bits_per_sample 32 code
    codec.bitstream small (by omega)
  change bitsOf _ (u32 (codec.bitstream <<< codec.coding.bits_per_sample) ||| code) = _ at shifted
  rw [pushCode]
  dsimp only
  by_cases whole : 8 ≤ codec.residue + codec.coding.bits_per_sample
  · rw [if_pos whole]
    refine ⟨rfl, rfl, by dsimp only; omega, ?_⟩
    obtain ⟨left, sum⟩ : ∃ left, codec.residue + codec.coding.bits_per_sample = 8 + left :=
      ⟨codec.residue + codec.coding.bits_per_sample - 8, by omega⟩
    rw [sum, bits_of_add] at shifted
    dsimp only
    rw [sum, Nat.add_sub_cancel_left, byte_bits_cons, byte_bits_nil, List.append_nil, ← shifted,
      UInt8.toNat_ofNat']
    refine congrArg (· ++ _) (bits_of_congr ?_)
    rw [Nat.mod_mod, Nat.mod_mod]
    rfl
  · rw [if_neg whole]
    refine ⟨rfl, rfl, by dsimp only; omega, ?_⟩
    rw [byte_bits_nil, List.nil_append]
    exact shifted

theorem encode_encoded (fits : codec.coding.Fits) (bounded : Bounded codec.s)
    (residue : codec.residue < 8) (samples : List Int)
    (inside : ∀ sample ∈ samples, InShort sample) :
    ∃ last g726_data pairs, g726Encode codec samples = some (last, g726_data) ∧ Bounded last.s ∧
      Encoded codec samples last g726_data pairs := by
  induction samples generalizing codec with
  | nil =>
      refine ⟨codec, [], [], rfl, bounded, rfl, rfl, residue, ?_⟩
      rw [byte_bits_nil, List.nil_append, List.map_nil, List.flatMap_nil, List.append_nil]
  | cons sample samples induction =>
      obtain ⟨after, code, sr, encoded, kept, small, -⟩ :=
        encoder_bounded fits bounded (inside sample List.mem_cons_self)
      have pushes := @push_code_bits { codec with s := after } fits residue code small
      rcases result : pushCode { codec with s := after } code with ⟨pushed, bytes⟩
      rw [result] at pushes
      obtain ⟨coding, state, left, bits⟩ := pushes
      dsimp only at coding state bits
      obtain ⟨last, g726_data, pairs, others, keptLast, run⟩ := @induction pushed
        (by rw [coding]; exact fits) (by rw [state]; exact kept) left
        fun other member => inside other (List.mem_cons_of_mem _ member)
      have own := run.own
      have behind := run.bits
      rw [coding, state] at own
      rw [coding] at behind
      refine ⟨last, bytes ++ g726_data, (code, sr) :: pairs, ?_, keptLast, ?_,
        run.coding.trans coding, run.residue, ?_⟩
      · rw [g726Encode, encoded]
        simp only [Option.bind_eq_bind, Option.bind_some, result, others]
        rfl
      · rw [encodeSamples, encoded]
        simp only [Option.bind_eq_bind, Option.bind_some, own]
        rfl
      · rw [byte_bits_append, List.append_assoc, behind, ← List.append_assoc, bits,
          List.append_assoc]
        rfl

/-- What comes of the next code. -/
structure CodeTaken (codec after : Codec) (sl : Int) (code : Nat) : Prop where
  result : decodeCode codec = some (after, sl)
  own : decoder codec.coding codec.s code = some (after.s, sl)
  coding : after.coding = codec.coding
  residue : after.residue = codec.residue - codec.coding.bits_per_sample
  small : code < 2 ^ codec.coding.bits_per_sample
  bits : bitsOf codec.residue codec.bitstream =
    bitsOf codec.coding.bits_per_sample code ++ bitsOf after.residue after.bitstream
  bounded : Bounded after.s

theorem code_taken (fits : codec.coding.Fits) (bounded : Bounded codec.s)
    (enough : codec.coding.bits_per_sample ≤ codec.residue) :
    ∃ after sl code, CodeTaken codec after sl code := by
  obtain ⟨s, sl, decoded, kept, -⟩ := decoder_bounded fits bounded
    (codec.bitstream / 2 ^ (codec.residue - codec.coding.bits_per_sample) %
      2 ^ codec.coding.bits_per_sample)
  obtain ⟨left, sum⟩ : ∃ left, codec.residue = codec.coding.bits_per_sample + left :=
    ⟨codec.residue - codec.coding.bits_per_sample, by omega⟩
  refine ⟨{ codec with s := s, residue := codec.residue - codec.coding.bits_per_sample }, sl, _, ?_,
    decoded, rfl, rfl, Nat.mod_lt _ (Nat.two_pow_pos _), ?_, kept⟩
  · rw [decodeCode, decoded, Option.map_some]
  · dsimp only
    rw [sum, bits_of_add, Nat.add_sub_cancel_left]
    exact congrArg (· ++ _) (bits_of_congr (Nat.mod_mod _ _).symm)

theorem code_decoded {after last : Codec} {sl : Int} {code : Nat} {g726_data : List UInt8}
    {amp : List Int} {codes : List Nat} (taken : CodeTaken codec after sl code)
    (run : Decoded after g726_data last amp codes) :
    Decoded codec g726_data last (sl :: amp) (code :: codes) := by
  obtain ⟨own, coding, residue, small, bits⟩ := run
  rw [taken.coding] at own coding residue small bits
  refine ⟨?_, coding, residue, ?_, ?_⟩
  · rw [decodeCodes, taken.own]
    simp only [Option.bind_eq_bind, Option.bind_some, own]
    rfl
  · rw [List.forall_mem_cons]
    exact ⟨taken.small, small⟩
  · rw [taken.bits, List.append_assoc, bits, List.flatMap_cons, List.append_assoc]

/-- The decoder with one more byte in its stream. -/
def filled (codec : Codec) (byte : UInt8) : Codec :=
  { codec with
    bitstream := u32 (codec.bitstream <<< 8) ||| byte.toNat
    residue := codec.residue + 8 }

theorem byte_decoded {last : Codec} {byte : UInt8} {g726_data : List UInt8} {amp : List Int}
    {codes : List Nat} (small : codec.residue < 8)
    (run : Decoded (filled codec byte) g726_data last amp codes) :
    Decoded codec (byte :: g726_data) last amp codes := by
  obtain ⟨own, coding, residue, fit, bits⟩ := run
  have shifted : bitsOf (codec.residue + 8) (u32 (codec.bitstream <<< 8) ||| byte.toNat) =
      bitsOf codec.residue codec.bitstream ++ bitsOf 8 byte.toNat :=
    @bits_of_shifted codec.residue 8 32 byte.toNat codec.bitstream byte.toNat_lt (by omega)
  refine ⟨own, coding, residue, fit, ?_⟩
  rw [byte_bits_cons, ← List.append_assoc, ← shifted]
  exact bits

theorem loop_decoded (fits : codec.coding.Fits) (bounded : Bounded codec.s) {rounds : Nat}
    {g726_data : List UInt8} (bound : codec.residue + 8 * g726_data.length < rounds) :
    ∃ last amp codes, decodeLoop rounds codec g726_data = some (last, amp) ∧ Bounded last.s ∧
      Decoded codec g726_data last amp codes := by
  have bits := fits.bits
  induction rounds generalizing codec g726_data with
  | zero => exact absurd bound (Nat.not_lt_zero _)
  | succ rounds induction =>
      unfold decodeLoop
      by_cases short : codec.residue < codec.coding.bits_per_sample
      · rw [if_pos short]
        cases g726_data with
        | nil =>
            refine ⟨codec, [], [], rfl, bounded, rfl, rfl, short, by simp, ?_⟩
            rw [byte_bits_nil, List.append_nil, List.flatMap_nil, List.nil_append]
        | cons byte g726_data =>
            rw [List.length_cons] at bound
            have wide : codec.coding.bits_per_sample ≤ (filled codec byte).residue :=
              Nat.le_trans (by omega) (Nat.le_add_left 8 codec.residue)
            obtain ⟨after, sl, code, taken⟩ := @code_taken (filled codec byte) fits bounded wide
            have left : after.residue = codec.residue + 8 - codec.coding.bits_per_sample :=
              taken.residue
            have same : after.coding = codec.coding := taken.coding
            obtain ⟨last, amp, codes, result, kept, run⟩ := @induction after
              (by rw [same]; exact fits) taken.bounded g726_data (by omega)
              (by rw [same]; exact bits)
            refine ⟨last, sl :: amp, code :: codes, ?_, kept,
              byte_decoded (by omega) (code_decoded taken run)⟩
            change (decodeCode (filled codec byte)).bind _ = _
            rw [taken.result, Option.bind_some]
            dsimp only
            rw [result]
            rfl
      · rw [if_neg short]
        obtain ⟨after, sl, code, taken⟩ := code_taken fits bounded (by omega)
        have left := taken.residue
        obtain ⟨last, amp, codes, result, kept, run⟩ := @induction after
          (by rw [taken.coding]; exact fits) taken.bounded g726_data (by omega)
          (by rw [taken.coding]; exact bits)
        refine ⟨last, sl :: amp, code :: codes, ?_, kept, code_decoded taken run⟩
        rw [taken.result]
        simp only [Option.bind_eq_bind, Option.bind_some, result]
        rfl

theorem decode_decoded (fits : codec.coding.Fits) (bounded : Bounded codec.s)
    (g726_data : List UInt8) :
    ∃ last amp codes, g726Decode codec g726_data = some (last, amp) ∧ Bounded last.s ∧
      Decoded codec g726_data last amp codes :=
  loop_decoded fits bounded (Nat.lt_succ_self _)

end Packing

section Calls

variable {codec : Codec}

/-- Calls one after another, with what comes out of each. -/
def calls {Input Output : Type} (call : Codec → List Input → Option (Codec × List Output)) :
    Codec → List (List Input) → Option (Codec × List (List Output))
  | codec, [] => some (codec, [])
  | codec, input :: inputs => do
      let (after, output) ← call codec input
      let (last, outputs) ← calls call after inputs
      return (last, output :: outputs)

theorem encoded_append {samples others : List Int} {between last : Codec}
    {g726_data more : List UInt8} {pairs rest : List (Nat × Int)}
    (first : Encoded codec samples between g726_data pairs)
    (second : Encoded between others last more rest) :
    Encoded codec (samples ++ others) last (g726_data ++ more) (pairs ++ rest) := by
  obtain ⟨own, coding, residue, bits⟩ := second
  rw [first.coding] at own coding bits
  refine ⟨?_, coding, residue, ?_⟩
  · exact encode_samples_append first.own own
  · rw [byte_bits_append, List.append_assoc, bits, ← List.append_assoc, first.bits, List.map_append,
      List.flatMap_append, List.append_assoc]

theorem decoded_append {g726_data more : List UInt8} {between last : Codec} {amp others : List Int}
    {codes rest : List Nat} (first : Decoded codec g726_data between amp codes)
    (second : Decoded between more last others rest) :
    Decoded codec (g726_data ++ more) last (amp ++ others) (codes ++ rest) := by
  obtain ⟨own, coding, residue, small, bits⟩ := second
  rw [first.coding] at own coding residue small bits
  refine ⟨decode_codes_append first.own own, coding, residue, ?_, ?_⟩
  · rw [List.forall_mem_append]
    exact ⟨first.small, small⟩
  · rw [byte_bits_append, ← List.append_assoc, first.bits, List.append_assoc, bits,
      List.flatMap_append, List.append_assoc]

theorem encode_calls (fits : codec.coding.Fits) (bounded : Bounded codec.s)
    (residue : codec.residue < 8) (samples : List (List Int))
    (inside : ∀ call ∈ samples, ∀ sample ∈ call, InShort sample) :
    ∃ last written pairs, calls g726Encode codec samples = some (last, written) ∧
      Bounded last.s ∧ Encoded codec samples.flatten last written.flatten pairs := by
  induction samples generalizing codec with
  | nil =>
      refine ⟨codec, [], [], rfl, bounded, rfl, rfl, residue, ?_⟩
      rw [List.flatten_nil, byte_bits_nil, List.nil_append, List.map_nil, List.flatMap_nil,
        List.append_nil]
  | cons call samples induction =>
      obtain ⟨after, bytes, pairs, encoded, kept, first⟩ := encode_encoded fits bounded residue call
        (inside call List.mem_cons_self)
      obtain ⟨last, written, rest, others, keptLast, second⟩ := @induction after
        (by rw [first.coding]; exact fits) kept first.residue
        fun other member => inside other (List.mem_cons_of_mem _ member)
      refine ⟨last, bytes :: written, pairs ++ rest, ?_, keptLast, encoded_append first second⟩
      rw [calls, encoded]
      simp only [Option.bind_eq_bind, Option.bind_some, others]
      rfl

theorem decode_calls (fits : codec.coding.Fits) (bounded : Bounded codec.s)
    (residue : codec.residue < codec.coding.bits_per_sample) (parts : List (List UInt8)) :
    ∃ last heard codes, calls g726Decode codec parts = some (last, heard) ∧
      Bounded last.s ∧ Decoded codec parts.flatten last heard.flatten codes := by
  induction parts generalizing codec with
  | nil =>
      refine ⟨codec, [], [], rfl, bounded, rfl, rfl, residue, by simp, ?_⟩
      rw [List.flatten_nil, byte_bits_nil, List.append_nil, List.flatMap_nil, List.nil_append]
  | cons part parts induction =>
      obtain ⟨after, amp, codes, decoded, kept, first⟩ := decode_decoded fits bounded part
      obtain ⟨last, heard, rest, others, keptLast, second⟩ := @induction after
        (by rw [first.coding]; exact fits) kept (by rw [first.coding]; exact first.residue)
      refine ⟨last, amp :: heard, codes ++ rest, ?_, keptLast, decoded_append first second⟩
      rw [calls, decoded]
      simp only [Option.bind_eq_bind, Option.bind_some, others]
      rfl

end Calls

section Results

/-- A call of `g726_encode` or `g726_decode`. -/
inductive Call where
  | encode (amp : List Int)
  | decode (g726_data : List UInt8)

namespace Call

def perform (codec : Codec) : Call → Option Codec
  | .encode amp => (g726Encode codec amp).map Prod.fst
  | .decode g726_data => (g726Decode codec g726_data).map Prod.fst

def Valid : Call → Prop
  | .encode amp => ∀ sample ∈ amp, InShort sample
  | .decode _ => True

instance (call : Call) : Decidable call.Valid :=
  match call with
  | .encode amp => inferInstanceAs (Decidable (∀ sample ∈ amp, InShort sample))
  | .decode _ => inferInstanceAs (Decidable True)

end Call

theorem call_bounded {codec : Codec} (fits : codec.coding.Fits) (bounded : Bounded codec.s)
    (residue : codec.residue < 8) {call : Call} (valid : call.Valid) :
    ∃ after, call.perform codec = some after ∧ after.coding = codec.coding ∧ Bounded after.s ∧
      after.residue < 8 := by
  have bits := fits.bits
  cases call with
  | encode amp =>
      obtain ⟨after, bytes, pairs, encoded, kept, run⟩ :=
        encode_encoded fits bounded residue amp valid
      exact ⟨after, by rw [Call.perform, encoded]; rfl, run.coding, kept, run.residue⟩
  | decode g726_data =>
      obtain ⟨after, amp, codes, decoded, kept, run⟩ := decode_decoded fits bounded g726_data
      have left := run.residue
      exact ⟨after, by rw [Call.perform, decoded]; rfl, run.coding, kept, by omega⟩

theorem run_bounded {run : List Call} (valid : ∀ call ∈ run, call.Valid) {codec : Codec}
    (fits : codec.coding.Fits) (bounded : Bounded codec.s) (residue : codec.residue < 8) :
    ∃ last, run.foldlM Call.perform codec = some last ∧ Bounded last.s ∧ last.residue < 8 := by
  induction run generalizing codec with
  | nil => exact ⟨codec, rfl, bounded, residue⟩
  | cons call run induction =>
      obtain ⟨after, performed, same, kept, left⟩ := call_bounded fits bounded residue
        (valid call List.mem_cons_self)
      obtain ⟨last, others, keptLast, leftLast⟩ := induction
        (fun other member => valid other (List.mem_cons_of_mem _ member)) (by rw [same]; exact fits)
        kept left
      refine ⟨last, ?_, keptLast, leftLast⟩
      rw [List.foldlM_cons, performed]
      exact others

/-- What a decoder makes of the bytes of an encoder, wherever they are cut: the signals of
the encoder, for as many samples as there are whole codes, and its state behind them. -/
def Follows (bit_rate : Nat) (samples : List (List Int)) : Prop :=
  ∃ codec, g726Init bit_rate = some codec ∧
    ∃ last written, calls g726Encode codec samples = some (last, written) ∧
      written.flatten.length =
        codec.coding.bits_per_sample * samples.flatten.length / 8 ∧
      ∀ parts : List (List UInt8), parts.flatten = written.flatten →
        ∃ follower heard between pairs,
          calls g726Decode codec parts = some (follower, heard) ∧
          heard.flatten.length =
            8 * written.flatten.length / codec.coding.bits_per_sample ∧
          encodeSamples codec.coding codec.s (samples.flatten.take heard.flatten.length) =
            some (between, pairs) ∧
          follower.s = between ∧ heard.flatten = pairs.map fun pair => short (pair.2 * 4)

/-- The codes that are taken out of what an encoder wrote are its first ones, as many as
there are whole. -/
theorem codes_agree {codec last follower : Codec} (bits : 0 < codec.coding.bits_per_sample)
    (fresh : codec.residue = 0) {samples amp : List Int} {g726_data : List UInt8}
    {pairs : List (Nat × Int)} {codes : List Nat}
    (small : ∀ code ∈ pairs.map Prod.fst, code < 2 ^ codec.coding.bits_per_sample)
    (run : Encoded codec samples last g726_data pairs)
    (taken : Decoded codec g726_data follower amp codes) :
    codes = (pairs.take codes.length).map Prod.fst ∧
      codes.length = 8 * g726_data.length / codec.coding.bits_per_sample ∧
      g726_data.length = codec.coding.bits_per_sample * pairs.length / 8 := by
  have wrote := run.bits
  have read := taken.bits
  have left := run.residue
  have behind := taken.residue
  rw [fresh, bitsOf, List.nil_append] at wrote read
  have length := congrArg List.length wrote
  have lengthRead := congrArg List.length read
  rw [List.length_append, byte_bits_length, bits_of_length, equal_widths_length, List.length_map]
    at length
  rw [List.length_append, byte_bits_length, bits_of_length, equal_widths_length] at lengthRead
  have shorter : codes.length ≤ (pairs.map Prod.fst).length := by
    rw [List.length_map]
    refine Nat.le_of_mul_le_mul_left (?_ : codec.coding.bits_per_sample * _ ≤ _) bits
    omega
  have same : codes.flatMap (bitsOf codec.coding.bits_per_sample) ++
      (bitsOf follower.residue follower.bitstream ++ bitsOf last.residue last.bitstream) =
        (pairs.map Prod.fst).flatMap (bitsOf codec.coding.bits_per_sample) ++ [] := by
    rw [← List.append_assoc, ← read, List.append_nil, wrote]
  refine ⟨?_, ?_, by omega⟩
  · rw [List.map_take]
    exact List.prefix_iff_eq_take.mp
      (equal_widths_take codes _ taken.small small same shorter)
  · rw [lengthRead, Nat.mul_add_div bits, Nat.div_eq_of_lt behind, Nat.add_zero]

theorem decoder_follows_encoder {bit_rate : Nat} (known : (codingOf bit_rate).isSome = true)
    {samples : List (List Int)} (inside : ∀ call ∈ samples, ∀ sample ∈ call, InShort sample) :
    Follows bit_rate samples := by
  obtain ⟨coding, coded⟩ := Option.isSome_iff_exists.mp known
  have fits := rates_fit coded
  have bits := fits.bits
  have flat : ∀ sample ∈ samples.flatten, InShort sample := by
    intro sample member
    obtain ⟨call, there, here⟩ := List.mem_flatten.mp member
    exact inside call there sample here
  obtain ⟨last, written, pairs, encoded, -, run⟩ := @encode_calls
    { coding := coding, s := State.init, bitstream := 0, residue := 0 } fits init_bounded
    (show 0 < 8 by decide) samples inside
  obtain ⟨final, whole, own, -, count, small, -⟩ := encode_samples_decoded fits init_bounded
    samples.flatten flat
  have same := run.own.symm.trans own
  cases same
  have sizes (parts : List (List UInt8)) (cut : parts.flatten = written.flatten) :
      ∃ follower heard codes,
        calls g726Decode { coding := coding, s := State.init, bitstream := 0, residue := 0 } parts =
          some (follower, heard) ∧
        decodeCodes coding State.init codes = some (follower.s, heard.flatten) ∧
        codes = (pairs.take codes.length).map Prod.fst ∧
        codes.length = 8 * written.flatten.length / coding.bits_per_sample ∧
        written.flatten.length = coding.bits_per_sample * pairs.length / 8 := by
    obtain ⟨follower, heard, codes, decoded, -, taken⟩ := @decode_calls
      { coding := coding, s := State.init, bitstream := 0, residue := 0 } fits init_bounded
      (Nat.lt_of_lt_of_le (show 0 < 2 by decide) bits.1) parts
    rw [cut] at taken
    exact ⟨follower, heard, codes, decoded, taken.own,
      codes_agree (Nat.lt_of_lt_of_le (by decide) bits.1) rfl small run taken⟩
  obtain ⟨-, -, -, -, -, -, -, size⟩ := sizes written rfl
  refine ⟨_, by rw [g726Init, coded]; rfl, last, written, encoded, by rw [size, count], ?_⟩
  intro parts cut
  obtain ⟨follower, heard, codes, decoded, owned, front, length, -⟩ := sizes parts cut
  obtain ⟨_, _, again, -, lengthHeard⟩ := decode_codes_bounded fits init_bounded codes
  have heardSame := again.symm.trans owned
  cases heardSame
  obtain ⟨between, taking⟩ := encode_samples_take samples.flatten own codes.length
  obtain ⟨_, _, ownTaken, -, -, -, follows⟩ := encode_samples_decoded fits init_bounded
    (samples.flatten.take codes.length) fun sample member => flat sample (List.mem_of_mem_take member)
  have pairsSame := ownTaken.symm.trans taking
  cases pairsSame
  rw [← front, owned] at follows
  obtain ⟨state, heardEq⟩ := Prod.mk.inj (Option.some.inj follows)
  exact ⟨follower, heard, _, _, decoded, by rw [lengthHeard]; exact length,
    by rw [lengthHeard]; exact taking, state, heardEq⟩

theorem decoder_follows_encoder_32 : Follows 32000 [[0, 3000, -8000], [], [32767, -32768]] :=
  decoder_follows_encoder rfl (by decide)

end Results

end Mgw.G726

import Mgw.AacHeader
import Mgw.BitFields
import Mgw.WordArithmetic
import Mathlib.Tactic.IntervalCases

/-!
# The ADTS header

`mgw_aac_add_adts` of `codec-common.c`, the header as the comments there lay it
out, and a walk over a stream of frames from each header to the next. The fields
are put together by additions, so that a frame length of more than thirteen bits
gets into the field before it.
-/

namespace Mgw.Adts

open AacHeader BitFields

set_option autoImplicit false

def AAC_HEADER_SIZE : Nat := 7

/-- The buffer that `read_thread` gives. -/
def AAC_SAMPLE_SIZE_MAX : Nat := 256 * 1024

/-- The seven bytes in front of `size` bytes of data. -/
def adtsHeader (samplerate : UInt32) (profile : Int) (channels : UInt32) (size : UInt64) :
    List UInt8 :=
  let freqIdx := getSamplerateIndex samplerate
  let length := UInt64.ofNat AAC_HEADER_SIZE + size
  [0xff, 0xf1,
    ((UInt32.ofInt (profile - 1) <<< 6) + (freqIdx.toUInt32 <<< 2) + (channels >>> 2)).toUInt8,
    (((channels &&& 7) <<< 6).toUInt64 + (length >>> 11)).toUInt8,
    (length >>> 3).toUInt8,
    (((length &&& 7) <<< 5) + 0x1f).toUInt8,
    0xfc]

/-- What `mgw_aac_add_adts` returns and what it has written to `out`. -/
structure Added where
  ret : Nat
  out : List UInt8

/-- Without data `-1` is returned as a `size_t`. -/
def mgwAacAddAdts (samplerate : UInt32) (profile : Int) (channels : UInt32)
    (data : Option (List UInt8)) : Added :=
  match data with
  | none => { ret := 18446744073709551615, out := [] }
  | some bytes =>
      { ret := bytes.length + AAC_HEADER_SIZE
        out := adtsHeader samplerate profile channels (UInt64.ofNat bytes.length) ++ bytes }

/-- The fields of the fixed and of the variable header. -/
structure AdtsHeader where
  syncword : Nat
  id : Nat
  layer : Nat
  protection_absent : Nat
  profile : Nat
  sampling_frequency_index : Nat
  private_bit : Nat
  channel_configuration : Nat
  original_copy : Nat
  home : Nat
  emphasis : Nat
  frame_length : Nat
  status : Nat
  blocks : Nat
  deriving DecidableEq

def fieldWidths : List Nat := [12, 1, 2, 1, 2, 4, 1, 3, 1, 1, 2, 13, 11, 2]

def AdtsHeader.fields (header : AdtsHeader) : List Nat :=
  [header.syncword, header.id, header.layer, header.protection_absent, header.profile,
    header.sampling_frequency_index, header.private_bit, header.channel_configuration,
    header.original_copy, header.home, header.emphasis, header.frame_length, header.status,
    header.blocks]

def ofFields : List Nat → Option AdtsHeader
  | [syncword, id, layer, protection_absent, profile, sampling_frequency_index, private_bit,
      channel_configuration, original_copy, home, emphasis, frame_length, status, blocks] =>
      some ⟨syncword, id, layer, protection_absent, profile, sampling_frequency_index, private_bit,
        channel_configuration, original_copy, home, emphasis, frame_length, status, blocks⟩
  | _ => none

/-- The header at the beginning of some bytes. -/
def parseHeader (bytes : List UInt8) : Option AdtsHeader :=
  (readFields fieldWidths (byteBits bytes)).bind fun found => ofFields found.1

/-- The frames of a stream, each as long as its header says. -/
def walkFrames : Nat → List UInt8 → Option (List (List UInt8))
  | _, [] => some []
  | 0, _ :: _ => none
  | rounds + 1, stream =>
      (parseHeader stream).bind fun header =>
        if header.syncword = 0xfff ∧ AAC_HEADER_SIZE ≤ header.frame_length ∧
            header.frame_length ≤ stream.length then
          (walkFrames rounds (stream.drop header.frame_length)).map
            (stream.take header.frame_length :: ·)
        else none

def walk (stream : List UInt8) : Option (List (List UInt8)) := walkFrames stream.length stream

/-- What `read_thread` may give to the encoder for one packet. -/
structure Frame where
  samplerate : UInt32
  profile : Int
  channels : UInt32
  payload : List UInt8
  profile_low : 1 ≤ profile
  profile_high : profile ≤ 4
  channels_high : channels.toNat ≤ 7
  room : payload.length + AAC_HEADER_SIZE ≤ AAC_SAMPLE_SIZE_MAX

namespace Frame

variable (frame : Frame)

def added : Added :=
  mgwAacAddAdts frame.samplerate frame.profile frame.channels (some frame.payload)

def frameLength : Nat := frame.payload.length + AAC_HEADER_SIZE

/-- The length fits the thirteen bits it has in the header. -/
def Fits : Prop := frame.frameLength < 8192

/-- The header gives back what it was made from, and the payload follows. -/
def Decodes : Prop :=
  frame.added.ret = frame.frameLength ∧
    frame.added.out.drop AAC_HEADER_SIZE = frame.payload ∧
    ∃ header, parseHeader frame.added.out = some header ∧ header.syncword = 0xfff ∧
      header.protection_absent = 1 ∧ (header.profile : Int) = frame.profile - 1 ∧
      header.sampling_frequency_index = (getSamplerateIndex frame.samplerate).toNat ∧
      header.channel_configuration = frame.channels.toNat ∧
      header.frame_length = frame.frameLength

end Frame

def stream (frames : List Frame) : List UInt8 := frames.flatMap fun frame => frame.added.out

section Bytes

variable (frame : Frame)

theorem length_word :
    (UInt64.ofNat AAC_HEADER_SIZE + UInt64.ofNat frame.payload.length).toNat = frame.frameLength := by
  have room := frame.room
  simp only [AAC_HEADER_SIZE, AAC_SAMPLE_SIZE_MAX] at room
  rw [UInt64.toNat_add, UInt64.toNat_ofNat', UInt64.toNat_ofNat', Frame.frameLength]
  simp only [AAC_HEADER_SIZE]
  omega

theorem third_byte :
    ((UInt32.ofInt (frame.profile - 1) <<< 6) +
        ((getSamplerateIndex frame.samplerate).toUInt32 <<< 2) +
        (frame.channels >>> 2)).toUInt8.toNat =
      (frame.profile - 1).toNat * 64 + (getSamplerateIndex frame.samplerate).toNat * 4 +
        frame.channels.toNat / 4 := by
  have index := samplerate_index_lt frame.samplerate
  have channels := frame.channels_high
  have profile : (UInt32.ofInt (frame.profile - 1)).toNat = (frame.profile - 1).toNat := by
    have low := frame.profile_low
    have high := frame.profile_high
    obtain same | same | same | same : frame.profile = 1 ∨ frame.profile = 2 ∨
      frame.profile = 3 ∨ frame.profile = 4 := by omega
    all_goals rw [same]; rfl
  have low := frame.profile_low
  have high := frame.profile_high
  simp [profile, Nat.shiftLeft_eq, Nat.shiftRight_eq_div_pow]
  omega

theorem fourth_byte (length : UInt64) (bound : length.toNat < 8192) :
    (((frame.channels &&& 7) <<< 6).toUInt64 + (length >>> 11)).toUInt8.toNat =
      frame.channels.toNat % 4 * 64 + length.toNat / 2048 := by
  have channels := frame.channels_high
  have low : frame.channels.toNat &&& 7 = frame.channels.toNat := by
    rw [Nat.and_two_pow_sub_one_eq_mod _ 3]
    omega
  simp [low, Nat.shiftLeft_eq, Nat.shiftRight_eq_div_pow]
  omega

theorem fifth_byte (length : UInt64) :
    (length >>> 3).toUInt8.toNat = length.toNat / 8 % 256 := by
  simp [Nat.shiftRight_eq_div_pow]

theorem sixth_byte (length : UInt64) :
    (((length &&& 7) <<< 5) + 0x1f).toUInt8.toNat = length.toNat % 8 * 32 + 31 := by
  have low : length.toNat % 256 &&& 7 = length.toNat % 256 % 8 :=
    Nat.and_two_pow_sub_one_eq_mod _ 3
  simp [low, Nat.shiftLeft_eq]
  omega

/-- The fields of the header of a frame that fits. -/
def headerOf : AdtsHeader where
  syncword := 0xfff
  id := 0
  layer := 0
  protection_absent := 1
  profile := (frame.profile - 1).toNat
  sampling_frequency_index := (getSamplerateIndex frame.samplerate).toNat
  private_bit := 0
  channel_configuration := frame.channels.toNat
  original_copy := 0
  home := 0
  emphasis := 0
  frame_length := frame.frameLength
  status := 0x7ff
  blocks := 0

theorem header_fits (fits : frame.Fits) : Fit (fieldWidths.zip (headerOf frame).fields) := by
  have bound : frame.frameLength < 8192 := fits
  have low := frame.profile_low
  have high := frame.profile_high
  have index := samplerate_index_lt frame.samplerate
  have channels := frame.channels_high
  simp [Fit, fieldWidths, AdtsHeader.fields, headerOf]
  omega

theorem of_fields_zip (header : AdtsHeader) :
    ((fieldWidths.zip header.fields).map Prod.fst = fieldWidths) ∧
      ofFields ((fieldWidths.zip header.fields).map Prod.snd) = some header := ⟨rfl, rfl⟩

/-- The fields stand one behind the other in the seven bytes. -/
theorem header_bits (fits : frame.Fits) :
    byteBits (adtsHeader frame.samplerate frame.profile frame.channels
        (UInt64.ofNat frame.payload.length)) =
      layOut (fieldWidths.zip (headerOf frame).fields) := by
  have length := length_word frame
  rw [byte_bits_lay_out]
  apply lay_out_congr (bytes_fit _) (header_fits frame fits)
  · rw [byte_widths, (of_fields_zip (headerOf frame)).1]
    rfl
  · unfold adtsHeader packed
    simp only [List.map_cons, List.map_nil, third_byte, sixth_byte, fifth_byte]
    rw [fourth_byte frame _ (by rw [length]; exact fits), length]
    simp [fieldWidths, AdtsHeader.fields, headerOf]
    omega

theorem added_out :
    frame.added.out = adtsHeader frame.samplerate frame.profile frame.channels
      (UInt64.ofNat frame.payload.length) ++ frame.payload := rfl

/-- The header of a frame that fits is read back, whatever follows the frame. -/
theorem parse_added (fits : frame.Fits) (rest : List UInt8) :
    parseHeader (frame.added.out ++ rest) = some (headerOf frame) := by
  obtain ⟨widths, fields⟩ := of_fields_zip (headerOf frame)
  have read := read_fields_append _ (header_fits frame fits) (byteBits (frame.payload ++ rest))
  rw [← header_bits frame fits, widths, ← byte_bits_append, ← List.append_assoc,
    ← added_out] at read
  unfold parseHeader
  rw [read, Option.bind_some, fields]

theorem fields_of {fields : List Nat} {header : AdtsHeader}
    (same : ofFields fields = some header) : fields = header.fields := by
  unfold ofFields at same
  split at same
  · rw [← Option.some.inj same]
    rfl
  · contradiction

/-- No header has a longer frame than thirteen bits can say. -/
theorem frame_length_lt {bytes : List UInt8} {header : AdtsHeader}
    (parsed : parseHeader bytes = some header) : header.frame_length < 8192 := by
  obtain ⟨⟨fields, rest⟩, read, same⟩ := Option.bind_eq_some_iff.mp parsed
  have fit := read_fields_fit read
  have sameFields : fields = header.fields := fields_of same
  rw [sameFields] at fit
  simp only [fieldWidths, AdtsHeader.fields, List.forall₂_cons] at fit
  exact fit.2.2.2.2.2.2.2.2.2.2.2.1

end Bytes

section Walk

variable {frame : Frame} {frames : List Frame}

theorem added_length : frame.added.out.length = frame.frameLength := by
  rw [added_out, List.length_append, Nat.add_comm]
  rfl

theorem header_length : (headerOf frame).frame_length = frame.added.out.length :=
  added_length.symm

theorem walk_step {stream : List UInt8} (nonempty : stream ≠ []) (rounds : Nat) :
    walkFrames (rounds + 1) stream =
      (parseHeader stream).bind fun header =>
        if header.syncword = 0xfff ∧ AAC_HEADER_SIZE ≤ header.frame_length ∧
            header.frame_length ≤ stream.length then
          (walkFrames rounds (stream.drop header.frame_length)).map
            (stream.take header.frame_length :: ·)
        else none := by
  cases stream with
  | nil => contradiction
  | cons first rest => rfl

theorem added_nonempty : frame.added.out ≠ [] := by
  rw [added_out]
  exact List.cons_ne_nil _ _

/-- The walk passes over a frame that fits. -/
theorem walk_fits (fits : frame.Fits) (rounds : Nat) (rest : List UInt8) :
    walkFrames (rounds + 1) (frame.added.out ++ rest) =
      (walkFrames rounds rest).map (frame.added.out :: ·) := by
  have length := @header_length frame
  rw [walk_step (List.append_ne_nil_of_left_ne_nil added_nonempty rest), parse_added frame fits,
    Option.bind_some, length, List.take_left, List.drop_left, if_pos]
  refine ⟨rfl, ?_, ?_⟩
  · rw [added_length]
    exact Nat.le_add_left _ _
  · rw [List.length_append]
    exact Nat.le_add_right _ _

/-- No frame of a walk is longer than a header can say. -/
theorem walked_first {rounds : Nat} {stream first : List UInt8} {others : List (List UInt8)}
    (walked : walkFrames rounds stream = some (first :: others)) : first.length < 8192 := by
  cases stream with
  | nil => cases rounds <;> simp [walkFrames] at walked
  | cons byte bytes =>
      cases rounds with
      | zero => contradiction
      | succ rounds =>
          rw [walk_step (List.cons_ne_nil _ _)] at walked
          obtain ⟨header, parsed, walked⟩ := Option.bind_eq_some_iff.mp walked
          split_ifs at walked with inside
          obtain ⟨later, -, same⟩ := Option.map_eq_some_iff.mp walked
          rw [← (List.cons.inj same).1, List.length_take]
          have bound := frame_length_lt parsed
          omega

theorem stream_cons : stream (frame :: frames) = frame.added.out ++ stream frames :=
  List.flatMap_cons

/-- A walk over a stream of frames visits these if and only if all of them fit. -/
theorem walk_stream_iff (frames : List Frame) (rounds : Nat)
    (enough : (stream frames).length ≤ rounds) :
    walkFrames rounds (stream frames) = some (frames.map fun frame => frame.added.out) ↔
      ∀ frame ∈ frames, frame.Fits := by
  induction frames generalizing rounds with
  | nil => simp [stream, walkFrames]
  | cons frame frames ih =>
      have positive := List.length_pos_iff.mpr (@added_nonempty frame)
      rw [stream_cons, List.length_append] at enough
      rw [stream_cons, List.map_cons, List.forall_mem_cons]
      by_cases fits : frame.Fits
      · obtain ⟨fewer, rfl⟩ := Nat.exists_eq_add_of_le' (show 1 ≤ rounds by omega)
        rw [walk_fits fits, ← ih fewer (by omega), and_iff_right fits]
        constructor
        · intro walked
          obtain ⟨others, result, same⟩ := Option.map_eq_some_iff.mp walked
          rw [result, (List.cons.inj same).2]
        · intro walked
          rw [walked, Option.map_some]
      · apply iff_of_false
        · intro walked
          have bound := walked_first walked
          rw [added_length] at bound
          exact fits bound
        · exact fun all => fits all.1

theorem decodes_iff (frame : Frame) : frame.Decodes ↔ frame.Fits := by
  constructor
  · intro decodes
    obtain ⟨-, -, header, parsed, -, -, -, -, -, length⟩ := decodes
    have bound := frame_length_lt parsed
    rwa [length] at bound
  · intro fits
    have parsed := parse_added frame fits []
    rw [List.append_nil] at parsed
    have low := frame.profile_low
    refine ⟨rfl, rfl, headerOf frame, parsed, rfl, rfl, ?_, rfl, rfl, rfl⟩
    exact Int.toNat_of_nonneg (by omega)

/-- The header of a frame gives back what it was made from, and a walk over any stream of
frames visits them in order, if and only if the lengths are below 8192. -/
theorem adts_decodes_iff (frame : Frame) (frames : List Frame) :
    (frame.Decodes ↔ frame.frameLength < 8192) ∧
      (walk (stream frames) = some (frames.map fun frame => frame.added.out) ↔
        ∀ frame ∈ frames, frame.frameLength < 8192) :=
  ⟨decodes_iff frame, walk_stream_iff frames _ (Nat.le_refl _)⟩

/-- A frame of stereo at 44.1 kHz with `size` bytes of payload. -/
def silentFrame (size : Nat) (room : size + AAC_HEADER_SIZE ≤ AAC_SAMPLE_SIZE_MAX) : Frame where
  samplerate := 44100
  profile := 2
  channels := 2
  payload := List.replicate size 0
  profile_low := by decide
  profile_high := by decide
  channels_high := by decide
  room := by rwa [List.length_replicate]

theorem long_not_walked (long : ¬frame.Fits) :
    walk (stream [frame]) ≠ some ([frame].map fun frame => frame.added.out) := by
  intro walked
  exact long ((walk_stream_iff [frame] _ (Nat.le_refl _)).mp walked frame List.mem_cons_self)

/-- 8185 bytes of payload make a frame of 8192 bytes, whose header says 0 and has the next
bit set. -/
theorem long_frame_not_decoded :
    (parseHeader (adtsHeader 44100 2 2 8185)).map AdtsHeader.frame_length = some 0 ∧
      (parseHeader (adtsHeader 44100 2 2 8185)).map AdtsHeader.emphasis = some 1 ∧
      ∃ frame : Frame, frame.payload.length = 8185 ∧ ¬frame.Decodes ∧
        walk (stream [frame]) ≠ some ([frame].map fun frame => frame.added.out) := by
  obtain ⟨frame, length⟩ : ∃ frame : Frame, frame.payload.length = 8185 :=
    ⟨silentFrame 8185 (by decide), List.length_replicate⟩
  have long : ¬frame.Fits := by
    unfold Frame.Fits Frame.frameLength
    rw [length]
    decide
  exact ⟨by decide, by decide, frame, length, fun decodes => long ((decodes_iff frame).mp decodes),
    long_not_walked long⟩

end Walk

end Mgw.Adts

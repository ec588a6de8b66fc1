import Mgw.AmfFormat
import Mgw.FlvMux

/-!
# The FLV tag with the meta data

`flv_meta_data` of `flv-mux.c` writes the settings of the encoders as one AMF array, of
which it says how many properties it has at most.
-/

namespace Mgw.FlvMetaData

open Amf BigEndian FlvMux FlvTag

set_option autoImplicit false

/-- The integers that are read of the settings. -/
structure Settings where
  width : Int
  height : Int
  vbps : Int
  fps : Int
  channels : Int
  abps : Int
  samplerate : Int
  samplesize : Int

def SPEAKERS_MONO : Int := 1

def SPEAKERS_STEREO : Int := 2

/-- `flv_str`. -/
def flvStr (str : String) : List UInt8 := str.toList.map fun char => UInt8.ofNat char.toNat

/-- The bits of the `double` that an integer is converted to. -/
abbrev ToDouble := Int → UInt64

section Encoding

/-- `enc_str`, `enc_num_val`, `enc_str_val` and `enc_bool_val`, as the bytes at `*enc`. -/
abbrev Enc := Nat → Option (List UInt8)

def encStr (str : String) : Enc := fun room => encodeString room (flvStr str)

def encNumVal (name : String) (val : UInt64) : Enc := fun room =>
  encodeNamedNumber room (flvStr name) val

def encStrVal (name val : String) : Enc := fun room =>
  encodeNamedString room (flvStr name) (flvStr val)

def encBoolVal (name : String) (val : Bool) : Enc := fun room =>
  encodeNamedBoolean room (flvStr name) val

/-- The bytes go into a buffer of 4096 bytes. -/
def put (enc : List UInt8) (encode : Enc) : Option (List UInt8) :=
  (encode (4096 - enc.length)).map (enc ++ ·)

variable (toDouble : ToDouble)

/-- The calls between the count of the properties and the end mark. -/
def metaCalls (settings : Settings) : List Enc :=
  [encNumVal "duration" 0, encNumVal "fileSize" 0,
    encStrVal "videocodecid" "avc1",
    encNumVal "width" (toDouble settings.width),
    encNumVal "height" (toDouble settings.height),
    encNumVal "videodatarate" (toDouble (settings.vbps * 1000)),
    encNumVal "framerate" (toDouble settings.fps),
    encStrVal "audiocodecid" "mp4a",
    encNumVal "audiodatarate" (toDouble settings.abps),
    encNumVal "audiosamplerate" (toDouble settings.samplerate),
    encNumVal "audiosamplesize" (toDouble settings.samplesize),
    encNumVal "audiochannels" (toDouble settings.channels)] ++
  (if settings.channels = SPEAKERS_MONO then [encBoolVal "stereo" false]
    else if settings.channels = SPEAKERS_STEREO then [encBoolVal "stereo" true] else []) ++
  [encStrVal "encoder" "ucast rtmp module"]

def buildFlvMetaData (settings : Settings) : Option (List UInt8) := do
  let named ← put [] (encStr "onMetaData")
  let counted ← put (named ++ [AMF_ECMA_ARRAY]) fun room => encodeInt 4 room 14
  let encoded ← (metaCalls toDouble settings).foldlM put counted
  return encoded ++ [0, 0, UInt8.ofNat AMF_OBJECT_END]

def flvMetaData (settings : Settings) (write_header : Bool) : Option (List UInt8) :=
  (buildFlvMetaData toDouble settings).map fun meta_data =>
    let s := Serializer.init
    let header :=
      if write_header then
        ((((s.sWrite (flvStr "FLV")).sW8 1).sW8 5).sWb32 9).sWb32 0
      else s
    let start_pos := header.serializerGetPos
    let head := (((header.sW8 18).sWb24 meta_data.length).sWb32 0).sWb24 0
    let written := head.sWrite meta_data
    (written.sWb32 (WordArithmetic.sub32 (WordArithmetic.sub32
      (WordArithmetic.u32 written.serializerGetPos) start_pos) 1)).bytes

end Encoding

section Properties

variable (toDouble : ToDouble)

/-- Properties with names, in their order. -/
def objectOf (list : List (List UInt8 × Value)) : Object :=
  list.foldr (fun (name, value) others => .prop name value others) .empty

/-- The names and values of the meta data. -/
def metaList (settings : Settings) : List (List UInt8 × Value) :=
  [(flvStr "duration", .number 0), (flvStr "fileSize", .number 0),
    (flvStr "videocodecid", .string (flvStr "avc1")),
    (flvStr "width", .number (toDouble settings.width)),
    (flvStr "height", .number (toDouble settings.height)),
    (flvStr "videodatarate", .number (toDouble (settings.vbps * 1000))),
    (flvStr "framerate", .number (toDouble settings.fps)),
    (flvStr "audiocodecid", .string (flvStr "mp4a")),
    (flvStr "audiodatarate", .number (toDouble settings.abps)),
    (flvStr "audiosamplerate", .number (toDouble settings.samplerate)),
    (flvStr "audiosamplesize", .number (toDouble settings.samplesize)),
    (flvStr "audiochannels", .number (toDouble settings.channels))] ++
  (if settings.channels = SPEAKERS_MONO then [(flvStr "stereo", .boolean false)]
    else if settings.channels = SPEAKERS_STEREO then [(flvStr "stereo", .boolean true)] else []) ++
  [(flvStr "encoder", .string (flvStr "ucast rtmp module"))]

/-- The call that writes a property. -/
def callOf (property : List UInt8 × Value) : Enc := fun room =>
  encodeNamed room property.1 property.2

theorem meta_calls_eq (settings : Settings) :
    metaCalls toDouble settings = (metaList toDouble settings).map callOf := by
  unfold metaCalls metaList
  split_ifs <;> rfl

/-- The properties of the meta data are named, and short. -/
def Short (property : List UInt8 × Value) : Prop :=
  ((0 < property.1.length ∧ property.1.length ≤ 15) ∧ property.2 ≠ .null) ∧
    property.2.Fits ∧ property.2.bytes.length ≤ 20

theorem number_short {name : List UInt8} (some : 0 < name.length) (most : name.length ≤ 15)
    (val : UInt64) : Short (name, .number val) := by
  refine ⟨⟨⟨some, most⟩, by simp⟩, trivial, ?_⟩
  simp [Value.bytes, Value.content]

theorem string_short {name val : List UInt8} (some : 0 < name.length) (most : name.length ≤ 15)
    (short : val.length ≤ 17) : Short (name, .string val) := by
  have content : (Value.string val).content = beBytes 2 val.length ++ val := by
    rw [Value.content, if_pos (by omega)]
  refine ⟨⟨⟨some, most⟩, by simp⟩, Nat.lt_of_le_of_lt short (by decide), ?_⟩
  rw [Value.bytes, content, List.length_cons, List.length_append, be_bytes_length]
  omega

theorem boolean_short {name : List UInt8} (some : 0 < name.length) (most : name.length ≤ 15)
    (val : Bool) : Short (name, .boolean val) := by
  refine ⟨⟨⟨some, most⟩, by simp⟩, trivial, ?_⟩
  simp [Value.bytes, Value.content]

theorem meta_list_short (settings : Settings) :
    ∀ property ∈ metaList toDouble settings, Short property := by
  have stereo : ∀ property ∈
      (if settings.channels = SPEAKERS_MONO then [(flvStr "stereo", Value.boolean false)]
        else if settings.channels = SPEAKERS_STEREO then [(flvStr "stereo", .boolean true)] else []),
      Short property := by
    split_ifs
    · simpa using boolean_short (by decide) (by decide) false
    · simpa using boolean_short (by decide) (by decide) true
    · simp
  unfold metaList
  rw [List.forall_mem_append, List.forall_mem_append]
  refine ⟨⟨?_, stereo⟩, ?_⟩
  · simp only [List.forall_mem_cons, List.not_mem_nil, false_imp_iff, implies_true, and_true]
    exact ⟨number_short (by decide) (by decide) _, number_short (by decide) (by decide) _,
      string_short (by decide) (by decide) (by decide), number_short (by decide) (by decide) _,
      number_short (by decide) (by decide) _, number_short (by decide) (by decide) _,
      number_short (by decide) (by decide) _, string_short (by decide) (by decide) (by decide),
      number_short (by decide) (by decide) _, number_short (by decide) (by decide) _,
      number_short (by decide) (by decide) _, number_short (by decide) (by decide) _⟩
  · simpa using string_short (by decide) (by decide) (by decide)

theorem put_short {enc : List UInt8} {property : List UInt8 × Value} (short : Short property)
    (enough : enc.length + 64 ≤ 4096) :
    put enc (callOf property) =
      some (enc ++ (encodeName property.1 property.2 ++ property.2.bytes)) := by
  obtain ⟨⟨⟨some, most⟩, notNull⟩, fits, length⟩ := short
  rw [put, callOf, encodeNamed, if_neg (by omega), encodeInt, if_neg (by omega), Option.bind_some,
    encode_value_eq property.2 fits _ (by omega), encode_name_eq some notNull]
  simp

theorem puts_short (list : List (List UInt8 × Value)) {enc : List UInt8}
    (short : ∀ property ∈ list, Short property) (enough : enc.length + 64 * list.length ≤ 4096) :
    (list.map callOf).foldlM put enc = some (enc ++ (objectOf list).bytes) := by
  induction list generalizing enc with
  | nil =>
      rw [List.map_nil, List.foldlM_nil, objectOf, List.foldr_nil, Object.bytes, List.append_nil]
      rfl
  | cons property list induction =>
      rw [List.length_cons] at enough
      have first := short property List.mem_cons_self
      have most : (encodeName property.1 property.2 ++ property.2.bytes).length ≤ 64 := by
        obtain ⟨⟨⟨some, most⟩, notNull⟩, fits, length⟩ := first
        rw [encode_name_eq some notNull]
        simp only [List.length_append, be_bytes_length]
        omega
      rw [List.map_cons, List.foldlM_cons, put_short first (by omega)]
      change (list.map callOf).foldlM put _ = _
      rw [induction (fun other member => short other (List.mem_cons_of_mem _ member))
        (by rw [List.length_append]; omega)]
      rw [show objectOf (property :: list) = .prop property.1 property.2 (objectOf list) from rfl,
        object_bytes]
      simp only [List.append_assoc]

theorem object_of_fits {list : List (List UInt8 × Value)}
    (short : ∀ property ∈ list, Short property) : (objectOf list).Fits true := by
  induction list with
  | nil => exact trivial
  | cons property list induction =>
      obtain ⟨⟨⟨some, most⟩, notNull⟩, fits, -⟩ := short property List.mem_cons_self
      have others := induction fun other member => short other (List.mem_cons_of_mem _ member)
      exact ⟨⟨⟨some, by omega⟩, notNull⟩, fits, others⟩

theorem meta_list_length (settings : Settings) : (metaList toDouble settings).length ≤ 14 := by
  unfold metaList
  split_ifs
  · exact Nat.le_refl 14
  · exact Nat.le_refl 14
  · exact Nat.le_succ 13

theorem object_of_length {list : List (List UInt8 × Value)}
    (short : ∀ property ∈ list, Short property) :
    (objectOf list).bytes.length ≤ 64 * list.length := by
  induction list with
  | nil => exact Nat.le_refl 0
  | cons property list induction =>
      obtain ⟨⟨⟨some, most⟩, notNull⟩, -, length⟩ := short property List.mem_cons_self
      have others := induction fun other member => short other (List.mem_cons_of_mem _ member)
      rw [show objectOf (property :: list) = .prop property.1 property.2 (objectOf list) from rfl,
        object_bytes, encode_name_eq some notNull]
      simp only [List.length_append, List.length_cons, be_bytes_length]
      omega

/-- The bytes of the meta data. -/
def metaBody (settings : Settings) : List UInt8 :=
  (Value.string (flvStr "onMetaData")).bytes ++
    (AMF_ECMA_ARRAY :: (beBytes 4 14 ++
      ((objectOf (metaList toDouble settings)).bytes ++ beBytes 3 AMF_OBJECT_END)))

theorem meta_body_length (settings : Settings) : (metaBody toDouble settings).length ≤ 1000 := by
  have object := object_of_length (meta_list_short toDouble settings)
  have most := meta_list_length toDouble settings
  have name : (Value.string (flvStr "onMetaData")).bytes.length = 13 := by decide
  rw [metaBody]
  simp only [List.length_append, List.length_cons, be_bytes_length, name]
  omega

theorem build_meta_data_eq (settings : Settings) :
    buildFlvMetaData toDouble settings = some (metaBody toDouble settings) := by
  have most := meta_list_length toDouble settings
  have name : put [] (encStr "onMetaData") =
      some (Value.string (flvStr "onMetaData")).bytes := by decide
  have counted : put ((Value.string (flvStr "onMetaData")).bytes ++ [AMF_ECMA_ARRAY])
      (fun room => encodeInt 4 room 14) =
        some ((Value.string (flvStr "onMetaData")).bytes ++ [AMF_ECMA_ARRAY] ++ beBytes 4 14) := by
    decide
  have length : ((Value.string (flvStr "onMetaData")).bytes ++ [AMF_ECMA_ARRAY] ++
      beBytes 4 14).length = 18 := by decide
  have calls := @puts_short (metaList toDouble settings)
    ((Value.string (flvStr "onMetaData")).bytes ++ [AMF_ECMA_ARRAY] ++ beBytes 4 14)
    (meta_list_short toDouble settings) (by omega)
  rw [buildFlvMetaData, name, meta_calls_eq]
  simp only [Option.bind_eq_bind, Option.bind_some, counted, calls]
  rw [metaBody]
  simp only [List.append_assoc, List.cons_append, List.nil_append]
  rfl

/-- The tag of the meta data. -/
def metaTag (settings : Settings) : Tag where
  tagType := 18
  dataSize := (metaBody toDouble settings).length
  timestamp := 0
  streamId := 0
  body := metaBody toDouble settings
  previousTagSize := 11 + (metaBody toDouble settings).length - 1

theorem flv_meta_data_eq (settings : Settings) :
    flvMetaData toDouble settings false = some (encodeTag (metaTag toDouble settings)) := by
  have most := meta_body_length toDouble settings
  have length : (11 + (metaBody toDouble settings).length) = ((((((Serializer.init.sW8 18).sWb24
      (metaBody toDouble settings).length).sWb32 0).sWb24 0).sWrite
        (metaBody toDouble settings)).serializerGetPos) := by
    rw [Serializer.serializerGetPos, s_write_bytes, s_wb24_bytes, s_wb32_bytes, s_wb24_bytes,
      s_w8_bytes]
    simp only [Serializer.init, List.length_append, be_bytes_length, List.length_nil]
  have zeros : beBytes 4 0 = beBytes 3 0 ++ beBytes 1 0 := by decide
  have position : WordArithmetic.sub32 (WordArithmetic.sub32 (WordArithmetic.u32
      (11 + (metaBody toDouble settings).length)) 0) 1 =
        11 + (metaBody toDouble settings).length - 1 := by
    simp only [WordArithmetic.sub32, WordArithmetic.u32, WordArithmetic.wordSize]
    omega
  rw [flvMetaData, build_meta_data_eq, Option.map_some]
  dsimp only
  rw [if_neg Bool.false_ne_true, ← length,
    show Serializer.init.serializerGetPos = 0 from rfl, position, s_wb32_bytes, s_write_bytes,
    s_wb24_bytes, s_wb32_bytes, s_wb24_bytes, s_w8_bytes, encodeTag, zeros]
  simp only [Serializer.init, metaTag, List.nil_append, List.append_assoc, Nat.zero_mod,
    Nat.zero_div]

end Properties

end Mgw.FlvMetaData

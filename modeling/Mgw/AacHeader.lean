import Mgw.ByteArea

/-!
# The AAC sequence header

How the audio header of a source comes to be and what the RTMP output makes of
it: `codec-common.c` builds the configuration and the header of a private source,
`mgw-source.c` stores it or asks the plugin, and `send_audio_header` of
`rtmp-stream.c` puts its own two codes in front.
-/

namespace Mgw.AacHeader

open ByteArea

set_option autoImplicit false

def AUDIO_AAC_LC : UInt8 := 2

def getSamplerateIndex (sampleRate : UInt32) : UInt8 :=
  if sampleRate > 0 then
    if sampleRate = 96000 then 0
    else if sampleRate = 88200 then 1
    else if sampleRate = 64000 then 2
    else if sampleRate = 48000 then 3
    else if sampleRate = 44100 then 4
    else if sampleRate = 32000 then 5
    else if sampleRate = 24000 then 6
    else if sampleRate = 22050 then 7
    else if sampleRate = 16000 then 8
    else if sampleRate = 12000 then 9
    else if sampleRate = 11025 then 10
    else if sampleRate = 8000 then 11
    else if sampleRate = 7350 then 12
    else 15
  else 15

/-- The AudioSpecificConfig: with an index into the table of rates in two bytes,
with the rate itself in five. -/
def mgwGetAacLcHeader (channels : UInt8) (samplerate : UInt32) : List UInt8 :=
  let samplingFrequencyIndex := getSamplerateIndex samplerate
  let first : UInt8 := ((AUDIO_AAC_LC <<< 3) &&& (0xf8 : UInt8)) ||| ((samplingFrequencyIndex >>> 1) &&& 0x07)
  let second : UInt8 := (samplingFrequencyIndex <<< 7) &&& 0x80
  let configuration : UInt8 := (channels <<< 3) &&& 0x78
  if samplingFrequencyIndex = 0xf then
    [first, second ||| ((samplerate >>> 17).toUInt8 &&& 0x7f), (samplerate >>> 9).toUInt8,
      (samplerate >>> 1).toUInt8, ((samplerate.toUInt8 <<< 7) &&& 0x80) ||| configuration]
  else [first, second ||| configuration]

/-- `0xAF`, without the bit for 16 bits or the one for stereo where they do not hold. -/
def audioCode (eightBit mono : Bool) : UInt8 :=
  let code : UInt8 := if eightBit then 0xaf &&& 0xfd else 0xaf
  if mono then code &&& 0xfe else code

def mgwGetAaclcFlvHeader (channels samplesize : UInt8) (samplerate : UInt32) : List UInt8 :=
  audioCode (samplesize = 8) (channels = 1) :: 0x00 :: mgwGetAacLcHeader channels samplerate

/-- What `get_encoder_settings` gives, from the plugin or from the stored settings. -/
structure EncoderSettings where
  channels : Int
  samplesize : Int

/-- `extraData` is what the plugin's `get_extra_data` gives for audio. -/
structure MgwSource where
  infoImpl : Bool
  isPrivate : Bool
  extraData : List UInt8
  audioHeader : List UInt8
  settings : EncoderSettings

def mgwSourceSetAudioExtraData (source : MgwSource) (channels samplesize : UInt8)
    (samplerate : UInt32) : MgwSource :=
  if source.infoImpl ∧ ¬source.isPrivate then source
  else if source.isPrivate then
    { source with audioHeader := mgwGetAaclcFlvHeader channels samplesize samplerate }
  else source

/-- The bytes and the size that `get_audio_header` leaves in the parameters. -/
def getAudioHeader (source : MgwSource) : List UInt8 :=
  if source.infoImpl ∧ ¬source.isPrivate then source.extraData
  else if source.isPrivate then source.audioHeader
  else []

def headerCapacity : Nat := 8

/-- The packet that is sent: its size and the bytes copied out of the array,
which is filled without a look at its capacity. -/
structure HeaderPacket where
  size : Nat
  data : List UInt8

/-- `0xAF` as the settings adjust it. -/
def EncoderSettings.code (settings : EncoderSettings) : UInt8 :=
  audioCode (settings.samplesize = 8) (settings.channels = 1)

/-- The array after the copy of the source's header into it; `stack` is what lies
in memory from its start on. -/
def filledHeader (stack : Bytes) (source : MgwSource) : Bytes :=
  let codes : List UInt8 := [source.settings.code, 0x00]
  let header := copyIn stack 0 (fun index => codes.getD index 0) headerCapacity
  let out := getAudioHeader source
  copyIn header 2 (fun index => out.getD index 0) out.length

def sendAudioHeader (stack : Bytes) (source : MgwSource) : HeaderPacket :=
  let size := (getAudioHeader source).length + 2
  { size := size, data := takeBytes (filledHeader stack source) size }

/-- The two codes and one copy of the configuration, inside the array. -/
structure OneFormat (source : MgwSource) (packet : HeaderPacket) (config : List UInt8) : Prop where
  body : packet.data = source.settings.code :: 0x00 :: config
  fits : packet.size ≤ headerCapacity

/-- The configuration that stands for the source's audio. -/
def audioSpecificConfig (source : MgwSource) (channels : UInt8) (samplerate : UInt32) :
    List UInt8 :=
  if source.isPrivate then mgwGetAacLcHeader channels samplerate else source.extraData

/-- The rates in the order of their indices. -/
def samplingFrequencies : List Nat :=
  [96000, 88200, 64000, 48000, 44100, 32000, 24000, 22050, 16000, 12000, 11025, 8000, 7350]

section Rates

/-- The index is that of the rate in the table, or 15. -/
theorem samplerate_index (samplerate : UInt32) :
    getSamplerateIndex samplerate = 15 ∨
      samplingFrequencies[(getSamplerateIndex samplerate).toNat]? = some samplerate.toNat := by
  have next : ∀ (rate : UInt32) (index later : UInt8),
      samplingFrequencies[index.toNat]? = some rate.toNat →
      (later = 15 ∨ samplingFrequencies[later.toNat]? = some samplerate.toNat) →
      ((if samplerate = rate then index else later) = 15 ∨
        samplingFrequencies[(if samplerate = rate then index else later).toNat]? =
          some samplerate.toNat) := by
    intro rate index later listed others
    by_cases same : samplerate = rate
    · rw [if_pos same, same]
      exact Or.inr listed
    · rwa [if_neg same]
  unfold getSamplerateIndex
  by_cases positive : samplerate > 0
  · rw [if_pos positive]
    repeat
      apply next
      · rfl
    exact Or.inl rfl
  · rw [if_neg positive]
    exact Or.inl rfl

theorem samplerate_index_lt (samplerate : UInt32) : (getSamplerateIndex samplerate).toNat < 16 := by
  rcases samplerate_index samplerate with outside | listed
  · rw [outside]
    decide
  · have bound := (List.getElem?_eq_some_iff.mp listed).1
    change _ < 13 at bound
    omega

end Rates

section Header

variable {source : MgwSource}

theorem config_length (channels : UInt8) (samplerate : UInt32) :
    (mgwGetAacLcHeader channels samplerate).length =
      if getSamplerateIndex samplerate = 0xf then 5 else 2 := by
  unfold mgwGetAacLcHeader
  by_cases outside : getSamplerateIndex samplerate = 0xf
  · simp only [if_pos outside]
    rfl
  · simp only [if_neg outside]
    rfl

/-- The two codes go in front of whatever the source gives. -/
theorem send_audio_header_data (stack : Bytes) (source : MgwSource) :
    (sendAudioHeader stack source).data =
      source.settings.code :: 0x00 :: getAudioHeader source := by
  have first : filledHeader stack source 0 = source.settings.code := by
    unfold filledHeader
    rw [copy_in_outside _ _ _ _ _ (Or.inl (by decide))]
    exact copy_in_inside stack _ 0 headerCapacity 0 (by decide)
  have second : filledHeader stack source 1 = 0x00 := by
    unfold filledHeader
    rw [copy_in_outside _ _ _ _ _ (Or.inl (by decide))]
    exact copy_in_inside stack _ 0 headerCapacity 1 (by decide)
  have rest : takeBytes (advance (filledHeader stack source) 2) (getAudioHeader source).length =
      getAudioHeader source := by
    unfold filledHeader
    exact take_bytes_copied _ 2 (getAudioHeader source)
  unfold sendAudioHeader
  simp only
  rw [Nat.add_comm, take_bytes_add, rest]
  change [filledHeader stack source 0, filledHeader stack source 1] ++ _ = _
  rw [first, second]
  rfl

/-- The header stored for a private source already has the two codes. -/
theorem private_header (isPrivate : source.isPrivate = true) (channels samplesize : UInt8)
    (samplerate : UInt32) :
    getAudioHeader (mgwSourceSetAudioExtraData source channels samplesize samplerate) =
      audioCode (samplesize = 8) (channels = 1) :: 0x00 ::
        mgwGetAacLcHeader channels samplerate := by
  unfold mgwSourceSetAudioExtraData
  rw [if_neg (by simp [isPrivate]), if_pos isPrivate]
  unfold getAudioHeader
  rw [if_neg (by simp [isPrivate]), if_pos isPrivate]
  rfl

/-- With a rate outside the table the header of a private source runs over the array. -/
theorem private_header_size (stack : Bytes) (isPrivate : source.isPrivate = true)
    (channels samplesize : UInt8) (samplerate : UInt32) :
    (sendAudioHeader stack
        (mgwSourceSetAudioExtraData source channels samplesize samplerate)).size =
      if getSamplerateIndex samplerate = 0xf then 9 else 6 := by
  unfold sendAudioHeader
  rw [private_header isPrivate]
  simp only [List.length_cons, config_length]
  split_ifs
  · rfl
  · rfl

theorem set_keeps_kind (source : MgwSource) (channels samplesize : UInt8) (samplerate : UInt32) :
    (mgwSourceSetAudioExtraData source channels samplesize samplerate).isPrivate =
        source.isPrivate ∧
      (mgwSourceSetAudioExtraData source channels samplesize samplerate).extraData =
        source.extraData := by
  unfold mgwSourceSetAudioExtraData
  split_ifs
  · exact ⟨rfl, rfl⟩
  · exact ⟨rfl, rfl⟩
  · exact ⟨rfl, rfl⟩

theorem plugin_header (plugin : source.infoImpl = true) (isPrivate : source.isPrivate = false)
    (channels samplesize : UInt8) (samplerate : UInt32) :
    getAudioHeader (mgwSourceSetAudioExtraData source channels samplesize samplerate) =
      source.extraData := by
  have backed : source.infoImpl = true ∧ ¬source.isPrivate = true := by simp [plugin, isPrivate]
  unfold mgwSourceSetAudioExtraData
  rw [if_pos backed]
  unfold getAudioHeader
  rw [if_pos backed]

/-- The format holds exactly for plugin-backed sources whose configuration fits
behind the two codes: a private source has its two codes twice. -/
theorem audio_header_one_format_iff (stack : Bytes) (source : MgwSource)
    (kind : source.isPrivate = true ∨ source.infoImpl = true) (channels samplesize : UInt8)
    (samplerate : UInt32) :
    let built := mgwSourceSetAudioExtraData source channels samplesize samplerate
    OneFormat built (sendAudioHeader stack built) (audioSpecificConfig built channels samplerate) ↔
      source.isPrivate = false ∧ source.extraData.length ≤ 6 := by
  intro built
  obtain ⟨sameKind, sameExtra⟩ := set_keeps_kind source channels samplesize samplerate
  have data := send_audio_header_data stack built
  cases isPrivate : source.isPrivate with
  | true =>
      have header : getAudioHeader built = _ :: 0x00 :: mgwGetAacLcHeader channels samplerate :=
        private_header isPrivate channels samplesize samplerate
      constructor
      · rintro ⟨body, -⟩
        rw [data, header, audioSpecificConfig, sameKind, if_pos isPrivate] at body
        have lengths := congrArg List.length body
        simp only [List.length_cons] at lengths
        omega
      · rintro ⟨impossible, -⟩
        contradiction
  | false =>
      have plugin : source.infoImpl = true := by simpa [isPrivate] using kind
      have header : getAudioHeader built = source.extraData :=
        plugin_header plugin isPrivate channels samplesize samplerate
      have size : (sendAudioHeader stack built).size = source.extraData.length + 2 := by
        unfold sendAudioHeader
        rw [header]
      constructor
      · rintro ⟨-, fits⟩
        rw [size] at fits
        exact ⟨rfl, Nat.le_of_add_le_add_right fits⟩
      · rintro ⟨-, short⟩
        constructor
        · rw [data, header, audioSpecificConfig, sameKind, if_neg (by simp [isPrivate]), sameExtra]
        · rw [size]
          exact Nat.add_le_add_right short 2

end Header

def privateSource : MgwSource where
  infoImpl := false
  isPrivate := true
  extraData := []
  audioHeader := []
  settings := { channels := 2, samplesize := 16 }

def pluginSource (extraData : List UInt8) : MgwSource :=
  { privateSource with infoImpl := true, isPrivate := false, extraData := extraData }

theorem audio_header_one_format_plugin :
    let built := mgwSourceSetAudioExtraData (pluginSource [0x12, 0x10]) 2 16 44100
    OneFormat built (sendAudioHeader (fun _ => 0) built) (audioSpecificConfig built 2 44100) ↔
      (pluginSource [0x12, 0x10]).isPrivate = false ∧
        (pluginSource [0x12, 0x10]).extraData.length ≤ 6 :=
  audio_header_one_format_iff (fun _ => 0) (pluginSource [0x12, 0x10]) (Or.inr rfl) 2 16 44100

/-- A private source at 44.1 kHz sends the two codes twice, a plugin's configuration
of seven bytes leaves the array. -/
theorem private_header_doubled :
    let built := mgwSourceSetAudioExtraData privateSource 2 16 44100
    (sendAudioHeader (fun _ => 0) built).data = [0xaf, 0x00, 0xaf, 0x00, 0x12, 0x10] ∧
      audioSpecificConfig built 2 44100 = [0x12, 0x10] ∧
      ¬OneFormat built (sendAudioHeader (fun _ => 0) built)
        (audioSpecificConfig built 2 44100) ∧
      (sendAudioHeader (fun _ => 0) (pluginSource [0x2b, 0x92, 8, 0, 0, 0, 0])).size = 9 := by
  refine ⟨by decide, by decide, ?_, by decide⟩
  intro format
  exact absurd format.body (by decide)

end Mgw.AacHeader

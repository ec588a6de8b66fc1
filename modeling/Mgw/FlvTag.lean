import Mgw.BigEndian

/-!
The tag of the FLV format: a type, the size of the body in three bytes, the
timestamp with its low three bytes before the high one, a stream id in three
bytes, the body, and behind it a size of the whole tag in four bytes.
-/

namespace Mgw.FlvTag

open BigEndian

set_option autoImplicit false

structure Tag where
  tagType : Nat
  dataSize : Nat
  timestamp : Nat
  streamId : Nat
  body : List UInt8
  previousTagSize : Nat
  deriving DecidableEq

/-- Every field fits its place, and the declared size is the one of the body. -/
structure Tag.Fits (tag : Tag) : Prop where
  tagType : tag.tagType < 256 ^ 1
  dataSize : tag.dataSize < 256 ^ 3
  timestamp : tag.timestamp < 256 ^ 4
  streamId : tag.streamId < 256 ^ 3
  body : tag.body.length = tag.dataSize
  previousTagSize : tag.previousTagSize < 256 ^ 4

def encodeTag (tag : Tag) : List UInt8 :=
  beBytes 1 tag.tagType ++ (beBytes 3 tag.dataSize ++ (beBytes 3 (tag.timestamp % 256 ^ 3) ++
    (beBytes 1 (tag.timestamp / 256 ^ 3) ++ (beBytes 3 tag.streamId ++
      (tag.body ++ beBytes 4 tag.previousTagSize)))))

/-- The tag at the front of the input and what follows it. -/
def parseTag (input : List UInt8) : Option (Tag × List UInt8) := do
  let (tagType, afterType) ← readBe 1 input
  let (dataSize, afterSize) ← readBe 3 afterType
  let (low, afterLow) ← readBe 3 afterSize
  let (extended, afterTimestamp) ← readBe 1 afterLow
  let (streamId, afterStream) ← readBe 3 afterTimestamp
  let (body, afterBody) ← readFixed dataSize afterStream
  let (previousTagSize, rest) ← readBe 4 afterBody
  some (
    { tagType := tagType
      dataSize := dataSize
      timestamp := extended * 256 ^ 3 + low
      streamId := streamId
      body := body
      previousTagSize := previousTagSize }, rest)

theorem parse_tag_encode {tag : Tag} (fits : tag.Fits) (rest : List UInt8) :
    parseTag (encodeTag tag ++ rest) = some (tag, rest) := by
  have low : tag.timestamp % 256 ^ 3 < 256 ^ 3 := Nat.mod_lt _ (by decide)
  have high : tag.timestamp / 256 ^ 3 < 256 ^ 1 :=
    Nat.div_lt_of_lt_mul (by simpa using fits.timestamp)
  have timestamp : tag.timestamp / 256 ^ 3 * 256 ^ 3 + tag.timestamp % 256 ^ 3 = tag.timestamp :=
    Nat.div_add_mod' tag.timestamp (256 ^ 3)
  unfold parseTag encodeTag
  simp only [List.append_assoc, read_be_append fits.tagType, read_be_append fits.dataSize,
    read_be_append low, read_be_append high, read_be_append fits.streamId,
    read_fixed_append fits.body, read_be_append fits.previousTagSize, timestamp, Option.bind_eq_bind,
    Option.bind_some]

theorem encode_tag_injective {left right : Tag} (leftFits : left.Fits) (rightFits : right.Fits)
    (same : encodeTag left = encodeTag right) : left = right := by
  have parsed := parse_tag_encode leftFits []
  rw [same, parse_tag_encode rightFits] at parsed
  exact (Prod.mk.inj (Option.some.inj parsed)).1.symm

end Mgw.FlvTag

/-!
The frame types and the return codes of `codec-def.h` that the buffers share.
-/

namespace Mgw.CodecDef

/-- `frame_t`. A zeroed frame slot therefore has type `FRAME_I`. -/
inductive FrameType where
  | unknown | I | B | P | idr | sei | sps | pps | aac | vps
  deriving DecidableEq, Repr

def frameConsumeSlow : Int := -1
def frameConsumeFast : Int := -2
def frameConsumePerr : Int := -3

end Mgw.CodecDef

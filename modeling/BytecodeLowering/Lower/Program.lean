import BytecodeLowering.Image.Decode
import BytecodeLowering.Lower.GlobalSlots
import BytecodeLowering.Lower.Methods
import BytecodeLowering.Lower.TypePasses

/-!
# Compiling an image

From the bytes of an image to a target module.
-/

namespace BytecodeLowering

structure CompileStats where
  types : Nat
  methods : Nat
  instructions : Nat
  bridges : Nat
  gaps : Nat
  deriving DecidableEq, Repr

inductive ProgramError where
  | decode (error : DecodeError)
  | lowering (error : LoweringError)
  deriving DecidableEq, Repr

namespace ProgramError

def cause : ProgramError → String
  | .decode error => error.message
  | .lowering error => error.message

def message : ProgramError → String
  | .decode error => "decode error: " ++ error.message
  | .lowering error => "compile error: " ++ error.message

end ProgramError

namespace Image

def registry (image : Image) (settings : Settings) : Registry :=
  Registry.create settings.moduleName image.types.length image.functionTable.size

def prepare (image : Image) : Lowering Unit := do
  TypePasses.run image
  GlobalSlots.declareAll image
  let _ ← GlobalSlots.lowerConstants image
  Methods.defineAll image

def lowering (image : Image) (settings : Settings) : Lowering BodyStats := do
  image.prepare
  Methods.compileAll image settings

def compileWithStats (image : Image) (settings : Settings) :
    Except LoweringError (TargetModule × CompileStats) :=
  match image.lowering settings (image.registry settings) with
  | .error error _ => .error error
  | .ok stats { target, .. } =>
      .ok (target,
        { types := target.types.length
          methods := target.methods.length
          instructions := target.instructionCount
          bridges := stats.bridges
          gaps := stats.gaps })

def compile (image : Image) (settings : Settings) : Except LoweringError TargetModule :=
  (image.compileWithStats settings).map Prod.fst

end Image

def compileBytes (settings : Settings) (bytes : Bytes) : Except ProgramError TargetModule := do
  let image ← (Image.decode bytes).mapError .decode
  (image.compile settings).mapError .lowering

def compileMany (settings : Settings) (images : List Bytes) :
    List (Except ProgramError TargetModule) :=
  images.map (compileBytes settings)

end BytecodeLowering

import BytecodeLowering.Target.Instr

/-!
# Method bodies under construction

Labels are handed out before the place they stand for is known; a body that
jumps to a label without a place is not finished.
-/

namespace BytecodeLowering

structure MethodBody where
  body : List Instr
  locals : List TargetType
  deriving DecidableEq, Repr

structure BodyBuilder where
  body : List Instr := []
  locals : List TargetType := []
  labels : List Bool := []
  deriving DecidableEq, Repr

namespace BodyBuilder

def newLabel (builder : BodyBuilder) : Label × BodyBuilder :=
  (builder.labels.length, { builder with labels := builder.labels ++ [false] })

def emit (builder : BodyBuilder) (instr : Instr) : BodyBuilder :=
  { builder with body := builder.body ++ [instr] }

def mark (builder : BodyBuilder) (label : Label) : BodyBuilder :=
  { builder with
    body := builder.body ++ [.markLabel label]
    labels := builder.labels.set label true }

def declareLocal (builder : BodyBuilder) (type : TargetType) : UInt16 × BodyBuilder :=
  (UInt16.ofNat builder.locals.length, { builder with locals := builder.locals ++ [type] })

def isMarked (builder : BodyBuilder) (label : Label) : Bool := builder.labels.getD label false

def unmarked? (builder : BodyBuilder) : Option Label :=
  (builder.body.flatMap Instr.targets).find? fun label => !builder.isMarked label

def finish (builder : BodyBuilder) : Except Label MethodBody :=
  match builder.unmarked? with
  | some label => .error label
  | none => .ok ⟨builder.body, builder.locals⟩

end BodyBuilder

end BytecodeLowering

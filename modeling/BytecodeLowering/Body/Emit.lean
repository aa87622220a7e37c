import BytecodeLowering.Body.Flow
import BytecodeLowering.Lower.TypeMapping
import BytecodeLowering.Settings.Basic
import BytecodeLowering.Target.Body

/-!
# Lowering steps

The setting in which one function body is lowered: what is fixed for the whole
body, what grows while its instructions are lowered, and the elementary steps,
which append instructions, hand out labels and move values between registers
and the stack.
-/

namespace BytecodeLowering

/-- What is fixed while one body is lowered.  The first registers are the
parameters; the others are locals. -/
structure Scope where
  image : Image
  registry : Registry
  settings : Settings
  function : FunctionDef
  signature : Signature
  flow : Flow
  registerTypes : List TargetType
  deriving DecidableEq, Repr

def Scope.parameterCount (scope : Scope) : Nat := scope.signature.params.length

structure TrapFrame where
  register : Int
  handler : Label
  region : TrapRegion
  deriving DecidableEq, Repr

/-- The place to which returns from inside traps leave, and the local that
carries the value there. -/
structure ReturnExit where
  label : Label
  slot : Option UInt16
  deriving DecidableEq, Repr

structure BodyStats where
  instructions : Nat := 0
  bridges : Nat := 0
  gaps : Nat := 0
  deriving DecidableEq, Repr

def BodyStats.merge (a b : BodyStats) : BodyStats :=
  { instructions := a.instructions + b.instructions
    bridges := a.bridges + b.bridges
    gaps := a.gaps + b.gaps }

structure Progress where
  builder : BodyBuilder
  traps : List TrapFrame := []
  stats : BodyStats := {}
  position : Nat := 0
  opcode : Opcode := .nop
  lastLine : Option SourceLine := none
  returnExit : Option ReturnExit := none
  deriving DecidableEq, Repr

/-- Steps of lowering a body; what was emitted before an error stays. -/
abbrev Emit := ReaderT Scope (EStateM LoweringError Progress)

/-! ## Beginning -/

/-- A void register is kept as an object. -/
def localType : TargetType → TargetType
  | .void => .any
  | type => type

def maxRegisters : Nat := 0xFFFF

def Scope.create (image : Image) (registry : Registry) (settings : Settings)
    (function : FunctionDef) (signature : Signature) (flow : Flow) :
    Except LoweringError Scope := do
  let registerTypes ← function.registers.mapM (registry.mapType image)
  let count := registerTypes.length
  if count < signature.params.length ∨ maxRegisters < count then
    throw (.invalidRegister ⟨function.index, 0⟩ count)
  else return { image, registry, settings, function, signature, flow, registerTypes }

/-- Every instruction has a label, of the same number, from the start. -/
def Scope.begin (scope : Scope) : Progress :=
  { builder := {
      locals := (scope.registerTypes.drop scope.parameterCount).map localType
      labels := scope.function.operations.map fun _ => false } }

namespace Emit

/-! ## Errors -/

def site : Emit Site := return ⟨(← read).function.index, (← get).position⟩

def unsupported (found : String) : Emit α := do
  throw (.unsupportedOperand (← site) (← get).opcode found)

def orUnsupported (value : Option α) (found : String) : Emit α :=
  match value with
  | some value => return value
  | none => unsupported found

def ofExcept (result : Except LoweringError α) : Emit α := MonadExcept.ofExcept result

/-! ## Instructions and labels -/

def modifyBuilder (f : BodyBuilder → BodyBuilder) : Emit Unit :=
  modify fun progress => { progress with builder := f progress.builder }

def emit (instr : Instr) : Emit Unit := modifyBuilder (·.emit instr)

def emitAll (code : List Instr) : Emit Unit := code.forM emit

def mark (label : Label) : Emit Unit := modifyBuilder (·.mark label)

def newLabel : Emit Label :=
  modifyGet fun progress =>
    let (label, builder) := progress.builder.newLabel
    (label, { progress with builder })

def declareLocal (type : TargetType) : Emit UInt16 :=
  modifyGet fun progress =>
    let (slot, builder) := progress.builder.declareLocal type
    (slot, { progress with builder })

def bridge : Emit Unit :=
  modify fun progress =>
    { progress with stats := { progress.stats with bridges := progress.stats.bridges + 1 } }

def callRuntime (member : RuntimeMember) : Emit Unit :=
  emit (if member.isConstructor then .newObj (.runtime member) else .call (.runtime member))

/-- An instruction that has no counterpart: an error, or a `nop` that is
counted. -/
def gap : Emit Unit := do
  match (← read).settings.gapPolicy with
  | .strict => throw (.loweringGap (← site) (← get).opcode)
  | .bestEffort =>
      modify fun progress =>
        { progress with stats := { progress.stats with gaps := progress.stats.gaps + 1 } }
      emit .nop

/-! ## The start of an instruction -/

def sourceLine? (scope : Scope) (position : Nat) : Option SourceLine :=
  if scope.settings.emitSequencePoints && scope.image.hasDebug then
    scope.function.lines.bind (·[position]?)
  else none

def sequencePoint : Emit Unit := do
  let progress ← get
  match sourceLine? (← read) progress.position with
  | none => return ()
  | some line =>
      if progress.lastLine ≠ some line then
        emit (.sequencePoint line.file line.line)
        modify fun progress => { progress with lastLine := some line }

def begin (position : Nat) (opcode : Opcode) : Emit Unit := do
  modify fun progress => { progress with position, opcode }
  if (← read).flow.isTarget position then mark position
  sequencePoint

/-! ## Registers -/

def registerIndex (register : Int) : Emit Nat := do
  match register.toNat? with
  | some index =>
      if index < (← read).registerTypes.length then return index
      else throw (.invalidRegister (← site) register)
  | none => throw (.invalidRegister (← site) register)

def registerType (register : Int) : Emit TargetType := do
  let index ← registerIndex register
  return (← read).registerTypes.getD index .void

def sourceTypeIndex (register : Int) : Emit TypeIndex := do
  let index ← registerIndex register
  return (← read).function.registers.getD index 0

def sourceType (register : Int) : Emit SourceType := do
  let scope ← read
  let type ← sourceTypeIndex register
  match scope.image.type? type with
  | some source => return source
  | none =>
      throw (.unresolvedType type
        ("type of r" ++ Text.decimal register ++ s!" in fun{scope.function.index}"))

/-- A void register holds nothing: it reads as null. -/
def loadInstr (scope : Scope) (index : Nat) : TargetType → Instr
  | .void => .ldNull
  | _ =>
      if index < scope.parameterCount then .ldArg (UInt16.ofNat index)
      else .ldLoc (UInt16.ofNat (index - scope.parameterCount))

/-- What is stored in a void register is dropped. -/
def storeInstr (scope : Scope) (index : Nat) : TargetType → Instr
  | .void => .pop
  | _ =>
      if index < scope.parameterCount then .stArg (UInt16.ofNat index)
      else .stLoc (UInt16.ofNat (index - scope.parameterCount))

def load (register : Int) : Emit TargetType := do
  let index ← registerIndex register
  let type ← registerType register
  emit (loadInstr (← read) index type)
  return type

def store (register : Int) : Emit Unit := do
  let index ← registerIndex register
  let type ← registerType register
  emit (storeInstr (← read) index type)

end Emit

end BytecodeLowering

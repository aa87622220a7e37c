import BytecodeLowering.Body.Emit

/-!
# Conversion between target types

Conversion of the value on top of the stack from one target type to another:
numeric conversions, boxing and unboxing, dynamic wrappers, nullables and
reference casts.
-/

namespace BytecodeLowering

/-- Whether declaration `a` is `b` or derives from it, within a number of
steps along the bases. -/
def TargetModule.derivesWithin (module : TargetModule) (b : TypeId) :
    (steps : Nat) → (a : TypeId) → Bool
  | 0, a => a == b
  | steps + 1, a =>
      a == b ||
        match (module.type? a).bind (·.base) with
        | some base => derivesWithin module b steps base
        | none => false

/-- A chain of bases without repetition is no longer than the list of
declarations. -/
def TargetModule.derivesFrom (module : TargetModule) (a b : TypeId) : Bool :=
  module.derivesWithin b module.types.length a

namespace Emit

def defaultInstr : TargetType → Instr
  | .bool | .u8 | .u16 | .i32 => .ldcI4 0
  | .i64 => .ldcI8 0
  | .f32 | .f64 => .ldcR8 ⟨0⟩
  | _ => .ldNull

def pushDefault (type : TargetType) : Emit Unit := emit (defaultInstr type)

def numericConversion? (source : TargetType) : TargetType → Option Conversion
  | .u8 => if source = .bool then none else some .u1
  | .u16 => if source = .bool ∨ source = .u8 then none else some .u2
  | .i32 | .bool =>
      if source = .i64 ∨ source = .f32 ∨ source = .f64 then some .i4 else none
  | .i64 => some .i8
  | .f32 => some .r4
  | .f64 => some .r8
  | _ => none

def convertNumeric (source target : TargetType) : Emit Unit :=
  match numericConversion? source target with
  | some conversion => emit (.conv conversion)
  | none => return ()

def unwrapObject (target : TargetType) (checked : Bool) : Emit Unit := do
  if target.isValue then
    emit (.unboxAny target)
    bridge
  else if checked ∧ target ≠ .any then
    emit (.castClass target)

/-- A reference needs no cast to a class that it derives from, nor between
delegates. -/
def isWidening (module : TargetModule) (source target : TargetType) : Bool :=
  match source.typeId?, target.typeId? with
  | some a, some b => module.derivesFrom a b
  | _, _ => source.signature?.isSome && target.signature?.isSome

def convertReference (source target : TargetType) (checked : Bool) : Emit Unit := do
  if !isWidening (← read).registry.target source target && checked then
    emit (.castClass target)

def boxIfValue (source : TargetType) : Emit Unit := do
  if source.isValue then emit (.box source)

def wrapDynamic (source : TargetType) : Emit Unit := do
  boxIfValue source
  callRuntime .dynamicNew
  bridge

def wrapAny (source : TargetType) : Emit Unit := do
  if source.isValue then
    emit (.box source)
    bridge

def convertPlain (source target : TargetType) (checked : Bool) : Emit Unit :=
  match source, target with
  | _, .void => emit .pop
  | .void, target => do
      if target.isValue then
        emit .pop
        pushDefault target
  | source, target => do
      if source.isValue ∧ target.isValue then convertNumeric source target
      else
        match source, target with
        | source, .dynamic => wrapDynamic source
        | source, .any => wrapAny source
        | .dynamic, target => do
            callRuntime .dynamicValue
            bridge
            unwrapObject target checked
        | .any, target => unwrapObject target checked
        | source, target =>
            if target.isValue ∨ source.isValue then
              unsupported ("no conversion from " ++ source.text ++ " to " ++ target.text)
            else convertReference source target checked

/-- Conversions from a type that is not nullable.  A value becomes a full
nullable; a null reference becomes the empty one instead of being unwrapped. -/
def convertInto (checked : Bool) (source : TargetType) : (target : TargetType) → Emit Unit
  | .nullable inner => do
      if source = .nullable inner ∨ source = .void then return ()
      else if source.isValue then
        convertInto checked source inner
        callRuntime (.nullableNew inner)
      else
        let empty ← newLabel
        let done ← newLabel
        emit .dup
        emit (.brFalse empty)
        convertInto checked source inner
        callRuntime (.nullableNew inner)
        emit (.br done)
        mark empty
        emit .pop
        pushDefault (.nullable inner)
        mark done
  | target => if source = target then return () else convertPlain source target checked

/-- Converts the top of the stack.  A nullable is first opened, unless the
target takes it as it is. -/
def convert (checked : Bool) : (source target : TargetType) → Emit Unit
  | .nullable inner, target => do
      if target = .nullable inner then return ()
      else if target = .void ∨ target = .dynamic ∨ target = .any then
        convertPlain (.nullable inner) target checked
      else
        callRuntime (.nullableValue inner)
        convert checked inner target
  | source, target => convertInto checked source target

def coerce (source target : TargetType) : Emit Unit := convert true source target

def coerceUnchecked (source target : TargetType) : Emit Unit := convert false source target

def loadAs (register : Int) (target : TargetType) : Emit Unit := do
  coerce (← load register) target

def storeFrom (register : Int) (source : TargetType) : Emit Unit := do
  coerce source (← registerType register)
  store register

end Emit

end BytecodeLowering

import BytecodeLowering.Lower.TypeMapping

/-!
# Globals and their initial values

Static slots for the globals of an image, and the initializer that gives
object globals their constant values.
-/

namespace BytecodeLowering.GlobalSlots

/-! ## Declaring -/

def kindOf : SourceType → GlobalKind
  | .obj _ | .struct _ => .object
  | .enum _ => .enum
  | source => if source.isValue then .value else .handle

def declare (image : Image) : TypeIndex × Nat → Lowering Unit
  | (type, number) => do
      match image.type? type with
      | none => throw (.unresolvedType type s!"type of global{number}")
      | some source =>
          let mapped ← Lowering.query (·.mapType image type)
          Registry.modifyTarget (·.addGlobal
            { id := number, name := s!"global{number}", kind := kindOf source, type := mapped })

def declareAll (image : Image) : Lowering Unit := image.globals.zipIdx.forM (declare image)

/-! ## Initial values -/

def fromPool (pool : List α) (name : String) (global index : Nat) : Except LoweringError α :=
  match pool[index]? with
  | some value => .ok value
  | none => .error (.invalidConstant global s!"{name} pool has no entry {index}")

def constantValue (image : Image) (global : Nat) (source : SourceType) (index : Nat) :
    Except LoweringError (List Instr) :=
  match source with
  | .u8 | .u16 | .i32 => do return [.ldcI4 (← fromPool image.ints "int" global index)]
  | .i64 => do return [.ldcI8 (← fromPool image.ints "int" global index)]
  | .f32 | .f64 => do return [.ldcR8 (← fromPool image.floats "float" global index)]
  | .bool => return [.ldcI4 (if index = 0 then 0 else 1)]
  | .bytes => do
      let text ← fromPool image.strings "string" global index
      return [.ldStr text, .call (.runtime .bytesFromString)]
  | other =>
      .error (.invalidConstant global
        ("field of type " ++ other.text ++ " cannot be a constant"))

def constantField (image : Image) (global : Nat) :
    FlatField × Nat → Except LoweringError (List Instr)
  | (field, index) =>
      match image.type? field.source with
      | none => .error (.invalidConstant global s!"field {field.name} has no type")
      | some source => do
          let value ← constantValue image global source index
          return .dup :: value ++ [.stFld field.field]

def constantCode (image : Image) (registry : Registry) (constant : Constant) :
    Except LoweringError (List Instr) := do
  let invalid {α} (reason : String) : Except LoweringError α :=
    .error (.invalidConstant constant.global reason)
  match image.globals[constant.global]? with
  | none => invalid "no such global"
  | some type =>
      if ((image.type? type).bind SourceType.object?).isNone then
        invalid "global is not an object"
      else
        let (_, shape) ← registry.requireObject type .compiled
        if shape.fields.length ≠ constant.fields.length then
          invalid s!"{constant.fields.length} values for {shape.fields.length} fields"
        else
          match registry.global? constant.global with
          | none => invalid "global slot not declared"
          | some slot =>
              let fields ← (shape.fields.zip constant.fields).mapM
                (constantField image constant.global)
              return .newObj (.method shape.constructor) :: fields.flatten ++ [.stSFld slot]

def lowerConstants (image : Image) : Lowering (Option MethodId) := do
  if image.constants.isEmpty then return none
  else
    let code ← Lowering.query fun registry => image.constants.mapM (constantCode image registry)
    let method ← Registry.addMethod "$init" .moduleInitializer
    Registry.modifyTarget fun target =>
      { target.modifyMethod method fun decl => { decl with body := code.flatten ++ [.ret] } with
        initializer := some method }
    return some method

end BytecodeLowering.GlobalSlots

import BytecodeLowering.Body.Coercion

/-!
# Allocation

New instances, byte strings, arrays, type values and reference boxes.
-/

namespace BytecodeLowering.Emit

def construct (target : Int) (constructor : MethodId) (type : TargetType) : Emit Unit := do
  emit (.newObj (.method constructor))
  storeFrom target type

def newInstance (target : Int) : Emit Unit := do
  let registry := (← read).registry
  let index ← sourceTypeIndex target
  let decl := ((registry.declaration? index).map (·.decl)).getD 0
  match ← sourceType target with
  | .obj _ | .struct _ =>
      let shape ← orUnsupported (registry.object? index)
        s!"object type @{index} has no declaration"
      construct target shape.constructor (.object decl)
  | .virtual _ =>
      let shape ← orUnsupported (registry.virtual? index)
        s!"virtual type @{index} has no declaration"
      construct target shape.constructor (.virtual decl)
  | .dyn | .dynObj =>
      emit .ldNull
      callRuntime .dynamicNew
      storeFrom target .dynamic
  | other => unsupported ("allocation of " ++ other.kind.name)

/-! ## Byte strings -/

def memoryWidth (register : Int) : Emit MemoryWidth := do
  match ← sourceType register with
  | .u8 | .bool => return .u8
  | .u16 => return .u16
  | .i32 => return .i32
  | .i64 => return .i64
  | .f32 => return .f32
  | .f64 => return .f64
  | other => unsupported ("memory access of " ++ other.kind.name)

def getMemory (target bytes position : Int) (width : MemoryWidth) : Emit Unit := do
  loadAs bytes .bytes
  loadAs position .i32
  callRuntime (.bytesGet width)
  storeFrom target width.stackType

def setMemory (bytes position source : Int) (width : MemoryWidth) : Emit Unit := do
  loadAs bytes .bytes
  loadAs position .i32
  loadAs source width.stackType
  callRuntime (.bytesSet width)

/-! ## Arrays -/

def arraySize (target array : Int) : Emit Unit := do
  loadAs array .array
  callRuntime .arraySize
  storeFrom target .i32

def getElement (target array position : Int) : Emit Unit := do
  loadAs array .array
  loadAs position .i32
  emit (.ldElem .any)
  storeFrom target .any

def setElement (array position source : Int) : Emit Unit := do
  loadAs array .array
  loadAs position .i32
  loadAs source .any
  emit (.stElem .any)

/-! ## Type values -/

def typeToken (target type : Int) : Emit Unit := do
  let scope ← read
  let index ← orUnsupported type.toNat? ("type index " ++ Text.decimal type)
  emit (.ldToken (← ofExcept (scope.registry.mapType scope.image index)))
  storeFrom target .typeValue

def typeOfValue (target source : Int) : Emit Unit := do
  loadAs source .dynamic
  callRuntime .typeOf
  storeFrom target .typeValue

def kindOfType (target source : Int) : Emit Unit := do
  loadAs source .typeValue
  callRuntime .typeKindOf
  storeFrom target .i32

/-! ## Reference boxes -/

def boxed (register : Int) : Emit TargetType := do
  match ← registerType register with
  | .ref inner => return inner
  | other => unsupported ("dereference of " ++ other.text)

def makeBox (target source : Int) : Emit Unit := do
  let inner ← load source
  callRuntime (.refBoxNew inner)
  storeFrom target (.ref inner)

def getBoxed (target box : Int) : Emit Unit := do
  let inner ← boxed box
  let _ ← load box
  callRuntime (.refBoxGet inner)
  storeFrom target inner

def setBoxed (box source : Int) : Emit Unit := do
  let inner ← boxed box
  let _ ← load box
  loadAs source inner
  callRuntime (.refBoxSet inner)

end BytecodeLowering.Emit

import BytecodeLowering.Body.Coercion

/-!
# Moves and constants

Moves between registers and constants from the pools.
-/

namespace BytecodeLowering.Emit

def fromPool (pool : List α) (name : String) (index : Int) : Emit α :=
  orUnsupported (index.toNat?.bind (pool[·]?)) (name ++ " pool index " ++ Text.decimal index)

def move (target source : Int) : Emit Unit := do
  loadAs source (← registerType target)
  store target

def intConstant (target index : Int) : Emit Unit := do
  let value ← fromPool (← read).image.ints "int" index
  if (← registerType target) = .i64 then
    emit (.ldcI8 value)
    store target
  else
    emit (.ldcI4 value)
    storeFrom target .i32

def floatConstant (target index : Int) : Emit Unit := do
  emit (.ldcR8 (← fromPool (← read).image.floats "float" index))
  storeFrom target .f64

def boolConstant (target value : Int) : Emit Unit := do
  emit (.ldcI4 (if value = 0 then 0 else 1))
  storeFrom target .bool

def stringConstant (target index : Int) : Emit Unit := do
  emit (.ldStr (← fromPool (← read).image.strings "string" index))
  if (← registerType target) = .bytes then
    callRuntime .bytesFromString
    store target
  else storeFrom target .str

/-- Byte strings come from the blobs, or from the strings in images that have
no blobs. -/
def bytesConstant (target index : Int) : Emit Unit := do
  let image := (← read).image
  let position ← orUnsupported index.toNat? ("bytes pool index " ++ Text.decimal index)
  if Image.hasBlobs image.version then
    let blob ← orUnsupported (image.blob? position) s!"bytes pool index {position}"
    emit (.ldBytes blob)
    callRuntime .bytesFromRaw
  else
    emit (.ldStr (← fromPool image.strings "string" index))
    callRuntime .bytesFromString
  storeFrom target .bytes

def nullConstant (target : Int) : Emit Unit := do
  emit .ldNull
  store target

end BytecodeLowering.Emit

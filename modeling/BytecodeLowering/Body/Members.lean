import BytecodeLowering.Body.Coercion

/-!
# Fields and globals

Access to the fields of objects and records, to the fields of dynamic values
and to globals.
-/

namespace BytecodeLowering.Emit

def fieldOf (register field : Int) : Emit (FieldRef × TargetType) := do
  let registry := (← read).registry
  let index ← sourceTypeIndex register
  match ← sourceType register with
  | .obj object | .struct object =>
      match (registry.object? index).bind (·.field? field) with
      | some found => return (found.field, found.type)
      | none => throw (.invalidField (← site) field object.name)
  | .virtual _ =>
      match (registry.virtual? index).bind (·.field? field) with
      | some found => return (found.field, found.type)
      | none => throw (.invalidField (← site) field s!"virtual{index}")
  | other => unsupported ("field access on " ++ other.kind.name)

def getField (target register field : Int) : Emit Unit := do
  let (found, type) ← fieldOf register field
  let _ ← load register
  emit (.ldFld found)
  storeFrom target type

def setField (register field source : Int) : Emit Unit := do
  let (found, type) ← fieldOf register field
  let _ ← load register
  loadAs source type
  emit (.stFld found)

/-! ## Dynamic values -/

def fieldName (index : Int) : Emit String := do
  let strings := (← read).image.strings
  orUnsupported (index.toNat?.bind (strings[·]?)) ("field name string " ++ Text.decimal index)

def getDynamic (target register name : Int) : Emit Unit := do
  let name ← fieldName name
  loadAs register .dynamic
  emit (.ldStr name)
  callRuntime .dynamicGetField
  storeFrom target .dynamic

def setDynamic (register name source : Int) : Emit Unit := do
  let name ← fieldName name
  loadAs register .dynamic
  emit (.ldStr name)
  loadAs source .dynamic
  callRuntime .dynamicSetField

/-! ## Globals -/

def globalOf (index : Int) : Emit (GlobalId × TargetType) := do
  let globals := (← read).registry.target.globals
  let found := index.toNat?.bind fun id => globals[id]?.map fun slot => (id, slot.type)
  orUnsupported found ("global " ++ Text.decimal index)

def getGlobal (target index : Int) : Emit Unit := do
  let (id, type) ← globalOf index
  emit (.ldSFld id)
  storeFrom target type

def setGlobal (index source : Int) : Emit Unit := do
  let (id, type) ← globalOf index
  loadAs source type
  emit (.stSFld id)

end BytecodeLowering.Emit

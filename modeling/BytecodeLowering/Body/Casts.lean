import BytecodeLowering.Body.Coercion

/-!
# Conversions that the source asks for

Conversions that the source program asks for: between numbers, to dynamic
values, between references and into records.
-/

namespace BytecodeLowering.Emit

def toFloat (target source : Int) (unsigned : Bool) : Emit Unit := do
  let type ← load source
  if type.isFloat then storeFrom target type
  else if !type.isValue then unsupported ("float conversion of " ++ type.text)
  else
    if unsigned then emit (.conv .rUn)
    emit (.conv .r8)
    storeFrom target .f64

def toInt (target source : Int) : Emit Unit := do
  let wanted ← registerType target
  let type ← load source
  if type.isFloat then
    if wanted = .i64 then
      emit (.conv .i8)
      storeFrom target .i64
    else
      emit (.conv .i4)
      storeFrom target .i32
  else
    coerce type wanted
    store target

def cast (target source : Int) (checked : Bool) : Emit Unit := do
  let wanted ← registerType target
  let type ← load source
  convert checked type wanted
  store target

def safeCast (target source : Int) : Emit Unit := do
  cast target source ((← read).settings.safeCast == .checked)

/-! ## Records -/

inductive FieldOrigin where
  | field (field : FieldRef) (type : TargetType)
  | dynamic
  deriving DecidableEq, Repr

/-- The origin of a record field by its name; a field that the source lacks has
none. -/
def fieldOrigin? (registry : Registry) (index : TypeIndex) (source : SourceType)
    (name : String) : Option FieldOrigin :=
  let named (fields : List FlatField) : Option FieldOrigin :=
    (fields.find? (·.name == name)).map fun found => .field found.field found.type
  match source with
  | .obj _ | .struct _ => (registry.object? index).bind fun shape => named shape.fields
  | .virtual _ => (registry.virtual? index).bind fun shape => named shape.fields
  | _ => some .dynamic

def convertsToRecord : SourceType → Bool
  | .obj _ | .struct _ | .virtual _ | .dyn | .dynObj => true
  | _ => false

def pushOrigin (source : Int) (name : String) (wanted : TargetType) : FieldOrigin → Emit Unit
  | .field field type => do
      let _ ← load source
      emit (.ldFld field)
      coerce type wanted
  | .dynamic => do
      loadAs source .dynamic
      emit (.ldStr name)
      callRuntime .dynamicGetField
      coerce .dynamic wanted

def copyField (source : Int) : FlatField × FieldOrigin → Emit Unit
  | (field, origin) => do
      emit .dup
      pushOrigin source field.name field.type origin
      emit (.stFld field.field)

def toVirtual (target source : Int) : Emit Unit := do
  let registry := (← read).registry
  let index ← sourceTypeIndex target
  let shape ← orUnsupported (registry.virtual? index)
    "virtual conversion into a non-virtual register"
  let decl := ((registry.declaration? index).map (·.decl)).getD 0
  let sourceIndex ← sourceTypeIndex source
  let origin ← sourceType source
  if !convertsToRecord origin && !shape.fields.isEmpty then
    unsupported ("virtual conversion from " ++ origin.kind.name)
  else
    emit (.newObj (.method shape.constructor))
    let copies := shape.fields.filterMap fun field =>
      (fieldOrigin? registry sourceIndex origin field.name).map fun found => (field, found)
    copies.forM (copyField source)
    storeFrom target (.virtual decl)

end BytecodeLowering.Emit

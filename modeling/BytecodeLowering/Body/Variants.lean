import BytecodeLowering.Body.Coercion

/-!
# Values of enum types

Values of enum types: making them, asking for their construct and access to the
parameters of a construct.
-/

namespace BytecodeLowering.Emit

def enumOf (register : Int) : Emit (TypeId × EnumShape) := do
  let registry := (← read).registry
  let index ← sourceTypeIndex register
  let shape ← orUnsupported (registry.enum? index)
    ("r" ++ Text.decimal register ++ " is not an enum")
  return (((registry.declaration? index).map (·.decl)).getD 0, shape)

def constructOf (shape : EnumShape) (construct : Int) : Emit ConstructShape :=
  orUnsupported (construct.toNat?.bind (shape.constructs[·]?))
    ("enum " ++ shape.name ++ " has no construct " ++ Text.decimal construct)

def storeConstruct (target : Int) (decl : TypeId) (construct : ConstructShape) : Emit Unit := do
  emit (.newObj (.method construct.constructor))
  storeFrom target (.enum decl)

def makeEnum (target construct : Int) (args : List Int) : Emit Unit := do
  let (decl, shape) ← enumOf target
  let construct ← constructOf shape construct
  if args.length = construct.fields.length then
    (args.zip construct.fields).forM fun (register, field) => loadAs register field.type
    storeConstruct target decl construct
  else
    unsupported (s!"{args.length} arguments for construct " ++ construct.name
      ++ s!" with {construct.fields.length} fields")

def allocateEnum (target construct : Int) : Emit Unit := do
  let (decl, shape) ← enumOf target
  let construct ← constructOf shape construct
  construct.fields.forM fun field => pushDefault field.type
  storeConstruct target decl construct

def enumIndex (target source : Int) : Emit Unit := do
  let (_, shape) ← enumOf source
  let _ ← load source
  emit (.ldFld shape.indexField)
  storeFrom target .i32

def enumParameter (value construct field : Int) : Emit (FlatField × TargetType) := do
  let (_, shape) ← enumOf value
  let construct ← constructOf shape construct
  match field.toNat?.bind (construct.fields[·]?) with
  | some found => return (found, .object construct.decl)
  | none => throw (.invalidField (← site) field (shape.name ++ "." ++ construct.name))

def getEnumField (target value construct field : Int) : Emit Unit := do
  let (found, type) ← enumParameter value construct field
  let _ ← load value
  emit (.castClass type)
  emit (.ldFld found.field)
  storeFrom target found.type

/-- The instruction names no construct: it means the first one. -/
def setEnumField (value field source : Int) : Emit Unit := do
  let (found, type) ← enumParameter value 0 field
  let _ ← load value
  emit (.castClass type)
  loadAs source found.type
  emit (.stFld found.field)

end BytecodeLowering.Emit

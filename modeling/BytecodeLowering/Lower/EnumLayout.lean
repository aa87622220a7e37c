import BytecodeLowering.Lower.TypeMapping

/-!
# Classes of enum types

Classes for enum types: a base class that holds the number of the construct,
and a derived class per construct whose constructor takes the parameters of the
construct in order.
-/

namespace BytecodeLowering

namespace EnumLayout

/-! ## Resolving -/

def resolveConstruct (index : TypeIndex) (enumName : String) (base : TypeId)
    (construct : EnumConstruct) : Lowering ConstructShape := do
  let name := enumName ++ "." ++ construct.name
  let decl ← Registry.addType name .enumConstruct
  let constructor ← Registry.addMethod (name ++ "..ctor") .constructor
  Registry.modifyTarget fun target =>
    let target := target.modifyType decl fun type =>
      { type with
        base := some base, constructor := some constructor, sourceType := some index }
    target.modifyMethod constructor fun method => { method with owner := some decl }
  return { name := construct.name, decl, constructor }

def resolve (index : TypeIndex) (variants : EnumType) : Lowering Unit := do
  let decl ← Registry.addType variants.name .enum
  Registry.modifyTarget (·.modifyType decl fun type => { type with sourceType := some index })
  let constructs ← variants.constructs.mapM (resolveConstruct index variants.name decl)
  Registry.register index
    { stage := .resolved, source := index, decl
      shape := .enum { name := variants.name, indexField := ⟨decl, 0⟩, constructs } }

def requireEnum (index : TypeIndex) : Lowering (Declaration × EnumShape) := do
  match (← get).declaration? index with
  | some declaration =>
      match declaration.shape with
      | .enum shape => return (declaration, shape)
      | _ => throw (.unresolvedType index "not an enum type")
  | none => throw (.unresolvedType index "not an enum type")

/-! ## Defining -/

def constructFields (image : Image) (decl : TypeId) (params : List TypeIndex)
    (registry : Registry) : Except LoweringError (List FlatField) :=
  params.zipIdx.mapM fun (param, i) => do
    return {
      name := s!"p{i}", field := ⟨decl, i⟩, type := ← registry.mapType image param
      source := param }

def defineConstruct (image : Image) :
    EnumConstruct × ConstructShape → Lowering (List FlatField)
  | (construct, shape) => do
      let fields ← Lowering.query (constructFields image shape.decl construct.params)
      Registry.modifyTarget fun target =>
        let target := target.modifyType shape.decl fun type =>
          { type with fields := fields.map fun field => ⟨field.name, field.type⟩ }
        target.modifyMethod shape.constructor fun method =>
          { method with signature := { method.signature with params := fields.map (·.type) } }
      return fields

def setFields (constructs : List ConstructShape) (fields : List (List FlatField)) :
    List ConstructShape :=
  constructs.mapIdx fun i construct =>
    match fields[i]? with
    | some fields => { construct with fields }
    | none => construct

def define (image : Image) (index : TypeIndex) (variants : EnumType) : Lowering Unit := do
  Registry.advance index .defined
  let (declaration, shape) ← requireEnum index
  Registry.modifyTarget (·.modifyType declaration.decl fun type =>
    { type with fields := [{ name := "index", type := .i32 }] })
  let fields ← (variants.constructs.zip shape.constructs).mapM (defineConstruct image)
  Registry.modifyShape index fun
    | .enum shape => .enum { shape with constructs := setFields shape.constructs fields }
    | shape => shape

/-! ## Compiling -/

/-- The number of the argument for the parameter at a position; the instance
comes first.  The position is cut to sixteen bits, and the sum must fit them. -/
def argumentNumber (position : Nat) : Except LoweringError UInt16 :=
  let cut := UInt16.ofNat position
  if cut = 0xFFFF then .error .overflow else .ok (cut + 1)

def storeArgument (argument : UInt16) (field : FlatField) : List Instr :=
  [.ldArg 0, .ldArg argument, .stFld field.field]

def storeParam : FlatField × Nat → Except LoweringError (List Instr)
  | (field, position) => do return storeArgument (← argumentNumber position) field

def constructorBody (indexField : FieldRef) (number : Nat) (construct : ConstructShape) :
    Except LoweringError (List Instr) := do
  let stores ← construct.fields.zipIdx.mapM storeParam
  return [Instr.ldArg 0, .ldcI4 (Word.signed32 number), .stFld indexField]
    ++ stores.flatten ++ [Instr.ret]

def compileConstruct (shape : EnumShape) : ConstructShape × Nat → Lowering Unit
  | (construct, number) => do
      let body ← Lowering.query fun _ => constructorBody shape.indexField number construct
      if construct.constructor < (← get).target.methods.length then
        Registry.modifyTarget (·.modifyMethod construct.constructor fun method =>
          { method with body })
      else throw (.missingConstructor (shape.name ++ "." ++ construct.name))

def compile (index : TypeIndex) : Lowering Unit := do
  Registry.advance index .compiled
  let (_, shape) ← requireEnum index
  shape.constructs.zipIdx.forM (compileConstruct shape)

end EnumLayout

end BytecodeLowering

import BytecodeLowering.Lower.TypeMapping

/-!
# Classes of records

Classes for structural records, with one field per entry and a constructor
that does nothing, and handles for abstract types, which have no structure.
-/

namespace BytecodeLowering

namespace VirtualLayout

def className (index : TypeIndex) : String := s!"virtual{index}"

def resolve (index : TypeIndex) : Lowering Unit := do
  let decl ← Registry.addType (className index) .virtual
  let constructor ← Registry.addMethod (className index ++ "..ctor") .constructor
  Registry.modifyTarget fun target =>
    let target := target.modifyType decl fun type =>
      { type with sourceType := some index, constructor := some constructor }
    target.modifyMethod constructor fun method => { method with owner := some decl }
  Registry.register index
    { stage := .resolved, source := index, decl, shape := .virtual { constructor } }

def virtualDecl? (registry : Registry) (index : TypeIndex) : Option (TypeId × VirtualShape) :=
  match registry.declaration? index with
  | some { shape := .virtual shape, decl, .. } => some (decl, shape)
  | _ => none

def recordFields (image : Image) (decl : TypeId) (fields : List Field) (registry : Registry) :
    Except LoweringError (List FlatField) :=
  fields.zipIdx.mapM fun (field, i) => do
    return {
      name := field.name, field := ⟨decl, i⟩, type := ← registry.mapType image field.type
      source := field.type }

def define (image : Image) (index : TypeIndex) (fields : List Field) : Lowering Unit := do
  Registry.advance index .defined
  match virtualDecl? (← get) index with
  | none => throw (.unresolvedType index "not a virtual type")
  | some (decl, _) =>
      let flat ← Lowering.query (recordFields image decl fields)
      Registry.modifyTarget (·.modifyType decl fun type =>
        { type with fields := flat.map fun field => ⟨field.name, field.type⟩ })
      Registry.modifyShape index fun
        | .virtual shape => .virtual { shape with fields := flat }
        | shape => shape

def compile (index : TypeIndex) : Lowering Unit := do
  Registry.advance index .compiled
  match virtualDecl? (← get) index with
  | none => throw (.missingConstructor (className index))
  | some (_, shape) =>
      Registry.modifyTarget (·.modifyMethod shape.constructor fun method =>
        { method with body := [.ret] })

end VirtualLayout

namespace AbstractLayout

def resolve (index : TypeIndex) (name : String) : Lowering Unit := do
  let decl ← Registry.addType name .abstract
  Registry.modifyTarget (·.modifyType decl fun type => { type with sourceType := some index })
  Registry.register index { stage := .resolved, source := index, decl, shape := .abstract name }

end AbstractLayout

end BytecodeLowering

import BytecodeLowering.Lower.TypeMapping

/-!
# Classes of object types

Classes for object and struct types.  A virtual method slot is a delegate field
of the type that introduces it; every constructor first runs the constructor of
its base and then binds the slots that its own type fills, so a derived type
replaces what its base has bound.
-/

namespace BytecodeLowering

namespace ObjectLayout

/-! ## The chain of super types -/

def sourceObject (image : Image) (index : TypeIndex) : Except LoweringError ObjectType :=
  match (image.type? index).bind SourceType.object? with
  | some object => .ok object
  | none => .error (.unresolvedType index "not an object type")

/-- Adds the super types of `current` in front of a chain.  A chain that is
longer than the type table repeats a type. -/
def climb (image : Image) (start : TypeIndex) :
    (budget : Nat) → (current : ObjectType) → (chain : List TypeIndex) →
      Except LoweringError (List TypeIndex)
  | budget, current, chain =>
      match current.super with
      | none => .ok chain
      | some parent =>
          match budget with
          | 0 => .error (.unresolvedType start "cyclic super type chain")
          | budget + 1 => do
              let next ← sourceObject image parent
              climb image start budget next (parent :: chain)

/-- A type and its super types, base-most first. -/
def superChain (image : Image) (index : TypeIndex) : Except LoweringError (List TypeIndex) := do
  climb image index image.types.length (← sourceObject image index) [index]

/-! ## The plan of the method slots -/

/-- Where a virtual method lands among the slots.  A slot that is new has a
position among the new slots of its owner; any other replaces an inherited
one. -/
structure PlannedSlot where
  owner : TypeIndex
  prototype : Prototype
  slot : Nat
  newSlot : Option Nat
  deriving DecidableEq, Repr

/-- Plans the methods of one type when `filled` slots are taken.  A method
without a slot number is not virtual, a number below `filled` replaces that
slot, and `filled` itself introduces one. -/
def planOwner (owner : TypeIndex) :
    (filled introduced : Nat) → List Prototype → Except LoweringError (List PlannedSlot × Nat)
  | filled, _, [] => .ok ([], filled)
  | filled, introduced, prototype :: prototypes =>
      match prototype.slot.toNat? with
      | none => planOwner owner filled introduced prototypes
      | some slot =>
          if slot < filled then do
            let (planned, stop) ← planOwner owner filled introduced prototypes
            return ({ owner, prototype, slot, newSlot := none } :: planned, stop)
          else if slot = filled then do
            let (planned, stop) ← planOwner owner (filled + 1) (introduced + 1) prototypes
            return ({ owner, prototype, slot, newSlot := some introduced } :: planned, stop)
          else
            .error (.unresolvedType owner
              s!"prototype {prototype.name} takes slot {slot} but slot {filled} is unfilled")

def planFrom (image : Image) : (filled : Nat) → List TypeIndex →
    Except LoweringError (List PlannedSlot)
  | _, [] => .ok []
  | filled, owner :: owners => do
      let object ← sourceObject image owner
      let (planned, filled) ← planOwner owner filled 0 object.prototypes
      let others ← planFrom image filled owners
      return planned ++ others

def planSlots (image : Image) (chain : List TypeIndex) : Except LoweringError (List PlannedSlot) :=
  planFrom image 0 chain

def prototypeSignature (image : Image) (registry : Registry) (prototype : Prototype) :
    Except LoweringError Signature :=
  match image.calleeType? prototype.function with
  | some type => registry.slotSignature image type
  | none =>
      .error (.invalidFunctionIndex prototype.function (Word.signed32 prototype.function))

/-! ## Resolving -/

def resolve (index : TypeIndex) (object : ObjectType) : Lowering Unit := do
  let decl ← Registry.addType object.name .object
  let constructor ← Registry.addMethod (object.name ++ "..ctor") .constructor
  Registry.modifyTarget fun target =>
    let target := target.modifyType decl fun type =>
      { type with sourceType := some index, constructor := some constructor }
    target.modifyMethod constructor fun method => { method with owner := some decl }
  Registry.register index
    { stage := .resolved, source := index, decl
      shape := .object { name := object.name, constructor } }

/-! ## Defining -/

def ownFields (image : Image) (object : ObjectType) (registry : Registry) :
    Except LoweringError (List FieldDecl) :=
  object.fields.mapM fun field => do
    return { name := field.name, type := ← registry.mapType image field.type }

def slotFields (image : Image) (index : TypeIndex) (registry : Registry) :
    Except LoweringError (List FieldDecl) := do
  let planned ← planSlots image (← superChain image index)
  let introduced := planned.filter fun p => p.owner = index && p.newSlot.isSome
  introduced.mapM fun p => do
    let signature ← prototypeSignature image registry p.prototype
    return { name := "$" ++ p.prototype.name, type := .ofSignature signature }

def baseOf (object : ObjectType) (registry : Registry) :
    Except LoweringError (Option (TypeIndex × TypeId)) :=
  match object.super with
  | none => .ok none
  | some parent => do
      let (declaration, _) ← registry.requireObject parent .resolved
      return some (parent, declaration.decl)

def define (image : Image) (index : TypeIndex) (object : ObjectType) : Lowering Unit := do
  Registry.advance index .defined
  let (declaration, _) ← Lowering.query (·.requireObject index .defined)
  let base ← Lowering.query (baseOf object)
  let fields ← Lowering.query (ownFields image object)
  let slots ← Lowering.query (slotFields image index)
  Registry.modifyTarget (·.modifyType declaration.decl fun type =>
    { type with base := base.map Prod.snd, fields := fields ++ slots })
  Registry.modifyShape index fun
    | .object shape => .object { shape with base := base.map Prod.fst }
    | shape => shape

/-! ## Compiling -/

structure Contribution where
  owner : TypeIndex
  decl : TypeId
  fields : List FlatField
  deriving DecidableEq, Repr

def flatFields (owner : TypeIndex) (decl : TypeId) (declared : List FieldDecl)
    (fields : List Field) : Except LoweringError (List FlatField) :=
  fields.zipIdx.mapM fun (field, i) =>
    match declared[i]? with
    | some fieldDecl =>
        .ok { name := field.name, field := ⟨decl, i⟩, type := fieldDecl.type, source := field.type }
    | none => .error (.unresolvedType owner s!"field {field.name} missing from declaration")

def contribution (image : Image) (registry : Registry) (owner : TypeIndex) :
    Except LoweringError Contribution := do
  let object ← sourceObject image owner
  let (declaration, _) ← registry.requireObject owner .defined
  let declared := ((registry.target.type? declaration.decl).map (·.fields)).getD []
  let fields ← flatFields owner declaration.decl declared object.fields
  return { owner, decl := declaration.decl, fields }

def addSlot (image : Image) (registry : Registry) (chain : List Contribution)
    (slots : List MethodSlot) (planned : PlannedSlot) : Except LoweringError (List MethodSlot) :=
  match planned.newSlot with
  | none =>
      .ok (slots.modify planned.slot fun slot =>
        { slot with function := planned.prototype.function })
  | some position =>
      match chain.find? (·.owner == planned.owner) with
      | none => .error (.unresolvedType planned.owner "prototype owner outside the super chain")
      | some part => do
          let signature ← prototypeSignature image registry planned.prototype
          return slots ++ [{
            name := planned.prototype.name
            function := planned.prototype.function
            field := ⟨part.decl, part.fields.length + position⟩
            signature }]

def bindSlot (registry : Registry) (name : String) (slots : List MethodSlot)
    (planned : PlannedSlot) : Except LoweringError (List Instr) :=
  let function := planned.prototype.function
  match registry.method? function with
  | none => .error (.invalidFunctionIndex function (Word.signed32 function))
  | some method =>
      match slots[planned.slot]? with
      | none => .error (.missingConstructor name)
      | some slot =>
          .ok [.ldArg 0, .ldArg 0, .newDelegate method true, .stFld slot.field]

def callBase (registry : Registry) (base : Option TypeIndex) : Except LoweringError (List Instr) :=
  match base with
  | none => .ok []
  | some parent => do
      let (_, shape) ← registry.requireObject parent .defined
      return [.ldArg 0, .call (.method shape.constructor)]

structure Layout where
  fields : List FlatField
  slots : List MethodSlot
  constructor : MethodId
  body : List Instr
  deriving DecidableEq, Repr

def layout (image : Image) (index : TypeIndex) (object : ObjectType) (registry : Registry) :
    Except LoweringError Layout := do
  let chain ← superChain image index
  let parts ← chain.mapM (contribution image registry)
  let planned ← planSlots image chain
  let slots ← planned.foldlM (addSlot image registry parts) []
  let (_, shape) ← registry.requireObject index .compiled
  let base ← callBase registry shape.base
  let own := planned.filter (·.owner = index)
  let bindings ← own.mapM (bindSlot registry object.name slots)
  if shape.constructor < registry.target.methods.length then
    return {
      fields := parts.flatMap (·.fields)
      slots
      constructor := shape.constructor
      body := base ++ bindings.flatten ++ [.ret] }
  else throw (.missingConstructor object.name)

def compile (image : Image) (index : TypeIndex) (object : ObjectType) : Lowering Unit := do
  Registry.advance index .compiled
  let layout ← Lowering.query (layout image index object)
  Registry.modifyTarget fun target =>
    target.modifyMethod layout.constructor fun method => { method with body := layout.body }
  Registry.modifyShape index fun
    | .object shape => .object { shape with fields := layout.fields, slots := layout.slots }
    | shape => shape

end ObjectLayout

end BytecodeLowering

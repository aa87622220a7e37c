import BytecodeLowering.Image.Basic
import BytecodeLowering.Image.Word
import BytecodeLowering.Lower.Error
import BytecodeLowering.Target.Module

/-!
# The registry of declarations

The registry links every source declaration to the target declaration that is
built for it, and holds the target module under construction.  A declaration
goes through three stages, one after the other, and so does the whole module;
whatever comes out of order is refused.
-/

namespace BytecodeLowering

/-! ## What is known of a declared type -/

/-- A field as instructions address it, inherited ones included. -/
structure FlatField where
  name : String
  field : FieldRef
  type : TargetType
  source : TypeIndex
  deriving DecidableEq, Repr

/-- A virtual method slot: the function bound to it and the delegate field in
which every instance keeps it.  The signature leaves the receiver out. -/
structure MethodSlot where
  name : String
  function : Nat
  field : FieldRef
  signature : Signature
  deriving DecidableEq, Repr

structure ObjectShape where
  name : String
  constructor : MethodId
  base : Option TypeIndex := none
  fields : List FlatField := []
  slots : List MethodSlot := []
  deriving DecidableEq, Repr

structure ConstructShape where
  name : String
  decl : TypeId
  constructor : MethodId
  fields : List FlatField := []
  deriving DecidableEq, Repr

structure EnumShape where
  name : String
  indexField : FieldRef
  constructs : List ConstructShape
  deriving DecidableEq, Repr

structure VirtualShape where
  constructor : MethodId
  fields : List FlatField := []
  deriving DecidableEq, Repr

inductive Shape where
  | object (shape : ObjectShape)
  | enum (shape : EnumShape)
  | virtual (shape : VirtualShape)
  | abstract (name : String)
  deriving DecidableEq, Repr

structure Declaration where
  stage : Stage
  source : TypeIndex
  decl : TypeId
  shape : Shape
  deriving DecidableEq, Repr

namespace ObjectShape

def field? (shape : ObjectShape) (index : Int) : Option FlatField :=
  index.toNat?.bind (shape.fields[·]?)

def fieldNamed? (shape : ObjectShape) (name : String) : Option FlatField :=
  shape.fields.find? (·.name == name)

def slot? (shape : ObjectShape) (slot : Int) : Option MethodSlot :=
  slot.toNat?.bind (shape.slots[·]?)

end ObjectShape

def VirtualShape.field? (shape : VirtualShape) (index : Int) : Option FlatField :=
  index.toNat?.bind (shape.fields[·]?)

structure FunctionEntry where
  stage : Stage
  function : Nat
  method : MethodId
  signature : Signature
  native : Bool
  deriving DecidableEq, Repr

structure Registry where
  pass : Option Stage := none
  types : List (Option Declaration)
  functions : List (Option FunctionEntry)
  target : TargetModule
  deriving DecidableEq, Repr

/-- Lowering changes the registry step by step; what was changed before an
error stays changed. -/
abbrev Lowering := EStateM LoweringError Registry

namespace Registry

/-- One method is reserved for every function index before anything else, so
that constructors can refer to functions that are not yet defined. -/
def create (name : String) (typeCount functionCount : Nat) : Registry :=
  let methods := (List.range functionCount).map fun function =>
    { id := function, name := s!"fun{function}", kind := .static : MethodDecl }
  { types := List.replicate typeCount none
    functions := List.replicate functionCount none
    target := { name, methods } }

/-! ## Looking up -/

def declaration? (registry : Registry) (index : TypeIndex) : Option Declaration :=
  registry.types[index]?.join

def object? (registry : Registry) (index : TypeIndex) : Option ObjectShape :=
  match registry.declaration? index with
  | some { shape := .object shape, .. } => some shape
  | _ => none

def enum? (registry : Registry) (index : TypeIndex) : Option EnumShape :=
  match registry.declaration? index with
  | some { shape := .enum shape, .. } => some shape
  | _ => none

def virtual? (registry : Registry) (index : TypeIndex) : Option VirtualShape :=
  match registry.declaration? index with
  | some { shape := .virtual shape, .. } => some shape
  | _ => none

def declaredCount (registry : Registry) : Nat := (registry.types.filterMap id).length

def method? (registry : Registry) (function : Nat) : Option MethodId :=
  if function < registry.functions.length then some function else none

def function? (registry : Registry) (function : Nat) : Option FunctionEntry :=
  registry.functions[function]?.join

@[simp] theorem declaration?_create (name : String) (typeCount functionCount : Nat)
    (index : TypeIndex) : (create name typeCount functionCount).declaration? index = none := by
  simp only [create, declaration?, List.getElem?_replicate]
  split <;> rfl

@[simp] theorem function?_create (name : String) (typeCount functionCount function : Nat) :
    (create name typeCount functionCount).function? function = none := by
  simp only [create, function?, List.getElem?_replicate]
  split <;> rfl

/-- Global slots share the numbers of the source globals. -/
def global? (registry : Registry) (index : Nat) : Option GlobalId :=
  if index < registry.target.globals.length then some index else none

def requireType (registry : Registry) (index : TypeIndex) (least : Stage) :
    Except LoweringError Declaration :=
  match registry.declaration? index with
  | none => .error (.stageOrder (TypeIndex.text index) least none)
  | some declaration =>
      if declaration.stage.rank < least.rank then
        .error (.stageOrder (TypeIndex.text index) least (some declaration.stage))
      else .ok declaration

def requireObject (registry : Registry) (index : TypeIndex) (least : Stage) :
    Except LoweringError (Declaration × ObjectShape) := do
  let declaration ← registry.requireType index least
  match declaration.shape with
  | .object shape => .ok (declaration, shape)
  | _ => .error (.unresolvedType index "not an object type")

/-! ## Changing -/

def modifyTarget (f : TargetModule → TargetModule) : Lowering Unit :=
  modify fun registry => { registry with target := f registry.target }

def addType (name : String) (kind : DeclKind) : Lowering TypeId :=
  modifyGet fun registry =>
    let (id, target) := registry.target.addType name kind
    (id, { registry with target })

def addMethod (name : String) (kind : MethodKind) : Lowering MethodId :=
  modifyGet fun registry =>
    let (id, target) := registry.target.addMethod name kind
    (id, { registry with target })

def enterPass (stage : Stage) : Lowering Unit := do
  let registry ← get
  if registry.pass = stage.previous then set { registry with pass := some stage }
  else throw (.stageOrder "module" stage registry.pass)

def register (index : TypeIndex) (declaration : Declaration) : Lowering Unit := do
  let registry ← get
  match registry.types[index]? with
  | none => throw (.unresolvedType index "index outside the type table")
  | some (some existing) =>
      throw (.stageOrder (TypeIndex.text index) .resolved (some existing.stage))
  | some none => set { registry with types := registry.types.set index (some declaration) }

def modifyDeclaration (index : TypeIndex) (f : Declaration → Declaration) : Lowering Unit :=
  modify fun registry => { registry with types := registry.types.modify index (·.map f) }

def modifyShape (index : TypeIndex) (f : Shape → Shape) : Lowering Unit :=
  modifyDeclaration index fun declaration => { declaration with shape := f declaration.shape }

def advance (index : TypeIndex) (stage : Stage) : Lowering Unit := do
  let found := ((← get).declaration? index).map (·.stage)
  if found.isSome ∧ found = stage.previous then
    modifyDeclaration index fun declaration => { declaration with stage }
  else throw (.stageOrder (TypeIndex.text index) stage found)

def defineFunction (entry : FunctionEntry) : Lowering Unit := do
  let registry ← get
  match registry.functions[entry.function]? with
  | none => throw (.invalidFunctionIndex entry.function (Word.signed32 entry.function))
  | some (some existing) =>
      throw (.stageOrder s!"fun{entry.function}" .defined (some existing.stage))
  | some none =>
      set { registry with functions := registry.functions.set entry.function (some entry) }

def markCompiled (function : Nat) : Lowering Unit := do
  let registry ← get
  match registry.function? function with
  | some entry =>
      if entry.stage = .defined then
        let compiled := { entry with stage := .compiled }
        set { registry with functions := registry.functions.set function (some compiled) }
      else throw (.stageOrder s!"fun{function}" .compiled (some entry.stage))
  | none => throw (.stageOrder s!"fun{function}" .compiled none)

end Registry

end BytecodeLowering

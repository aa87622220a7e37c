import BytecodeLowering.Target.Instr

/-!
# Modules of the target machine

A module of the target machine: type declarations, methods and global slots,
each addressed by its position.
-/

namespace BytecodeLowering

inductive DeclKind where
  | object | enum | enumConstruct | virtual | abstract
  deriving DecidableEq, Repr

structure FieldDecl where
  name : String
  type : TargetType
  deriving DecidableEq, Repr

/-- A class.  Only the fields that it declares itself are listed; inherited
ones belong to its bases. -/
structure TypeDecl where
  id : TypeId
  name : String
  kind : DeclKind
  base : Option TypeId := none
  fields : List FieldDecl := []
  constructor : Option MethodId := none
  sourceType : Option Nat := none
  deriving DecidableEq, Repr

inductive MethodKind where
  | static | constructor | moduleInitializer
  deriving DecidableEq, Repr

structure NativeImport where
  library : String
  symbol : String
  deriving DecidableEq, Repr

structure MethodDecl where
  id : MethodId
  name : String
  kind : MethodKind
  owner : Option TypeId := none
  signature : Signature := ⟨[], .void⟩
  locals : List TargetType := []
  body : List Instr := []
  native : Option NativeImport := none
  sourceFunction : Option Nat := none
  deriving DecidableEq, Repr

/-- A constructor takes its instance as argument zero. -/
def MethodDecl.argumentOffset (method : MethodDecl) : Nat :=
  if method.kind = .constructor then 1 else 0

inductive GlobalKind where
  | object | enum | handle | value
  deriving DecidableEq, Repr

structure GlobalSlot where
  id : GlobalId
  name : String
  kind : GlobalKind
  type : TargetType
  deriving DecidableEq, Repr

structure TargetModule where
  name : String
  types : List TypeDecl := []
  methods : List MethodDecl := []
  globals : List GlobalSlot := []
  entrypoint : Option MethodId := none
  initializer : Option MethodId := none
  deriving DecidableEq, Repr

namespace TargetModule

/-! ## Growing a module -/

def addType (module : TargetModule) (name : String) (kind : DeclKind) : TypeId × TargetModule :=
  let id := module.types.length
  (id, { module with types := module.types ++ [{ id, name, kind }] })

def addMethod (module : TargetModule) (name : String) (kind : MethodKind) :
    MethodId × TargetModule :=
  let id := module.methods.length
  (id, { module with methods := module.methods ++ [{ id, name, kind }] })

def addGlobal (module : TargetModule) (slot : GlobalSlot) : TargetModule :=
  { module with globals := module.globals ++ [slot] }

def modifyType (module : TargetModule) (id : TypeId) (f : TypeDecl → TypeDecl) : TargetModule :=
  { module with types := module.types.modify id f }

def modifyMethod (module : TargetModule) (id : MethodId) (f : MethodDecl → MethodDecl) :
    TargetModule :=
  { module with methods := module.methods.modify id f }

/-! ## Looking up -/

def type? (module : TargetModule) (id : TypeId) : Option TypeDecl := module.types[id]?

def method? (module : TargetModule) (id : MethodId) : Option MethodDecl := module.methods[id]?

def field? (module : TargetModule) (field : FieldRef) : Option FieldDecl :=
  (module.type? field.owner).bind (·.fields[field.index]?)

def methodNamed? (module : TargetModule) (name : String) : Option MethodDecl :=
  module.methods.find? (·.name == name)

def typeNamed? (module : TargetModule) (name : String) : Option TypeDecl :=
  module.types.find? (·.name == name)

def instructionCount (module : TargetModule) : Nat :=
  (module.methods.flatMap (·.body)).length

end TargetModule

end BytecodeLowering

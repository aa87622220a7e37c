import BytecodeLowering.Target.Module

/-!
# Listing of a module

A target module as text.
-/

namespace BytecodeLowering

def DeclKind.text : DeclKind → String
  | .object => "Class"
  | .enum => "Enum"
  | .enumConstruct => "EnumConstruct"
  | .virtual => "Virtual"
  | .abstract => "Abstract"

def MethodKind.text : MethodKind → String
  | .static => "Static"
  | .constructor => "Constructor"
  | .moduleInitializer => "ModuleInitializer"

def GlobalKind.text : GlobalKind → String
  | .object => "Object"
  | .enum => "Enum"
  | .handle => "Handle"
  | .value => "Value"

namespace TypeDecl

def fieldLine (number : Nat) (field : FieldDecl) : String :=
  s!"  .field {number} " ++ field.type.text ++ " " ++ field.name

def lines (decl : TypeDecl) : List String :=
  let base := decl.base.elim "" fun base => s!" : class#{base}"
  let title := s!".class#{decl.id} " ++ decl.kind.text ++ " " ++ decl.name ++ base
  let constructor := decl.constructor.elim [] fun method => [s!"  .ctor method#{method}"]
  title :: decl.fields.mapIdx fieldLine ++ constructor

end TypeDecl

namespace MethodDecl

def instrLine (instr : Instr) : String :=
  match instr with
  | .markLabel _ => " " ++ instr.text
  | _ => "    " ++ instr.text

def localLines (method : MethodDecl) : List String :=
  if method.locals.isEmpty then []
  else ["  .locals (" ++ Text.commaSeparated (TargetType.texts method.locals) ++ ")"]

def lines (method : MethodDecl) : List String :=
  let title := s!".method#{method.id} " ++ method.kind.text ++ " " ++ method.name
    ++ method.signature.text
  match method.native with
  | some origin => [title, "  .import " ++ origin.library ++ " " ++ origin.symbol]
  | none => title :: method.localLines ++ method.body.map instrLine

end MethodDecl

def GlobalSlot.line (slot : GlobalSlot) : String :=
  ".global " ++ slot.name ++ " " ++ slot.kind.text ++ " " ++ slot.type.text

namespace TargetModule

def lines (module : TargetModule) : List String :=
  let entrypoint := module.entrypoint.elim [] fun method => [s!".entrypoint method#{method}"]
  (".assembly " ++ module.name) :: module.globals.map GlobalSlot.line
    ++ entrypoint
    ++ module.types.flatMap TypeDecl.lines
    ++ module.methods.flatMap MethodDecl.lines

def listing (module : TargetModule) : String :=
  String.join (module.lines.map (· ++ "\n"))

end TargetModule

end BytecodeLowering

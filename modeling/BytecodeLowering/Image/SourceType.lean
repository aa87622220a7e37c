import BytecodeLowering.Text.Numeral

/-!
# Types of an image

The types of a program image.  A type refers to another by its position in the
type table, so a type may mention itself or one that comes later.
-/

namespace BytecodeLowering

abbrev TypeIndex := Nat

def TypeIndex.text (index : TypeIndex) : String := "@" ++ Nat.repr index

inductive TypeKind where
  | void | u8 | u16 | i32 | i64 | f32 | f64 | bool | bytes | dyn | func | obj | array | type
  | ref | virtual | dynObj | abstract | enum | null | method | struct | packed
  deriving DecidableEq, Repr

namespace TypeKind

/-- The kinds in the order of their tag bytes. -/
def all : List TypeKind := [
    .void, .u8, .u16, .i32, .i64, .f32, .f64, .bool, .bytes, .dyn, .func, .obj, .array, .type,
    .ref, .virtual, .dynObj, .abstract, .enum, .null, .method, .struct, .packed]

def byte (kind : TypeKind) : UInt8 := UInt8.ofNat kind.ctorIdx

def ofByte? (byte : UInt8) : Option TypeKind := all[byte.toNat]?

@[simp] theorem ofByte?_byte (kind : TypeKind) : ofByte? kind.byte = some kind := by
  cases kind <;> rfl

def name : TypeKind → String
  | .void => "Void"
  | .u8 => "U8"
  | .u16 => "U16"
  | .i32 => "I32"
  | .i64 => "I64"
  | .f32 => "F32"
  | .f64 => "F64"
  | .bool => "Bool"
  | .bytes => "Bytes"
  | .dyn => "Dyn"
  | .func => "Fun"
  | .obj => "Obj"
  | .array => "Array"
  | .type => "Type"
  | .ref => "Ref"
  | .virtual => "Virtual"
  | .dynObj => "DynObj"
  | .abstract => "Abstract"
  | .enum => "Enum"
  | .null => "Null"
  | .method => "Method"
  | .struct => "Struct"
  | .packed => "Packed"

end TypeKind

structure FunctionType where
  args : List TypeIndex
  ret : TypeIndex
  deriving DecidableEq, Repr

structure Field where
  name : String
  type : TypeIndex
  deriving DecidableEq, Repr

/-- A method of an object type.  A slot number of zero or more makes it
virtual: it fills that slot of the method table. -/
structure Prototype where
  name : String
  function : Nat
  slot : Int
  deriving DecidableEq, Repr

structure Binding where
  field : Nat
  function : Nat
  deriving DecidableEq, Repr

structure ObjectType where
  name : String
  super : Option TypeIndex
  global : Option Nat
  fields : List Field
  prototypes : List Prototype
  bindings : List Binding
  deriving DecidableEq, Repr

structure EnumConstruct where
  name : String
  params : List TypeIndex
  deriving DecidableEq, Repr

structure EnumType where
  name : String
  global : Option Nat
  constructs : List EnumConstruct
  deriving DecidableEq, Repr

inductive SourceType where
  | void | u8 | u16 | i32 | i64 | f32 | f64 | bool | bytes | dyn | array | type | dynObj
  | func (signature : FunctionType)
  | method (signature : FunctionType)
  | obj (object : ObjectType)
  | struct (object : ObjectType)
  | ref (inner : TypeIndex)
  | null (inner : TypeIndex)
  | packed (inner : TypeIndex)
  | virtual (fields : List Field)
  | abstract (name : String)
  | enum (variants : EnumType)
  deriving DecidableEq, Repr

def FunctionType.text (signature : FunctionType) : String :=
  "(" ++ Text.commaSeparated (signature.args.map TypeIndex.text) ++ ") -> "
    ++ TypeIndex.text signature.ret

namespace SourceType

def kind : SourceType → TypeKind
  | .void => .void
  | .u8 => .u8
  | .u16 => .u16
  | .i32 => .i32
  | .i64 => .i64
  | .f32 => .f32
  | .f64 => .f64
  | .bool => .bool
  | .bytes => .bytes
  | .dyn => .dyn
  | .array => .array
  | .type => .type
  | .dynObj => .dynObj
  | .func _ => .func
  | .method _ => .method
  | .obj _ => .obj
  | .struct _ => .struct
  | .ref _ => .ref
  | .null _ => .null
  | .packed _ => .packed
  | .virtual _ => .virtual
  | .abstract _ => .abstract
  | .enum _ => .enum

def signature? : SourceType → Option FunctionType
  | .func signature | .method signature => some signature
  | _ => none

def object? : SourceType → Option ObjectType
  | .obj object | .struct object => some object
  | _ => none

def isValue : SourceType → Bool
  | .u8 | .u16 | .i32 | .i64 | .f32 | .f64 | .bool => true
  | _ => false

/-- Types without a payload, which never need a declaration. -/
def isPrimitive : SourceType → Bool
  | .void | .u8 | .u16 | .i32 | .i64 | .f32 | .f64 | .bool | .bytes | .dyn | .array | .type
  | .dynObj => true
  | _ => false

def name? : SourceType → Option String
  | .obj object | .struct object => some object.name
  | .enum variants => some variants.name
  | .abstract name => some name
  | _ => none

def text : SourceType → String
  | .void => "void"
  | .u8 => "u8"
  | .u16 => "u16"
  | .i32 => "i32"
  | .i64 => "i64"
  | .f32 => "f32"
  | .f64 => "f64"
  | .bool => "bool"
  | .bytes => "bytes"
  | .dyn => "dynamic"
  | .array => "array"
  | .type => "type"
  | .dynObj => "dynobj"
  | .func signature | .method signature => signature.text
  | .obj object => "obj " ++ object.name
  | .struct object => "struct " ++ object.name
  | .ref inner => "ref<" ++ TypeIndex.text inner ++ ">"
  | .null inner => "null<" ++ TypeIndex.text inner ++ ">"
  | .packed inner => "packed<" ++ TypeIndex.text inner ++ ">"
  | .virtual fields => "virtual<" ++ Nat.repr fields.length ++ " fields>"
  | .abstract name => "abstract " ++ name
  | .enum variants => "enum " ++ variants.name

end SourceType

end BytecodeLowering

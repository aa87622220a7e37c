import BytecodeLowering.Target.Type

/-!
# Members of the support library

The support library that compiled code calls for what the source machine has
built in: boxed dynamic values, byte strings, reference boxes, nullable
wrappers and the exception carrier.  Only the names and the signatures of its
members are given here; the host supplies the library.
-/

namespace BytecodeLowering

inductive MemoryWidth where
  | u8 | u16 | i32 | i64 | f32 | f64
  deriving DecidableEq, Repr

namespace MemoryWidth

def stackType : MemoryWidth → TargetType
  | .u8 => .u8
  | .u16 => .u16
  | .i32 => .i32
  | .i64 => .i64
  | .f32 => .f32
  | .f64 => .f64

def name : MemoryWidth → String
  | .u8 => "U8"
  | .u16 => "U16"
  | .i32 => "I32"
  | .i64 => "I64"
  | .f32 => "F32"
  | .f64 => "F64"

end MemoryWidth

inductive RuntimeMember where
  | dynamicNew | dynamicGetField | dynamicSetField | dynamicInvoke | dynamicValue
  | bytesFromString | bytesFromRaw
  | bytesGet (width : MemoryWidth)
  | bytesSet (width : MemoryWidth)
  | refBoxNew (inner : TargetType)
  | refBoxGet (inner : TargetType)
  | refBoxSet (inner : TargetType)
  | nullableNew (inner : TargetType)
  | nullableValue (inner : TargetType)
  | exceptionNew | exceptionValue | nullCheckErrorNew
  | rethrow | assert | arraySize | typeOf | typeKindOf
  deriving DecidableEq, Repr

namespace RuntimeMember

/-- What a member takes from the stack and what it leaves there; a constructor
leaves the new instance. -/
def signature : RuntimeMember → Signature
  | .dynamicNew => ⟨[.any], .dynamic⟩
  | .dynamicGetField => ⟨[.dynamic, .str], .dynamic⟩
  | .dynamicSetField => ⟨[.dynamic, .str, .dynamic], .void⟩
  | .dynamicInvoke => ⟨[.dynamic, .array], .dynamic⟩
  | .dynamicValue => ⟨[.dynamic], .any⟩
  | .bytesFromString => ⟨[.str], .bytes⟩
  | .bytesFromRaw => ⟨[.any], .bytes⟩
  | .bytesGet width => ⟨[.bytes, .i32], width.stackType⟩
  | .bytesSet width => ⟨[.bytes, .i32, width.stackType], .void⟩
  | .refBoxNew inner => ⟨[inner], .ref inner⟩
  | .refBoxGet inner => ⟨[.ref inner], inner⟩
  | .refBoxSet inner => ⟨[.ref inner, inner], .void⟩
  | .nullableNew inner => ⟨[inner], .nullable inner⟩
  | .nullableValue inner => ⟨[.nullable inner], inner⟩
  | .exceptionNew => ⟨[.dynamic], .any⟩
  | .exceptionValue => ⟨[.any], .dynamic⟩
  | .nullCheckErrorNew => ⟨[], .any⟩
  | .rethrow => ⟨[.dynamic], .void⟩
  | .assert => ⟨[], .void⟩
  | .arraySize => ⟨[.array], .i32⟩
  | .typeOf => ⟨[.dynamic], .typeValue⟩
  | .typeKindOf => ⟨[.typeValue], .i32⟩

def isConstructor : RuntimeMember → Bool
  | .dynamicNew | .refBoxNew _ | .nullableNew _ | .exceptionNew | .nullCheckErrorNew => true
  | _ => false

def name : RuntimeMember → String
  | .dynamicNew => "Dynamic::.ctor"
  | .dynamicGetField => "Dynamic::GetField"
  | .dynamicSetField => "Dynamic::SetField"
  | .dynamicInvoke => "Dynamic::Invoke"
  | .dynamicValue => "Dynamic::get_Value"
  | .bytesFromString => "Bytes::FromString"
  | .bytesFromRaw => "Bytes::FromRaw"
  | .bytesGet width => "Bytes::Get" ++ width.name
  | .bytesSet width => "Bytes::Set" ++ width.name
  | .refBoxNew inner => "RefBox<" ++ inner.text ++ ">::.ctor"
  | .refBoxGet inner => "RefBox<" ++ inner.text ++ ">::get_Value"
  | .refBoxSet inner => "RefBox<" ++ inner.text ++ ">::set_Value"
  | .nullableNew inner => "Nullable<" ++ inner.text ++ ">::.ctor"
  | .nullableValue inner => "Nullable<" ++ inner.text ++ ">::get_Value"
  | .exceptionNew => "HlException::.ctor"
  | .exceptionValue => "HlException::get_Value"
  | .nullCheckErrorNew => "NullCheckError::.ctor"
  | .rethrow => "Runtime::Rethrow"
  | .assert => "Runtime::Assert"
  | .arraySize => "Runtime::ArraySize"
  | .typeOf => "Runtime::TypeOf"
  | .typeKindOf => "Runtime::TypeKindOf"

end RuntimeMember

end BytecodeLowering

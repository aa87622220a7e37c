import BytecodeLowering.Text.Numeral

/-!
# Types of the target machine

The types of the target machine: built-in types, types that the program
declares, delegates, mutable reference boxes and nullable wrappers.
-/

namespace BytecodeLowering

abbrev TypeId := Nat

abbrev MethodId := Nat

abbrev GlobalId := Nat

/-- Types that need no declaration.  `f32` occurs only as the width of an
element in memory, `str` and `any` only at the border to the host. -/
inductive Builtin where
  | void | bool | u8 | u16 | i32 | i64 | f32 | f64 | bytes | dynamic | array | typeValue | str | any
  deriving DecidableEq, Repr

inductive Nominal where
  | object | virtual | enum | abstract
  deriving DecidableEq, Repr

inductive TargetType where
  | builtin (type : Builtin)
  | declared (kind : Nominal) (id : TypeId)
  | delegate (params : List TargetType) (ret : TargetType)
  | ref (inner : TargetType)
  | nullable (inner : TargetType)
  deriving Repr

namespace TargetType

@[match_pattern] abbrev void : TargetType := builtin .void
@[match_pattern] abbrev bool : TargetType := builtin .bool
@[match_pattern] abbrev u8 : TargetType := builtin .u8
@[match_pattern] abbrev u16 : TargetType := builtin .u16
@[match_pattern] abbrev i32 : TargetType := builtin .i32
@[match_pattern] abbrev i64 : TargetType := builtin .i64
@[match_pattern] abbrev f32 : TargetType := builtin .f32
@[match_pattern] abbrev f64 : TargetType := builtin .f64
@[match_pattern] abbrev bytes : TargetType := builtin .bytes
@[match_pattern] abbrev dynamic : TargetType := builtin .dynamic
@[match_pattern] abbrev array : TargetType := builtin .array
@[match_pattern] abbrev typeValue : TargetType := builtin .typeValue
@[match_pattern] abbrev str : TargetType := builtin .str
@[match_pattern] abbrev any : TargetType := builtin .any
@[match_pattern] abbrev object (id : TypeId) : TargetType := declared .object id
@[match_pattern] abbrev virtual (id : TypeId) : TargetType := declared .virtual id
@[match_pattern] abbrev enum (id : TypeId) : TargetType := declared .enum id
@[match_pattern] abbrev abstract (id : TypeId) : TargetType := declared .abstract id

/-! ## Equality -/

mutual

def beq : TargetType → TargetType → Bool
  | .builtin a, .builtin b => decide (a = b)
  | .declared k i, .declared l j => decide (k = l ∧ i = j)
  | .delegate ps r, .delegate qs s => beqList ps qs && beq r s
  | .ref a, .ref b => beq a b
  | .nullable a, .nullable b => beq a b
  | _, _ => false

def beqList : List TargetType → List TargetType → Bool
  | [], [] => true
  | a :: as, b :: bs => beq a b && beqList as bs
  | _, _ => false

end

mutual

theorem beq_iff : ∀ a b : TargetType, beq a b = true ↔ a = b
  | .builtin _, b => by cases b <;> simp [beq]
  | .declared _ _, b => by cases b <;> simp [beq]
  | .delegate ps r, b => by
      cases b with
      | delegate qs s => simp [beq, beqList_iff ps qs, beq_iff r s]
      | _ => simp [beq]
  | .ref a, b => by
      cases b with
      | ref b => simp [beq, beq_iff a b]
      | _ => simp [beq]
  | .nullable a, b => by
      cases b with
      | nullable b => simp [beq, beq_iff a b]
      | _ => simp [beq]

theorem beqList_iff : ∀ as bs : List TargetType, beqList as bs = true ↔ as = bs
  | [], bs => by cases bs <;> simp [beqList]
  | a :: as, bs => by
      cases bs with
      | nil => simp [beqList]
      | cons b bs => simp [beqList, beq_iff a b, beqList_iff as bs]

end

instance : DecidableEq TargetType := fun a b => decidable_of_iff (beq a b = true) (beq_iff a b)

end TargetType

structure Signature where
  params : List TargetType
  ret : TargetType
  deriving DecidableEq, Repr

namespace TargetType

abbrev ofSignature (signature : Signature) : TargetType :=
  delegate signature.params signature.ret

/-! ## Classes of types -/

/-- Values that live unboxed and must be boxed before they are objects. -/
def isValue : TargetType → Bool
  | .bool | .u8 | .u16 | .i32 | .i64 | .f32 | .f64 => true
  | _ => false

def isSmallInt : TargetType → Bool
  | .bool | .u8 | .u16 | .i32 => true
  | _ => false

def isFloat : TargetType → Bool
  | .f32 | .f64 => true
  | _ => false

def isUnsigned : TargetType → Bool
  | .u8 | .u16 => true
  | _ => false

def isReference (type : TargetType) : Bool := !type.isValue && type != .void

def signature? : TargetType → Option Signature
  | .delegate params ret => some ⟨params, ret⟩
  | _ => none

def typeId? : TargetType → Option TypeId
  | .declared _ id => some id
  | _ => none

/-! ## Text -/

end TargetType

def Builtin.text : Builtin → String
  | .void => "void"
  | .bool => "bool"
  | .u8 => "uint8"
  | .u16 => "uint16"
  | .i32 => "int32"
  | .i64 => "int64"
  | .f32 => "float32"
  | .f64 => "float64"
  | .bytes => "Bytes"
  | .dynamic => "Dynamic"
  | .array => "object[]"
  | .typeValue => "Type"
  | .str => "string"
  | .any => "object"

def Nominal.text (id : TypeId) : Nominal → String
  | .object | .virtual | .enum => s!"class#{id}"
  | .abstract => s!"handle#{id}"

namespace TargetType

mutual

def text : TargetType → String
  | .builtin type => type.text
  | .declared kind id => kind.text id
  | .delegate params ret => "delegate(" ++ Text.commaSeparated (texts params) ++ ") -> " ++ text ret
  | .ref inner => "RefBox<" ++ text inner ++ ">"
  | .nullable inner => "Nullable<" ++ text inner ++ ">"

def texts : List TargetType → List String
  | [] => []
  | type :: types => text type :: texts types

end

end TargetType

def Signature.text (signature : Signature) : String :=
  "(" ++ Text.commaSeparated (TargetType.texts signature.params) ++ ") -> " ++ signature.ret.text

end BytecodeLowering

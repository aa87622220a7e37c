import BytecodeLowering.Decimal.Binary64
import BytecodeLowering.Target.RuntimeMember
import BytecodeLowering.Text.Quoted

/-!
# Instructions of the target machine

The instructions of the target stack machine and their text.
-/

namespace BytecodeLowering

open Decimal (Binary64)

abbrev Label := Nat

/-- A field by its owner and its position among the fields that the owner
itself declares. -/
structure FieldRef where
  owner : TypeId
  index : Nat
  deriving DecidableEq, Repr

inductive Comparison where
  | eq | ne | lt | ge | gt | le | ltUn | geUn
  deriving DecidableEq, Repr

/-- Conversions of the number on top of the stack; the last one reads an
integer as unsigned and makes a float of it. -/
inductive Conversion where
  | u1 | u2 | i4 | i8 | r4 | r8 | rUn
  deriving DecidableEq, Repr

inductive BinaryOp where
  | add | sub | mul | div | divUn | rem | remUn | shl | shr | shrUn | and | or | xor
  deriving DecidableEq, Repr

inductive UnaryOp where
  | neg | not
  deriving DecidableEq, Repr

inductive CallTarget where
  | method (id : MethodId)
  | runtime (member : RuntimeMember)
  deriving DecidableEq, Repr

inductive Instr where
  | nop | pop | dup | ret
  | ldArg (number : UInt16)
  | stArg (number : UInt16)
  | ldLoc (number : UInt16)
  | stLoc (number : UInt16)
  | ldcI4 (value : Int)
  | ldcI8 (value : Int)
  | ldcR8 (value : Binary64)
  | ldStr (text : String)
  | ldBytes (bytes : List UInt8)
  | ldNull
  | ldToken (type : TargetType)
  | ldFld (field : FieldRef)
  | stFld (field : FieldRef)
  | ldSFld (global : GlobalId)
  | stSFld (global : GlobalId)
  | binary (op : BinaryOp)
  | unary (op : UnaryOp)
  | conv (conversion : Conversion)
  | br (label : Label)
  | brTrue (label : Label)
  | brFalse (label : Label)
  | branch (comparison : Comparison) (label : Label)
  /-- Jumps by an integer into a table and goes on when it is out of range. -/
  | switch (labels : List Label)
  | markLabel (label : Label)
  | call (target : CallTarget)
  | newObj (target : CallTarget)
  /-- Makes a delegate of a method; a bound one takes its receiver from the stack. -/
  | newDelegate (method : MethodId) (bound : Bool)
  | invokeDelegate (signature : Signature)
  | box (type : TargetType)
  | unboxAny (type : TargetType)
  | castClass (type : TargetType)
  | isInst (type : TargetType)
  | newArr (type : TargetType)
  | ldElem (type : TargetType)
  | stElem (type : TargetType)
  | throw
  | beginTry
  | beginCatch (type : TargetType)
  | endTry
  | leave (label : Label)
  | sequencePoint (file line : Nat)
  deriving DecidableEq, Repr

namespace Instr

def isTerminator : Instr → Bool
  | .ret | .throw | .br _ | .leave _ => true
  | _ => false

def targets : Instr → List Label
  | .br label | .brTrue label | .brFalse label | .branch _ label | .leave label => [label]
  | .switch labels => labels
  | _ => []

end Instr

/-! ## Text -/

def Comparison.text : Comparison → String
  | .eq => "eq"
  | .ne => "ne"
  | .lt => "lt"
  | .ge => "ge"
  | .gt => "gt"
  | .le => "le"
  | .ltUn => "ltun"
  | .geUn => "geun"

def Conversion.text : Conversion → String
  | .u1 => "u1"
  | .u2 => "u2"
  | .i4 => "i4"
  | .i8 => "i8"
  | .r4 => "r4"
  | .r8 => "r8"
  | .rUn => "run"

def BinaryOp.text : BinaryOp → String
  | .add => "add"
  | .sub => "sub"
  | .mul => "mul"
  | .div => "div"
  | .divUn => "divun"
  | .rem => "rem"
  | .remUn => "remun"
  | .shl => "shl"
  | .shr => "shr"
  | .shrUn => "shrun"
  | .and => "and"
  | .or => "or"
  | .xor => "xor"

def UnaryOp.text : UnaryOp → String
  | .neg => "neg"
  | .not => "not"

def CallTarget.text : CallTarget → String
  | .method id => s!"method#{id}"
  | .runtime member => member.name

def FieldRef.text (field : FieldRef) : String := s!"{field.owner}:{field.index}"

def labelText (label : Label) : String := s!"L{label}"

def byteText (byte : UInt8) : String :=
  let digits := Text.hexDigits byte.toNat
  Text.zeros (2 - digits.length) ++ digits

def Instr.text : Instr → String
  | .nop => "nop"
  | .pop => "pop"
  | .dup => "dup"
  | .ret => "ret"
  | .ldArg number => s!"ldarg {number}"
  | .stArg number => s!"starg {number}"
  | .ldLoc number => s!"ldloc {number}"
  | .stLoc number => s!"stloc {number}"
  | .ldcI4 value => "ldc.i4 " ++ Text.decimal value
  | .ldcI8 value => "ldc.i8 " ++ Text.decimal value
  | .ldcR8 value => "ldc.r8 " ++ value.text
  | .ldStr text => "ldstr " ++ Text.quoted text
  | .ldBytes bytes => "ldbytes [" ++ " ".intercalate (bytes.map byteText) ++ "]"
  | .ldNull => "ldnull"
  | .ldToken type => "ldtoken " ++ type.text
  | .ldFld field => "ldfld " ++ field.text
  | .stFld field => "stfld " ++ field.text
  | .ldSFld global => s!"ldsfld global{global}"
  | .stSFld global => s!"stsfld global{global}"
  | .binary op => op.text
  | .unary op => op.text
  | .conv conversion => "conv." ++ conversion.text
  | .br label => "br " ++ labelText label
  | .brTrue label => "brtrue " ++ labelText label
  | .brFalse label => "brfalse " ++ labelText label
  | .branch comparison label => "b" ++ comparison.text ++ " " ++ labelText label
  | .switch labels => "switch (" ++ Text.commaSeparated (labels.map labelText) ++ ")"
  | .markLabel label => labelText label ++ ":"
  | .call target => "call " ++ target.text
  | .newObj target => "newobj " ++ target.text
  | .newDelegate method bound => s!"newdelegate method#{method}" ++ if bound then " bound" else ""
  | .invokeDelegate signature => "invoke " ++ signature.text
  | .box type => "box " ++ type.text
  | .unboxAny type => "unbox.any " ++ type.text
  | .castClass type => "castclass " ++ type.text
  | .isInst type => "isinst " ++ type.text
  | .newArr type => "newarr " ++ type.text
  | .ldElem type => "ldelem " ++ type.text
  | .stElem type => "stelem " ++ type.text
  | .throw => "throw"
  | .beginTry => ".try \x7b"
  | .beginCatch type => "catch " ++ type.text ++ " \x7b"
  | .endTry => "\x7d"
  | .leave label => "leave " ++ labelText label
  | .sequencePoint file line => s!".line {file}:{line}"

end BytecodeLowering

import BytecodeLowering.Image.Basic
import BytecodeLowering.Text.Quoted

/-!
# Listing of an image

The functions of an image as text, one instruction a line, with a note on what
its operands designate.
-/

namespace BytecodeLowering.Image

def calleeText (image : Image) (function : Option Nat) : String :=
  match function with
  | none => "???"
  | some function =>
      match image.callee? function with
      | some (.native position) =>
          match image.natives[position]? with
          | some entry => entry.library ++ "." ++ entry.symbol
          | none => "???"
      | some (.function _) => s!"fun{function}"
      | none => "???"

def targetsText (position : Nat) (op : Operation) : String :=
  "-> " ++ Text.commaSeparated
    (op.branchOffsets.map fun offset =>
      Text.zeroFilled 4 (Operation.branchTarget position offset))

def operandNote? (image : Image) (position : Nat) (op : Operation) : Option String :=
  match op.opcode with
  | .int => (op.lookup? 1 image.ints).map Text.decimal
  | .float => (op.lookup? 1 image.floats).map (·.text)
  | .string => (op.lookup? 1 image.strings).map Text.quoted
  | .call0 | .call1 | .call2 | .call3 | .call4 | .callN | .staticClosure | .instanceClosure =>
      some (image.calleeText (op.index? 1))
  | .dynGet => (op.lookup? 2 image.strings).map ("." ++ ·)
  | .dynSet => (op.lookup? 1 image.strings).map ("." ++ ·)
  | opcode => if opcode.isBranch then some (targetsText position op) else none

def operationText (image : Image) (position : Nat) (op : Operation) : String :=
  match image.operandNote? position op with
  | some note => op.text ++ "  ; " ++ note
  | none => op.text

def lineText (image : Image) (function : FunctionDef) (position : Nat) : String :=
  match function.lines.bind (·[position]?) with
  | some line =>
      image.debugFiles.getD line.file "?" ++ ":" ++ Text.leftAligned 4 (Nat.repr line.line) ++ " "
  | none => ""

def registerText (image : Image) (number : Nat) (type : TypeIndex) : String :=
  let shown := ((image.type? type).map SourceType.text).getD "???"
  s!"  r{number}: {shown}"

def disassemble (image : Image) (function : FunctionDef) : String :=
  let args := ((image.signature? function.type).map (·.args.length)).getD 0
  let type := TypeIndex.text function.type
  let title := s!"=== fun{function.index} ==="
  let summary := s!"type: {type}, regs: {function.registers.length}, args: {args}, "
    ++ s!"ops: {function.operations.length}"
  let registers := function.registers.mapIdx image.registerText
  let operations := function.operations.mapIdx fun position op =>
    Text.zeroFilled 4 position ++ " " ++ image.lineText function position
      ++ image.operationText position op
  String.join ((title :: summary :: registers ++ operations).map (· ++ "\n"))

end BytecodeLowering.Image

import BytecodeLowering.Image.Opcode

/-!
# Errors of lowering

Why an image cannot be lowered.  Every error names the declaration or the
instruction for which it was raised.
-/

namespace BytecodeLowering

/-- The last pass that a declaration has completed. -/
inductive Stage where
  | resolved | defined | compiled
  deriving DecidableEq, Repr

namespace Stage

def previous : Stage → Option Stage
  | .resolved => none
  | .defined => some .resolved
  | .compiled => some .defined

def rank : Stage → Nat
  | .resolved => 0
  | .defined => 1
  | .compiled => 2

def text : Stage → String
  | .resolved => "Resolved"
  | .defined => "Defined"
  | .compiled => "Compiled"

end Stage

structure Site where
  function : Nat
  position : Nat
  deriving DecidableEq, Repr

/-- What ends a lowering before its result.  All but the last are errors that
are reported. -/
inductive LoweringError where
  | unresolvedType (type : Nat) (reason : String)
  | stageOrder (decl : String) (expected : Stage) (found : Option Stage)
  | missingConstructor (decl : String)
  | unknownOpcode (site : Site) (opcode : Opcode)
  | loweringGap (site : Site) (opcode : Opcode)
  | invalidRegister (site : Site) (register : Int)
  | invalidField (site : Site) (field : Int) (decl : String)
  | invalidProtoSlot (site : Site) (slot : Int) (decl : String)
  | invalidFunctionIndex (function : Nat) (index : Int)
  | invalidBranchTarget (site : Site) (target : Int)
  | unsupportedOperand (site : Site) (opcode : Opcode) (found : String)
  | invalidConstant (global : Nat) (reason : String)
  /-- An addition leaves the width of its word: lowering is broken off. -/
  | overflow
  deriving DecidableEq, Repr

def Site.text (site : Site) : String := s!"fun{site.function}@{site.position}: "

def LoweringError.message : LoweringError → String
  | .unresolvedType type reason => s!"Unresolved type @{type}: {reason}"
  | .stageOrder decl expected (some found) =>
      "Declaration " ++ decl ++ " accessed at stage " ++ expected.text ++ " but is at " ++ found.text
  | .stageOrder decl expected none =>
      "Declaration " ++ decl ++ " accessed at stage " ++ expected.text ++ " before it was resolved"
  | .missingConstructor decl => s!"Type {decl} has no constructor"
  | .unknownOpcode site opcode => site.text ++ "no translation for opcode " ++ opcode.mnemonic
  | .loweringGap site opcode =>
      site.text ++ "opcode " ++ opcode.mnemonic
        ++ " is not translated (enable best-effort mode to emit nop)"
  | .invalidRegister site register => site.text ++ "invalid register r" ++ Text.decimal register
  | .invalidField site field decl => site.text ++ decl ++ " has no field " ++ Text.decimal field
  | .invalidProtoSlot site slot decl =>
      site.text ++ decl ++ " has no prototype slot " ++ Text.decimal slot
  | .invalidFunctionIndex function index =>
      s!"fun{function}: invalid function index " ++ Text.decimal index
  | .invalidBranchTarget site target =>
      site.text ++ "branch target " ++ Text.decimal target ++ " outside the function"
  | .unsupportedOperand site opcode found =>
      site.text ++ opcode.mnemonic ++ " cannot operate on " ++ found
  | .invalidConstant global reason => s!"Invalid constant for global{global}: {reason}"
  | .overflow => "attempt to add with overflow"

end BytecodeLowering

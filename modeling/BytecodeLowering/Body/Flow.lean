import BytecodeLowering.Image.Basic
import BytecodeLowering.Lower.Error

/-!
# Control flow of a source function

The control flow of a source function: which instructions are jumped to, and
which instructions each trap protects.
-/

namespace BytecodeLowering

/-- The instructions that a trap protects: those after the trap up to and with
its end, or up to the end of the body when it is never closed. -/
structure TrapRegion where
  start : Nat
  stop : Nat
  deriving DecidableEq, Repr

def TrapRegion.contains (region : TrapRegion) (position : Nat) : Bool :=
  region.start < position && position ≤ region.stop

structure Flow where
  targets : List Bool
  maxTrapDepth : Nat
  regions : List TrapRegion
  deriving DecidableEq, Repr

namespace Flow

def isTarget (flow : Flow) (position : Nat) : Bool := flow.targets.getD position false

def regionAt? (flow : Flow) (position : Nat) : Option TrapRegion :=
  flow.regions.find? (·.start == position)

/-! ## Jump targets -/

def checkTarget (function : FunctionDef) (position : Nat) (offset : Int) :
    Except LoweringError Nat :=
  let target := Operation.branchTarget position offset
  if 0 ≤ target ∧ target < function.operations.length then .ok target.toNat
  else .error (.invalidBranchTarget ⟨function.index, position⟩ target)

def targetsOf (function : FunctionDef) : Operation × Nat → Except LoweringError (List Nat)
  | (op, position) => op.branchOffsets.mapM (checkTarget function position)

def jumpTargets (function : FunctionDef) : Except LoweringError (List Nat) :=
  return (← function.operations.zipIdx.mapM (targetsOf function)).flatten

/-! ## Trap regions -/

/-- The regions found so far, with the numbers of those that are still open,
innermost first. -/
structure TrapScan where
  opened : List Nat := []
  regions : List TrapRegion := []
  maxDepth : Nat := 0
  deriving DecidableEq, Repr

def TrapScan.step (length : Nat) (scan : TrapScan) : Operation × Nat → TrapScan
  | (op, position) =>
      match op.opcode, scan.opened with
      | .trap, opened =>
          { opened := scan.regions.length :: opened
            regions := scan.regions ++ [⟨position, length⟩]
            maxDepth := max scan.maxDepth (opened.length + 1) }
      | .endTrap, innermost :: opened =>
          { scan with
            opened
            regions := scan.regions.modify innermost fun region =>
              { region with stop := position } }
      | _, _ => scan

def scanTraps (operations : List Operation) : TrapScan :=
  operations.zipIdx.foldl (TrapScan.step operations.length) {}

/-- A jump out of the body is an error. -/
def analyze (function : FunctionDef) : Except LoweringError Flow := do
  let targets ← jumpTargets function
  let scan := scanTraps function.operations
  return {
    targets := (List.range function.operations.length).map (targets.contains ·)
    maxTrapDepth := scan.maxDepth
    regions := scan.regions }

end Flow

end BytecodeLowering

/-!
# The function index space

One index space for functions and native symbols.  The table keeps a single
position per function index: a position below the number of functions is a
function, any other is a native, counted from that number on.
-/

namespace BytecodeLowering

inductive Callee where
  | function (position : Nat)
  | native (position : Nat)
  deriving DecidableEq, Repr

structure FunctionTable where
  positions : List (Option Nat)
  functionCount : Nat
  deriving DecidableEq, Repr

namespace FunctionTable

def empty : FunctionTable := ⟨[], 0⟩

def place (positions : List (Option Nat)) (first : Nat) : List Nat → List (Option Nat)
  | [] => positions
  | index :: indices => place (positions.set index (some first)) (first + 1) indices

def indexSpace (indices : List Nat) : Nat :=
  indices.foldl (fun size index => max size (index + 1)) 0

/-- A repeated index keeps its last entry, and natives are entered after
functions. -/
def build (functions natives : List Nat) : FunctionTable :=
  let blank := List.replicate (indexSpace (functions ++ natives)) none
  { positions := place (place blank 0 functions) functions.length natives
    functionCount := functions.length }

def size (table : FunctionTable) : Nat := table.positions.length

def isEmpty (table : FunctionTable) : Bool := table.positions.isEmpty

def position? (table : FunctionTable) (index : Nat) : Option Nat :=
  table.positions[index]?.join

def classify (table : FunctionTable) (position : Nat) : Callee :=
  if position < table.functionCount then .function position
  else .native (position - table.functionCount)

def resolve? (table : FunctionTable) (index : Nat) : Option Callee :=
  (table.position? index).map table.classify

end FunctionTable

end BytecodeLowering

/-!
# Settings of a run

The choices that a user makes for a run.
-/

namespace BytecodeLowering

inductive SafeCastPolicy where
  | checked | unchecked
  deriving DecidableEq, Repr

/-- Whether an instruction that has no counterpart in the target is an error
or does nothing. -/
inductive GapPolicy where
  | strict | bestEffort
  deriving DecidableEq, Repr

structure Settings where
  assemblyName : Option String := none
  safeCast : SafeCastPolicy := .checked
  gapPolicy : GapPolicy := .strict
  emitSequencePoints : Bool := true
  deriving DecidableEq, Repr

def Settings.moduleName (settings : Settings) : String := settings.assemblyName.getD "module"

end BytecodeLowering

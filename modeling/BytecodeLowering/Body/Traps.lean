import BytecodeLowering.Body.Jump

/-!
# Exceptions

A trap opens a protected region; its end closes the region: the normal way
leaves to the next instruction, and a caught value is stored in the register of
the trap before control leaves to the handler.
-/

namespace BytecodeLowering.Emit

def throwValue (register : Int) : Emit Unit := do
  loadAs register .dynamic
  callRuntime .exceptionNew
  emit .throw

def rethrowValue (register : Int) : Emit Unit := do
  loadAs register .dynamic
  callRuntime .rethrow

def trapRegion : Emit TrapRegion := do
  orUnsupported ((← read).flow.regionAt? (← get).position) "trap without an analyzed region"

def pushTrap (frame : TrapFrame) : Emit Unit :=
  modify fun progress => { progress with traps := frame :: progress.traps }

def popTrap? : Emit (Option TrapFrame) :=
  modifyGet fun progress =>
    (progress.traps.head?, { progress with traps := progress.traps.tail })

def openTrap (register offset : Int) : Emit Unit := do
  let _ ← registerType register
  let handler ← branchLabel offset
  let region ← trapRegion
  pushTrap { register, handler, region }
  emit .beginTry

def closeTrap (register : Int) : Emit Unit := do
  let frame ← orUnsupported (← popTrap?) "endtrap without an open trap"
  if frame.register ≠ register then
    unsupported ("endtrap r" ++ Text.decimal register ++ " closes trap on r"
      ++ Text.decimal frame.register)
  else
    let after ← newLabel
    emit (.leave after)
    emit (.beginCatch .any)
    callRuntime .exceptionValue
    storeFrom frame.register .dynamic
    emit (.leave frame.handler)
    emit .endTry
    mark after

/-- Only a reference can be null. -/
def nullCheck (register : Int) : Emit Unit := do
  if (← registerType register).isReference then
    let present ← newLabel
    let _ ← load register
    emit (.brTrue present)
    callRuntime .nullCheckErrorNew
    emit .throw
    mark present

end BytecodeLowering.Emit

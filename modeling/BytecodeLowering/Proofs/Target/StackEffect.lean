import BytecodeLowering.Target.Module

/-!
# Stack effects

The effect of an instruction on the evaluation stack.  Calls are counted by the
signature of what they call, delegates by the signature at the call.
-/

namespace BytecodeLowering

def TargetType.slots (type : TargetType) : Nat := if type = .void then 0 else 1

namespace CallTarget

def signature (module : TargetModule) : CallTarget → Signature
  | .method id => ((module.method? id).map (·.signature)).getD ⟨[], .void⟩
  | .runtime member => member.signature

/-- The arguments that a call takes in front of those of the signature. -/
def receivers (module : TargetModule) : CallTarget → Nat
  | .method id => ((module.method? id).map (·.argumentOffset)).getD 0
  | .runtime _ => 0

end CallTarget

namespace Instr

/-- The values that an instruction takes from the stack; a return is left out,
since what it takes depends on the method. -/
def pops (module : TargetModule) : Instr → Nat
  | .pop | .dup | .stArg _ | .stLoc _ | .ldFld _ | .stSFld _ | .unary _ | .conv _ | .brTrue _
  | .brFalse _ | .switch _ | .box _ | .unboxAny _ | .castClass _ | .isInst _ | .newArr _
  | .throw => 1
  | .stFld _ | .binary _ | .branch _ _ | .ldElem _ => 2
  | .stElem _ => 3
  | .call target => target.receivers module + (target.signature module).params.length
  | .newObj target => (target.signature module).params.length
  | .newDelegate _ bound => if bound then 1 else 0
  | .invokeDelegate signature => signature.params.length + 1
  | .nop | .ret | .ldArg _ | .ldLoc _ | .ldcI4 _ | .ldcI8 _ | .ldcR8 _ | .ldStr _ | .ldBytes _
  | .ldNull | .ldToken _ | .ldSFld _ | .br _ | .markLabel _ | .beginTry | .beginCatch _ | .endTry
  | .leave _ | .sequencePoint _ _ => 0

def pushes (module : TargetModule) : Instr → Nat
  | .dup => 2
  | .ldArg _ | .ldLoc _ | .ldcI4 _ | .ldcI8 _ | .ldcR8 _ | .ldStr _ | .ldBytes _ | .ldNull
  | .ldToken _ | .ldFld _ | .ldSFld _ | .binary _ | .unary _ | .conv _ | .newObj _
  | .newDelegate _ _ | .box _ | .unboxAny _ | .castClass _ | .isInst _ | .newArr _
  | .ldElem _ => 1
  | .call target => (target.signature module).ret.slots
  | .invokeDelegate signature => signature.ret.slots
  | .nop | .pop | .ret | .stArg _ | .stLoc _ | .stFld _ | .stSFld _ | .br _ | .brTrue _
  | .brFalse _ | .branch _ _ | .switch _ | .markLabel _ | .stElem _ | .throw | .beginTry
  | .beginCatch _ | .endTry | .leave _ | .sequencePoint _ _ => 0

/-- Instructions from which control can only go on to the next one, and which
bound no protected region. -/
def isPlain : Instr → Bool
  | .ret | .br _ | .brTrue _ | .brFalse _ | .branch _ _ | .switch _ | .markLabel _ | .throw
  | .beginTry | .beginCatch _ | .endTry | .leave _ => false
  | _ => true

end Instr

end BytecodeLowering

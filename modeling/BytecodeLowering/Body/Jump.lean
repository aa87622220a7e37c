import BytecodeLowering.Body.Coercion

/-!
# Jumps and returns

Control leaves a protected region only by a leave instruction, so a jump out of
the innermost open trap goes through one.
-/

namespace BytecodeLowering.Emit

def branchLabel (offset : Int) : Emit Label := do
  let target := Operation.branchTarget (← get).position offset
  match target.toNat? with
  | some position =>
      if position < (← read).function.operations.length then return position
      else throw (.invalidBranchTarget (← site) target)
  | none => throw (.invalidBranchTarget (← site) target)

def leavesTrap (progress : Progress) (offset : Int) : Bool :=
  match progress.traps with
  | [] => false
  | frame :: _ =>
      match (Operation.branchTarget progress.position offset).toNat? with
      | some target => !frame.region.contains target
      | none => true

def jump (offset : Int) : Emit Unit := do
  let target ← branchLabel offset
  emit (if leavesTrap (← get) offset then .leave target else .br target)

/-- A conditional branch, made from its target label.  Out of a trap it is
taken to a leave instruction, past which the other way jumps. -/
def branch (offset : Int) (make : Label → Instr) : Emit Unit := do
  let target ← branchLabel offset
  if leavesTrap (← get) offset then
    let taken ← newLabel
    let skip ← newLabel
    emit (make taken)
    emit (.br skip)
    mark taken
    emit (.leave target)
    mark skip
  else emit (make target)

def switchEntry (offset : Int) : Emit (Label × Option (Label × Label)) := do
  let target ← branchLabel offset
  if leavesTrap (← get) offset then
    let taken ← newLabel
    return (taken, some (taken, target))
  else return (target, none)

def emitExit : Label × Label → Emit Unit
  | (taken, target) => do
      mark taken
      emit (.leave target)

def switch (offsets : List Int) : Emit Unit := do
  let entries ← offsets.mapM switchEntry
  emit (.switch (entries.map Prod.fst))
  let exits := entries.filterMap Prod.snd
  if !exits.isEmpty then
    let skip ← newLabel
    emit (.br skip)
    exits.forM emitExit
    mark skip

/-- The shared exit for returns from inside traps, made at its first use. -/
def returnExit (ret : TargetType) : Emit ReturnExit := do
  match (← get).returnExit with
  | some exit => return exit
  | none =>
      let label ← newLabel
      let slot ← if ret = .void then pure none else some <$> declareLocal ret
      modify fun progress => { progress with returnExit := some { label, slot } }
      return { label, slot }

/-- Returns a register; inside a trap the value leaves to the shared exit. -/
def ret (register : Int) : Emit Unit := do
  let ret := (← read).signature.ret
  if ret ≠ .void then loadAs register ret
  if (← get).traps.isEmpty then emit .ret
  else
    let exit ← returnExit ret
    if let some slot := exit.slot then emit (.stLoc slot)
    emit (.leave exit.label)

def exitCode (exit : ReturnExit) : List Instr :=
  match exit.slot with
  | some slot => [.ldLoc slot, .ret]
  | none => [.ret]

def closeExit : Emit Unit := do
  if let some exit := (← get).returnExit then
    mark exit.label
    emitAll (exitCode exit)

def finish : Emit (MethodBody × BodyStats) := do
  let openTraps := (← get).traps.length
  if 0 < openTraps then unsupported s!"{openTraps} unclosed trap region(s)"
  closeExit
  let progress ← get
  match progress.builder.finish with
  | .error label => throw (.invalidBranchTarget (← site) label)
  | .ok body => return (body, { progress.stats with instructions := body.body.length })

end BytecodeLowering.Emit

import BytecodeLowering.Proofs.Body.BranchTargets
import BytecodeLowering.Proofs.Body.Names
import BytecodeLowering.Proofs.Body.RegisterAccesses
import BytecodeLowering.Proofs.Body.TrapFrames

/-!
# The locals of a lowered function

The locals of a lowered function are the registers after the parameters, in
order; behind them comes one more when a value is returned from inside a trap.
Lowered code accesses the former for the registers that its instruction names,
and the latter only on the way to the shared exit.
-/

namespace BytecodeLowering

open scoped Computability

/-! ## The locals of a setting -/

def Scope.registerLocals (scope : Scope) : List TargetType :=
  (scope.registerTypes.drop scope.parameterCount).map localType

def Scope.guards (scope : Scope) (position : Nat) : Bool :=
  scope.flow.regions.any (·.contains position)

def Scope.returnsGuarded (scope : Scope) (count : Nat) : Bool :=
  (scope.function.operations.zipIdx.take count).any fun (op, position) =>
    op.opcode == .ret && scope.guards position

def ReturnExit.Fits (exit : ReturnExit) (scope : Scope) : Prop :=
  exit.slot.map UInt16.toNat
    = if scope.signature.ret = .void then none else some scope.registerLocals.length

/-- What the code of an instruction accesses: the registers that the instruction
names, and the slot of the exit when it returns from inside a trap. -/
inductive Scope.CodeUses (scope : Scope) (exit : Option ReturnExit) (position : Nat)
    (op : Operation) : List Instr → Prop
  | plain {uses : List RegisterUse} {code : List Instr}
      (hplain : op.opcode = .ret → scope.guards position = false) (huses : uses ∈ op.uses)
      (htraces : scope.Traces uses code) : scope.CodeUses exit position op code
  | leaving {uses : List RegisterUse} {front : List Instr} {found : ReturnExit}
      (hopcode : op.opcode = .ret) (hguarded : scope.guards position = true)
      (hexit : exit = some found) (huses : uses ∈ op.uses) (htraces : scope.Traces uses front) :
      scope.CodeUses exit position op
        (front ++ found.slot.toList.map .stLoc ++ [.leave found.label])

/-- A body keeps the registers of its function: it is the code of the
instructions, one after the other, and the shared exit. -/
structure Scope.Mirrors (scope : Scope) (result : MethodBody) (codes : List (List Instr))
    (exit : Option ReturnExit) : Prop where
  locals : result.locals = scope.registerLocals ++
    if scope.signature.ret ≠ .void ∧ scope.returnsGuarded scope.function.operations.length = true
    then [scope.signature.ret] else []
  body : result.body = codes.flatten ++ Emit.exitBlock exit
  length : codes.length = scope.function.operations.length
  lowers : ∀ position code, codes[position]? = some code → scope.Lowers position code
  uses : ∀ position op code, scope.function.operations[position]? = some op →
    codes[position]? = some code → scope.CodeUses exit position op code
  made : exit.isSome = scope.returnsGuarded scope.function.operations.length
  slot : ∀ found, exit = some found → found.Fits scope
  /-- A local behind the registers is stored only on the way to the exit. -/
  stores : ∀ (place : Nat) (number : UInt16), scope.registerLocals.length ≤ number.toNat →
    result.body[place]? = some (.stLoc number) → ∃ found, exit = some found ∧
      found.slot = some number ∧ result.body[place + 1]? = some (.leave found.label)
  /-- A local behind the registers is loaded only at the exit. -/
  loads : ∀ number : UInt16, scope.registerLocals.length ≤ number.toNat →
    .ldLoc number ∉ codes.flatten

theorem Scope.length_registerLocals (scope : Scope) :
    scope.registerLocals.length = scope.registerTypes.length - scope.parameterCount := by
  simp [Scope.registerLocals]

theorem Scope.returnsGuarded_succ {scope : Scope} {position : Nat}
    (h : position < scope.function.operations.length) :
    scope.returnsGuarded (position + 1) = (scope.returnsGuarded position
      || (scope.function.operations[position].opcode == .ret && scope.guards position)) := by
  rw [Scope.returnsGuarded, Flow.take_zipIdx_succ h, List.any_append]
  simp [Scope.returnsGuarded]

theorem Scope.guards_iff {scope : Scope} (hflow : Flow.analyze scope.function = .ok scope.flow)
    {position : Nat} (hposition : position ≤ scope.function.operations.length) :
    scope.guards position = true ↔ Flow.openAt scope.function.operations position ≠ [] := by
  rw [Scope.guards, List.any_eq_true]
  constructor
  · rintro ⟨region, hregion, hinside⟩
    exact List.ne_nil_of_mem ((Flow.contains_iff_mem_openAt hflow hregion hposition).mp hinside)
  · intro hopen
    obtain ⟨start, hstart⟩ := List.exists_mem_of_ne_nil _ hopen
    obtain ⟨htrap, hlt⟩ := Flow.trap_of_mem_openAt hposition hstart
    have hlisted : start ∈ scope.flow.regions.map (·.start) := by
      rw [Flow.starts_of_analyze hflow, Flow.mem_trapsBefore]
      exact ⟨by omega, htrap⟩
    obtain ⟨region, hregion, rfl⟩ := List.mem_map.mp hlisted
    exact ⟨region, hregion, (Flow.contains_iff_mem_openAt hflow hregion hposition).mpr hstart⟩

theorem Scope.CodeUses.mono {scope : Scope} {exit later : Option ReturnExit} {position : Nat}
    {op : Operation} {code : List Instr} (h : scope.CodeUses exit position op code)
    (hkept : ∀ found, exit = some found → later = some found) :
    scope.CodeUses later position op code := by
  cases h with
  | plain hplain huses htraces => exact .plain hplain huses htraces
  | leaving hopcode hguarded hexit huses htraces =>
      exact .leaving hopcode hguarded (hkept _ hexit) huses htraces

/-! ## Returns -/

inductive Progress.Provides (scope : Scope) (before after : Progress) (exit : ReturnExit) : Prop
  | kept (hexit : before.returnExit = some exit)
      (hlocals : after.builder.locals = before.builder.locals)
  | made (hnone : before.returnExit = none)
      (hslot : exit.slot = if scope.signature.ret = .void then none
        else some (UInt16.ofNat before.builder.locals.length))
      (hlocals : after.builder.locals = before.builder.locals
        ++ if scope.signature.ret = .void then [] else [scope.signature.ret])

/-- A return from inside a trap: some code that loads the value, the store in the
slot of the exit, and the way to the exit. -/
structure Progress.Leaves (scope : Scope) (before after : Progress) (exit : ReturnExit)
    (front : List Instr) : Prop where
  body : after.builder.body = before.builder.body
    ++ (front ++ exit.slot.toList.map .stLoc ++ [.leave exit.label])
  found : after.returnExit = some exit
  provides : Progress.Provides scope before after exit

namespace Emit

section Return

variable {scope : Scope} {before after : Progress}

theorem returnExit_provides {exit : ReturnExit}
    (h : returnExit scope.signature.ret scope before = .ok exit after) :
    after.builder.body = before.builder.body ∧ after.traps = before.traps ∧
      after.returnExit = some exit ∧ Progress.Provides scope before after exit := by
  obtain ⟨hextends, htraps, hexit, hmade⟩ := returnExit_ok h
  refine ⟨by simpa using hextends.body, htraps, hexit, ?_⟩
  rcases hmade with ⟨hbefore, rfl⟩ | ⟨hnone, -⟩
  · exact .kept hbefore rfl
  · obtain ⟨_, _, hget, h⟩ := bind_ok h
    obtain ⟨rfl, rfl⟩ := get_ok hget
    simp only [hnone] at h
    obtain ⟨label, first, hlabel, h⟩ := bind_ok h
    cases hlabel
    by_cases hvoid : scope.signature.ret = .void
    · rw [if_pos hvoid] at h
      cases h
      exact .made hnone (by simp [hvoid]) (by simp [hvoid])
    · rw [if_neg hvoid] at h
      cases h
      exact .made hnone (by simp [hvoid]) (by simp [hvoid])

theorem leave_ok {result : Unit} {front : List Instr} {middle : Progress}
    (hfront : before.Adds middle front)
    (h : (do
      if (← get).traps.isEmpty then emit .ret
      else
        let exit ← returnExit scope.signature.ret
        if let some slot := exit.slot then emit (.stLoc slot)
        emit (.leave exit.label) : Emit Unit) scope middle = .ok result after) :
    after.traps = [] ∧ before.Adds after (front ++ [.ret]) ∨
      after.traps ≠ [] ∧ ∃ exit, Progress.Leaves scope before after exit front := by
  obtain ⟨_, _, hget, h⟩ := bind_ok h
  obtain ⟨rfl, rfl⟩ := get_ok hget
  dsimp only at h
  split at h
  · rename_i hclosed
    cases h
    exact Or.inl ⟨List.isEmpty_iff.mp hclosed, hfront.trans ⟨rfl, rfl, rfl⟩⟩
  · rename_i hopen
    obtain ⟨exit, made, hexit, h⟩ := bind_ok h
    obtain ⟨hbody, htraps, hfound, hprovides⟩ := returnExit_provides hexit
    have hcode : after.builder.body = made.builder.body
          ++ (exit.slot.toList.map .stLoc ++ [.leave exit.label]) ∧
        after.builder.locals = made.builder.locals ∧ after.returnExit = made.returnExit ∧
        after.traps = made.traps := by
      cases hslot : exit.slot with
      | none =>
          simp only [hslot] at h
          cases h
          exact ⟨rfl, rfl, rfl, rfl⟩
      | some slot =>
          simp only [hslot] at h
          obtain ⟨_, stored, hstore, h⟩ := bind_ok h
          cases hstore
          cases h
          simp [BodyBuilder.emit]
    obtain ⟨hafter, hlocals, hkept, hstill⟩ := hcode
    refine Or.inr ⟨?_, exit, ?_, ?_, ?_⟩
    · rw [hstill, htraps]
      simpa using hopen
    · simp [hafter, hbody, hfront.body]
    · rw [hkept, hfound]
    · cases hprovides with
      | kept hmiddle hsame =>
          exact .kept (hfront.exit ▸ hmiddle) (by rw [hlocals, hsame, hfront.locals])
      | made hnone hslot hsame =>
          rw [hfront.locals] at hslot hsame
          exact .made (hfront.exit ▸ hnone) hslot (by rw [hlocals, hsame])

theorem instruction_uses (hscope : scope.registerTypes.length ≤ maxRegisters) {op : Operation}
    {position : Nat} {result : Unit}
    (h : instruction (op, position) scope before = .ok result after) :
    ∃ uses ∈ op.uses, ∃ front, scope.Traces uses front ∧
      (before.Adds after front ∧ (op.opcode = .ret → after.traps = []) ∨
        op.opcode = .ret ∧ after.traps ≠ [] ∧
          ∃ exit, Progress.Leaves scope before after exit front) := by
  by_cases hreturn : op.opcode = .ret
  · obtain ⟨_, start, hbegin, h⟩ := bind_ok h
    obtain ⟨_, hnone, head, hhead, hstart⟩ := accesses_begin position op.opcode _ _ _ hbegin
    rw [(Language.mem_one _).mp hnone] at hhead
    have huses : op.uses = 1 + {[.read (op.param 0)]} := by
      simp only [Operation.uses, hreturn]
    have hret : ret (op.param 0) scope start = .ok result after := by
      simpa only [operation, hreturn] using h
    obtain ⟨_, _, hread, hret⟩ := bind_ok hret
    obtain ⟨rfl, rfl⟩ := read_ok hread
    dsimp only at hret
    split at hret
    · obtain ⟨_, loaded, hload, hret⟩ := bind_ok hret
      obtain ⟨uses, hread, code, hcode, hloaded⟩ := accesses_loadAs hscope _ _ _ _ _ hload
      refine ⟨uses, huses ▸ Or.inr hread, ?_⟩
      rcases leave_ok (hstart.trans hloaded) hret with ⟨hclosed, hadds⟩ | hleaves
      · exact ⟨_, (hhead.append hcode).concat_silent rfl, Or.inl ⟨hadds, fun _ => hclosed⟩⟩
      · exact ⟨head ++ code, hhead.append hcode, Or.inr ⟨hreturn, hleaves⟩⟩
    · refine ⟨[], huses ▸ Or.inl Language.nil_mem_one, ?_⟩
      rcases leave_ok hstart hret with ⟨hclosed, hadds⟩ | hleaves
      · exact ⟨_, hhead.concat_silent rfl, Or.inl ⟨hadds, fun _ => hclosed⟩⟩
      · exact ⟨head, hhead, Or.inr ⟨hreturn, hleaves⟩⟩
  · have haccesses := (accesses_begin position op.opcode).skip fun _ =>
      accesses_operation hscope hreturn
    obtain ⟨uses, huses, code, htraces, hadds⟩ := haccesses before result after h
    exact ⟨uses, huses, code, htraces, Or.inl ⟨hadds, fun hret => absurd hret hreturn⟩⟩

end Return

end Emit

/-! ## The run -/

inductive Progress.Proceeds (scope : Scope) (position : Nat) (op : Operation)
    (before after : Progress) : List Instr → Prop
  | plain {uses : List RegisterUse} {code : List Instr}
      (hplain : op.opcode = .ret → scope.guards position = false) (huses : uses ∈ op.uses)
      (htraces : scope.Traces uses code) (hadds : before.Adds after code) :
      Progress.Proceeds scope position op before after code
  | leaving {uses : List RegisterUse} {front : List Instr} {exit : ReturnExit}
      (hopcode : op.opcode = .ret) (hguarded : scope.guards position = true)
      (huses : uses ∈ op.uses) (htraces : scope.Traces uses front)
      (hleaves : Progress.Leaves scope before after exit front) :
      Progress.Proceeds scope position op before after
        (front ++ exit.slot.toList.map .stLoc ++ [.leave exit.label])

namespace Progress.Proceeds

variable {scope : Scope} {position : Nat} {op : Operation} {before after : Progress}
  {code : List Instr}

theorem body (h : Proceeds scope position op before after code) :
    after.builder.body = before.builder.body ++ code := by
  cases h with
  | plain _ _ _ hadds => exact hadds.body
  | leaving _ _ _ _ hleaves => exact hleaves.body

theorem codeUses (h : Proceeds scope position op before after code) :
    scope.CodeUses after.returnExit position op code := by
  cases h with
  | plain hplain huses htraces => exact .plain hplain huses htraces
  | leaving hopcode hguarded huses htraces hleaves =>
      exact .leaving hopcode hguarded hleaves.found huses htraces

theorem exit_kept (h : Proceeds scope position op before after code) {exit : ReturnExit}
    (hexit : before.returnExit = some exit) : after.returnExit = some exit := by
  cases h with
  | plain _ _ _ hadds => rw [hadds.exit, hexit]
  | leaving _ _ _ _ hleaves =>
      cases hleaves.provides with
      | kept hbefore => rw [hleaves.found, ← hbefore, hexit]
      | made hnone => simp [hexit] at hnone

end Progress.Proceeds

section Run

variable {scope : Scope} {position : Nat} {before after : Progress}

theorem Scope.guards_of_return (hflow : Flow.analyze scope.function = .ok scope.flow)
    (hposition : position < scope.function.operations.length)
    (hreturn : scope.function.operations[position].opcode = .ret)
    (hafter : after.Follows scope (position + 1)) :
    scope.guards position = true ↔ after.traps ≠ [] := by
  have hopen := Flow.openAt_succ hposition
  rw [Flow.openStep_other (by simp [hreturn])] at hopen
  rw [scope.guards_iff hflow (Nat.le_of_lt hposition), ← hopen, ← hafter.starts]
  simp

theorem Scope.Reaches.proceeds (hscope : scope.registerTypes.length ≤ maxRegisters)
    (hflow : Flow.analyze scope.function = .ok scope.flow)
    (hposition : position < scope.function.operations.length)
    (hbefore : scope.Reaches position before) (hafter : scope.Reaches (position + 1) after) :
    ∃ code, Progress.Proceeds scope position scope.function.operations[position] before after
      code := by
  obtain ⟨reached, hreached, hstep⟩ := Scope.Reaches.succ hposition hafter
  obtain rfl := hreached.unique hbefore
  have hfollows := (hafter.regular hflow hposition).toFollows
  obtain ⟨uses, huses, front, htraces, ⟨hadds, hclosed⟩ | ⟨hreturn, hopen, exit, hleaves⟩⟩ :=
    Emit.instruction_uses hscope hstep
  · refine ⟨front, .plain ?_ huses htraces hadds⟩
    intro hreturn
    have hguards := scope.guards_of_return hflow hposition hreturn hfollows
    simpa [hclosed hreturn] using hguards
  · exact ⟨_, .leaving hreturn ((scope.guards_of_return hflow hposition hreturn hfollows).mpr hopen)
      huses htraces hleaves⟩

structure Progress.Stocked (scope : Scope) (position : Nat) (progress : Progress) : Prop where
  locals : progress.builder.locals = scope.registerLocals ++
    if scope.signature.ret ≠ .void ∧ scope.returnsGuarded position = true
    then [scope.signature.ret] else []
  made : progress.returnExit.isSome = scope.returnsGuarded position
  slot : ∀ found, progress.returnExit = some found → found.Fits scope

theorem Progress.Stocked.step (hscope : scope.registerTypes.length ≤ maxRegisters)
    (hposition : position < scope.function.operations.length) {code : List Instr}
    (h : before.Stocked scope position)
    (hproceeds : Progress.Proceeds scope position scope.function.operations[position] before after
      code) : after.Stocked scope (position + 1) := by
  have hnext := scope.returnsGuarded_succ hposition
  cases hproceeds with
  | plain hplain _ _ hadds =>
      have hsame : scope.returnsGuarded (position + 1) = scope.returnsGuarded position := by
        by_cases hreturn : scope.function.operations[position].opcode = .ret
        · simp [hnext, hplain hreturn]
        · simp [hnext, hreturn]
      refine ⟨?_, ?_, ?_⟩
      · rw [hadds.locals, hsame, h.locals]
      · rw [hadds.exit, hsame, h.made]
      · rw [hadds.exit]
        exact h.slot
  | @leaving _ _ exit hopcode hguarded _ _ hleaves =>
      have hguarded : scope.returnsGuarded (position + 1) = true := by
        simp [hnext, hopcode, hguarded]
      cases hleaves.provides with
      | kept hbefore hlocals =>
          have hmade := h.made
          rw [hbefore, Option.isSome_some] at hmade
          refine ⟨?_, ?_, ?_⟩
          · rw [hlocals, hguarded, h.locals, ← hmade]
          · rw [hleaves.found, hguarded, Option.isSome_some]
          · intro found hfound
            rw [hleaves.found, ← hbefore] at hfound
            exact h.slot found hfound
      | made hnone hslot hlocals =>
          have hmade := h.made
          rw [hnone, Option.isSome_none] at hmade
          have hbare := h.locals
          simp only [← hmade, Bool.false_eq_true, and_false, if_false, List.append_nil] at hbare
          rw [hbare] at hslot hlocals
          refine ⟨?_, ?_, ?_⟩
          · simp [hlocals, hguarded]
          · rw [hleaves.found, hguarded, Option.isSome_some]
          · intro found hfound
            obtain rfl : exit = found := by simpa [hleaves.found] using hfound
            have hlength := scope.length_registerLocals
            have hnumber : (UInt16.ofNat scope.registerLocals.length).toNat
                = scope.registerLocals.length := by
              refine UInt16.toNat_ofNat_of_lt' ?_
              simp only [maxRegisters, UInt16.size] at hscope ⊢
              omega
            rw [ReturnExit.Fits, hslot]
            split <;> simp [hnumber]

theorem Scope.begin_stocked (scope : Scope) : scope.begin.Stocked scope 0 := by
  refine ⟨?_, ?_, nofun⟩
  · simp [Scope.begin, Scope.registerLocals, Scope.returnsGuarded]
  · simp [Scope.begin, Scope.returnsGuarded]

variable (hscope : scope.registerTypes.length ≤ maxRegisters)
  (hflow : Flow.analyze scope.function = .ok scope.flow)

include hscope hflow

theorem Scope.Reaches.stocked (hposition : position ≤ scope.function.operations.length)
    (h : scope.Reaches position after) : after.Stocked scope position := by
  induction position generalizing after with
  | zero =>
      cases h
      exact scope.begin_stocked
  | succ position ih =>
      obtain ⟨before, hbefore, -⟩ := Scope.Reaches.succ hposition h
      obtain ⟨code, hproceeds⟩ := hbefore.proceeds hscope hflow hposition h
      exact (ih (by omega) hbefore).step hscope hposition hproceeds

theorem Scope.Reaches.exit_kept {last : Nat} (hposition : position ≤ last)
    (hlast : last ≤ scope.function.operations.length) (hbefore : scope.Reaches position before)
    (hafter : scope.Reaches last after) {exit : ReturnExit}
    (hexit : before.returnExit = some exit) : after.returnExit = some exit := by
  induction last, hposition using Nat.le_induction generalizing after with
  | base => rwa [← hbefore.unique hafter]
  | succ last _ ih =>
      obtain ⟨middle, hmiddle, -⟩ := Scope.Reaches.succ hlast hafter
      obtain ⟨code, hproceeds⟩ := hmiddle.proceeds hscope hflow hlast hafter
      exact hproceeds.exit_kept (ih (by omega) hmiddle)

theorem Scope.Lowers.codeUses {code : List Instr}
    (hposition : position < scope.function.operations.length) (h : scope.Lowers position code)
    (hafter : scope.Reaches scope.function.operations.length after) :
    scope.CodeUses after.returnExit position scope.function.operations[position] code := by
  obtain ⟨before, next, hbefore, hnext, hbody⟩ := h
  obtain ⟨found, hproceeds⟩ := hbefore.proceeds hscope hflow hposition hnext
  obtain rfl : found = code := List.append_cancel_left (hproceeds.body.symm.trans hbody)
  exact hproceeds.codeUses.mono fun exit hexit =>
    hnext.exit_kept hscope hflow hposition (Nat.le_refl _) hafter hexit

end Run

/-! ## The slot of the exit -/

/-- A store in a local from some number on is followed by the way to an exit
with that slot. -/
def LeavesBehind (count : Nat) (exit : Option ReturnExit) (code : List Instr) : Prop :=
  ∀ (place : Nat) (number : UInt16), count ≤ number.toNat →
    code[place]? = some (.stLoc number) → ∃ found, exit = some found ∧
      found.slot = some number ∧ code[place + 1]? = some (.leave found.label)

namespace LeavesBehind

variable {count : Nat} {exit : Option ReturnExit} {code more : List Instr}

theorem append (hcode : LeavesBehind count exit code) (hmore : LeavesBehind count exit more) :
    LeavesBehind count exit (code ++ more) := by
  intro place number hnumber hplace
  rw [List.getElem?_append] at hplace
  split at hplace
  · obtain ⟨found, hfound, hslot, hnext⟩ := hcode place number hnumber hplace
    have hlength := (List.getElem?_eq_some_iff.mp hnext).1
    exact ⟨found, hfound, hslot, by rwa [List.getElem?_append_left hlength]⟩
  · obtain ⟨found, hfound, hslot, hnext⟩ := hmore _ number hnumber hplace
    refine ⟨found, hfound, hslot, ?_⟩
    rw [List.getElem?_append_right (by omega), ← hnext]
    congr 1
    omega

theorem flatten {codes : List (List Instr)}
    (h : ∀ code ∈ codes, LeavesBehind count exit code) : LeavesBehind count exit codes.flatten := by
  induction codes with
  | nil => simp [LeavesBehind]
  | cons code codes ih =>
      rw [List.forall_mem_cons] at h
      rw [List.flatten_cons]
      exact h.1.append (ih h.2)

theorem of_not_mem (h : ∀ number : UInt16, count ≤ number.toNat → .stLoc number ∉ code) :
    LeavesBehind count exit code := by
  intro place number hnumber hplace
  exact absurd (List.mem_of_getElem? hplace) (h number hnumber)

theorem exitBlock : LeavesBehind count exit (Emit.exitBlock exit) := by
  refine of_not_mem fun number _ => ?_
  cases exit with
  | none => simp [Emit.exitBlock]
  | some exit => cases hslot : exit.slot <;> simp [Emit.exitBlock, Emit.exitCode, hslot]

end LeavesBehind

section Slot

variable {scope : Scope} {exit : Option ReturnExit} {position : Nat} {op : Operation}
  {code : List Instr} {number : UInt16} (hnumber : scope.registerLocals.length ≤ number.toNat)

include hnumber

theorem Scope.Traces.local_not_mem {uses : List RegisterUse} (h : scope.Traces uses code) :
    .ldLoc number ∉ code ∧ .stLoc number ∉ code := by
  rw [scope.length_registerLocals] at hnumber
  constructor
  · intro hload
    have := h.local_lt (Or.inl hload)
    omega
  · intro hstore
    have := h.local_lt (Or.inr hstore)
    omega

theorem Scope.CodeUses.load_not_mem (h : scope.CodeUses exit position op code) :
    .ldLoc number ∉ code := by
  cases h with
  | plain _ _ htraces => exact (htraces.local_not_mem hnumber).1
  | leaving _ _ _ _ htraces => simp [(htraces.local_not_mem hnumber).1]

omit hnumber

theorem Scope.CodeUses.leavesBehind (h : scope.CodeUses exit position op code) :
    LeavesBehind scope.registerLocals.length exit code := by
  cases h with
  | plain _ _ htraces => exact .of_not_mem fun number hnumber => (htraces.local_not_mem hnumber).2
  | @leaving _ _ found _ _ hexit _ htraces =>
      rw [List.append_assoc]
      refine .append (.of_not_mem fun number hnumber => (htraces.local_not_mem hnumber).2) ?_
      intro place number hnumber hplace
      cases hslot : found.slot with
      | none =>
          rw [hslot] at hplace
          have := List.mem_of_getElem? hplace
          simp at this
      | some slot =>
          rw [hslot] at hplace
          have hfirst : place = 0 ∧ slot = number := by
            match place with
            | 0 => simpa using hplace
            | 1 => simp at hplace
            | place + 2 => simp at hplace
          obtain ⟨rfl, rfl⟩ := hfirst
          exact ⟨found, hexit, hslot, by simp⟩

end Slot

/-! ## Whole functions -/

theorem Emit.closeExit_locals {scope : Scope} {before after : Progress} {result : Unit}
    (h : closeExit scope before = .ok result after) :
    after.builder.locals = before.builder.locals := by
  obtain ⟨_, _, hget, h⟩ := bind_ok h
  obtain ⟨rfl, rfl⟩ := get_ok hget
  cases hexit : before.returnExit with
  | none =>
      simp only [hexit] at h
      cases h
      rfl
  | some exit =>
      simp only [hexit, exitCode] at h
      cases hslot : exit.slot with
      | none =>
          simp only [hslot] at h
          cases h
          rfl
      | some slot =>
          simp only [hslot] at h
          cases h
          rfl

theorem Emit.body_locals {scope : Scope} {last final : Progress} {result : MethodBody × BodyStats}
    (h : body scope scope.begin = .ok result final)
    (hlast : scope.Reaches scope.function.operations.length last) :
    result.1.locals = last.builder.locals := by
  obtain ⟨_, _, hread, h⟩ := bind_ok h
  obtain ⟨rfl, rfl⟩ := read_ok hread
  obtain ⟨_, reached, hrun, h⟩ := bind_ok h
  obtain rfl := hlast.unique (Scope.Reaches.of_run hrun)
  obtain ⟨_, _, hget, h⟩ := bind_ok h
  obtain ⟨rfl, rfl⟩ := get_ok hget
  dsimp only at h
  split at h
  · obtain ⟨_, _, hfails, -⟩ := bind_ok h
    cases hfails
  · obtain ⟨_, closed, hclose, h⟩ := bind_ok h
    obtain ⟨_, _, hget, h⟩ := bind_ok h
    obtain ⟨rfl, rfl⟩ := get_ok hget
    cases hfinish : closed.builder.finish with
    | error label =>
        simp only [hfinish] at h
        cases h
    | ok body =>
        simp only [hfinish] at h
        cases h
        obtain rfl := finish_eq hfinish
        exact closeExit_locals hclose

theorem Scope.exists_mirrors {scope : Scope} (hscope : scope.registerTypes.length ≤ maxRegisters)
    (hflow : Flow.analyze scope.function = .ok scope.flow) {final : Progress}
    {result : MethodBody × BodyStats} (h : Emit.body scope scope.begin = .ok result final) :
    ∃ codes exit, scope.Mirrors result.1 codes exit := by
  obtain ⟨last, hlast, -, hbody, -⟩ := Emit.body_ok h
  obtain ⟨codes, hlinked⟩ := hlast.linked hflow (Nat.le_refl _)
  have hstocked := hlast.stocked hscope hflow (Nat.le_refl _)
  have huses (position : Nat) (op : Operation) (code : List Instr)
      (hop : scope.function.operations[position]? = some op)
      (hcode : codes[position]? = some code) :
      scope.CodeUses last.returnExit position op code := by
    obtain ⟨hposition, rfl⟩ := List.getElem?_eq_some_iff.mp hop
    exact (hlinked.lowers position code hcode).codeUses hscope hflow hposition hlast
  have hall (code : List Instr) (hcode : code ∈ codes) :
      ∃ position op, scope.CodeUses last.returnExit position op code := by
    obtain ⟨position, hfound⟩ := List.mem_iff_getElem?.mp hcode
    have hposition : position < scope.function.operations.length :=
      hlinked.length ▸ (List.getElem?_eq_some_iff.mp hfound).1
    exact ⟨position, _, huses position _ code (List.getElem?_eq_getElem hposition) hfound⟩
  rw [hlinked.body] at hbody
  refine ⟨codes, last.returnExit, ⟨?_, hbody, hlinked.length, hlinked.lowers, huses,
    hstocked.made, hstocked.slot, ?_, ?_⟩⟩
  · rw [Emit.body_locals h hlast, hstocked.locals]
  · rw [hbody]
    refine LeavesBehind.append (.flatten fun code hcode => ?_) .exitBlock
    obtain ⟨position, op, hcode⟩ := hall code hcode
    exact hcode.leavesBehind
  · intro number hnumber hmem
    obtain ⟨code, hcode, hload⟩ := List.mem_flatten.mp hmem
    obtain ⟨position, op, hcode⟩ := hall code hcode
    exact hcode.load_not_mem hnumber hload

/-- Registers have numbers of 16 bits, and the parameters are among them. -/
theorem FunctionDef.count_of_scope {function : FunctionDef} {image : Image} {registry : Registry}
    {settings : Settings} {signature : Signature} {scope : Scope}
    (h : function.scope image registry settings signature = .ok scope) :
    scope.parameterCount ≤ scope.registerTypes.length ∧
      scope.registerTypes.length ≤ maxRegisters := by
  obtain ⟨flow, -, h⟩ := ok_of_bind h
  obtain ⟨types, -, h⟩ := ok_of_bind h
  dsimp only at h
  split at h
  · cases h
  · rename_i hcount
    cases h
    rw [not_or] at hcount
    exact ⟨Nat.le_of_not_lt hcount.1, Nat.le_of_not_lt hcount.2⟩

theorem FunctionDef.exists_mirrors {function : FunctionDef} {image : Image} {registry : Registry}
    {settings : Settings} {signature : Signature} {result : MethodBody × BodyStats}
    (h : function.lower image registry settings signature = .ok result) :
    ∃ scope codes exit, function.scope image registry settings signature = .ok scope ∧
      scope.Mirrors result.1 codes exit := by
  obtain ⟨scope, final, hscope, hbody⟩ := FunctionDef.lower_ok h
  obtain ⟨hflow, -, -, -, rfl, -⟩ := FunctionDef.scope_ok hscope
  obtain ⟨-, hcount⟩ := FunctionDef.count_of_scope hscope
  obtain ⟨codes, exit, hmirrors⟩ := scope.exists_mirrors hcount hflow hbody
  exact ⟨scope, codes, exit, hscope, hmirrors⟩

end BytecodeLowering

import BytecodeLowering.Body.Function
import BytecodeLowering.Proofs.Body.Coercion
import Mathlib.Computability.Language

/-!
# The registers that code accesses

The registers that lowered code accesses.  Loads and stores of registers are
the only steps that access a variable, so the code of an instruction reads and
writes the registers that the instruction names, in their order, and every
access goes to the argument or local of its register.
-/

namespace BytecodeLowering

open scoped Computability

/-! ## Accesses -/

def Instr.accessesVariable : Instr → Bool
  | .ldArg _ | .stArg _ | .ldLoc _ | .stLoc _ => true
  | _ => false

inductive RegisterUse where
  | read (register : Int)
  | write (register : Int)
  deriving DecidableEq, Repr

namespace RegisterUse

def register : RegisterUse → Int
  | .read register | .write register => register

def nothing : RegisterUse → Instr
  | .read _ => .ldNull
  | .write _ => .pop

def argument (number : UInt16) : RegisterUse → Instr
  | .read _ => .ldArg number
  | .write _ => .stArg number

def slot (number : UInt16) : RegisterUse → Instr
  | .read _ => .ldLoc number
  | .write _ => .stLoc number

end RegisterUse

/-- The instruction of a register use.  A parameter is in the argument of its
own number, and the local of another register has the number that counts from
the last parameter; a void register has neither. -/
inductive Scope.Performs (scope : Scope) (use : RegisterUse) : Instr → Prop
  | nothing {index : Nat} (hregister : use.register = index)
      (hvoid : scope.registerTypes[index]? = some .void) : scope.Performs use use.nothing
  | argument {index : Nat} {type : TargetType} {number : UInt16}
      (hregister : use.register = index) (htype : scope.registerTypes[index]? = some type)
      (hvoid : type ≠ .void) (hparameter : index < scope.parameterCount)
      (hnumber : number.toNat = index) : scope.Performs use (use.argument number)
  | slot {index : Nat} {type : TargetType} {number : UInt16}
      (hregister : use.register = index) (htype : scope.registerTypes[index]? = some type)
      (hvoid : type ≠ .void) (hnumber : scope.parameterCount + number.toNat = index) :
      scope.Performs use (use.slot number)

/-- Some code makes the uses of a list, in order, and accesses no variable
otherwise. -/
inductive Scope.Traces (scope : Scope) : List RegisterUse → List Instr → Prop
  | nil : scope.Traces [] []
  | other {uses : List RegisterUse} {instr : Instr} {code : List Instr}
      (hinstr : instr.accessesVariable = false) (hrest : scope.Traces uses code) :
      scope.Traces uses (instr :: code)
  | use {use : RegisterUse} {uses : List RegisterUse} {instr : Instr} {code : List Instr}
      (huse : scope.Performs use instr) (hrest : scope.Traces uses code) :
      scope.Traces (use :: uses) (instr :: code)

/-- The orders in which the code of an instruction may use registers.  A void
result is not written, and a test that cannot fail reads nothing. -/
def Operation.uses (op : Operation) : Language RegisterUse :=
  let read (i : Nat) : Language RegisterUse := {[.read (op.param i)]}
  let write : Language RegisterUse := {[.write (op.param 0)]}
  let receiver : Language RegisterUse := {[.read 0]}
  let arguments : Language RegisterUse := {op.callArguments.map .read}
  match op.opcode with
  | .mov | .neg | .not | .toDyn | .toSFloat | .toUFloat | .toInt | .safeCast | .uncheckedCast
  | .field | .dynGet | .virtualClosure | .arraySize | .getType | .getTID | .ref | .unref
  | .enumIndex | .enumField => read 1 * write
  | .int | .float | .bool | .bytes | .string | .null | .getGlobal | .staticClosure | .new | .type
  | .enumAlloc | .endTrap => write
  | .incr | .decr => read 0 * write
  | .add | .sub | .mul | .sDiv | .uDiv | .sMod | .uMod | .shl | .sShr | .uShr | .and | .or
  | .xor | .getI8 | .getI16 | .getMem | .getArray => read 1 * read 2 * write
  | .call0 | .call1 | .call2 | .call3 | .call4 | .callN | .callMethod => arguments * (1 + write)
  | .callThis => receiver * arguments * (1 + write)
  | .callClosure => read 1 * arguments * (1 + write)
  | .instanceClosure => read 2 * write
  | .getThis => receiver * write
  | .setThis => receiver * read 1
  | .setGlobal => read 1
  | .setField | .dynSet | .setEnumField => read 0 * read 2
  | .setref | .jSLt | .jSGte | .jSGt | .jSLte | .jULt | .jUGte | .jNotLt | .jNotGte | .jEq
  | .jNotEq => read 0 * read 1
  | .setI8 | .setI16 | .setMem | .setArray => read 0 * read 1 * read 2
  | .jTrue | .jFalse | .throw | .rethrow | .switch => read 0
  | .jNull | .jNotNull | .nullCheck | .ret => 1 + read 0
  | .toVirtual => (read 1)∗ * write
  | .makeEnum => arguments * write
  | .jAlways | .label | .trap | .assert | .nop | .refData | .refOffset | .prefetch | .asm => 1

theorem singleton_mul_singleton {α : Type} (first second : List α) :
    ({first} * {second} : Language α) = {first ++ second} :=
  Set.image2_singleton

namespace Scope.Traces

variable {scope : Scope} {uses more : List RegisterUse} {code rest : List Instr}

theorem append (h : scope.Traces uses code) (hmore : scope.Traces more rest) :
    scope.Traces (uses ++ more) (code ++ rest) := by
  induction h with
  | nil => exact hmore
  | other hinstr _ ih => exact .other hinstr ih
  | use huse _ ih => exact .use huse ih

theorem silent (h : ∀ instr ∈ code, instr.accessesVariable = false) : scope.Traces [] code := by
  induction code with
  | nil => exact .nil
  | cons instr code ih =>
      rw [List.forall_mem_cons] at h
      exact .other h.1 (ih h.2)

theorem concat_silent (h : scope.Traces uses code) {instr : Instr}
    (hinstr : instr.accessesVariable = false) : scope.Traces uses (code ++ [instr]) := by
  simpa using h.append (silent (List.forall_mem_singleton.mpr hinstr))

theorem local_lt (h : scope.Traces uses code) {number : UInt16}
    (haccess : .ldLoc number ∈ code ∨ .stLoc number ∈ code) :
    scope.parameterCount + number.toNat < scope.registerTypes.length := by
  induction h with
  | nil => simp at haccess
  | @other _ instr _ hinstr _ ih =>
      have hfirst : .ldLoc number ≠ instr ∧ .stLoc number ≠ instr := by
        constructor
        all_goals
          rintro rfl
          simp [Instr.accessesVariable] at hinstr
      simp [hfirst] at haccess
      exact ih haccess
  | @use use _ _ _ huse _ ih =>
      cases huse with
      | nothing => cases use <;> simp [RegisterUse.nothing] at haccess <;> exact ih haccess
      | argument => cases use <;> simp [RegisterUse.argument] at haccess <;> exact ih haccess
      | @slot index type found hregister htype hvoid hnumber =>
          have hindex := (List.getElem?_eq_some_iff.mp htype).1
          cases use <;> simp [RegisterUse.slot] at haccess <;> grind

end Scope.Traces

/-! ## Steps -/

structure Progress.Adds (before after : Progress) (code : List Instr) : Prop where
  body : after.builder.body = before.builder.body ++ code
  locals : after.builder.locals = before.builder.locals
  exit : after.returnExit = before.returnExit

theorem Progress.Adds.trans {before middle after : Progress} {code more : List Instr}
    (hfirst : before.Adds middle code) (hsecond : middle.Adds after more) :
    before.Adds after (code ++ more) := by
  refine ⟨?_, hsecond.locals.trans hfirst.locals, hsecond.exit.trans hfirst.exit⟩
  rw [hsecond.body, hfirst.body, List.append_assoc]

namespace Emit

/-- A step whose code uses registers in one of some orders. -/
def Accesses (scope : Scope) (step : Emit α) (uses : Language RegisterUse) : Prop :=
  ∀ before result after, step scope before = .ok result after →
    ∃ trace ∈ uses, ∃ code, scope.Traces trace code ∧ before.Adds after code

namespace Accesses

variable {scope : Scope} {uses more : Language RegisterUse}

theorem fails {step : Emit α} {error : Progress → LoweringError}
    (h : ∀ before, step scope before = .error (error before) before) :
    Accesses scope step uses := by
  intro before result after hstep
  rw [h] at hstep
  cases hstep

theorem silent {step : Emit α}
    (h : ∀ before result after, step scope before = .ok result after →
      ∃ code, (∀ instr ∈ code, instr.accessesVariable = false) ∧ before.Adds after code) :
    Accesses scope step 1 := by
  intro before result after hstep
  obtain ⟨code, hcode, hadds⟩ := h before result after hstep
  exact ⟨[], Language.nil_mem_one, code, .silent hcode, hadds⟩

theorem quiet {step : Emit α}
    (h : ∀ before result after, step scope before = .ok result after →
      after.builder.body = before.builder.body ∧
        after.builder.locals = before.builder.locals ∧ after.returnExit = before.returnExit) :
    Accesses scope step 1 := by
  refine silent fun before result after hstep => ⟨[], nofun, ?_⟩
  obtain ⟨hbody, hlocals, hexit⟩ := h before result after hstep
  exact ⟨by simp [hbody], hlocals, hexit⟩

theorem pure (value : α) : Accesses scope (Pure.pure value) 1 := by
  refine quiet fun before result after hstep => ?_
  cases hstep
  exact ⟨rfl, rfl, rfl⟩

theorem read : Accesses scope (MonadReader.read : Emit Scope) 1 := by
  refine quiet fun before result after hstep => ?_
  cases hstep
  exact ⟨rfl, rfl, rfl⟩

theorem get : Accesses scope (MonadState.get : Emit Progress) 1 := by
  refine quiet fun before result after hstep => ?_
  cases hstep
  exact ⟨rfl, rfl, rfl⟩

theorem mono {step : Emit α} (h : Accesses scope step uses)
    (hmore : ∀ trace ∈ uses, trace ∈ more) : Accesses scope step more := by
  intro before result after hstep
  obtain ⟨trace, htrace, hcode⟩ := h before result after hstep
  exact ⟨trace, hmore trace htrace, hcode⟩

theorem left {step : Emit α} (h : Accesses scope step uses) : Accesses scope step (uses + more) :=
  h.mono fun _ => Or.inl

theorem right {step : Emit α} (h : Accesses scope step more) : Accesses scope step (uses + more) :=
  h.mono fun _ => Or.inr

theorem bind {step : Emit α} {next : α → Emit β} (hstep : Accesses scope step uses)
    (hnext : ∀ value, Accesses scope (next value) more) :
    Accesses scope (step >>= next) (uses * more) := by
  intro before result after hrun
  obtain ⟨value, middle, hfirst, hsecond⟩ := bind_ok hrun
  obtain ⟨first, hfirstUses, code, hcode, hadds⟩ := hstep before value middle hfirst
  obtain ⟨second, hsecondUses, rest, hrest, hmore⟩ := hnext value middle result after hsecond
  exact ⟨first ++ second, Language.append_mem_mul hfirstUses hsecondUses, code ++ rest,
    hcode.append hrest, hadds.trans hmore⟩

theorem skip {step : Emit α} {next : α → Emit β} (hstep : Accesses scope step 1)
    (hnext : ∀ value, Accesses scope (next value) uses) : Accesses scope (step >>= next) uses := by
  have h := hstep.bind hnext
  rwa [one_mul] at h

theorem thenSilent {step : Emit α} {next : α → Emit β} (hstep : Accesses scope step uses)
    (hnext : ∀ value, Accesses scope (next value) 1) : Accesses scope (step >>= next) uses := by
  have h := hstep.bind hnext
  rwa [mul_one] at h

theorem look {step : Emit α} {next : α → Emit β} {found : α → Prop}
    (hstep : ∀ before value after, step scope before = .ok value after →
      before = after ∧ found value)
    (hnext : ∀ value, found value → Accesses scope (next value) uses) :
    Accesses scope (step >>= next) uses := by
  intro before result after hrun
  obtain ⟨value, middle, hfirst, hsecond⟩ := bind_ok hrun
  obtain ⟨rfl, hfound⟩ := hstep before value middle hfirst
  exact hnext value hfound before result after hsecond

theorem ite {condition : Prop} [Decidable condition] {yes no : Emit α}
    (hyes : condition → Accesses scope yes uses) (hno : ¬condition → Accesses scope no uses) :
    Accesses scope (if condition then yes else no) uses := by
  split
  · exact hyes ‹_›
  · exact hno ‹_›

theorem emit {instr : Instr} (h : instr.accessesVariable = false) :
    Accesses scope (Emit.emit instr) 1 := by
  refine silent fun before result after hstep => ⟨[instr], by simpa using h, ?_⟩
  cases hstep
  exact ⟨rfl, rfl, rfl⟩

theorem use {use : RegisterUse} {instr : Instr} (h : scope.Performs use instr) :
    Accesses scope (Emit.emit instr) {[use]} := by
  intro before result after hstep
  refine ⟨[use], rfl, [instr], .use h .nil, ?_⟩
  cases hstep
  exact ⟨rfl, rfl, rfl⟩

theorem emit_bind {instr : Instr} {next : Unit → Emit α} (h : instr.accessesVariable = false)
    (hnext : Accesses scope (next ()) uses) : Accesses scope (Emit.emit instr >>= next) uses :=
  (emit h).skip fun _ => hnext

theorem mark (label : Label) : Accesses scope (Emit.mark label) 1 := by
  refine silent fun before result after hstep => ⟨[.markLabel label], by simp; rfl, ?_⟩
  cases hstep
  exact ⟨rfl, rfl, rfl⟩

theorem newLabel : Accesses scope Emit.newLabel 1 := by
  refine quiet fun before result after hstep => ?_
  cases hstep
  exact ⟨rfl, rfl, rfl⟩

theorem forM_star (items : List α) {step : α → Emit PUnit}
    (h : ∀ item, Accesses scope (step item) uses) : Accesses scope (items.forM step) uses∗ := by
  induction items with
  | nil =>
      have hnone : 1 ≤ uses∗ := one_le_kstar
      exact (pure _).mono fun _ hnil => hnone hnil
  | cons item items ih =>
      have hmore : uses * uses∗ ≤ uses∗ := mul_kstar_le_kstar
      exact ((h item).bind fun _ => ih).mono fun _ hmul => hmore hmul

theorem forM {items : List α} {step : α → Emit PUnit} (h : ∀ item, Accesses scope (step item) 1) :
    Accesses scope (items.forM step) 1 := by
  have hall := forM_star items h
  rwa [kstar_one] at hall

theorem mapM {items : List α} {step : α → Emit β} (h : ∀ item, Accesses scope (step item) 1) :
    Accesses scope (items.mapM step) 1 := by
  induction items with
  | nil => exact pure _
  | cons item items ih =>
      rw [List.mapM_cons]
      exact (h item).skip fun _ => ih.skip fun _ => pure _

end Accesses

/-! ### Elementary steps -/

section Elementary

variable {scope : Scope} {uses : Language RegisterUse}

theorem accesses_unsupported (found : String) : Accesses scope (unsupported found : Emit α) uses :=
  Accesses.fails fun _ => rfl

theorem accesses_throwAt (error : Site → LoweringError) :
    Accesses scope (do throw (error (← site)) : Emit α) uses :=
  Accesses.fails fun _ => rfl

theorem accesses_orUnsupported (value : Option α) (found : String) :
    Accesses scope (orUnsupported value found) 1 := by
  cases value with
  | some value => exact Accesses.pure value
  | none => exact accesses_unsupported found

theorem accesses_ofExcept (result : Except LoweringError α) :
    Accesses scope (ofExcept result) 1 := by
  cases result with
  | ok value => exact Accesses.pure value
  | error error => exact Accesses.fails fun _ => rfl

theorem accesses_bridge : Accesses scope bridge 1 := by
  refine Accesses.quiet fun before result after hstep => ?_
  cases hstep
  exact ⟨rfl, rfl, rfl⟩

theorem accesses_callRuntime (member : RuntimeMember) : Accesses scope (callRuntime member) 1 := by
  unfold callRuntime
  split <;> exact Accesses.emit rfl

theorem accesses_gap : Accesses scope gap 1 := by
  refine Accesses.read.skip fun other => ?_
  split
  · exact Accesses.fails fun _ => rfl
  · refine Accesses.skip ?_ fun _ => Accesses.emit rfl
    refine Accesses.quiet fun before result after hstep => ?_
    cases hstep
    exact ⟨rfl, rfl, rfl⟩

theorem accesses_sequencePoint : Accesses scope sequencePoint 1 := by
  refine Accesses.get.skip fun progress => Accesses.read.skip fun other => ?_
  split
  · exact Accesses.pure ()
  · refine Accesses.ite (fun _ => .emit_bind rfl ?_) fun _ => Accesses.pure ()
    refine Accesses.quiet fun before result after hstep => ?_
    cases hstep
    exact ⟨rfl, rfl, rfl⟩

theorem accesses_begin (position : Nat) (opcode : Opcode) :
    Accesses scope (begin position opcode) 1 := by
  refine Accesses.skip ?_ fun _ => Accesses.read.skip fun other => ?_
  · refine Accesses.quiet fun before result after hstep => ?_
    cases hstep
    exact ⟨rfl, rfl, rfl⟩
  · dsimp only
    split
    · exact (Accesses.mark position).skip fun _ => accesses_sequencePoint
    · exact accesses_sequencePoint

theorem accesses_registerIndex (register : Int) : Accesses scope (registerIndex register) 1 := by
  refine Accesses.quiet fun before result after hstep => ?_
  obtain ⟨rfl, -⟩ := registerIndex_ok hstep
  exact ⟨rfl, rfl, rfl⟩

theorem accesses_registerType (register : Int) : Accesses scope (registerType register) 1 :=
  (accesses_registerIndex register).skip fun _ => Accesses.read.skip fun _ => Accesses.pure _

theorem accesses_sourceTypeIndex (register : Int) : Accesses scope (sourceTypeIndex register) 1 :=
  (accesses_registerIndex register).skip fun _ => Accesses.read.skip fun _ => Accesses.pure _

theorem accesses_sourceType (register : Int) : Accesses scope (sourceType register) 1 := by
  refine Accesses.read.skip fun other => (accesses_sourceTypeIndex register).skip fun index => ?_
  split
  · exact Accesses.pure _
  · exact Accesses.fails fun _ => rfl

end Elementary

/-! ### Conversions -/

section Conversion

variable {scope : Scope}

theorem accesses_pushDefault (type : TargetType) : Accesses scope (pushDefault type) 1 := by
  refine Accesses.emit ?_
  unfold defaultInstr
  split <;> rfl

theorem accesses_convertNumeric (source target : TargetType) :
    Accesses scope (convertNumeric source target) 1 := by
  unfold convertNumeric
  split
  · exact Accesses.emit rfl
  · exact Accesses.pure ()

theorem accesses_unwrapObject (target : TargetType) (checked : Bool) :
    Accesses scope (unwrapObject target checked) 1 := by
  refine Accesses.ite (fun _ => ?_) fun _ => ?_
  · exact .emit_bind rfl accesses_bridge
  · exact Accesses.ite (fun _ => Accesses.emit rfl) fun _ => Accesses.pure ()

theorem accesses_convertReference (source target : TargetType) (checked : Bool) :
    Accesses scope (convertReference source target checked) 1 :=
  Accesses.read.skip fun _ =>
    Accesses.ite (fun _ => Accesses.emit rfl) fun _ => Accesses.pure ()

theorem accesses_wrapDynamic (source : TargetType) : Accesses scope (wrapDynamic source) 1 := by
  have hbox : Accesses scope (boxIfValue source) 1 :=
    Accesses.ite (fun _ => Accesses.emit rfl) fun _ => Accesses.pure ()
  exact hbox.skip fun _ => (accesses_callRuntime .dynamicNew).skip fun _ => accesses_bridge

theorem accesses_wrapAny (source : TargetType) : Accesses scope (wrapAny source) 1 :=
  Accesses.ite (fun _ => .emit_bind rfl accesses_bridge) fun _ => Accesses.pure ()

theorem accesses_convertPlain (source target : TargetType) (checked : Bool) :
    Accesses scope (convertPlain source target checked) 1 := by
  unfold convertPlain
  split
  · exact Accesses.emit rfl
  · refine Accesses.ite (fun _ => ?_) fun _ => Accesses.pure ()
    exact .emit_bind rfl (accesses_pushDefault _)
  · refine Accesses.ite (fun _ => accesses_convertNumeric _ _) fun _ => ?_
    split
    · exact accesses_wrapDynamic _
    · exact accesses_wrapAny _
    · refine (accesses_callRuntime .dynamicValue).skip fun _ => ?_
      exact accesses_bridge.skip fun _ => accesses_unwrapObject _ checked
    · exact accesses_unwrapObject _ checked
    · exact Accesses.ite (fun _ => accesses_unsupported _) fun _ => accesses_convertReference _ _ _

theorem accesses_convertInto (checked : Bool) (source target : TargetType) :
    Accesses scope (convertInto checked source target) 1 := by
  induction target using convertInto.induct source with
  | case1 inner hsame =>
      rw [convertInto, if_pos hsame]
      exact Accesses.pure ()
  | case2 inner hother hvalue ih =>
      rw [convertInto, if_neg hother, if_pos hvalue]
      exact ih.skip fun _ => accesses_callRuntime _
  | case3 inner hother hvalue ih =>
      rw [convertInto, if_neg hother, if_neg hvalue]
      refine Accesses.newLabel.skip fun empty => Accesses.newLabel.skip fun done => ?_
      refine .emit_bind rfl (.emit_bind rfl ?_)
      refine ih.skip fun _ => (accesses_callRuntime _).skip fun _ => .emit_bind rfl ?_
      refine (Accesses.mark empty).skip fun _ => .emit_bind rfl ?_
      exact (accesses_pushDefault _).skip fun _ => Accesses.mark done
  | case4 hnullable =>
      rw [convertInto, if_pos rfl]
      · exact Accesses.pure ()
      · exact hnullable
  | case5 target hnullable hother =>
      rw [convertInto, if_neg hother]
      · exact accesses_convertPlain source target checked
      · exact hnullable

theorem accesses_convert (checked : Bool) (source target : TargetType) :
    Accesses scope (convert checked source target) 1 := by
  induction source, target using convert.induct with
  | case1 inner =>
      rw [convert, if_pos rfl]
      exact Accesses.pure ()
  | case2 inner target hother hplain =>
      rw [convert, if_neg hother, if_pos hplain]
      exact accesses_convertPlain _ target checked
  | case3 inner target hother hplain ih =>
      rw [convert, if_neg hother, if_neg hplain]
      exact (accesses_callRuntime (.nullableValue inner)).skip fun _ => ih
  | case4 source target hnullable =>
      rw [convert]
      · exact accesses_convertInto checked source target
      · exact hnullable

end Conversion

/-! ### Loads and stores -/

section Registers

variable {scope : Scope} (hscope : scope.registerTypes.length ≤ maxRegisters)

include hscope

theorem performs_of_index {use : RegisterUse} {index : Nat} {type : TargetType} {instr : Instr}
    (hregister : use.register.toNat? = some index)
    (htype : scope.registerTypes[index]? = some type)
    (hnothing : type = .void → instr = use.nothing)
    (hargument : type ≠ .void → index < scope.parameterCount →
      instr = use.argument (UInt16.ofNat index))
    (hslot : type ≠ .void → ¬index < scope.parameterCount →
      instr = use.slot (UInt16.ofNat (index - scope.parameterCount))) :
    scope.Performs use instr := by
  have hindex := (List.getElem?_eq_some_iff.mp htype).1
  have hnumber {number : Nat} (hle : number ≤ index) : (UInt16.ofNat number).toNat = number := by
    refine UInt16.toNat_ofNat_of_lt' ?_
    simp only [maxRegisters, UInt16.size] at hscope ⊢
    omega
  have hregister : use.register = index := Int.mem_toNat?.mp hregister
  by_cases hvoid : type = .void
  · rw [hnothing hvoid]
    exact .nothing hregister (hvoid ▸ htype)
  · by_cases hparameter : index < scope.parameterCount
    · rw [hargument hvoid hparameter]
      exact .argument hregister htype hvoid hparameter (hnumber (Nat.le_refl _))
    · rw [hslot hvoid hparameter]
      refine .slot hregister htype hvoid ?_
      rw [hnumber (Nat.sub_le _ _)]
      omega

theorem accesses_load (register : Int) : Accesses scope (load register) {[.read register]} := by
  refine Accesses.look (fun _ _ _ => registerIndex_ok) ?_
  rintro index ⟨hindex, -⟩
  refine Accesses.look (fun _ _ _ => registerType_ok) fun type htype => ?_
  refine Accesses.look (fun _ _ _ hstep => (read_ok hstep).symm) ?_
  rintro _ rfl
  refine (Accesses.use ?_).thenSilent fun _ => Accesses.pure type
  rw [Scope.typeOf?, hindex, Option.bind_some] at htype
  refine performs_of_index hscope hindex htype ?_ ?_ ?_
  all_goals
    intro hvoid
    simp +contextual [loadInstr, hvoid, RegisterUse.nothing, RegisterUse.argument, RegisterUse.slot]

theorem accesses_store (register : Int) : Accesses scope (store register) {[.write register]} := by
  refine Accesses.look (fun _ _ _ => registerIndex_ok) ?_
  rintro index ⟨hindex, -⟩
  refine Accesses.look (fun _ _ _ => registerType_ok) fun type htype => ?_
  refine Accesses.look (fun _ _ _ hstep => (read_ok hstep).symm) ?_
  rintro _ rfl
  refine Accesses.use ?_
  rw [Scope.typeOf?, hindex, Option.bind_some] at htype
  refine performs_of_index hscope hindex htype ?_ ?_ ?_
  all_goals
    intro hvoid
    simp +contextual [storeInstr, hvoid, RegisterUse.nothing, RegisterUse.argument,
      RegisterUse.slot]

theorem accesses_loadAs (register : Int) (target : TargetType) :
    Accesses scope (loadAs register target) {[.read register]} :=
  (accesses_load hscope register).thenSilent fun source => accesses_convert true source target

theorem accesses_storeFrom (register : Int) (source : TargetType) :
    Accesses scope (storeFrom register source) {[.write register]} :=
  (accesses_registerType register).skip fun target =>
    (accesses_convert true source target).skip fun _ => accesses_store hscope register

end Registers

end Emit

end BytecodeLowering

import BytecodeLowering.Body.Function
import BytecodeLowering.Proofs.Lower.Steps
import BytecodeLowering.Proofs.Target.Integers

/-!
# Code that computes

A lowering step computes when the code that it appends takes the machine from
one state to another.  The judgement follows the steps of the lowering, so a
value is traced from the registers through conversions and operations back to
a register without a look at the code itself.
-/

namespace BytecodeLowering

/-! ## Registers of a body -/

namespace Activation

variable {α : Type} (scope : Scope)

def read (state : Activation α) (index : Nat) : Slot α :=
  if index < scope.parameterCount then state.args (UInt16.ofNat index)
  else state.locals (UInt16.ofNat (index - scope.parameterCount))

def write (state : Activation α) (index : Nat) (slot : Slot α) : Activation α :=
  if index < scope.parameterCount then
    { state with args := Function.update state.args (UInt16.ofNat index) slot }
  else
    { state with
      locals := Function.update state.locals (UInt16.ofNat (index - scope.parameterCount)) slot }

variable {scope} {state : Activation α} {index other : Nat} {slot : Slot α}

theorem stack_write : (state.write scope index slot).stack = state.stack := by
  unfold write
  split <;> rfl

theorem read_write_same : (state.write scope index slot).read scope index = slot := by
  unfold read write
  split
  · exact Function.update_self ..
  · exact Function.update_self ..

theorem ofNat_ne {a b : Nat} (ha : a < 0x10000) (hb : b < 0x10000) (h : a ≠ b) :
    UInt16.ofNat a ≠ UInt16.ofNat b := by
  intro hsame
  have hvalues := congrArg UInt16.toNat hsame
  simp only [UInt16.toNat_ofNat'] at hvalues
  omega

theorem read_write_other (hindex : index < 0x10000) (hother : other < 0x10000)
    (h : other ≠ index) : (state.write scope index slot).read scope other = state.read scope other := by
  unfold read write
  split
  · split
    · exact Function.update_of_ne (ofNat_ne hother hindex h) ..
    · rfl
  · split
    · rfl
    · exact Function.update_of_ne (ofNat_ne (by omega) (by omega) (by omega)) ..

end Activation

/-- A register of an integer type holds a number of its type. -/
def Scope.Holds {α : Type} (scope : Scope) (state : Activation α) (register value : Int) : Prop :=
  ∃ (index : Nat) (type : IntegerType), register = index ∧
    scope.registerTypes[index]? = some type.target ∧ type.InRange value ∧
    state.read scope index = type.slot value

theorem FunctionDef.registers_le {function : FunctionDef} {image : Image} {registry : Registry}
    {settings : Settings} {signature : Signature} {scope : Scope}
    (h : function.scope image registry settings signature = .ok scope) :
    scope.registerTypes.length ≤ maxRegisters := by
  obtain ⟨flow, -, hcreate⟩ := ok_of_bind h
  obtain ⟨types, -, hcreate⟩ := ok_of_bind hcreate
  dsimp only at hcreate
  split at hcreate
  · cases hcreate
  · rename_i hcount
    cases hcreate
    exact Nat.le_of_not_lt fun hlarge => hcount (.inr hlarge)

/-! ## Steps -/

def Progress.followedBy (progress : Progress) (code : List Instr) : Progress :=
  { progress with
    builder := { progress.builder with body := progress.builder.body ++ code } }

namespace Emit

/-- The step emits code that takes the machine from one state to another. -/
def Computes {α β : Type} (scope : Scope) (strict : Bool) (step : Emit β) (value : β)
    (state after : Activation α) : Prop :=
  ∃ code, (∀ before, step scope before = .ok value (before.followedBy code)) ∧
    Activation.run strict code state = some after

namespace Computes

variable {α β γ : Type} {scope : Scope} {strict : Bool} {state middle after : Activation α}

theorem pure (value : β) : Computes scope strict (Pure.pure value) value state state := by
  refine ⟨[], fun before => ?_, rfl⟩
  rw [Progress.followedBy, List.append_nil]
  rfl

theorem bind {step : Emit β} {next : β → Emit γ} {first : β} {value : γ}
    (h : Computes scope strict step first state middle)
    (hnext : Computes scope strict (next first) value middle after) :
    Computes scope strict (step >>= next) value state after := by
  obtain ⟨code, hcode, hrun⟩ := h
  obtain ⟨more, hmore, hrest⟩ := hnext
  refine ⟨code ++ more, fun before => ?_, ?_⟩
  · change EStateM.bind (step scope) (fun found => next found scope) before = _
    rw [EStateM.bind, hcode before]
    simp only
    rw [hmore, Progress.followedBy, Progress.followedBy, Progress.followedBy, List.append_assoc]
  · rw [Activation.run_append, hrun]
    exact hrest

theorem read : Computes scope strict (MonadReader.read : Emit Scope) scope state state := by
  refine ⟨[], fun before => ?_, rfl⟩
  rw [Progress.followedBy, List.append_nil]
  rfl

theorem emit {instr : Instr} (h : state.effect strict instr = some after) :
    Computes scope strict (emit instr) () state after := by
  refine ⟨[instr], fun before => rfl, ?_⟩
  rw [Activation.run, h]
  rfl

end Computes

/-! ## Values between registers and the stack -/

section Registers

variable {α : Type} {scope : Scope} {strict : Bool} {state : Activation α} {index : Nat}
  {type : TargetType}

theorem registerIndex_computes (h : index < scope.registerTypes.length) :
    Computes scope strict (registerIndex index) index state state := by
  refine Computes.read.bind ?_
  rw [if_pos h]
  exact .pure index

variable (hindex : scope.registerTypes[index]? = some type)

include hindex

theorem registerIndex_lt : index < scope.registerTypes.length :=
  (List.getElem?_eq_some_iff.mp hindex).1

theorem registerType_computes :
    Computes scope strict (registerType index) type state state := by
  refine (registerIndex_computes (registerIndex_lt hindex)).bind (Computes.read.bind ?_)
  rw [List.getD_eq_getElem?_getD, hindex]
  exact .pure type

variable (hvoid : type ≠ .void)

include hvoid

theorem load_computes :
    Computes scope strict (load index) type state (state.push (state.read scope index)) := by
  have heffect : state.effect strict (loadInstr scope index type) =
      some (state.push (state.read scope index)) := by
    have hinstr : loadInstr scope index type =
        if index < scope.parameterCount then .ldArg (UInt16.ofNat index)
        else .ldLoc (UInt16.ofNat (index - scope.parameterCount)) := by
      unfold loadInstr
      split
      · exact absurd rfl hvoid
      · rfl
    rw [hinstr, Activation.read]
    split <;> rfl
  refine (registerIndex_computes (registerIndex_lt hindex)).bind ?_
  refine (registerType_computes hindex).bind (Computes.read.bind ?_)
  exact (Computes.emit heffect).bind (.pure _)

theorem store_computes (slot : Slot α) :
    Computes scope strict (store index) () (state.push slot) (state.write scope index slot) := by
  have heffect : (state.push slot).effect strict (storeInstr scope index type) =
      some (state.write scope index slot) := by
    have hinstr : storeInstr scope index type =
        if index < scope.parameterCount then .stArg (UInt16.ofNat index)
        else .stLoc (UInt16.ofNat (index - scope.parameterCount)) := by
      unfold storeInstr
      split
      · exact absurd rfl hvoid
      · rfl
    rw [hinstr, Activation.write]
    split <;> rfl
  refine (registerIndex_computes (registerIndex_lt hindex)).bind ?_
  exact (registerType_computes hindex).bind (Computes.read.bind (.emit heffect))

end Registers

/-! ## Conversions between integer types -/

section Conversions

variable {α : Type} {scope : Scope} {strict : Bool} {state : Activation α}

theorem coerce_same (type : IntegerType) : coerce type.target type.target = pure () := by
  cases type <;> rfl

theorem coerce_other {source target : IntegerType} (h : source ≠ target) :
    coerce source.target target.target = convertNumeric source.target target.target := by
  cases source <;> cases target <;> first | rfl | exact absurd rfl h

theorem conv_computes {conversion : Conversion} {slot result : Slot α}
    (h : Slot.conv conversion slot = some result) :
    Computes scope strict (emit (.conv conversion)) () (state.push slot) (state.push result) := by
  refine .emit ?_
  change (Slot.conv conversion slot).map _ = _
  rw [h]
  rfl

theorem coerce_computes (source target : IntegerType) {value : Int} (h : source.InRange value) :
    Computes scope strict (coerce source.target target.target) () (state.push (source.slot value))
      (state.push (target.slot (target.reduce value))) := by
  by_cases hsame : source = target
  · subst hsame
    rw [coerce_same, IntegerType.reduce_of_inRange h]
    exact .pure ()
  · rw [coerce_other hsame]
    have hwidens (hwider : source.least = 0 ∧ 0 ≤ -target.least)
        (hfits : (source.modulus : Int) ≤ target.least + target.modulus) : target.InRange value := by
      obtain ⟨hlow, hhigh⟩ := h
      constructor <;> omega
    cases target with
    | u8 =>
        have hcode : convertNumeric source.target .u8 = emit (.conv .u1) := by cases source <;> rfl
        exact hcode ▸ conv_computes (Slot.conv_u1 source value)
    | u16 =>
        cases source with
        | u8 =>
            rw [IntegerType.reduce_of_inRange (hwidens (by decide) (by decide))]
            exact .pure ()
        | u16 => exact absurd rfl hsame
        | i32 | i64 => exact conv_computes (Slot.conv_u2 _ value)
    | i32 =>
        cases source with
        | u8 | u16 =>
            rw [IntegerType.reduce_of_inRange (hwidens (by decide) (by decide))]
            exact .pure ()
        | i32 => exact absurd rfl hsame
        | i64 => exact conv_computes (Slot.conv_i4 value)
    | i64 => exact conv_computes (Slot.conv_i8 h)

theorem loadAs_computes {index : Nat} {source : IntegerType}
    (hindex : scope.registerTypes[index]? = some source.target) (target : IntegerType) {value : Int}
    (hvalue : state.read scope index = source.slot value) (h : source.InRange value) :
    Computes scope strict (loadAs index target.target) () state
      (state.push (target.slot (target.reduce value))) := by
  have hload := @load_computes α scope strict state index _ hindex source.target_ne_void
  rw [hvalue] at hload
  exact hload.bind (coerce_computes source target h)

end Conversions

end Emit

end BytecodeLowering

import BytecodeLowering.Lower.Program
import BytecodeLowering.Proofs.Body.Computation
import BytecodeLowering.Proofs.Body.Fragment
import BytecodeLowering.Proofs.Target.Stretch

/-!
# Branches on comparisons of integers

A comparison loads its two registers in a type that holds both numbers, so what
is compared are the numbers themselves.  The negated comparisons are lowered to
the forms that are taken for unordered floats; between integers those read the
numbers without a sign, so they are the complements of the plain comparisons
only when both numbers have the same sign.
-/

namespace BytecodeLowering

/-! ## Numbers in registers -/

inductive NumberType where
  | bool
  | integer (type : IntegerType)
  deriving DecidableEq, Repr

namespace NumberType

def target : NumberType → TargetType
  | .bool => .bool
  | .integer type => type.target

def carrier : NumberType → IntegerType
  | .bool => .u8
  | .integer type => type

/-- A bool is zero or one. -/
def InRange (value : Int) : NumberType → Prop
  | .bool => 0 ≤ value ∧ value < 2
  | .integer type => type.InRange value

def join (a b : NumberType) : IntegerType :=
  if a = .integer .i64 ∨ b = .integer .i64 then .i64 else .i32

theorem comparedAs_eq_join (a b : NumberType) :
    a.target.comparedAs b.target = (a.join b).target := by
  cases a with
  | bool => rcases b with _ | (_ | _ | _ | _) <;> rfl
  | integer type => cases type <;> rcases b with _ | (_ | _ | _ | _) <;> rfl

variable {kind : NumberType} {value : Int}

theorem InRange.carried (h : kind.InRange value) : kind.carrier.InRange value := by
  cases kind with
  | bool =>
      obtain ⟨hlow, hhigh⟩ := h
      constructor <;> simp only [carrier, IntegerType.least, IntegerType.modulus] <;> omega
  | integer type => exact h

/-- A word holds all numbers but those of 64 bits, and a long holds them all. -/
theorem InRange.widened (h : kind.InRange value) {wide : IntegerType}
    (hwide : wide = .i64 ∨ wide = .i32 ∧ kind ≠ .integer .i64) : wide.InRange value := by
  obtain ⟨hlow, hhigh⟩ := h.carried
  have hbounds : wide.least ≤ kind.carrier.least ∧
      kind.carrier.least + kind.carrier.modulus ≤ wide.least + wide.modulus := by
    obtain rfl | ⟨rfl, hother⟩ := hwide
    · rcases kind with _ | (_ | _ | _ | _) <;> decide
    · rcases kind with _ | (_ | _ | _ | _) <;> first | decide | exact absurd rfl hother
  constructor <;> omega

theorem join_cases (a b : NumberType) :
    (a.join b = .i64 ∨ a.join b = .i32 ∧ a ≠ .integer .i64) ∧
      (a.join b = .i64 ∨ a.join b = .i32 ∧ b ≠ .integer .i64) := by
  unfold join
  split
  · simp
  · simp_all

end NumberType

def Scope.HoldsNumber {α : Type} (scope : Scope) (state : Activation α) (register : Int)
    (kind : NumberType) (value : Int) : Prop :=
  ∃ index : Nat, register = index ∧ scope.registerTypes[index]? = some kind.target ∧
    kind.InRange value ∧ state.read scope index = kind.carrier.slot value

theorem Scope.HoldsNumber.inRange {α : Type} {scope : Scope} {state : Activation α}
    {kind : NumberType} {register value : Int} (h : scope.HoldsNumber state register kind value) :
    kind.InRange value := by
  obtain ⟨-, -, -, hrange, -⟩ := h
  exact hrange

namespace Emit

variable {α : Type} {scope : Scope} {strict : Bool} {state : Activation α}

theorem registerNumber_computes {kind : NumberType} {register value : Int}
    (h : scope.HoldsNumber state register kind value) :
    Computes scope strict (registerType register) kind.target state state := by
  obtain ⟨index, rfl, htype, -⟩ := h
  exact registerType_computes htype

theorem loadNumber_computes {kind : NumberType} {register value : Int} {wide : IntegerType}
    (h : scope.HoldsNumber state register kind value)
    (hwide : wide = .i64 ∨ wide = .i32 ∧ kind ≠ .integer .i64) :
    Computes scope strict (loadAs register wide.target) () state (state.push (wide.slot value)) := by
  obtain ⟨index, rfl, htype, hrange, hread⟩ := h
  have hfits := IntegerType.reduce_of_inRange (hrange.widened hwide)
  cases kind with
  | integer type =>
      have hload := @loadAs_computes α scope strict state index type htype wide value hread hrange
      rwa [hfits] at hload
  | bool =>
      have hload := @load_computes α scope strict state index .bool htype nofun
      rw [hread] at hload
      refine hload.bind ?_
      obtain rfl | ⟨rfl, -⟩ := hwide
      · have hconv := @Slot.conv_i8 α .u8 value hrange.carried
        rw [hfits] at hconv
        exact conv_computes hconv
      · exact .pure ()

end Emit

/-! ## Comparisons -/

def Comparison.Says (type : IntegerType) (a b : Int) : Comparison → Prop
  | .eq => a = b
  | .ne => a ≠ b
  | .lt => a < b
  | .ge => b ≤ a
  | .gt => b < a
  | .le => a ≤ b
  | .ltUn => type.pattern a < type.pattern b
  | .geUn => type.pattern b ≤ type.pattern a

theorem Comparison.holds_bits {type : IntegerType} {a b : Int} (ha : type.InRange a)
    (hb : type.InRange b) (comparison : Comparison) :
    comparison.holds (type.bits a) (type.bits b) = true ↔ comparison.Says type a b := by
  have hinj : type.bits a = type.bits b ↔ a = b :=
    ⟨fun h => by rw [← IntegerType.toInt_bits ha, h, IntegerType.toInt_bits hb], fun h => h ▸ rfl⟩
  cases comparison <;>
    simp [holds, Says, BitVec.slt_eq_decide, BitVec.sle_eq_decide, BitVec.ult_eq_decide,
      BitVec.ule_eq_decide, IntegerType.toInt_bits, IntegerType.toNat_bits, ha, hb, hinj]

theorem Slot.compare_slots {α : Type} (type : IntegerType) (a b : Int) (comparison : Comparison) :
    compare comparison (type.slot a : Slot α) (type.slot b) =
      some (comparison.holds (type.bits a) (type.bits b)) := by
  cases type <;> rfl

/-! ## Branches -/

/-- The code, with the own labels from `first` to before `next`, goes to the
place that a label has elsewhere in the body when a condition holds, and behind
its own end when not.  Either way it only changes the stack. -/
structure BranchesIf {α : Type} (host : Host α) (module : TargetModule) (condition : Prop)
    (target : Label) (first : Nat) (code : List Instr) (next : Nat) (state after : MachineState α) :
    Prop where
  taken : condition → ∀ (before behind : List Instr) (results : Nat) (callers : List (CallFrame α))
    (place : Nat), Apart first next before behind →
      (before ++ (code ++ behind)).idxOf? (.markLabel target) = some place →
      (place < before.length ∨ before.length + code.length ≤ place) →
      ∃ stack, host.Reaches module
        (.at (before ++ (code ++ behind)) results callers before.length state)
        (.at (before ++ (code ++ behind)) results callers place
          (after.1, { after.2 with stack }))
  passed : ¬ condition → ∀ (before behind : List Instr) (results : Nat)
    (callers : List (CallFrame α)), Apart first next before behind →
      host.Reaches module
        (.at (before ++ (code ++ behind)) results callers before.length state)
        (.at (before ++ (code ++ behind)) results callers (before.length + code.length) after)

namespace BranchesIf

variable {α : Type} {host : Host α} {module : TargetModule} {condition : Prop} {target : Label}
  {first next : Nat} {code : List Instr} {state between after : MachineState α}

theorem prepend {load : List Instr} (hload : Executes host module first load first state between)
    (h : BranchesIf host module condition target first code next between after) :
    BranchesIf host module condition target first (load ++ code) next state after := by
  have hmarks (label : Nat) : .markLabel label ∉ load := fun hmem =>
    absurd (hload.own label hmem).2 (Nat.not_lt_of_le (hload.own label hmem).1)
  have hstart (before behind : List Instr) (results : Nat) (callers : List (CallFrame α)) :=
    hload.reaches before (code ++ behind) results callers
      fun label hlow hhigh => absurd hhigh (Nat.not_lt_of_le hlow)
  have hapart {before behind : List Instr} (hlabels : Apart first next before behind) :
      Apart first next (before ++ load) behind := fun label hlow hhigh =>
    ⟨by simp [(hlabels label hlow hhigh).1, hmarks], (hlabels label hlow hhigh).2⟩
  constructor
  · intro hcondition before behind results callers place hlabels hplace houtside
    have houtside' : place < (before ++ load).length ∨
        (before ++ load).length + code.length ≤ place := by
      simp only [List.length_append] at houtside ⊢
      omega
    obtain ⟨stack, hreaches⟩ := h.taken hcondition (before ++ load) behind results callers place
      (hapart hlabels) (by simpa using hplace) houtside'
    refine ⟨stack, ?_⟩
    have hfirst := hstart before behind results callers
    simp only [List.append_assoc, List.length_append] at hreaches hfirst ⊢
    exact hfirst.trans hreaches
  · intro hcondition before behind results callers hlabels
    have hreaches := h.passed hcondition (before ++ load) behind results callers (hapart hlabels)
    have hfirst := hstart before behind results callers
    simp only [List.append_assoc, List.length_append, ← Nat.add_assoc] at hreaches hfirst ⊢
    exact hfirst.trans hreaches

end BranchesIf

namespace Emit

def branchCode (leaves : Bool) (fresh : Nat) (target : Label) (make : Label → Instr) : List Instr :=
  if leaves then [make fresh, .br (fresh + 1), .markLabel fresh, .leave target, .markLabel (fresh + 1)]
  else [make target]

section Test

variable {α : Type} {host : Host α} {module : TargetModule} {target : Label} {world : World α}
  {activation : Activation (Content α)} {comparison : Comparison} {a b : Value α} {taken : Bool}

theorem branchesIf_plain (htaken : Slot.compare comparison a b = some taken) (first : Nat) :
    BranchesIf host module (taken = true) target first [.branch comparison target] first
      (world, (activation.push a).push b) (world, activation) := by
  constructor
  · rintro rfl before behind results callers place - hplace -
    exact ⟨activation.stack, .single (Host.step_at_branch_taken (by simp) htaken hplace)⟩
  · intro hpassed before behind results callers _
    rw [Bool.not_eq_true] at hpassed
    subst hpassed
    exact .single (Host.step_at_branch_passed target (by simp) htaken)

theorem branchesIf_leave (htaken : Slot.compare comparison a b = some taken) (first : Nat) :
    BranchesIf host module (taken = true) target first
      [.branch comparison first, .br (first + 1), .markLabel first, .leave target,
        .markLabel (first + 1)] (first + 2)
      (world, (activation.push a).push b) (world, activation) := by
  constructor
  · rintro rfl before behind results callers place hlabels hplace -
    have hmark := @place_of_mark (before ++ [.branch comparison first, .br (first + 1)])
      ([.leave target, .markLabel (first + 1)] ++ behind) first
      (by simp [(hlabels first (Nat.le_refl _) (by omega)).1])
    simp only [List.append_assoc, List.cons_append, List.nil_append, List.length_append,
      List.length_cons, List.length_nil] at hmark hplace ⊢
    exact ⟨[], .head (Host.step_at_branch_taken (by simp) htaken hmark)
      (.head (Host.step_at_mark first (by simp))
        (.single (Host.step_at_leave (by simp [Nat.add_assoc]) hplace)))⟩
  · intro hpassed before behind results callers hlabels
    rw [Bool.not_eq_true] at hpassed
    subst hpassed
    have hmark := @place_of_mark (before ++ [.branch comparison first, .br (first + 1),
      .markLabel first, .leave target]) behind (first + 1)
      (by simp [(hlabels (first + 1) (by omega) (by omega)).1])
    simp only [List.append_assoc, List.cons_append, List.nil_append, List.length_append,
      List.length_cons, List.length_nil] at hmark ⊢
    exact .head (Host.step_at_branch_passed first (by simp) htaken)
      (.head (Host.step_at_br (by simp) hmark)
        (.single (Host.step_at_mark (first + 1) (by simp))))

theorem branchesIf_test {condition : Prop} (htaken : Slot.compare comparison a b = some taken)
    (hmeans : taken = true ↔ condition) (leaves : Bool) (first : Nat) :
    BranchesIf host module condition target first
      (branchCode leaves first target (.branch comparison)) (if leaves then first + 2 else first)
      (world, (activation.push a).push b) (world, activation) := by
  rw [← propext hmeans]
  cases leaves with
  | false => exact branchesIf_plain htaken first
  | true => exact branchesIf_leave htaken first

end Test

/-! ## The lowered instructions -/

theorem branch_run {scope : Scope} {before : Progress} {offset : Int} {target : Nat}
    (hoffset : Operation.branchTarget before.position offset = target)
    (htarget : target < scope.function.operations.length) (make : Label → Instr) :
    ∃ after, branch offset make scope before = .ok () after ∧
      after.builder.body = before.builder.body
        ++ branchCode (leavesTrap before offset) before.builder.labels.length target make ∧
      after.builder.labels.length = if leavesTrap before offset
        then before.builder.labels.length + 2 else before.builder.labels.length := by
  have hlabel : branchLabel offset scope before = .ok target before := by
    have hnat : (Operation.branchTarget before.position offset).toNat? = some target := by
      rw [hoffset]
      rfl
    unfold branchLabel
    rw [bind_of_ok (show (get : Emit Progress) scope before = .ok before before from rfl)]
    simp only [hnat]
    rw [bind_of_ok (show (read : Emit Scope) scope before = .ok scope before from rfl),
      if_pos htarget]
    rfl
  unfold branch
  rw [bind_of_ok hlabel, bind_of_ok (show (get : Emit Progress) scope before = .ok before before from rfl)]
  cases leavesTrap before offset with
  | false => exact ⟨_, rfl, rfl, rfl⟩
  | true =>
      refine ⟨_, rfl, ?_, ?_⟩
      · simp [branchCode, BodyBuilder.emit, BodyBuilder.mark]
      · simp [BodyBuilder.emit, BodyBuilder.mark]

/-- The step writes code that branches to the label on a condition, at any place
of the body and whatever was written before. -/
def Branches {α : Type} (host : Host α) (scope : Scope) (step : Emit Unit) (position : Nat)
    (condition : Prop) (target : Label) (state after : MachineState α) : Prop :=
  ∀ before : Progress, before.position = position → ∃ code last, step scope before = .ok () last ∧
    last.builder.body = before.builder.body ++ code ∧
      BranchesIf host scope.registry.target condition target before.builder.labels.length code
        last.builder.labels.length state after

section Compare

variable {α : Type} {host : Host α} {scope : Scope} {position target : Nat} {condition : Prop}
  {world : World α} {activation between : Activation (Content α)}

theorem Branches.bind {β : Type} {step : Emit β} {next : β → Emit Unit} {value : β}
    {after : MachineState α} (h : Computes scope host.strict step value activation between)
    (hnext : Branches host scope (next value) position condition target (world, between) after) :
    Branches host scope (step >>= next) position condition target (world, activation) after := by
  obtain ⟨load, hload, hrun⟩ := h
  intro before hposition
  obtain ⟨code, last, hlast, hbody, hbranches⟩ := hnext (before.followedBy load) hposition
  refine ⟨load ++ code, last, (bind_of_ok (hload before)).trans hlast, ?_, ?_⟩
  · rw [hbody, Progress.followedBy, List.append_assoc]
  · exact hbranches.prepend (.of_run hrun _)

theorem branch_branches {offset : Int} (hoffset : Operation.branchTarget position offset = target)
    (htarget : target < scope.function.operations.length) {comparison : Comparison}
    {a b : Value α} {taken : Bool} (htaken : Slot.compare comparison a b = some taken)
    (hmeans : taken = true ↔ condition) :
    Branches host scope (branch offset (.branch comparison)) position condition target
      (world, (activation.push a).push b) (world, activation) := by
  rintro before rfl
  obtain ⟨last, hlast, hbody, hlabels⟩ := branch_run hoffset htarget (.branch comparison)
  refine ⟨_, last, hlast, hbody, ?_⟩
  rw [hlabels]
  exact branchesIf_test htaken hmeans _ _

theorem compareBranch_branches {leftType rightType : NumberType} {left right a b offset : Int}
    (hleft : scope.HoldsNumber activation left leftType a)
    (hright : scope.HoldsNumber activation right rightType b)
    (hoffset : Operation.branchTarget position offset = target)
    (htarget : target < scope.function.operations.length) (comparison : Comparison) :
    Branches host scope (compareBranch comparison left right offset) position
      (comparison.Says (leftType.join rightType) a b) target (world, activation)
      (world, activation) := by
  obtain ⟨hwideLeft, hwideRight⟩ := leftType.join_cases rightType
  have hvalue : (leftType.join rightType).target.isValue = true := by
    cases leftType.join rightType <;> rfl
  have hloadLeft : Computes scope host.strict (loadAs left (leftType.join rightType).target) ()
      activation (activation.push ((leftType.join rightType).slot a)) :=
    loadNumber_computes hleft hwideLeft
  have hloadRight : Computes scope host.strict (loadAs right (leftType.join rightType).target) ()
      (activation.push ((leftType.join rightType).slot a))
      ((activation.push ((leftType.join rightType).slot a)).push
        ((leftType.join rightType).slot b)) := loadNumber_computes hright hwideRight
  have hmeans := Comparison.holds_bits (hleft.inRange.widened hwideLeft)
    (hright.inRange.widened hwideRight) comparison
  refine Branches.bind (registerNumber_computes hleft) (.bind (registerNumber_computes hright) ?_)
  rw [NumberType.comparedAs_eq_join]
  dsimp only
  rw [hvalue, Bool.not_true, Bool.false_and, if_neg Bool.false_ne_true]
  refine .bind hloadLeft (.bind hloadRight ?_)
  exact branch_branches hoffset htarget (Slot.compare_slots _ a b comparison) hmeans

end Compare

end Emit

/-! ## Negated comparisons -/

namespace IntegerType

/-- Numbers of one sign are ordered as their bits are. -/
theorem pattern_lt_iff {type : IntegerType} {a b : Int} (ha : type.InRange a)
    (hb : type.InRange b) :
    (type.pattern a < type.pattern b ↔ a < b) ↔ (a < 0 ↔ b < 0) := by
  obtain ⟨hlowA, hhighA⟩ := ha
  obtain ⟨hlowB, hhighB⟩ := hb
  cases type <;> simp only [least, modulus, pattern] at * <;> omega

end IntegerType

/-- On two integer registers the comparison that is taken when less and its
negation, and likewise the other pair, branch on opposite conditions if and only
if the numbers are both negative or both not: the negations compare the
numbers without a sign. -/
theorem negated_comparisons {α : Type} (host : Host α) (scope : Scope) (params : List Int)
    (position target : Nat) (world : World α) (activation : Activation (Content α))
    {leftType rightType : NumberType} {a b : Int}
    (hleft : scope.HoldsNumber activation (params.getD 0 0) leftType a)
    (hright : scope.HoldsNumber activation (params.getD 1 0) rightType b)
    (hoffset : Operation.branchTarget position (params.getD 2 0) = target)
    (htarget : target < scope.function.operations.length) :
    let branches (opcode : Opcode) (condition : Prop) : Prop :=
      Emit.Branches host scope (Emit.operation ⟨opcode, params⟩) position condition target
        (world, activation) (world, activation)
    let type := leftType.join rightType
    branches .jSLt (a < b) ∧ branches .jNotLt (type.pattern b ≤ type.pattern a) ∧
      branches .jSGte (b ≤ a) ∧ branches .jNotGte (type.pattern a < type.pattern b) ∧
      ((type.pattern b ≤ type.pattern a ↔ ¬ a < b) ↔ (a < 0 ↔ b < 0)) ∧
      ((type.pattern a < type.pattern b ↔ ¬ b ≤ a) ↔ (a < 0 ↔ b < 0)) := by
  intro branches type
  have hbranches (comparison : Comparison) :=
    @Emit.compareBranch_branches α host scope position target world activation leftType rightType
      _ _ a b _ hleft hright hoffset htarget comparison
  obtain ⟨hwideLeft, hwideRight⟩ := leftType.join_cases rightType
  have hsigns := IntegerType.pattern_lt_iff (hleft.inRange.widened hwideLeft)
    (hright.inRange.widened hwideRight)
  refine ⟨hbranches .lt, hbranches .geUn, hbranches .ge, hbranches .ltUn, ?_, ?_⟩
  · rw [← Nat.not_lt, not_iff_not]
    exact hsigns
  · rw [Int.not_le]
    exact hsigns

def signTest : FunctionDef :=
  ⟨0, 2, [1, 1], [⟨.jNotLt, [0, 1, 0]⟩, ⟨.ret, [0]⟩], none, []⟩

def signTestScope : Scope where
  image := { version := 4, types := [.void, .i32, .func ⟨[1, 1], 0⟩], functions := [signTest] }
  registry := Image.registry { version := 4, types := [.void, .i32, .func ⟨[1, 1], 0⟩] } {}
  settings := {}
  function := signTest
  signature := ⟨[.i32, .i32], .void⟩
  flow := ⟨[false, true], 0, []⟩
  registerTypes := [.i32, .i32]

def signTestState (a b : Int) : Activation (Content Unit) where
  args number := IntegerType.i32.slot (if number = 0 then a else b)
  locals _ := Value.null
  stack := []

theorem signTestState_holds {a b : Int} (ha : IntegerType.i32.InRange a)
    (hb : IntegerType.i32.InRange b) :
    signTestScope.HoldsNumber (signTestState a b) 0 (.integer .i32) a ∧
      signTestScope.HoldsNumber (signTestState a b) 1 (.integer .i32) b :=
  ⟨⟨0, rfl, rfl, ha, rfl⟩, ⟨1, rfl, rfl, hb, rfl⟩⟩

theorem negated_comparisons_negative :
    ((IntegerType.i32.pattern (-2) ≤ IntegerType.i32.pattern (-7) ↔ ¬ (-7 : Int) < -2) ∧
      Emit.Branches Host.inert signTestScope (Emit.operation ⟨.jNotLt, [0, 1, 0]⟩) 0
        (IntegerType.i32.pattern (-2) ≤ IntegerType.i32.pattern (-7)) 1
        (⟨[], fun _ => Value.null⟩, signTestState (-7) (-2))
        (⟨[], fun _ => Value.null⟩, signTestState (-7) (-2))) := by
  obtain ⟨hleft, hright⟩ := @signTestState_holds (-7) (-2) (by decide) (by decide)
  obtain ⟨-, hnegated, -, -, hcomplement, -⟩ := negated_comparisons Host.inert signTestScope
    [0, 1, 0] 0 1 ⟨[], fun _ => Value.null⟩ (signTestState (-7) (-2)) hleft hright rfl (by decide)
  exact ⟨hcomplement.mpr (by decide), hnegated⟩

/-- With a negative number and a positive one both branches are taken. -/
theorem comparison_and_negation_taken :
    Emit.Branches Host.inert signTestScope (Emit.operation ⟨.jSLt, [0, 1, 0]⟩) 0 True 1
        (⟨[], fun _ => Value.null⟩, signTestState (-1) 1)
        (⟨[], fun _ => Value.null⟩, signTestState (-1) 1) ∧
      Emit.Branches Host.inert signTestScope (Emit.operation ⟨.jNotLt, [0, 1, 0]⟩) 0 True 1
        (⟨[], fun _ => Value.null⟩, signTestState (-1) 1)
        (⟨[], fun _ => Value.null⟩, signTestState (-1) 1) := by
  obtain ⟨hleft, hright⟩ := @signTestState_holds (-1) 1 (by decide) (by decide)
  have hreturn : Operation.branchTarget 0 0 = 1 := by decide
  have hbranches (comparison : Comparison) :
      Emit.Branches Host.inert signTestScope (Emit.compareBranch comparison 0 1 0) 0
        (comparison.Says .i32 (-1) 1) 1 (⟨[], fun _ => Value.null⟩, signTestState (-1) 1)
        (⟨[], fun _ => Value.null⟩, signTestState (-1) 1) :=
    Emit.compareBranch_branches hleft hright hreturn (by decide) comparison
  have hless : Comparison.Says .i32 (-1) 1 .lt = True := eq_true (by decide : (-1 : Int) < 1)
  have hbits : Comparison.Says .i32 (-1) 1 .geUn = True :=
    eq_true (by decide : IntegerType.i32.pattern 1 ≤ IntegerType.i32.pattern (-1))
  exact ⟨hless ▸ hbranches .lt, hbits ▸ hbranches .geUn⟩

end BytecodeLowering

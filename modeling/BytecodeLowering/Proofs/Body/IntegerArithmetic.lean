import BytecodeLowering.Lower.Program
import BytecodeLowering.Proofs.Body.Computation
import Mathlib.Data.List.Forall2

/-!
# Integer arithmetic keeps the width of its register

Integer operations are computed in slots that may be wider than the register
that receives the result.  What is stored is the result in the type of that
register all the same: operands are brought to the type first, the slot holds
the exact result up to its own modulus, and a narrow result is cut back.
-/

namespace BytecodeLowering

/-! ## What the opcodes mean -/

def Operation.operands (op : Operation) : List Int :=
  match op.opcode with
  | .incr | .decr => [op.param 0]
  | .neg | .not => [op.param 1]
  | _ => [op.param 1, op.param 2]

namespace Opcode

def exactUnary? (a : Int) : Opcode → Option Int
  | .neg => some (-a)
  | .not => some (-a - 1)
  | .incr => some (a + 1)
  | .decr => some (a - 1)
  | _ => none

/-- The exact result on two numbers of a type.  Division goes towards zero, or
takes both numbers without a sign; it has no result by zero, and none when the
least number is divided by minus one.  Whether that last remainder exists is up
to the machine. -/
def exactBinary? (strict : Bool) (type : IntegerType) (a b : Int) : Opcode → Option Int
  | .add => some (a + b)
  | .sub => some (a - b)
  | .mul => some (a * b)
  | .sDiv => if b = 0 ∨ (a = type.least ∧ b = -1) then none else some (a.tdiv b)
  | .uDiv => if b = 0 then none else some (type.pattern a / type.pattern b : Nat)
  | .sMod =>
      if b = 0 ∨ (strict = true ∧ a = type.least ∧ b = -1) then none else some (a.tmod b)
  | .uMod => if b = 0 then none else some (type.pattern a % type.pattern b : Nat)
  | .and => some (type.pattern a &&& type.pattern b : Nat)
  | .or => some (type.pattern a ||| type.pattern b : Nat)
  | .xor => some (type.pattern a ^^^ type.pattern b : Nat)
  | _ => none

def exactShift? (type : IntegerType) (a : Int) (amount : Nat) : Opcode → Option Int
  | .shl => some (a * 2 ^ amount)
  | .sShr => some (a / 2 ^ amount)
  | .uShr => some (type.pattern a / 2 ^ amount : Nat)
  | _ => none

/-- The result of an arithmetic opcode in a type.  The operands are brought to
the type, but for the amount of a shift, and so is the exact result. -/
def result? (strict : Bool) (type : IntegerType) (opcode : Opcode) : List Int → Option Int
  | [a] => (opcode.exactUnary? (type.reduce a)).map type.reduce
  | [a, b] =>
      if opcode.isShift then
        if 0 ≤ b ∧ b < type.width then
          (opcode.exactShift? type (type.reduce a) b.toNat).map type.reduce
        else none
      else (opcode.exactBinary? strict type (type.reduce a) (type.reduce b)).map type.reduce
  | _ => none

theorem result?_inRange {strict : Bool} {type : IntegerType} {opcode : Opcode}
    {operands : List Int} {value : Int} (h : opcode.result? strict type operands = some value) :
    type.InRange value := by
  have hreduced {exact : Option Int} (hmap : exact.map type.reduce = some value) :
      type.InRange value := by
    obtain ⟨found, -, rfl⟩ := Option.map_eq_some_iff.mp hmap
    exact type.reduce_inRange found
  match operands, h with
  | [a], h => exact hreduced h
  | [a, b], h =>
      rw [result?] at h
      split at h
      · split at h
        · exact hreduced h
        · cases h
      · exact hreduced h

end Opcode

/-! ## Operations on slots -/

namespace Slot

variable {α : Type} {strict : Bool} {type : IntegerType} {a b exact : Int}

theorem unary_neg (type : IntegerType) (a : Int) :
    unary .neg (type.slot a : Slot α) = some (type.slot (-a)) := by
  have hbits : -type.bits a = type.bits (-a) := BitVec.ofInt_neg.symm
  cases type <;> exact congrArg (fun bits => some (IntegerType.ofBits _ bits)) hbits

theorem unary_not (type : IntegerType) (a : Int) :
    unary .not (type.slot a : Slot α) = some (type.slot (-a - 1)) := by
  have hbits : ~~~type.bits a = type.bits (-a - 1) := by
    have hone : -BitVec.ofInt type.slotWidth 1 = BitVec.ofInt type.slotWidth (-1) :=
      BitVec.ofInt_neg.symm
    rw [BitVec.not_eq_neg_add, IntegerType.bits, IntegerType.bits, Int.sub_eq_add_neg,
      BitVec.ofInt_add, BitVec.ofInt_neg, ← hone, BitVec.sub_eq_add_neg]
    rfl
  cases type <;> exact congrArg (fun bits => some (IntegerType.ofBits _ bits)) hbits

theorem binary_ofBits {op : BinaryOp} (h : op.isShift = false) {x y result : BitVec type.slotWidth}
    (hresult : compute strict op x y = some result) :
    binary strict op (type.ofBits x) (type.ofBits y : Slot α) = some (type.ofBits result) := by
  have hmap := congrArg (Option.map (type.ofBits : _ → Slot α)) hresult
  cases type with
  | u8 | u16 | i32 =>
      refine Eq.trans ?_ hmap
      change Option.map word (if op.isShift then shift op x y.toNat else compute strict op x y) = _
      rw [h]
      rfl
  | i64 => exact hmap

theorem of_ite_none {condition : Prop} [Decidable condition] {value result : Int}
    (h : (if condition then none else some value) = some result) :
    ¬ condition ∧ value = result := by
  split at h
  case isTrue => cases h
  case isFalse hcondition => exact ⟨hcondition, Option.some.inj h⟩

theorem binary_add (type : IntegerType) (a b : Int) :
    binary strict .add (type.slot a) (type.slot b : Slot α) = some (type.slot (a + b)) :=
  binary_ofBits rfl (congrArg some (BitVec.ofInt_add a b).symm)

theorem binary_sub (type : IntegerType) (a b : Int) :
    binary strict .sub (type.slot a) (type.slot b : Slot α) = some (type.slot (a - b)) := by
  refine binary_ofBits rfl (congrArg some ?_)
  rw [IntegerType.bits, IntegerType.bits, IntegerType.bits, Int.sub_eq_add_neg, BitVec.ofInt_add,
    BitVec.ofInt_neg, BitVec.sub_eq_add_neg]

theorem binary_mul (type : IntegerType) (a b : Int) :
    binary strict .mul (type.slot a) (type.slot b : Slot α) = some (type.slot (a * b)) :=
  binary_ofBits rfl (congrArg some (BitVec.ofInt_mul a b).symm)

theorem binary_exact (ha : type.InRange a) (hb : type.InRange b) {opcode : Opcode} {op : BinaryOp}
    (hop : opcode.binaryOp? false = some op)
    (h : opcode.exactBinary? strict type a b = some exact) :
    binary strict op (type.slot a) (type.slot b : Slot α) = some (type.slot exact) := by
  have hint {x : Int} (hx : type.InRange x) := IntegerType.toInt_bits hx
  have hnat {x : Int} (hx : type.InRange x) := IntegerType.toNat_bits hx
  have hdivisor (hne : b ≠ 0) : type.bits b ≠ 0#_ := fun hbits =>
    hne (IntegerType.eq_zero_of_bits hb hbits)
  have hleast (hbits : type.bits a = .intMin _ ∧ type.bits b = -1#_) : a = type.least ∧ b = -1 :=
    ⟨IntegerType.eq_least_of_bits ha hbits.1, IntegerType.eq_neg_one_of_bits hb hbits.2⟩
  cases opcode with
  | add =>
      cases hop
      cases h
      exact binary_add type a b
  | sub =>
      cases hop
      cases h
      exact binary_sub type a b
  | mul =>
      cases hop
      cases h
      exact binary_mul type a b
  | sDiv =>
      cases hop
      obtain ⟨hdefined, rfl⟩ := of_ite_none h
      have hfits : ¬(type.bits a = .intMin _ ∧ type.bits b = -1#_) := fun hbits =>
        hdefined (.inr (hleast hbits))
      have hboth := not_or.mpr ⟨hdivisor fun hzero => hdefined (.inl hzero), hfits⟩
      refine binary_ofBits rfl ((if_neg hboth).trans ?_)
      refine congrArg some (IntegerType.eq_bits_of_toInt ?_)
      rw [BitVec.toInt_sdiv_of_ne_or_ne _ _ (not_and_or.mp hfits), hint ha, hint hb]
  | uDiv =>
      cases hop
      obtain ⟨hdefined, rfl⟩ := of_ite_none h
      refine binary_ofBits rfl ((if_neg (hdivisor hdefined)).trans ?_)
      refine congrArg some (IntegerType.eq_bits_of_toNat ?_)
      rw [BitVec.toNat_udiv, hnat ha, hnat hb]
  | sMod =>
      cases hop
      obtain ⟨hdefined, rfl⟩ := of_ite_none h
      have hfits : ¬(strict = true ∧ type.bits a = .intMin _ ∧ type.bits b = -1#_) := fun hbits =>
        hdefined (.inr ⟨hbits.1, hleast hbits.2⟩)
      have hboth := not_or.mpr ⟨hdivisor fun hzero => hdefined (.inl hzero), hfits⟩
      refine binary_ofBits rfl ((if_neg hboth).trans ?_)
      refine congrArg some (IntegerType.eq_bits_of_toInt ?_)
      rw [BitVec.toInt_srem, hint ha, hint hb]
  | uMod =>
      cases hop
      obtain ⟨hdefined, rfl⟩ := of_ite_none h
      refine binary_ofBits rfl ((if_neg (hdivisor hdefined)).trans ?_)
      refine congrArg some (IntegerType.eq_bits_of_toNat ?_)
      rw [BitVec.toNat_umod, hnat ha, hnat hb]
  | and =>
      cases hop
      cases h
      refine binary_ofBits rfl (congrArg some (IntegerType.eq_bits_of_toNat ?_))
      rw [BitVec.toNat_and, hnat ha, hnat hb]
  | or =>
      cases hop
      cases h
      refine binary_ofBits rfl (congrArg some (IntegerType.eq_bits_of_toNat ?_))
      rw [BitVec.toNat_or, hnat ha, hnat hb]
  | xor =>
      cases hop
      cases h
      refine binary_ofBits rfl (congrArg some (IntegerType.eq_bits_of_toNat ?_))
      rw [BitVec.toNat_xor, hnat ha, hnat hb]
  | _ => cases h

theorem binary_shift (ha : type.InRange a) {amount : Nat} (hamount : amount < type.width)
    {opcode : Opcode} {op : BinaryOp} (hop : opcode.binaryOp? false = some op)
    (h : opcode.exactShift? type a amount = some exact) :
    binary strict op (type.slot a) (IntegerType.i32.slot amount : Slot α) =
      some (type.slot exact) := by
  have hslot : type.width ≤ type.slotWidth := by cases type <;> decide
  have hsmall : type.width ≤ 64 := by cases type <;> decide
  have hcount : (IntegerType.i32.bits amount).toNat = amount := by
    rw [IntegerType.bits, BitVec.ofInt_natCast, BitVec.toNat_ofNat]
    exact Nat.mod_eq_of_lt (by simp only [IntegerType.slotWidth]; omega)
  have hrun {result : BitVec type.slotWidth} (hshift : op.isShift = true)
      (hresult : shift op (type.bits a) amount = some result) :
      binary strict op (type.slot a) (IntegerType.i32.slot amount : Slot α) =
        some (type.ofBits result) := by
    rw [← hcount] at hresult
    have hmap := congrArg (Option.map (type.ofBits : _ → Slot α)) hresult
    cases type with
    | u8 | u16 | i32 => exact (congrArg (Option.map word) (if_pos hshift)).trans hmap
    | i64 => exact hmap
  have hopen : ¬ type.slotWidth ≤ amount := by omega
  cases opcode with
  | shl =>
      cases hop
      cases h
      refine hrun rfl ?_
      rw [shift, if_neg hopen]
      have htwo : BitVec.twoPow type.slotWidth amount = BitVec.ofInt _ (2 ^ amount) := by
        apply BitVec.eq_of_toNat_eq
        rw [BitVec.toNat_twoPow, BitVec.toNat_ofInt]
        norm_cast
      refine congrArg some ?_
      rw [BitVec.shiftLeft_eq_mul_twoPow, htwo]
      exact (BitVec.ofInt_mul a (2 ^ amount)).symm
  | sShr =>
      cases hop
      cases h
      refine hrun rfl ?_
      rw [shift, if_neg hopen]
      refine congrArg some (IntegerType.eq_bits_of_toInt ?_)
      rw [BitVec.toInt_sshiftRight, IntegerType.toInt_bits ha, Int.shiftRight_eq_div_pow]
      norm_cast
  | uShr =>
      cases hop
      cases h
      refine hrun rfl ?_
      rw [shift, if_neg hopen]
      refine congrArg some (IntegerType.eq_bits_of_toNat ?_)
      rw [BitVec.toNat_ushiftRight, IntegerType.toNat_bits ha, Nat.shiftRight_eq_div_pow]
  | _ => cases h

end Slot

/-! ## The lowered instructions -/

namespace Emit

variable {α : Type} {scope : Scope} {strict : Bool} {state : Activation α} {target : Nat}
  {type : IntegerType}

theorem unary_computes {op : UnaryOp} {slot result : Slot α} (h : Slot.unary op slot = some result) :
    Computes scope strict (emit (.unary op)) () (state.push slot) (state.push result) := by
  refine .emit ?_
  change (Slot.unary op slot).map _ = _
  rw [h]
  rfl

theorem binary_computes {op : BinaryOp} {left right result : Slot α}
    (h : Slot.binary strict op left right = some result) :
    Computes scope strict (emit (.binary op)) () ((state.push left).push right)
      (state.push result) := by
  refine .emit ?_
  change (Slot.binary strict op left right).map _ = _
  rw [h]
  rfl

theorem wrap_computes (type : IntegerType) (exact : Int) :
    Computes scope strict (wrap type.target) () (state.push (type.slot exact))
      (state.push (type.slot (type.reduce exact))) := by
  cases type with
  | u8 => exact conv_computes (Slot.conv_u1 .u8 exact)
  | u16 => exact conv_computes (Slot.conv_u2 .u16 exact)
  | i32 | i64 =>
      rw [IntegerType.slot, IntegerType.slot, IntegerType.bits_reduce rfl]
      exact .pure ()

theorem one_computes (type : IntegerType) :
    Computes scope strict (emit (one type.target)) () state (state.push (type.slot 1)) := by
  cases type <;> exact .emit rfl

section Handlers

variable (htarget : scope.registerTypes[target]? = some type.target)

include htarget

theorem arithmeticType_computes :
    Computes scope strict (arithmeticType target) type.target state state := by
  have hvalue : type.target.isValue = true := by cases type <;> rfl
  refine (registerType_computes htarget).bind ?_
  rw [if_pos hvalue]
  exact .pure _

theorem wrap_store_computes (exact : Int) :
    Computes scope strict (do wrap type.target; store target) () (state.push (type.slot exact))
      (state.write scope target (type.slot (type.reduce exact))) :=
  (wrap_computes type exact).bind (store_computes htarget type.target_ne_void _)

theorem stepRegister_computes {a exact : Int} (ha : state.read scope target = type.slot a)
    {op : BinaryOp}
    (hop : Slot.binary strict op (type.slot a) (type.slot 1 : Slot α) = some (type.slot exact)) :
    Computes scope strict (stepRegister target op) () state
      (state.write scope target (type.slot (type.reduce exact))) := by
  have hload := @load_computes α scope strict state target _ htarget type.target_ne_void
  rw [ha] at hload
  refine (arithmeticType_computes htarget).bind (hload.bind ((one_computes type).bind ?_))
  exact (binary_computes hop).bind (wrap_store_computes htarget exact)

section Unary

variable {source : Nat} {sourceType : IntegerType}
  (hsource : scope.registerTypes[source]? = some sourceType.target) {a : Int}
  (ha : state.read scope source = sourceType.slot a) (hrange : sourceType.InRange a)

include hsource ha hrange

theorem negate_computes :
    Computes scope strict (negate target source) () state
      (state.write scope target (type.slot (type.reduce (-type.reduce a)))) := by
  refine (arithmeticType_computes htarget).bind ((loadAs_computes hsource type ha hrange).bind ?_)
  exact (unary_computes (Slot.unary_neg type _)).bind (wrap_store_computes htarget _)

theorem complement_computes :
    Computes scope strict (complement target source) () state
      (state.write scope target (type.slot (type.reduce (-type.reduce a - 1)))) := by
  refine (arithmeticType_computes htarget).bind ((loadAs_computes hsource type ha hrange).bind ?_)
  have hbool : type.target ≠ .bool := by cases type <;> nofun
  have hfloat : ¬ type.target.isFloat = true := by cases type <;> nofun
  rw [if_neg hbool, if_neg hfloat]
  exact (unary_computes (Slot.unary_not type _)).bind (wrap_store_computes htarget _)

end Unary

section Binary

variable {left right : Nat} {leftType rightType : IntegerType}
  (hleft : scope.registerTypes[left]? = some leftType.target)
  (hright : scope.registerTypes[right]? = some rightType.target) {a b exact : Int}
  (ha : state.read scope left = leftType.slot a) (hb : state.read scope right = rightType.slot b)
  (harange : leftType.InRange a) (hbrange : rightType.InRange b)
  {opcode : Opcode}

include hleft hright ha hb harange hbrange

/-- Both operands are loaded before the target is written, which may be one of
them. -/
theorem arithmetic_computes {op : BinaryOp} (hop : opcode.binaryOp? false = some op)
    {amountType : IntegerType}
    (hamount : (if opcode.isShift then TargetType.i32 else type.target) = amountType.target)
    (hresult : Slot.binary strict op (type.slot (type.reduce a))
      (amountType.slot (amountType.reduce b) : Slot α) = some (type.slot exact)) :
    Computes scope strict (arithmetic opcode target left right) () state
      (state.write scope target (type.slot (type.reduce exact))) := by
  have hfloat : type.target.isFloat = false := by cases type <;> rfl
  have hbehind : (state.push (type.slot (type.reduce a))).read scope right = rightType.slot b := hb
  refine (arithmeticType_computes htarget).bind ?_
  rw [hfloat, hop, hamount]
  refine (Computes.pure op).bind ((loadAs_computes hleft type ha harange).bind ?_)
  refine (loadAs_computes hright amountType hbehind hbrange).bind ?_
  exact (binary_computes hresult).bind (wrap_store_computes htarget exact)

end Binary

end Handlers

/-! ## Which instruction is lowered -/

theorem binaryOp?_of_exactBinary? {opcode : Opcode} {a b exact : Int}
    (h : opcode.exactBinary? strict type a b = some exact) :
    ∃ op, opcode.binaryOp? false = some op := by
  cases opcode <;> first | exact ⟨_, rfl⟩ | cases h

theorem binaryOp?_of_exactShift? {opcode : Opcode} {a exact : Int} {amount : Nat}
    (h : opcode.exactShift? type a amount = some exact) :
    ∃ op, opcode.binaryOp? false = some op := by
  cases opcode <;> first | exact ⟨_, rfl⟩ | cases h

theorem operation_binary {op : Operation} {binary : BinaryOp}
    (h : op.opcode.binaryOp? false = some binary) :
    operation op = arithmetic op.opcode (op.param 0) (op.param 1) (op.param 2) ∧
      op.operands = [op.param 1, op.param 2] := by
  obtain ⟨opcode, params⟩ := op
  cases opcode <;> cases h <;> exact ⟨rfl, rfl⟩

theorem reads_target {register a : Int} (hparam : register = target)
    (htarget : scope.registerTypes[target]? = some type.target)
    (h : scope.Holds state register a) :
    state.read scope target = type.slot (type.reduce a) := by
  obtain ⟨index, ownType, hregister, hown, hrange, hread⟩ := h
  obtain rfl : target = index := by omega
  have hsame : ownType = type := by
    have htypes := Option.some.inj (hown.symm.trans htarget)
    cases ownType <;> cases type <;> first | rfl | cases htypes
  subst hsame
  rw [IntegerType.reduce_of_inRange hrange, hread]

theorem unary_operation_computes {op : Operation} (hparam : op.param 0 = target)
    (htarget : scope.registerTypes[target]? = some type.target) {a exact : Int}
    (hoperands : List.Forall₂ (scope.Holds state) op.operands [a])
    (hexact : op.opcode.exactUnary? (type.reduce a) = some exact) :
    Computes scope strict (operation op) () state
      (state.write scope target (type.slot (type.reduce exact))) := by
  obtain ⟨opcode, params⟩ := op
  cases opcode with
  | neg =>
      cases hexact
      obtain ⟨⟨source, sourceType, hregister, hsource, hrange, hread⟩, -⟩ :=
        List.forall₂_cons.mp hoperands
      have hcode : operation ⟨.neg, params⟩ = negate target source := by
        rw [← hparam, ← hregister]
        rfl
      exact hcode ▸ negate_computes htarget hsource hread hrange
  | not =>
      cases hexact
      obtain ⟨⟨source, sourceType, hregister, hsource, hrange, hread⟩, -⟩ :=
        List.forall₂_cons.mp hoperands
      have hcode : operation ⟨.not, params⟩ = complement target source := by
        rw [← hparam, ← hregister]
        rfl
      exact hcode ▸ complement_computes htarget hsource hread hrange
  | incr =>
      cases hexact
      have hread := reads_target hparam htarget (List.forall₂_cons.mp hoperands).1
      have hcode : operation ⟨.incr, params⟩ = stepRegister target .add := by
        rw [← hparam]
        rfl
      exact hcode ▸ stepRegister_computes htarget hread (Slot.binary_add type _ 1)
  | decr =>
      cases hexact
      have hread := reads_target hparam htarget (List.forall₂_cons.mp hoperands).1
      have hcode : operation ⟨.decr, params⟩ = stepRegister target .sub := by
        rw [← hparam]
        rfl
      exact hcode ▸ stepRegister_computes htarget hread (Slot.binary_sub type _ 1)
  | _ => cases hexact

theorem binary_operation_computes {op : Operation} (hparam : op.param 0 = target)
    (htarget : scope.registerTypes[target]? = some type.target) {a b value : Int}
    (hoperands : List.Forall₂ (scope.Holds state) op.operands [a, b])
    (hvalue : op.opcode.result? strict type [a, b] = some value) :
    Computes scope strict (operation op) () state
      (state.write scope target (type.slot value)) := by
  rw [Opcode.result?] at hvalue
  have hfinish {binary : BinaryOp} (hop : op.opcode.binaryOp? false = some binary)
      {amountType : IntegerType}
      (hamount : (if op.opcode.isShift then TargetType.i32 else type.target) = amountType.target)
      {exact : Int} (hexact : type.reduce exact = value)
      (hresult : Slot.binary strict binary (type.slot (type.reduce a))
        (amountType.slot (amountType.reduce b) : Slot α) = some (type.slot exact)) :
      Computes scope strict (operation op) () state
        (state.write scope target (type.slot value)) := by
    obtain ⟨hcode, hregisters⟩ := operation_binary hop
    rw [hregisters] at hoperands
    obtain ⟨⟨left, leftType, hleftParam, hleft, ha, hreadLeft⟩, hoperands⟩ :=
      List.forall₂_cons.mp hoperands
    obtain ⟨⟨right, rightType, hrightParam, hright, hb, hreadRight⟩, -⟩ :=
      List.forall₂_cons.mp hoperands
    rw [hcode, hparam, hleftParam, hrightParam, ← hexact]
    exact arithmetic_computes htarget hleft hright hreadLeft hreadRight ha hb hop hamount hresult
  by_cases hshift : op.opcode.isShift
  · rw [if_pos hshift] at hvalue
    split at hvalue
    case isFalse => cases hvalue
    case isTrue hamount =>
      obtain ⟨exact, hexact, hvalue⟩ := Option.map_eq_some_iff.mp hvalue
      obtain ⟨binary, hop⟩ := binaryOp?_of_exactShift? hexact
      have htype : (if op.opcode.isShift then TargetType.i32 else type.target) =
          IntegerType.i32.target := if_pos hshift
      have hwidth : type.width ≤ 64 := by cases type <;> decide
      have hsmall : IntegerType.i32.InRange b := by
        constructor <;> simp only [IntegerType.least, IntegerType.modulus] <;> omega
      have hcount : ((b.toNat : Nat) : Int) = b := Int.toNat_of_nonneg hamount.1
      refine hfinish hop htype hvalue ?_
      rw [IntegerType.reduce_of_inRange hsmall, ← hcount]
      exact Slot.binary_shift (type.reduce_inRange a) (by omega) hop hexact
  · rw [if_neg hshift] at hvalue
    obtain ⟨exact, hexact, hvalue⟩ := Option.map_eq_some_iff.mp hvalue
    obtain ⟨binary, hop⟩ := binaryOp?_of_exactBinary? hexact
    refine hfinish hop (if_neg hshift) hvalue ?_
    exact Slot.binary_exact (type.reduce_inRange a) (type.reduce_inRange b) hop hexact

end Emit

/-- An arithmetic instruction on integer registers, whose target holds a number
of the type `type`, is lowered to code that leaves the stack and all other
registers as they are and stores the result in that type. -/
theorem integer_operation_computes {function : FunctionDef} {image : Image} {registry : Registry}
    {settings : Settings} {signature : Signature} {scope : Scope}
    (hscope : function.scope image registry settings signature = .ok scope)
    {α : Type} (strict : Bool) (state : Activation α) {op : Operation} {target : Nat}
    {type : IntegerType} (hparam : op.param 0 = target)
    (htarget : scope.registerTypes[target]? = some type.target) {operands : List Int}
    (hoperands : List.Forall₂ (scope.Holds state) op.operands operands) {value : Int}
    (hvalue : op.opcode.result? strict type operands = some value) :
    ∃ code, (∀ before, Emit.operation op scope before = .ok () (before.followedBy code)) ∧
      ∃ after, Activation.run strict code state = some after ∧ after.stack = state.stack ∧
        after.read scope target = type.slot value ∧ type.InRange value ∧
        ∀ index, index < scope.registerTypes.length → index ≠ target →
          after.read scope index = state.read scope index := by
  have hcomputes : Emit.Computes scope strict (Emit.operation op) () state
      (state.write scope target (type.slot value)) := by
    match operands, hvalue with
    | [a], hvalue =>
        obtain ⟨exact, hexact, rfl⟩ := Option.map_eq_some_iff.mp hvalue
        exact Emit.unary_operation_computes hparam htarget hoperands hexact
    | [a, b], hvalue => exact Emit.binary_operation_computes hparam htarget hoperands hvalue
  have hrange := Opcode.result?_inRange hvalue
  have hcount : scope.registerTypes.length < 0x10000 :=
    Nat.lt_of_le_of_lt (function.registers_le hscope) (by decide)
  have hbound : target < 0x10000 := Nat.lt_trans (Emit.registerIndex_lt htarget) hcount
  obtain ⟨code, hcode, hrun⟩ := hcomputes
  refine ⟨code, hcode, _, hrun, Activation.stack_write, Activation.read_write_same, hrange, ?_⟩
  intro index hindex hother
  exact Activation.read_write_other hbound (Nat.lt_trans hindex hcount) hother

def narrowSum : FunctionDef :=
  ⟨0, 3, [0, 1, 2], [⟨.add, [0, 1, 2]⟩, ⟨.ret, [0]⟩], none, []⟩

def narrowSumImage : Image where
  version := 4
  types := [.u8, .i32, .i64, .func ⟨[0], 0⟩]
  functions := [narrowSum]

def narrowSumScope : Scope where
  image := narrowSumImage
  registry := narrowSumImage.registry {}
  settings := {}
  function := narrowSum
  signature := ⟨[.u8], .u8⟩
  flow := ⟨[false, false], 0, []⟩
  registerTypes := [.u8, .i32, .i64]

/-- The operands do not fit the byte, and neither does the sum of what is left
of them. -/
def narrowSumStart : Activation Unit where
  args _ := .word 7
  locals number := if number = 0 then .word (.ofInt 32 (-56)) else .long 0x200000064
  stack := []

theorem integer_operation_computes_narrowSum :
    narrowSum.scope narrowSumImage (narrowSumImage.registry {}) {} ⟨[.u8], .u8⟩ =
        .ok narrowSumScope ∧
      ∃ code after, Activation.run false code narrowSumStart = some after ∧
        after.read narrowSumScope 0 = .word 44 := by
  have hscope : narrowSum.scope narrowSumImage (narrowSumImage.registry {}) {} ⟨[.u8], .u8⟩ =
      .ok narrowSumScope := by decide +kernel
  have hleft : narrowSumScope.Holds narrowSumStart 1 (-56) :=
    ⟨1, .i32, rfl, rfl, by decide, rfl⟩
  have hright : narrowSumScope.Holds narrowSumStart 2 0x200000064 :=
    ⟨2, .i64, rfl, rfl, by decide, rfl⟩
  obtain ⟨code, -, after, hrun, -, hread, -⟩ :=
    @integer_operation_computes narrowSum narrowSumImage _ {} _ narrowSumScope hscope Unit false
      narrowSumStart ⟨.add, [0, 1, 2]⟩ 0 .u8 rfl rfl [-56, 0x200000064]
      (.cons hleft (.cons hright .nil)) 44 (by decide)
  exact ⟨hscope, code, after, hrun, hread⟩

end BytecodeLowering

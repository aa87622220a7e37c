import BytecodeLowering.Target.Instr
import Mathlib.Algebra.Group.Int.Defs
import Mathlib.Algebra.Group.Nat.Defs
import Mathlib.Logic.Function.Basic
import Mathlib.Tactic.Zify

/-!
# Integers on the evaluation stack

The evaluation stack has slots of 32 and of 64 bits in two's complement.  The
narrow integer types live in a 32-bit slot as the number itself, so an
operation computes in more bits than the type has, and a conversion cuts its
result back.
-/

namespace BytecodeLowering

/-! ## Integer types -/

inductive IntegerType where
  | u8 | u16 | i32 | i64
  deriving DecidableEq, Repr

namespace IntegerType

def target : IntegerType → TargetType
  | .u8 => .u8
  | .u16 => .u16
  | .i32 => .i32
  | .i64 => .i64

theorem target_ne_void (type : IntegerType) : type.target ≠ .void := by
  cases type <;> nofun

def width : IntegerType → Nat
  | .u8 => 8
  | .u16 => 16
  | .i32 => 32
  | .i64 => 64

/-- The least number of a type; only the wide types are signed. -/
def least : IntegerType → Int
  | .u8 | .u16 => 0
  | .i32 => -0x80000000
  | .i64 => -0x8000000000000000

def modulus : IntegerType → Nat
  | .u8 => 0x100
  | .u16 => 0x10000
  | .i32 => 0x100000000
  | .i64 => 0x10000000000000000

theorem modulus_eq (type : IntegerType) : type.modulus = 2 ^ type.width := by
  cases type <;> rfl

structure InRange (type : IntegerType) (value : Int) : Prop where
  ge : type.least ≤ value
  lt : value < type.least + type.modulus

instance decidableInRange (type : IntegerType) (value : Int) : Decidable (type.InRange value) :=
  decidable_of_iff (type.least ≤ value ∧ value < type.least + type.modulus)
    ⟨fun h => ⟨h.1, h.2⟩, fun h => ⟨h.ge, h.lt⟩⟩

/-- The number of the type that differs by a multiple of the modulus. -/
def reduce (type : IntegerType) (value : Int) : Int :=
  (value - type.least) % type.modulus + type.least

def pattern (type : IntegerType) (value : Int) : Nat := (value % type.modulus).toNat

theorem modulus_pos (type : IntegerType) : 0 < (type.modulus : Int) := by
  cases type <;> decide

theorem reduce_inRange (type : IntegerType) (value : Int) : type.InRange (type.reduce value) := by
  have hlow := Int.emod_nonneg (value - type.least) (Int.ne_of_gt type.modulus_pos)
  have hhigh := Int.emod_lt_of_pos (value - type.least) type.modulus_pos
  unfold reduce
  constructor <;> omega

theorem reduce_of_inRange {type : IntegerType} {value : Int} (h : type.InRange value) :
    type.reduce value = value := by
  obtain ⟨hlow, hhigh⟩ := h
  rw [reduce, Int.emod_eq_of_lt (by omega) (by omega)]
  omega

theorem InRange.long {type : IntegerType} {value : Int} (h : type.InRange value) :
    IntegerType.i64.InRange value := by
  obtain ⟨hlow, hhigh⟩ := h
  cases type <;> simp only [least, modulus] at hlow hhigh <;>
    constructor <;> simp only [least, modulus] <;> omega

def slotWidth : IntegerType → Nat
  | .i64 => 64
  | _ => 32

def bits (type : IntegerType) (value : Int) : BitVec type.slotWidth := .ofInt _ value

section Bits

variable {type : IntegerType} {value : Int} (h : type.InRange value)

include h

theorem toInt_bits : (type.bits value).toInt = value := by
  obtain ⟨hlow, hhigh⟩ := h
  rw [bits, BitVec.toInt_ofInt]
  cases type <;> simp only [least, modulus, slotWidth] at * <;>
    exact Int.bmod_eq_of_le_mul_two (by omega) (by omega)

theorem toNat_bits : (type.bits value).toNat = type.pattern value := by
  obtain ⟨hlow, hhigh⟩ := h
  rw [bits, BitVec.toNat_ofInt, pattern]
  cases type <;> simp only [least, modulus, slotWidth] at * <;> omega

end Bits

theorem bits_reduce {type : IntegerType} (hwidth : type.slotWidth = type.width) (value : Int) :
    type.bits (type.reduce value) = type.bits value := by
  apply BitVec.eq_of_toNat_eq
  rw [bits, bits, BitVec.toNat_ofInt, BitVec.toNat_ofInt, hwidth, ← modulus_eq, reduce,
    Int.emod_add_emod, Int.sub_add_cancel]

/-! ### Bits that stand for a number -/

section Standing

variable {type : IntegerType} {value : Int} {word : BitVec type.slotWidth}

theorem eq_bits_of_toInt (h : word.toInt = value) : word = type.bits value := by
  rw [bits, ← h, BitVec.ofInt_toInt]

theorem eq_bits_of_toNat {number : Nat} (h : word.toNat = number) : word = type.bits number := by
  rw [bits, BitVec.ofInt_natCast, ← h, BitVec.ofNat_toNat, BitVec.setWidth_eq]

end Standing

section Special

variable {type : IntegerType} {value : Int} (h : type.InRange value)

include h

theorem eq_zero_of_bits (hbits : type.bits value = 0#_) : value = 0 := by
  rw [← toInt_bits h, hbits, BitVec.toInt_zero]

theorem eq_neg_one_of_bits (hbits : type.bits value = -1#_) : value = -1 := by
  rw [← toInt_bits h, hbits]
  cases type <;> rfl

theorem eq_least_of_bits (hbits : type.bits value = .intMin _) : value = type.least := by
  have hvalue := toInt_bits h
  rw [hbits] at hvalue
  cases type with
  | u8 | u16 =>
      -- a narrow number is never negative
      have hmin : value = -0x80000000 := hvalue.symm
      exact absurd h.ge (by rw [hmin]; decide)
  | i32 | i64 => exact hvalue.symm

end Special

end IntegerType

/-! ## Slots -/

/-- What a register or a place on the stack holds: a number, or something that
integer instructions do not look into. -/
inductive Slot (α : Type) where
  | word (bits : BitVec 32)
  | long (bits : BitVec 64)
  | other (content : α)
  deriving DecidableEq, Repr

namespace IntegerType

def ofBits {α : Type} : (type : IntegerType) → BitVec type.slotWidth → Slot α
  | .u8, bits | .u16, bits | .i32, bits => .word bits
  | .i64, bits => .long bits

def slot {α : Type} (type : IntegerType) (value : Int) : Slot α := type.ofBits (type.bits value)

end IntegerType

def BinaryOp.isShift : BinaryOp → Bool
  | .shl | .shr | .shrUn => true
  | _ => false

namespace Slot

variable {α : Type} {w : Nat}

/-- An operation on two numbers of one width; a division fails that has no
result.  Some machines also fail, `strict`, on the remainder of the least
number by minus one. -/
def compute (strict : Bool) (op : BinaryOp) (a b : BitVec w) : Option (BitVec w) :=
  match op with
  | .add => some (a + b)
  | .sub => some (a - b)
  | .mul => some (a * b)
  | .div => if b = 0#w ∨ (a = .intMin w ∧ b = -1#w) then none else some (a.sdiv b)
  | .divUn => if b = 0#w then none else some (a / b)
  | .rem =>
      if b = 0#w ∨ (strict = true ∧ a = .intMin w ∧ b = -1#w) then none else some (a.srem b)
  | .remUn => if b = 0#w then none else some (a % b)
  | .and => some (a &&& b)
  | .or => some (a ||| b)
  | .xor => some (a ^^^ b)
  | .shl | .shr | .shrUn => none

/-- A shift; nothing is said of one by the whole width or more. -/
def shift (op : BinaryOp) (a : BitVec w) (amount : Nat) : Option (BitVec w) :=
  if w ≤ amount then none
  else
    match op with
    | .shl => some (a <<< amount)
    | .shr => some (a.sshiftRight amount)
    | .shrUn => some (a >>> amount)
    | _ => none

/-- The amount of a shift is always a 32-bit number. -/
def binary (strict : Bool) (op : BinaryOp) : Slot α → Slot α → Option (Slot α)
  | .word a, .word b =>
      (if op.isShift then shift op a b.toNat else compute strict op a b).map .word
  | .long a, .word amount => (shift op a amount.toNat).map .long
  | .long a, .long b => (compute strict op a b).map .long
  | _, _ => none

def unaryBits (op : UnaryOp) (a : BitVec w) : BitVec w :=
  match op with
  | .neg => -a
  | .not => ~~~a

def unary (op : UnaryOp) : Slot α → Option (Slot α)
  | .word a => some (.word (unaryBits op a))
  | .long a => some (.long (unaryBits op a))
  | .other _ => none

/-- A narrow conversion cuts and extends with zeros, a wide one extends the
sign; the conversions to floats are left out. -/
def conv : Conversion → Slot α → Option (Slot α)
  | .u1, .word a => some (.word ((a.setWidth 8).setWidth 32))
  | .u1, .long a => some (.word ((a.setWidth 8).setWidth 32))
  | .u2, .word a => some (.word ((a.setWidth 16).setWidth 32))
  | .u2, .long a => some (.word ((a.setWidth 16).setWidth 32))
  | .i4, .word a => some (.word a)
  | .i4, .long a => some (.word (a.setWidth 32))
  | .i8, .word a => some (.long (a.signExtend 64))
  | .i8, .long a => some (.long a)
  | _, _ => none

/-! ### Conversions -/

theorem setWidth_ofInt {w v : Nat} (h : v ≤ w) (value : Int) :
    (BitVec.ofInt w value).setWidth v = BitVec.ofInt v value := by
  have hdvd : ((2 ^ v : Nat) : Int) ∣ (2 ^ w : Nat) := by exact_mod_cast Nat.pow_dvd_pow 2 h
  have hpos (n : Nat) : ((2 ^ n : Nat) : Int) ≠ 0 := by exact_mod_cast (Nat.two_pow_pos n).ne'
  apply BitVec.eq_of_toNat_eq
  zify
  simp only [BitVec.toNat_setWidth, BitVec.toNat_ofInt]
  rw [Int.natCast_emod, Int.toNat_of_nonneg (Int.emod_nonneg _ (hpos w)),
    Int.emod_emod_of_dvd _ hdvd, Int.toNat_of_nonneg (Int.emod_nonneg _ (hpos v))]

theorem setWidth_narrow {type : IntegerType} (h : type.width < 32) (value : Int) :
    (BitVec.ofInt type.width value).setWidth 32 = BitVec.ofInt 32 (type.reduce value) := by
  apply BitVec.eq_of_toNat_eq
  rw [BitVec.toNat_setWidth, BitVec.toNat_ofInt, BitVec.toNat_ofInt]
  cases type with
  | u8 | u16 =>
      simp only [IntegerType.reduce, IntegerType.least, IntegerType.modulus, IntegerType.width]
      omega
  | i32 | i64 => exact absurd h (by decide)

theorem conv_u1 (type : IntegerType) (value : Int) :
    conv .u1 (type.slot value : Slot α) =
      some (IntegerType.u8.slot (IntegerType.u8.reduce value)) := by
  have hcut {w : Nat} (hw : 8 ≤ w) : ((BitVec.ofInt w value).setWidth 8).setWidth 32 =
      BitVec.ofInt 32 (IntegerType.u8.reduce value) := by
    rw [setWidth_ofInt hw]
    exact @setWidth_narrow .u8 (by decide) value
  cases type <;> exact congrArg (some ∘ word) (hcut (by decide))

theorem conv_u2 (type : IntegerType) (value : Int) :
    conv .u2 (type.slot value : Slot α) =
      some (IntegerType.u16.slot (IntegerType.u16.reduce value)) := by
  have hcut {w : Nat} (hw : 16 ≤ w) : ((BitVec.ofInt w value).setWidth 16).setWidth 32 =
      BitVec.ofInt 32 (IntegerType.u16.reduce value) := by
    rw [setWidth_ofInt hw]
    exact @setWidth_narrow .u16 (by decide) value
  cases type <;> exact congrArg (some ∘ word) (hcut (by decide))

theorem conv_i4 (value : Int) :
    conv .i4 (IntegerType.i64.slot value : Slot α) =
      some (IntegerType.i32.slot (IntegerType.i32.reduce value)) := by
  have hcut : (IntegerType.i64.bits value).setWidth 32 =
      IntegerType.i32.bits (IntegerType.i32.reduce value) := by
    rw [IntegerType.bits_reduce rfl]
    exact setWidth_ofInt (by decide) value
  exact congrArg (some ∘ word) hcut

theorem conv_i8 {type : IntegerType} {value : Int} (h : type.InRange value) :
    conv .i8 (type.slot value : Slot α) =
      some (IntegerType.i64.slot (IntegerType.i64.reduce value)) := by
  have hlong := h.long
  have hextend : (type.bits value).signExtend IntegerType.i64.slotWidth =
      IntegerType.i64.bits value := by
    have hfits : type.slotWidth ≤ IntegerType.i64.slotWidth := by cases type <;> decide
    apply BitVec.eq_of_toInt_eq
    rw [IntegerType.toInt_bits hlong, BitVec.toInt_signExtend_of_le hfits,
      IntegerType.toInt_bits h]
  rw [IntegerType.reduce_of_inRange hlong]
  cases type with
  | u8 | u16 | i32 => exact congrArg (some ∘ long) hextend
  | i64 => rfl

end Slot

/-! ## Running straight code -/

/-- What the registers of a body hold, and its evaluation stack, top first. -/
structure Activation (α : Type) where
  args : UInt16 → Slot α
  locals : UInt16 → Slot α
  stack : List (Slot α)

namespace Activation

variable {α : Type} (strict : Bool)

def push (state : Activation α) (slot : Slot α) : Activation α :=
  { state with stack := slot :: state.stack }

def effect (instr : Instr) (state : Activation α) : Option (Activation α) :=
  match instr, state.stack with
  | .ldArg number, _ => some (state.push (state.args number))
  | .ldLoc number, _ => some (state.push (state.locals number))
  | .stArg number, slot :: stack =>
      some { state with args := Function.update state.args number slot, stack }
  | .stLoc number, slot :: stack =>
      some { state with locals := Function.update state.locals number slot, stack }
  | .ldcI4 value, _ => some (state.push (.word (.ofInt 32 value)))
  | .ldcI8 value, _ => some (state.push (.long (.ofInt 64 value)))
  | .binary op, b :: a :: stack =>
      (Slot.binary strict op a b).map ({ state with stack }.push ·)
  | .unary op, a :: stack => (Slot.unary op a).map ({ state with stack }.push ·)
  | .conv conversion, a :: stack => (Slot.conv conversion a).map ({ state with stack }.push ·)
  | _, _ => none

def run : List Instr → Activation α → Option (Activation α)
  | [], state => some state
  | instr :: code, state => (state.effect strict instr).bind (run code)

theorem run_append (code more : List Instr) (state : Activation α) :
    run strict (code ++ more) state = (run strict code state).bind (run strict more) := by
  induction code generalizing state with
  | nil => rfl
  | cons instr code ih =>
      rw [List.cons_append, run, run]
      cases state.effect strict instr with
      | none => rfl
      | some next => exact ih next

end Activation

end BytecodeLowering

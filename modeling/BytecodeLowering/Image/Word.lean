/-!
# Words

Fixed-width words as bytes, least significant byte first.
-/

namespace BytecodeLowering

abbrev Bytes := List UInt8

namespace Word

def ofBytes : Bytes → Nat
  | [] => 0
  | byte :: bytes => byte.toNat + 256 * ofBytes bytes

def toBytes : (width : Nat) → Nat → Bytes
  | 0, _ => []
  | width + 1, n => UInt8.ofNat (n % 256) :: toBytes width (n / 256)

@[simp] theorem length_toBytes (width n : Nat) : (toBytes width n).length = width := by
  induction width generalizing n with
  | zero => rfl
  | succ width ih => simp [toBytes, ih]

def signed32 (n : Int) : Int := n.bmod 0x100000000

def signed64 (n : Int) : Int := n.bmod 0x10000000000000000

theorem signed64_of_lt {n : Nat} (h : n < 0x8000000000000000) : signed64 n = n :=
  Int.bmod_eq_of_le_mul_two (by omega) (by omega)

def unsigned32 (n : Int) : Nat := (n % 0x100000000).toNat

end Word

end BytecodeLowering

import BytecodeLowering.Text.Quoted

/-!
# Faults of images

Why an image cannot be read, and why one cannot be written.
-/

namespace BytecodeLowering

inductive DecodeFault where
  | badMagic (found : List UInt8)
  | unsupportedVersion (found min max : UInt8)
  | unexpectedEnd (wanted available : Nat)
  | unknownTypeKind (tag : UInt8)
  | unknownOpcode (byte : UInt8)
  | invalidUtf8 (index : Nat)
  | stringOutOfBlock (index stop block : Nat)
  | lineOverflow (function position count total : Nat)
  | invalidDebugFile (file count : Nat)
  | invalidCount (count : Int)
  | invalidFunctionIndex (function size : Nat)
  deriving DecidableEq, Repr

structure DecodeError where
  offset : Nat
  fault : DecodeFault
  deriving DecidableEq, Repr

def DecodeFault.message : DecodeFault → String
  | .badMagic found =>
      "Bad magic header: expected \"HLB\", got ["
        ++ Text.commaSeparated (found.map fun byte => Nat.repr byte.toNat) ++ "]"
  | .unsupportedVersion found min max =>
      s!"Unsupported version {found}: expected {min}..={max}"
  | .unexpectedEnd wanted available =>
      s!"Unexpected end of input: wanted {wanted} bytes, {available} available"
  | .unknownTypeKind tag => "Unknown type kind: " ++ Text.hexNumeral tag.toNat
  | .unknownOpcode byte => "Unknown opcode: " ++ Text.hexNumeral byte.toNat
  | .invalidUtf8 index => s!"String {index} is not valid UTF-8"
  | .stringOutOfBlock index stop block =>
      s!"String {index} ends at {stop} past its block of {block} bytes"
  | .lineOverflow function position count total =>
      s!"Debug line record in function {function} covers {count} ops from {position} but only "
        ++ s!"{total} exist"
  | .invalidDebugFile file count => s!"Invalid debug file {file} (module has {count})"
  | .invalidCount count => "Invalid count: " ++ Text.decimal count
  | .invalidFunctionIndex function size =>
      s!"Function index {function} outside the index space of {size}"

def DecodeError.message (error : DecodeError) : String :=
  error.fault.message ++ " (at byte " ++ Text.hexNumeral error.offset ++ ")"

inductive EncodeError where
  | indexOutOfRange (value : Int)
  | missingString (text : String)
  | countTooLarge (what : String) (count : Nat)
  deriving DecidableEq, Repr

def EncodeError.message : EncodeError → String
  | .indexOutOfRange value => "Index " ++ Text.decimal value ++ " out of encodable range"
  | .missingString text => "String " ++ Text.quoted text ++ " is not in the string pool"
  | .countTooLarge what count => s!"Too many {what} for a one-byte count: {count}"

end BytecodeLowering

import BytecodeLowering.Image.LineTable

/-!
# The records of a line table

A line table is a stream of records of four kinds.  The bytes of every input
begin with a record or end before one is whole, and the reader has one equation
for each case: it is done, it takes a record over, it refuses it, or it runs
out of bytes.
-/

namespace BytecodeLowering.LineTable

inductive Record where
  | select (file : Nat)
  | copies (count delta : Nat)
  | small (delta : Nat)
  | absolute (line : Nat)
  deriving DecidableEq, Repr

namespace Record

def Fits : Record → Prop
  | select file => file < 0x8000
  | copies count delta => count ≤ 15 ∧ delta ≤ 3
  | small delta => delta ≤ 31
  | absolute line => line < 0x200000

def bytes : Record → Bytes
  | select file => [UInt8.ofNat (file / 256 * 2 + 1), UInt8.ofNat file]
  | copies count delta => [UInt8.ofNat (2 + 4 * count + 64 * delta)]
  | small delta => [UInt8.ofNat (4 + 8 * delta)]
  | absolute line =>
      [UInt8.ofNat (line % 32 * 8), UInt8.ofNat (line / 32), UInt8.ofNat (line / 8192)]

def apply (progress : Progress) : Record → Progress
  | select file => { progress with file }
  | copies count delta => (progress.extend count).moveBy delta
  | small delta => (progress.moveBy delta).extend 1
  | absolute line => { progress with line }.extend 1

/-- Why a record is refused: its file does not exist, or it covers more
instructions than are left. -/
def fault? (extent : Extent) (progress : Progress) : Record → Option DecodeFault
  | select file =>
      if extent.fileCount ≤ file then some (.invalidDebugFile file extent.fileCount) else none
  | copies count _ =>
      if extent.total < progress.lines.length + count then
        some (.lineOverflow extent.function progress.lines.length count extent.total)
      else none
  | small _ | absolute _ => none

theorem length_bytes_pos (record : Record) : 0 < record.bytes.length := by
  cases record <;> exact Nat.succ_pos _

/-! ## The bits of a record -/

section Bits

variable {control : UInt8}

theorem bytes_select (hodd : control.toNat % 2 = 1) (low : UInt8) :
    (select (control.toNat / 2 * 256 + low.toNat)).bytes = [control, low] := by
  have hcontrol := control.toNat_lt
  have hlow := low.toNat_lt
  have hfirst := (UInt8.ofNat_eq_iff_mod_eq_toNat
    ((control.toNat / 2 * 256 + low.toNat) / 256 * 2 + 1) control).mpr (by omega)
  have hsecond := (UInt8.ofNat_eq_iff_mod_eq_toNat
    (control.toNat / 2 * 256 + low.toNat) low).mpr (by omega)
  rw [bytes, hfirst, hsecond]

theorem bytes_copies (heven : ¬ control.toNat % 2 = 1) (hrepeat : control.toNat / 2 % 2 = 1) :
    (copies (control.toNat / 4 % 16) (control.toNat / 64)).bytes = [control] := by
  have hcontrol := control.toNat_lt
  have hfirst := (UInt8.ofNat_eq_iff_mod_eq_toNat
    (2 + 4 * (control.toNat / 4 % 16) + 64 * (control.toNat / 64)) control).mpr (by omega)
  rw [bytes, hfirst]

theorem bytes_small (heven : ¬ control.toNat % 2 = 1) (hplain : ¬ control.toNat / 2 % 2 = 1)
    (hsmall : control.toNat / 4 % 2 = 1) : (small (control.toNat / 8)).bytes = [control] := by
  have hcontrol := control.toNat_lt
  have hfirst := (UInt8.ofNat_eq_iff_mod_eq_toNat
    (4 + 8 * (control.toNat / 8)) control).mpr (by omega)
  rw [bytes, hfirst]

theorem bytes_absolute (heven : ¬ control.toNat % 2 = 1) (hplain : ¬ control.toNat / 2 % 2 = 1)
    (hlarge : ¬ control.toNat / 4 % 2 = 1) (middle high : UInt8) :
    (absolute (control.toNat / 8 + middle.toNat * 32 + high.toNat * 8192)).bytes
      = [control, middle, high] := by
  have hcontrol := control.toNat_lt
  have hmiddle := middle.toNat_lt
  have hhigh := high.toNat_lt
  generalize hline : control.toNat / 8 + middle.toNat * 32 + high.toNat * 8192 = line
  have hfirst := (UInt8.ofNat_eq_iff_mod_eq_toNat (line % 32 * 8) control).mpr (by omega)
  have hsecond := (UInt8.ofNat_eq_iff_mod_eq_toNat (line / 32) middle).mpr (by omega)
  have hthird := (UInt8.ofNat_eq_iff_mod_eq_toNat (line / 8192) high).mpr (by omega)
  rw [bytes, hfirst, hsecond, hthird]

end Bits

end Record

def Short (input : Bytes) : Prop :=
  ∀ (record : Record) (rest : Bytes), record.Fits → input ≠ record.bytes ++ rest

/-! ## The reader in front of a record -/

section Scan

variable {extent : Extent} {notes : List Diagnostic} {progress : Progress} {offset : Nat}

theorem scan_done (h : extent.total ≤ progress.lines.length) (input : Bytes) :
    scan extent notes progress offset input = .ok progress.lines ⟨input, offset, notes⟩ := by
  rw [scan.eq_def, if_pos h]

variable (hopen : progress.lines.length < extent.total)

include hopen

theorem scan_record {record : Record} (hfits : record.Fits) (rest : Bytes) :
    scan extent notes progress offset (record.bytes ++ rest) =
      match record.fault? extent progress with
      | some fault =>
          .error ⟨offset + record.bytes.length, fault⟩
            ⟨rest, offset + record.bytes.length, notes⟩
      | none => scan extent notes (record.apply progress) (offset + record.bytes.length) rest := by
  cases record with
  | select file =>
      have hhigh : (UInt8.ofNat (file / 256 * 2 + 1)).toNat = file / 256 * 2 + 1 := by
        rw [UInt8.toNat_ofNat']
        simp only [Record.Fits] at hfits
        omega
      have hfound : (file / 256 * 2 + 1) / 2 * 256 + file % 256 = file := by omega
      rw [scan.eq_def, if_neg (by omega)]
      simp only [Record.bytes, List.cons_append, List.nil_append, hhigh, UInt8.toNat_ofNat', hfound]
      rw [if_pos (by omega), Record.fault?]
      split <;> rfl
  | copies count delta =>
      obtain ⟨hcount, hdelta⟩ := hfits
      have hcontrol : (UInt8.ofNat (2 + 4 * count + 64 * delta)).toNat
          = 2 + 4 * count + 64 * delta := by
        rw [UInt8.toNat_ofNat']
        omega
      have hfield : (2 + 4 * count + 64 * delta) / 4 % 16 = count := by omega
      have hstep : (2 + 4 * count + 64 * delta) / 64 = delta := by omega
      rw [scan.eq_def, if_neg (by omega)]
      simp only [Record.bytes, List.cons_append, List.nil_append, hcontrol, hfield, hstep]
      rw [if_neg (by omega), if_pos (by omega), Record.fault?]
      split <;> rfl
  | small delta =>
      have hcontrol : (UInt8.ofNat (4 + 8 * delta)).toNat = 4 + 8 * delta := by
        rw [UInt8.toNat_ofNat']
        simp only [Record.Fits] at hfits
        omega
      have hstep : (4 + 8 * delta) / 8 = delta := by omega
      rw [scan.eq_def, if_neg (by omega)]
      simp only [Record.bytes, List.cons_append, List.nil_append, hcontrol, hstep]
      rw [if_neg (by omega), if_neg (by omega), if_pos (by omega)]
      rfl
  | absolute line =>
      have hcontrol : (UInt8.ofNat (line % 32 * 8)).toNat = line % 32 * 8 := by
        rw [UInt8.toNat_ofNat']
        omega
      have hfound : line % 32 * 8 / 8 + line / 32 % 256 * 32 + line / 8192 % 256 * 8192
          = line := by
        simp only [Record.Fits] at hfits
        omega
      rw [scan.eq_def, if_neg (by omega)]
      simp only [Record.bytes, List.cons_append, List.nil_append, hcontrol, UInt8.toNat_ofNat',
        hfound]
      rw [if_neg (by omega), if_neg (by omega), if_neg (by omega)]
      rfl

theorem scan_admitted {record : Record} (hfits : record.Fits)
    (hadmitted : record.fault? extent progress = none) (rest : Bytes) :
    scan extent notes progress offset (record.bytes ++ rest) =
      scan extent notes (record.apply progress) (offset + record.bytes.length) rest := by
  rw [scan_record hopen hfits, hadmitted]

theorem scan_refused {record : Record} (hfits : record.Fits) {fault : DecodeFault}
    (hrefused : record.fault? extent progress = some fault) (rest : Bytes) :
    scan extent notes progress offset (record.bytes ++ rest) =
      .error ⟨offset + record.bytes.length, fault⟩ ⟨rest, offset + record.bytes.length, notes⟩ := by
  rw [scan_record hopen hfits, hrefused]

theorem scan_short {input : Bytes} (hshort : Short input) :
    scan extent notes progress offset input =
      .error ⟨offset + input.length, .unexpectedEnd 1 0⟩ ⟨[], offset + input.length, notes⟩ := by
  rw [scan.eq_def, if_neg (by omega)]
  cases input with
  | nil => rfl
  | cons control rest =>
      have hcontrol := control.toNat_lt
      dsimp only
      split
      case isTrue hodd =>
        cases rest with
        | nil => rfl
        | cons low rest =>
            refine absurd ?_ (hshort (.select (control.toNat / 2 * 256 + low.toNat)) rest ?_)
            · rw [Record.bytes_select hodd]
              rfl
            · have hlow := low.toNat_lt
              simp only [Record.Fits]
              omega
      case isFalse heven =>
        split
        case isTrue hrepeat =>
          refine absurd ?_
            (hshort (.copies (control.toNat / 4 % 16) (control.toNat / 64)) rest ?_)
          · rw [Record.bytes_copies heven hrepeat]
            rfl
          · simp only [Record.Fits]
            omega
        case isFalse hplain =>
          split
          case isTrue hsmall =>
            refine absurd ?_ (hshort (.small (control.toNat / 8)) rest ?_)
            · rw [Record.bytes_small heven hplain hsmall]
              rfl
            · simp only [Record.Fits]
              omega
          case isFalse hlarge =>
            rcases rest with _ | ⟨middle, _ | ⟨high, rest⟩⟩
            · rfl
            · rfl
            · refine absurd ?_ (hshort (.absolute (control.toNat / 8 + middle.toNat * 32
                + high.toNat * 8192)) rest ?_)
              · rw [Record.bytes_absolute heven hplain hlarge]
                rfl
              · have hmiddle := middle.toNat_lt
                have hhigh := high.toNat_lt
                simp only [Record.Fits]
                omega

end Scan

end BytecodeLowering.LineTable

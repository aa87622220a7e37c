import BytecodeLowering.Image.Cursor

/-!
# Line tables

The line table of a function: one source position per instruction, written as
a stream of records that keep a current file and a current line.

    xxxxxxx1 yyyyyyyy   the file becomes x * 256 + y
    ddcccc10            the current line for c instructions, then the line grows by d
    lllll100            the line grows by l, one instruction
    lllll000 b2 b3      the line becomes l + b2 * 32 + b3 * 8192, one instruction

The format keeps the current line in a 32-bit word.  Here it is a number without
a bound, which comes to the same as long as the line stays in the word; that it
does for every image of fewer than 2^27 bytes is `Image.linesFit_of_decode`.
-/

namespace BytecodeLowering.LineTable

/-! ## Reading -/

structure Extent where
  function : Nat
  total : Nat
  fileCount : Nat
  deriving DecidableEq, Repr

structure Progress where
  file : Nat := 0
  line : Nat := 0
  lines : List SourceLine := []
  deriving DecidableEq, Repr

def Progress.extend (progress : Progress) (count : Nat) : Progress :=
  { progress with
    lines := progress.lines ++ List.replicate count ⟨progress.file, progress.line⟩ }

def Progress.moveBy (progress : Progress) (delta : Nat) : Progress :=
  { progress with line := progress.line + delta }

/-- Reads records until every instruction has its position.  Each record
takes at least one byte, so the recursion follows the bytes. -/
def scan (extent : Extent) (notes : List Diagnostic) (progress : Progress) (offset : Nat)
    (input : Bytes) : EStateM.Result DecodeError Cursor (List SourceLine) :=
  if extent.total ≤ progress.lines.length then .ok progress.lines ⟨input, offset, notes⟩
  else
    match input with
    | [] => .error ⟨offset, .unexpectedEnd 1 0⟩ ⟨[], offset, notes⟩
    | control :: rest =>
        let c := control.toNat
        if c % 2 = 1 then
          match rest with
          | [] => .error ⟨offset + 1, .unexpectedEnd 1 0⟩ ⟨[], offset + 1, notes⟩
          | low :: rest =>
              let file := c / 2 * 256 + low.toNat
              if extent.fileCount ≤ file then
                .error ⟨offset + 2, .invalidDebugFile file extent.fileCount⟩
                  ⟨rest, offset + 2, notes⟩
              else scan extent notes { progress with file } (offset + 2) rest
        else if c / 2 % 2 = 1 then
          let count := c / 4 % 16
          if extent.total < progress.lines.length + count then
            .error
              ⟨offset + 1,
                .lineOverflow extent.function progress.lines.length count extent.total⟩
              ⟨rest, offset + 1, notes⟩
          else scan extent notes ((progress.extend count).moveBy (c / 64)) (offset + 1) rest
        else if c / 4 % 2 = 1 then
          scan extent notes ((progress.moveBy (c / 8)).extend 1) (offset + 1) rest
        else
          match rest with
          | [] => .error ⟨offset + 1, .unexpectedEnd 1 0⟩ ⟨[], offset + 1, notes⟩
          | [_] => .error ⟨offset + 2, .unexpectedEnd 1 0⟩ ⟨[], offset + 2, notes⟩
          | middle :: high :: rest =>
              let line := c / 8 + middle.toNat * 32 + high.toNat * 8192
              scan extent notes ({ progress with line }.extend 1) (offset + 3) rest
termination_by structural input

def read (extent : Extent) : Reader (List SourceLine) := fun cursor =>
  scan extent cursor.diagnostics {} cursor.offset cursor.rest

/-! ## Writing -/

def maxRepeat : Nat := 15

def maxRepeatDelta : Nat := 3

def maxSmallDelta : Nat := 31

def selectFile (current : Nat) (entry : SourceLine) : Bytes :=
  if entry.file = current then []
  else [UInt8.ofNat (entry.file / 256 * 2 + 1), UInt8.ofNat entry.file]

/-- The number of entries after the first that a repeat record can still take
in. -/
def runLength (entry : SourceLine) (following : List SourceLine) : Nat :=
  ((following.take (maxRepeat - 1)).takeWhile (· = entry)).length

/-- A small step to the next line is folded into the run before it. -/
def foldedDelta (entry : SourceLine) : List SourceLine → Nat
  | next :: _ =>
      if next.file = entry.file ∧ entry.line < next.line
          ∧ next.line - entry.line ≤ maxRepeatDelta then next.line - entry.line
      else 0
  | [] => 0

def writeFrom (file line : Nat) : List SourceLine → Bytes
  | [] => []
  | entry :: following =>
      let selected := selectFile file entry
      if entry.line = line then
        let run := runLength entry following
        let later := following.drop run
        let delta := foldedDelta entry later
        selected ++ UInt8.ofNat (2 + 4 * (run + 1) + 64 * delta)
          :: writeFrom entry.file (line + delta) later
      else if line < entry.line ∧ entry.line - line ≤ maxSmallDelta then
        selected ++ UInt8.ofNat (4 + 8 * (entry.line - line))
          :: writeFrom entry.file entry.line following
      else
        selected
          ++ [UInt8.ofNat (entry.line % 32 * 8), UInt8.ofNat (entry.line / 32),
            UInt8.ofNat (entry.line / 8192)]
          ++ writeFrom entry.file entry.line following
termination_by lines => lines.length
decreasing_by
  · exact Nat.lt_succ_of_le (List.length_drop ▸ Nat.sub_le _ _)
  · exact Nat.lt_succ_self _
  · exact Nat.lt_succ_self _

def write (lines : List SourceLine) : Bytes := writeFrom 0 0 lines

end BytecodeLowering.LineTable

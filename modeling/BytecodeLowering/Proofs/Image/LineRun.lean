import BytecodeLowering.Proofs.Image.Reads

/-!
# Reading a line table record by record

The reader takes records off its input one after the other until it has enough
entries, refuses a record or has no whole record left.  Each record takes a byte
at least and moves the line forward by a small step or puts it below 2^21, so a
run is no longer than its input and the line grows with the bytes taken, however
few entries the records add.
-/

namespace BytecodeLowering.LineTable

/-- The records that were read from the start of some bytes: how many, what the
reader holds behind them and the bytes that are left. -/
inductive Run (extent : Extent) (input : Bytes) : Nat → Progress → Bytes → Prop
  | start : Run extent input 0 {} input
  | next {count : Nat} {progress : Progress} {record : Record} {rest : Bytes}
      (hrun : Run extent input count progress (record.bytes ++ rest))
      (hopen : progress.lines.length < extent.total) (hfits : record.Fits)
      (hadmitted : record.fault? extent progress = none) :
      Run extent input (count + 1) (record.apply progress) rest

/-- Behind a run the reader wants another entry and meets a record; it has taken
over all records before. -/
def Meets (extent : Extent) (input : Bytes) (progress : Progress) (record : Record) : Prop :=
  progress.lines.length < extent.total ∧ record.Fits ∧
    ∃ count rest, Run extent input count progress (record.bytes ++ rest)

inductive Stop (extent : Extent) (offset : Nat) (notes : List Diagnostic) (progress : Progress) :
    Bytes → EStateM.Result DecodeError Cursor (List SourceLine) → Prop
  | done {rest : Bytes} (hdone : extent.total ≤ progress.lines.length) :
      Stop extent offset notes progress rest (.ok progress.lines ⟨rest, offset, notes⟩)
  | refused {record : Record} {rest : Bytes} {fault : DecodeFault}
      (hopen : progress.lines.length < extent.total) (hfits : record.Fits)
      (hfault : record.fault? extent progress = some fault) :
      Stop extent offset notes progress (record.bytes ++ rest)
        (.error ⟨offset + record.bytes.length, fault⟩
          ⟨rest, offset + record.bytes.length, notes⟩)
  | short {rest : Bytes} (hopen : progress.lines.length < extent.total) (hshort : Short rest) :
      Stop extent offset notes progress rest
        (.error ⟨offset + rest.length, .unexpectedEnd 1 0⟩ ⟨[], offset + rest.length, notes⟩)

section Run

variable {extent : Extent} {input rest : Bytes} {count : Nat} {progress : Progress}

/-- Every record takes a byte at least. -/
theorem Run.steps_le (h : Run extent input count progress rest) :
    count + rest.length ≤ input.length := by
  induction h with
  | start => exact Nat.le_of_eq (Nat.zero_add _)
  | @next count progress record rest hrun hopen hfits hadmitted ih =>
      have hpos := record.length_bytes_pos
      rw [List.length_append] at ih
      omega

/-- A record that fits moves the line by no more than 31 for each of its bytes,
or sets it. -/
theorem Record.line_apply_le {record : Record} (hfits : record.Fits) (progress : Progress) :
    (record.apply progress).line ≤
      max 0x1FFFFF (progress.line + 31 * record.bytes.length) := by
  cases record with
  | select file => exact Nat.le_trans (Nat.le_add_right _ _) (Nat.le_max_right _ _)
  | copies count delta =>
      obtain ⟨-, hdelta⟩ := hfits
      refine Nat.le_trans (Nat.add_le_add_left (?_ : delta ≤ 31) progress.line)
        (Nat.le_max_right _ _)
      omega
  | small delta =>
      exact Nat.le_trans (Nat.add_le_add_left hfits progress.line) (Nat.le_max_right _ _)
  | absolute line => exact Nat.le_trans (Nat.le_of_lt_succ hfits) (Nat.le_max_left _ _)

theorem Run.line_le (h : Run extent input count progress rest) :
    progress.line ≤ 0x1FFFFF + 31 * (input.length - rest.length) := by
  induction h with
  | start => exact Nat.zero_le _
  | @next count progress record rest hrun hopen hfits hadmitted ih =>
      have hline := record.line_apply_le hfits progress
      have htaken := hrun.steps_le
      rw [List.length_append] at ih htaken
      omega

theorem Run.scan_eq (h : Run extent input count progress rest) (offset : Nat)
    (notes : List Diagnostic) :
    scan extent notes {} offset input =
      scan extent notes progress (offset + (input.length - rest.length)) rest := by
  induction h with
  | start => rw [Nat.sub_self, Nat.add_zero]
  | @next count progress record rest hrun hopen hfits hadmitted ih =>
      have htaken := hrun.steps_le
      have hoffset : offset + (input.length - (record.bytes ++ rest).length) + record.bytes.length
          = offset + (input.length - rest.length) := by
        rw [List.length_append] at htaken ⊢
        omega
      rw [ih, scan_admitted hopen hfits hadmitted, hoffset]

/-- A run goes on until the reader stops, by induction on the bytes that are left. -/
theorem Run.exists_stop (h : Run extent input count progress rest) (offset : Nat)
    (notes : List Diagnostic) :
    ∃ total progress rest, Run extent input total progress rest ∧
      Stop extent (offset + (input.length - rest.length)) notes progress rest
        (scan extent notes {} offset input) := by
  induction hlength : rest.length using Nat.strongRecOn generalizing count progress rest with
  | ind length ih =>
      by_cases hopen : progress.lines.length < extent.total
      · by_cases hrecord : ∃ record : Record, record.Fits ∧ ∃ later, rest = record.bytes ++ later
        · obtain ⟨record, hfits, later, rfl⟩ := hrecord
          cases hfault : record.fault? extent progress with
          | none =>
              refine ih later.length ?_ (h.next hopen hfits hfault) rfl
              rw [← hlength, List.length_append]
              exact Nat.lt_add_of_pos_left record.length_bytes_pos
          | some fault =>
              refine ⟨count, progress, _, h, ?_⟩
              rw [h.scan_eq, scan_refused hopen hfits hfault]
              exact .refused hopen hfits hfault
        · have hshort : Short rest := fun record later hfits hrest =>
            hrecord ⟨record, hfits, later, hrest⟩
          refine ⟨count, progress, rest, h, ?_⟩
          rw [h.scan_eq, scan_short hopen hshort]
          exact .short hopen hshort
      · have hdone := Nat.le_of_not_lt hopen
        refine ⟨count, progress, rest, h, ?_⟩
        rw [h.scan_eq, scan_done hdone]
        exact .done hdone

theorem Meets.scan_eq {record : Record} {fault : DecodeFault}
    (h : Meets extent input progress record) (hfault : record.fault? extent progress = some fault)
    (offset : Nat) (notes : List Diagnostic) :
    ∃ place after, scan extent notes {} offset input = .error ⟨place, fault⟩ after := by
  obtain ⟨hopen, hfits, count, rest, hrun⟩ := h
  rw [hrun.scan_eq, scan_refused hopen hfits hfault]
  exact ⟨_, _, rfl⟩

theorem exists_meets {offset place : Nat} {notes : List Diagnostic} {fault : DecodeFault}
    {after : Cursor} (h : scan extent notes {} offset input = .error ⟨place, fault⟩ after)
    (hfault : ¬ fault.isShortage) :
    ∃ progress record, Meets extent input progress record ∧
      record.fault? extent progress = some fault := by
  obtain ⟨total, progress, rest, hrun, hstop⟩ :=
    (Run.start : Run extent input 0 {} input).exists_stop offset notes
  rw [h] at hstop
  cases hstop with
  | refused hopen hfits hrefused =>
      exact ⟨progress, _, ⟨hopen, hfits, total, _, hrun⟩, hrefused⟩
  | short => exact absurd rfl hfault

end Run

/-! ## The two refusals -/

namespace Record

variable {extent : Extent} {progress : Progress} {record : Record}

theorem fault?_eq_lineOverflow_iff {function position count total : Nat} :
    record.fault? extent progress = some (.lineOverflow function position count total) ↔
      function = extent.function ∧ position = progress.lines.length ∧ total = extent.total ∧
        extent.total < progress.lines.length + count ∧ ∃ delta, record = .copies count delta := by
  cases record with
  | select file =>
      rw [fault?]
      split <;> simp
  | copies copied delta =>
      rw [fault?]
      split
      case isTrue hover =>
        constructor
        · rintro ⟨⟩
          exact ⟨rfl, rfl, rfl, hover, delta, rfl⟩
        · rintro ⟨rfl, rfl, rfl, -, _, ⟨⟩⟩
          rfl
      case isFalse hfits =>
        refine iff_of_false (by rintro ⟨⟩) ?_
        rintro ⟨-, -, -, hover, _, ⟨⟩⟩
        exact hfits hover
  | small delta => simp [fault?]
  | absolute line => simp [fault?]

theorem fault?_eq_invalidDebugFile_iff {file count : Nat} :
    record.fault? extent progress = some (.invalidDebugFile file count) ↔
      count = extent.fileCount ∧ extent.fileCount ≤ file ∧ record = .select file := by
  cases record with
  | select selected =>
      rw [fault?]
      split
      case isTrue hunknown =>
        constructor
        · rintro ⟨⟩
          exact ⟨rfl, hunknown, rfl⟩
        · rintro ⟨rfl, -, ⟨⟩⟩
          rfl
      case isFalse hknown =>
        refine iff_of_false (by rintro ⟨⟩) ?_
        rintro ⟨-, hunknown, ⟨⟩⟩
        exact hknown hunknown
  | copies copied delta =>
      rw [fault?]
      split <;> simp
  | small delta => simp [fault?]
  | absolute line => simp [fault?]

end Record

/-! ## A whole table -/

structure Charted (extent : Extent) (offset : Nat) (notes : List Diagnostic) (input : Bytes)
    (outcome : EStateM.Result DecodeError Cursor (List SourceLine)) : Prop where
  /-- Reading ends behind a run. -/
  stops : ∃ count progress rest, Run extent input count progress rest ∧
    Stop extent (offset + (input.length - rest.length)) notes progress rest outcome
  /-- No run has more records than there are bytes, and its line fits a 32-bit word. -/
  bounded : ∀ count progress rest, Run extent input count progress rest →
    count ≤ input.length ∧
      progress.line ≤ 0x1FFFFF + 31 * (input.length - rest.length) ∧
      progress.line < 0x100000000
  entries : ∀ lines after, outcome = .ok lines after →
    lines.length = extent.total ∧
      ∀ entry ∈ lines, entry.file = 0 ∨ entry.file < extent.fileCount
  overflow : ∀ function position count total,
    (∃ place after, outcome = .error ⟨place, .lineOverflow function position count total⟩ after) ↔
      function = extent.function ∧ total = extent.total ∧
        ∃ progress delta, Meets extent input progress (.copies count delta) ∧
          position = progress.lines.length ∧ extent.total - position < count
  unknownFile : ∀ file count,
    (∃ place after, outcome = .error ⟨place, .invalidDebugFile file count⟩ after) ↔
      count = extent.fileCount ∧
        ∃ progress, Meets extent input progress (.select file) ∧ extent.fileCount ≤ file

/-- On any bytes of which there are fewer than 2^27, the reader stops behind a
run in which no line leaves its 32-bit word.  It returns one entry for each
instruction, or refuses the first record that covers too many instructions or
selects a file that does not exist, or runs out of bytes. -/
theorem read_charted (extent : Extent) (input : Bytes) (hinput : input.length < 0x8000000)
    (offset : Nat) (notes : List Diagnostic) :
    Charted extent offset notes input (read extent ⟨input, offset, notes⟩) := by
  refine ⟨Run.start.exists_stop offset notes, ?_, ?_, ?_, ?_⟩
  · intro count progress rest hrun
    have hcount := hrun.steps_le
    have hline := hrun.line_le
    exact ⟨by omega, hline, by omega⟩
  · intro lines after hread
    obtain ⟨⟨hlength, hselectable⟩, -⟩ :=
      (@Reader.reads_lines false extent).result hread (fun hquiet => by cases hquiet)
    exact ⟨hlength, fun entry hentry => (hselectable entry hentry).known⟩
  · intro function position count total
    constructor
    · rintro ⟨place, after, herror⟩
      obtain ⟨progress, record, hmeets, hfault⟩ := exists_meets herror Bool.false_ne_true
      have hopen := hmeets.1
      obtain ⟨rfl, rfl, rfl, hover, delta, rfl⟩ := Record.fault?_eq_lineOverflow_iff.mp hfault
      exact ⟨rfl, rfl, progress, delta, hmeets, rfl, by omega⟩
    · rintro ⟨rfl, rfl, progress, delta, hmeets, rfl, hover⟩
      have hopen := hmeets.1
      refine hmeets.scan_eq (Record.fault?_eq_lineOverflow_iff.mpr ?_) offset notes
      exact ⟨rfl, rfl, rfl, by omega, delta, rfl⟩
  · intro file count
    constructor
    · rintro ⟨place, after, herror⟩
      obtain ⟨progress, record, hmeets, hfault⟩ := exists_meets herror Bool.false_ne_true
      obtain ⟨rfl, hunknown, rfl⟩ := Record.fault?_eq_invalidDebugFile_iff.mp hfault
      exact ⟨rfl, progress, hmeets, hunknown⟩
    · rintro ⟨rfl, progress, hmeets, hunknown⟩
      refine hmeets.scan_eq (Record.fault?_eq_invalidDebugFile_iff.mpr ?_) offset notes
      exact ⟨rfl, hunknown, rfl⟩

def idleRun : Bytes := [0x01, 0x01, 0xC2, 0x4A, 0x2C]

theorem read_charted_idleRun :
    idleRun.length < 0x8000000 ∧
      Charted ⟨7, 3, 2⟩ 0 [] idleRun (.ok [⟨1, 3⟩, ⟨1, 3⟩, ⟨1, 9⟩] ⟨[], 5, []⟩) ∧
      Charted ⟨7, 1, 2⟩ 0 [] idleRun (.error ⟨4, .lineOverflow 7 0 2 1⟩ ⟨[0x2C], 4, []⟩) ∧
      Charted ⟨7, 3, 1⟩ 0 [] idleRun
        (.error ⟨2, .invalidDebugFile 1 1⟩ ⟨[0xC2, 0x4A, 0x2C], 2, []⟩) := by
  have hentries : read ⟨7, 3, 2⟩ ⟨idleRun, 0, []⟩
      = .ok [⟨1, 3⟩, ⟨1, 3⟩, ⟨1, 9⟩] ⟨[], 5, []⟩ := by cbv
  have hover : read ⟨7, 1, 2⟩ ⟨idleRun, 0, []⟩
      = .error ⟨4, .lineOverflow 7 0 2 1⟩ ⟨[0x2C], 4, []⟩ := by cbv
  have hfile : read ⟨7, 3, 1⟩ ⟨idleRun, 0, []⟩
      = .error ⟨2, .invalidDebugFile 1 1⟩ ⟨[0xC2, 0x4A, 0x2C], 2, []⟩ := by cbv
  have hlength : idleRun.length < 0x8000000 := by decide
  refine ⟨hlength, ?_, ?_, ?_⟩
  · exact hentries ▸ read_charted ⟨7, 3, 2⟩ idleRun hlength 0 []
  · exact hover ▸ read_charted ⟨7, 1, 2⟩ idleRun hlength 0 []
  · exact hfile ▸ read_charted ⟨7, 3, 1⟩ idleRun hlength 0 []

end BytecodeLowering.LineTable

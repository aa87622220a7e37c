import BytecodeLowering.Proofs.Image.LineRecord

/-!
# Line tables are read back as they were written

A written table is a sequence of records, and reading it follows the writer
entry by entry, with the same current file and line.
-/

namespace BytecodeLowering

structure SourceLine.WellFormed (fileCount : Nat) (entry : SourceLine) : Prop where
  line_lt : entry.line < 0x200000
  file_lt : entry.file < 0x8000
  /-- The first file is selected at the start and need not exist. -/
  known : entry.file = 0 ∨ entry.file < fileCount

structure SourceLine.Selectable (fileCount : Nat) (entry : SourceLine) : Prop where
  file_lt : entry.file < 0x8000
  known : entry.file = 0 ∨ entry.file < fileCount

theorem SourceLine.WellFormed.selectable {fileCount : Nat} {entry : SourceLine}
    (h : entry.WellFormed fileCount) : entry.Selectable fileCount :=
  ⟨h.file_lt, h.known⟩

namespace LineTable

/-- The lines that the records written from a current line can express: each
fits an absolute record or lies a small step behind the one before it. -/
def Expressible (current : Nat) : List SourceLine → Prop
  | [] => True
  | entry :: following =>
      (entry.line < 0x200000 ∨ current ≤ entry.line ∧ entry.line ≤ current + maxSmallDelta)
        ∧ Expressible entry.line following

instance decidableExpressible (current : Nat) (entries : List SourceLine) :
    Decidable (Expressible current entries) :=
  match entries with
  | [] => isTrue trivial
  | entry :: following =>
      have := decidableExpressible entry.line following
      inferInstanceAs (Decidable (_ ∧ Expressible entry.line following))

theorem expressible_of_lt (current : Nat) {entries : List SourceLine}
    (h : ∀ entry ∈ entries, entry.line < 0x200000) : Expressible current entries := by
  induction entries generalizing current with
  | nil => trivial
  | cons entry following ih =>
      obtain ⟨hentry, hfollowing⟩ := List.forall_mem_cons.mp h
      exact ⟨.inl hentry, ih _ hfollowing⟩

/-! ## One record -/

section Records

variable {extent : Extent} {notes : List Diagnostic} {progress : Progress} {offset : Nat}

theorem scan_select (hopen : progress.lines.length < extent.total) {file : Nat}
    (hfile : file < 0x8000) (hknown : file < extent.fileCount) (rest : Bytes) :
    scan extent notes progress offset
        (UInt8.ofNat (file / 256 * 2 + 1) :: UInt8.ofNat file :: rest) =
      scan extent notes { progress with file } (offset + 2) rest := by
  have hadmitted : (Record.select file).fault? extent progress = none := if_neg (by omega)
  exact scan_admitted hopen (show (Record.select file).Fits from hfile) hadmitted rest

theorem scan_repeat (hopen : progress.lines.length < extent.total) {count delta : Nat}
    (hcount : count ≤ 15) (hdelta : delta ≤ 3)
    (hroom : progress.lines.length + count ≤ extent.total) (rest : Bytes) :
    scan extent notes progress offset (UInt8.ofNat (2 + 4 * count + 64 * delta) :: rest) =
      scan extent notes ((progress.extend count).moveBy delta) (offset + 1) rest := by
  have hfits : (Record.copies count delta).Fits := ⟨hcount, hdelta⟩
  have hadmitted : (Record.copies count delta).fault? extent progress = none := if_neg (by omega)
  exact scan_admitted hopen hfits hadmitted rest

theorem scan_small (hopen : progress.lines.length < extent.total) {delta : Nat}
    (hdelta : delta ≤ 31) (rest : Bytes) :
    scan extent notes progress offset (UInt8.ofNat (4 + 8 * delta) :: rest) =
      scan extent notes ((progress.moveBy delta).extend 1) (offset + 1) rest :=
  scan_admitted hopen (show (Record.small delta).Fits from hdelta) rfl rest

theorem scan_line (hopen : progress.lines.length < extent.total) (line : Nat) (rest : Bytes) :
    scan extent notes progress offset
        (UInt8.ofNat (line % 32 * 8) :: UInt8.ofNat (line / 32) :: UInt8.ofNat (line / 8192)
          :: rest) =
      scan extent notes ({ progress with line := line % 0x200000 }.extend 1) (offset + 3) rest := by
  have hfits : (Record.absolute (line % 0x200000)).Fits := Nat.mod_lt _ (by decide)
  have hlow : line % 0x200000 % 32 = line % 32 := by omega
  have hmiddle : UInt8.ofNat (line % 0x200000 / 32) = UInt8.ofNat (line / 32) := by
    rw [← UInt8.toNat_inj, UInt8.toNat_ofNat', UInt8.toNat_ofNat']
    omega
  have hhigh : UInt8.ofNat (line % 0x200000 / 8192) = UInt8.ofNat (line / 8192) := by
    rw [← UInt8.toNat_inj, UInt8.toNat_ofNat', UInt8.toNat_ofNat']
    omega
  rw [← hlow, ← hmiddle, ← hhigh]
  exact scan_admitted hopen hfits rfl rest

theorem scan_selectFile (progress : Progress) (hopen : progress.lines.length < extent.total)
    {entry : SourceLine} (hentry : entry.Selectable extent.fileCount)
    (hcurrent : progress.file = 0 ∨ progress.file < extent.fileCount) (rest : Bytes) :
    scan extent notes progress offset (selectFile progress.file entry ++ rest) =
      scan extent notes { progress with file := entry.file }
        (offset + (selectFile progress.file entry).length) rest := by
  unfold selectFile
  split
  · rename_i hsame
    rw [hsame]
    rfl
  · rename_i hother
    have hknown : entry.file < extent.fileCount := by
      have := hentry.known
      omega
    exact scan_select hopen hentry.file_lt hknown rest

end Records

/-! ## A whole table -/

theorem runLength_le (entry : SourceLine) (following : List SourceLine) :
    runLength entry following ≤ 14 := by
  have htake : (following.take (maxRepeat - 1)).length ≤ 14 := by
    rw [List.length_take]
    exact Nat.min_le_left _ _
  exact Nat.le_trans (List.takeWhile_prefix _).length_le htake

theorem replicate_runLength (entry : SourceLine) (following : List SourceLine) :
    List.replicate (runLength entry following) entry ++ following.drop (runLength entry following)
      = following := by
  have hbegins : (following.take (maxRepeat - 1)).takeWhile (· = entry) <+: following :=
    (List.takeWhile_prefix _).trans (List.take_prefix _ _)
  have hcopies : (following.take (maxRepeat - 1)).takeWhile (· = entry)
      = List.replicate (runLength entry following) entry := by
    refine List.eq_replicate_iff.mpr ⟨rfl, ?_⟩
    intro other hother
    have hall := List.all_takeWhile (p := (· = entry)) (l := following.take (maxRepeat - 1))
    simpa using List.all_eq_true.mp hall other hother
  obtain ⟨later, hlater⟩ := hbegins
  have hrest : following.drop (runLength entry following) = later := by
    have hdrop : ((following.take (maxRepeat - 1)).takeWhile (· = entry) ++ later).drop
        (runLength entry following) = later := List.drop_left
    rwa [hlater] at hdrop
  rw [hrest, ← hcopies, hlater]

theorem foldedDelta_le (entry : SourceLine) (later : List SourceLine) :
    foldedDelta entry later ≤ 3 := by
  cases later with
  | nil => exact Nat.zero_le 3
  | cons next others =>
      rw [foldedDelta]
      split
      · rename_i hstep
        exact hstep.2.2
      · exact Nat.zero_le 3

/-! ### Steps of the writer

The reader takes the records of one step of the writer and goes on from the
same file and line. -/

section Steps

variable {extent : Extent} {notes : List Diagnostic} {file line offset : Nat}
  {before : List SourceLine} {entry : SourceLine} {following : List SourceLine}
  (hroom : before.length + (entry :: following).length = extent.total)
  (hentry : entry.Selectable extent.fileCount) (hfile : file = 0 ∨ file < extent.fileCount)

include hroom hentry hfile

theorem scan_run (hline : entry.line = line) (rest : Bytes) :
    scan extent notes ⟨file, line, before⟩ offset (selectFile file entry ++
        UInt8.ofNat (2 + 4 * (runLength entry following + 1)
          + 64 * foldedDelta entry (following.drop (runLength entry following))) :: rest) =
      scan extent notes
        ⟨entry.file, line + foldedDelta entry (following.drop (runLength entry following)),
          before ++ List.replicate (runLength entry following + 1) entry⟩
        (offset + (selectFile file entry).length + 1) rest := by
  subst hline
  have hrun := congrArg List.length (replicate_runLength entry following)
  rw [List.length_append, List.length_replicate] at hrun
  rw [List.length_cons] at hroom
  have hcount : runLength entry following + 1 ≤ 15 := Nat.succ_le_succ (runLength_le entry following)
  rw [scan_selectFile ⟨file, entry.line, before⟩ (by simp only; omega) hentry hfile,
    scan_repeat (by simp only; omega) hcount (foldedDelta_le entry _) (by simp only; omega)]
  rfl

theorem scan_step (hstep : line < entry.line ∧ entry.line - line ≤ maxSmallDelta) (rest : Bytes) :
    scan extent notes ⟨file, line, before⟩ offset
        (selectFile file entry ++ UInt8.ofNat (4 + 8 * (entry.line - line)) :: rest) =
      scan extent notes ⟨entry.file, entry.line, before ++ [entry]⟩
        (offset + (selectFile file entry).length + 1) rest := by
  have hsum : line + (entry.line - line) = entry.line := by omega
  rw [List.length_cons] at hroom
  rw [scan_selectFile ⟨file, line, before⟩ (by simp only; omega) hentry hfile,
    scan_small (by simp only; omega) hstep.2]
  simp only [Progress.moveBy, Progress.extend, hsum, List.replicate_one]

theorem scan_absolute (rest : Bytes) :
    scan extent notes ⟨file, line, before⟩ offset
        (selectFile file entry ++ UInt8.ofNat (entry.line % 32 * 8) :: UInt8.ofNat (entry.line / 32)
          :: UInt8.ofNat (entry.line / 8192) :: rest) =
      scan extent notes
        ⟨entry.file, entry.line % 0x200000, before ++ [⟨entry.file, entry.line % 0x200000⟩]⟩
        (offset + (selectFile file entry).length + 3) rest := by
  rw [List.length_cons] at hroom
  rw [scan_selectFile ⟨file, line, before⟩ (by simp only; omega) hentry hfile,
    scan_line (by simp only; omega)]
  rfl

end Steps

/-- Reading only adds entries. -/
theorem prefix_of_scan {extent : Extent} {notes : List Diagnostic} {progress : Progress}
    {offset : Nat} {input : Bytes} {lines : List SourceLine} {after : Cursor}
    (hrun : scan extent notes progress offset input = .ok lines after) :
    progress.lines <+: lines := by
  fun_induction scan extent notes progress offset input with
  | case1 input progress offset hdone =>
      cases hrun
      exact List.prefix_rfl
  | case2 | case3 | case4 | case6 | case9 | case10 => cases hrun
  | case5 progress offset hopen control c hodd low rest file hfile ih => exact ih hrun
  | case7 progress offset hopen control rest c heven hrepeat count hfits ih =>
      exact (List.prefix_append _ _).trans (ih hrun)
  | case8 progress offset hopen control rest c heven hlong hsmall ih =>
      exact (List.prefix_append _ _).trans (ih hrun)
  | case11 progress offset hopen control c heven hlong hlarge middle high rest line ih =>
      exact (List.prefix_append _ _).trans (ih hrun)

/-! ### Which lines are expressible -/

theorem expressible_replicate (entry : SourceLine) (count : Nat) (later : List SourceLine) :
    Expressible entry.line (List.replicate count entry ++ later) ↔
      Expressible entry.line later := by
  induction count with
  | zero => rfl
  | succ count ih =>
      rw [List.replicate_succ, List.cons_append, Expressible, ih]
      exact and_iff_right (.inr ⟨Nat.le_refl _, Nat.le_add_right _ _⟩)

theorem expressible_foldedDelta (entry : SourceLine) (later : List SourceLine) :
    Expressible (entry.line + foldedDelta entry later) later ↔ Expressible entry.line later := by
  cases later with
  | nil => rfl
  | cons next others =>
      rw [foldedDelta]
      split
      · simp only [Expressible, maxSmallDelta, maxRepeatDelta] at *
        refine and_congr_left fun _ => iff_of_true ?_ ?_
        all_goals omega
      · rfl

theorem expressible_run (entry : SourceLine) (following : List SourceLine) :
    Expressible entry.line (entry :: following) ↔
      Expressible
        (entry.line + foldedDelta entry (following.drop (runLength entry following)))
        (following.drop (runLength entry following)) := by
  have hcopies := expressible_replicate entry (runLength entry following + 1)
    (following.drop (runLength entry following))
  rw [List.replicate_succ, List.cons_append, replicate_runLength] at hcopies
  rw [hcopies, expressible_foldedDelta]

/-- The reader follows the writer: it adds the entries that were written and
stops where the writer stopped, and it adds others if one of them was not
expressible. -/
theorem scan_writeFrom (extent : Extent) (notes : List Diagnostic) (file line : Nat)
    (entries : List SourceLine) (before : List SourceLine) (offset : Nat) (rest : Bytes)
    (hroom : before.length + entries.length = extent.total)
    (hentries : ∀ entry ∈ entries, entry.Selectable extent.fileCount)
    (hfile : file = 0 ∨ file < extent.fileCount) :
    (Expressible line entries →
      scan extent notes ⟨file, line, before⟩ offset (writeFrom file line entries ++ rest) =
        .ok (before ++ entries) ⟨rest, offset + (writeFrom file line entries).length, notes⟩) ∧
    ∀ after,
      scan extent notes ⟨file, line, before⟩ offset (writeFrom file line entries ++ rest) =
        .ok (before ++ entries) after → Expressible line entries := by
  fun_induction writeFrom file line entries generalizing before offset with
  | case1 file line =>
      refine ⟨fun _ => ?_, fun _ _ => trivial⟩
      rw [List.nil_append, scan_done (by simpa using Nat.le_of_eq hroom.symm), List.append_nil]
      rfl
  | case2 file entry following selected run later delta ih =>
      have hentry := hentries entry List.mem_cons_self
      have hrun : List.replicate run entry ++ later = following :=
        replicate_runLength entry following
      have hall : before ++ List.replicate (run + 1) entry ++ later = before ++ entry :: following := by
        rw [List.append_assoc, List.replicate_succ, List.cons_append, hrun]
      have hlater := ih (before ++ List.replicate (run + 1) entry) (offset + selected.length + 1)
        (by rw [← List.length_append, hall, List.length_append, hroom])
        (fun other hother => hentries other
          (List.mem_cons_of_mem entry (List.mem_of_mem_drop hother)))
        hentry.known
      rw [expressible_run, List.append_assoc, List.cons_append,
        scan_run hroom hentry hfile rfl, ← hall]
      refine ⟨fun h => (hlater.1 h).trans ?_, hlater.2⟩
      rw [List.length_append, List.length_cons]
      congr 2
      omega
  | case3 file line entry following selected hline hsmall ih =>
      have hentry := hentries entry List.mem_cons_self
      have hlater := ih (before ++ [entry]) (offset + selected.length + 1)
        (by rw [← hroom, List.length_append, List.length_singleton, List.length_cons]; omega)
        (fun other hother => hentries other (List.mem_cons_of_mem entry hother)) hentry.known
      have hlines : Expressible line (entry :: following) ↔ Expressible entry.line following :=
        and_iff_right (.inr ⟨Nat.le_of_lt hsmall.1, by omega⟩)
      rw [← List.append_cons] at hlater
      rw [hlines, List.append_assoc, List.cons_append, scan_step hroom hentry hfile hsmall]
      refine ⟨fun h => (hlater.1 h).trans ?_, hlater.2⟩
      rw [List.length_append, List.length_cons]
      congr 2
      omega
  | case4 file line entry following selected hline hlarge ih =>
      have hentry := hentries entry List.mem_cons_self
      have hlater := ih (before ++ [entry]) (offset + selected.length + 3)
        (by rw [← hroom, List.length_append, List.length_singleton, List.length_cons]; omega)
        (fun other hother => hentries other (List.mem_cons_of_mem entry hother)) hentry.known
      have hscan := @scan_absolute extent notes file line offset before entry following hroom
        hentry hfile (writeFrom entry.file entry.line following ++ rest)
      simp only [List.append_assoc, List.cons_append, List.nil_append]
      rw [hscan]
      rw [← List.append_cons] at hlater
      constructor
      · rintro ⟨hfits, hfollowing⟩
        have hmask : entry.line % 0x200000 = entry.line := by omega
        rw [hmask]
        refine (hlater.1 hfollowing).trans ?_
        simp only [List.length_append, List.length_cons]
        congr 2
        omega
      · intro after hrun
        -- the first entry that was read stands where the written one should stand
        have hfirst := prefix_of_scan hrun
        rw [List.prefix_append_right_inj, List.cons_prefix_cons] at hfirst
        have hmask : entry.line % 0x200000 = entry.line := congrArg SourceLine.line hfirst.1
        rw [hmask] at hrun
        exact ⟨.inl (by omega), hlater.2 after hrun⟩

section Tables

variable (extent : Extent) (entries : List SourceLine) (htotal : extent.total = entries.length)
  (hentries : ∀ entry ∈ entries, entry.Selectable extent.fileCount)
  (rest : Bytes) (offset : Nat) (notes : List Diagnostic)

include htotal hentries

theorem read_write (hlines : Expressible 0 entries) :
    read extent ⟨write entries ++ rest, offset, notes⟩ =
      .ok entries ⟨rest, offset + (write entries).length, notes⟩ :=
  (scan_writeFrom extent notes 0 0 entries [] offset rest (by rw [htotal, List.length_nil]; omega)
    hentries (Or.inl rfl)).1 hlines

theorem expressible_of_read_write {after : Cursor}
    (h : read extent ⟨write entries ++ rest, offset, notes⟩ = .ok entries after) :
    Expressible 0 entries :=
  (scan_writeFrom extent notes 0 0 entries [] offset rest (by rw [htotal, List.length_nil]; omega)
    hentries (Or.inl rfl)).2 after h

end Tables

/-- Every table of lines that an absolute record can hold, in files that exist
and that a record can select, is read back whatever follows it. -/
theorem read_write_exact (function fileCount : Nat) (entries : List SourceLine)
    (hentries : ∀ entry ∈ entries,
      entry.line < 0x200000 ∧ entry.file < 0x8000 ∧ entry.file < fileCount)
    (rest : Bytes) (offset : Nat) (notes : List Diagnostic) :
    read ⟨function, entries.length, fileCount⟩ ⟨write entries ++ rest, offset, notes⟩ =
      .ok entries ⟨rest, offset + (write entries).length, notes⟩ := by
  refine read_write ⟨function, entries.length, fileCount⟩ entries rfl ?_ rest offset notes ?_
  · intro entry hentry
    obtain ⟨-, hfile, hknown⟩ := hentries entry hentry
    exact ⟨hfile, .inr hknown⟩
  · exact expressible_of_lt 0 fun entry hentry => (hentries entry hentry).1

def mixedTable : List SourceLine :=
  [⟨0, 1⟩, ⟨0, 1⟩, ⟨0, 2⟩, ⟨0, 40⟩, ⟨1, 40⟩, ⟨1, 3⟩, ⟨1, 70000⟩, ⟨2, 70001⟩, ⟨2, 70001⟩]

theorem read_write_exact_mixedTable :
    read ⟨5, mixedTable.length, 3⟩ ⟨write mixedTable ++ [0, 255], 8, []⟩ =
      .ok mixedTable ⟨[0, 255], 8 + (write mixedTable).length, []⟩ :=
  read_write_exact 5 3 mixedTable (by decide) [0, 255] 8 []

end LineTable

end BytecodeLowering

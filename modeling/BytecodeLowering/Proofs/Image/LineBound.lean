import BytecodeLowering.Proofs.Image.InRange
import BytecodeLowering.Proofs.Image.LineRun

/-!
# The line register of an image that is read

Every line table of an image is read at some place of its bytes, so what a table
can do to the current line is limited by the size of the image.  As long as the
image has fewer than 2^27 bytes the current line stays in a 32-bit word while
any of its tables is read.
-/

namespace BytecodeLowering

namespace Reader

/-- Every value that the reader returns on bytes that end at `limit` has the
property. -/
structure Within (limit : Nat) (reader : Reader α) (post : α → Prop) : Prop where
  steady : Steady reader
  result {cursor after : Cursor} {value : α} :
    cursor.limit = limit → reader cursor = .ok value after → post value

theorem Steady.limit_eq {reader : Reader α} (h : Steady reader) {cursor after : Cursor} {value : α}
    (hrun : reader cursor = .ok value after) : after.limit = cursor.limit := by
  have hagree := h cursor []
  rw [hrun] at hagree
  generalize reader (cursor.followedBy []) = other at hagree
  cases hagree with
  | value hlimit => exact hlimit

namespace Within

variable {limit : Nat} {post : α → Prop}

theorem of_reads {reader : Reader α} (h : Reads false reader post) : Within limit reader post :=
  ⟨h.steady, fun _ hrun => (h.result hrun nofun).1⟩

theorem pure {value : α} (h : post value) : Within limit (Pure.pure value) post where
  steady := .pure value
  result _ hrun := by
    cases hrun
    exact h

theorem bind {reader : Reader α} {next : α → Reader β} {result : β → Prop}
    (hreader : Within limit reader post)
    (hnext : ∀ first, Within limit (next first) fun value => post first → result value) :
    Within limit (reader >>= next) result where
  steady := hreader.steady.bind fun first => (hnext first).steady
  result hlimit hrun := by
    obtain ⟨first, middle, hfirst, hrest⟩ := of_bind_ok hrun
    have hmiddle := (hreader.steady.limit_eq hfirst).trans hlimit
    exact (hnext first).result hmiddle hrest (hreader.result hlimit hfirst)

theorem times {reader : Reader α} (h : Within limit reader post) (count : Nat) :
    Within limit (times count reader) fun items => ∀ item ∈ items, post item := by
  induction count with
  | zero => exact .pure nofun
  | succ count ih =>
      refine h.bind fun first => ih.bind fun others => .pure fun hothers hfirst => ?_
      exact List.forall_mem_cons.mpr ⟨hfirst, hothers⟩

end Within

end Reader

/-- A line table that was read at a place of some bytes which end at `limit`,
without the current line ever leaving a 32-bit word. -/
def LineTable.ReadWithin (extent : Extent) (limit : Nat) (lines : List SourceLine) : Prop :=
  ∃ cursor after, cursor.limit = limit ∧ read extent cursor = .ok lines after ∧
    ∀ count progress rest, Run extent cursor.rest count progress rest →
      progress.line < 0x100000000

def FunctionDef.LinesFit (function : FunctionDef) (fileCount limit : Nat) : Prop :=
  ∀ lines, function.lines = some lines →
    LineTable.ReadWithin ⟨Word.unsigned32 function.index, function.operations.length, fileCount⟩
      limit lines

namespace Reader

variable {limit : Nat} {tables : Tables} {layout : Layout}

theorem within_lines (extent : LineTable.Extent) (hlimit : limit < 0x8000000) :
    Within limit (LineTable.read extent) (LineTable.ReadWithin extent limit) where
  steady := (@reads_lines false extent).steady
  result {cursor after lines} hcursor hrun := by
    refine ⟨cursor, after, hcursor, hrun, fun count progress rest hrecords => ?_⟩
    have hline := hrecords.line_le
    have hrest : cursor.rest.length ≤ cursor.limit := Nat.le_add_left _ _
    omega

theorem within_functionLines (hlimit : limit < 0x8000000) (function total : Nat) :
    Within limit (functionLines layout function total) fun lines => ∀ entries,
      lines = some entries →
        LineTable.ReadWithin ⟨Word.unsigned32 function, total, layout.fileCount⟩ limit entries := by
  rw [functionLines]
  split
  · refine (within_lines _ hlimit).bind fun entries => .pure ?_
    rintro hread _ ⟨⟩
    exact hread
  · exact .pure nofun

theorem within_functionDef (hlimit : limit < 0x8000000) :
    Within limit (functionDef layout tables) fun function =>
      function.LinesFit layout.fileCount limit := by
  refine (Within.of_reads reads_typeIndex).bind fun type =>
    (Within.of_reads (reads_functionIndex _)).bind fun index =>
    (Within.of_reads reads_count).bind fun registerCount =>
    (Within.of_reads reads_count).bind fun operationCount =>
    (Within.of_reads (reads_typeIndex.times registerCount)).bind fun registers =>
    (Within.of_reads (reads_operation.times operationCount)).bind fun operations =>
    (within_functionLines hlimit index operationCount).bind fun lines =>
    (Within.of_reads reads_functionNames).bind fun names => .pure ?_
  rintro - hlines ⟨rfl, -⟩ - - - - -
  exact hlines

theorem within_contents (hlimit : limit < 0x8000000) :
    Within limit contents fun image =>
      ∀ function ∈ image.functions, function.LinesFit image.debugFiles.length limit := by
  refine (Within.of_reads reads_header).bind fun version =>
    (Within.of_reads reads_unsignedIndex).bind fun flags =>
    (Within.of_reads (reads_counts version)).bind fun counts =>
    (Within.of_reads reads_unsignedIndex).bind fun entrypoint =>
    (Within.of_reads (reads_int32.times counts.ints)).bind fun ints =>
    (Within.of_reads (reads_binary64.times counts.floats)).bind fun floats =>
    (Within.of_reads (reads_stringPool counts.strings)).bind fun strings =>
    (Within.of_reads (reads_blobs version counts.blobs)).bind fun blobs =>
    (Within.of_reads (reads_debugFiles _)).bind fun debugFiles =>
    (Within.of_reads (reads_sourceType.times counts.types)).bind fun types =>
    (Within.of_reads (reads_typeIndex.times counts.globals)).bind fun globals =>
    (Within.of_reads ((reads_native _).times counts.natives)).bind fun natives =>
    ((within_functionDef hlimit).times counts.functions).bind fun functions =>
    (Within.of_reads (reads_constant.times counts.constants)).bind fun constants => .pure ?_
  rintro - hfunctions - - - - - - - - - - - -
  exact hfunctions

end Reader

/-- An image of fewer than 2^27 bytes is read without the line register leaving
its 32-bit word in the line table of any of its functions. -/
theorem Image.linesFit_of_decode {bytes : Bytes} {image : Image} (h : decode bytes = .ok image)
    (hshort : bytes.length < 0x8000000) :
    ∀ function ∈ image.functions, function.LinesFit image.debugFiles.length bytes.length := by
  obtain ⟨read, middle, hread, himage, -⟩ := contents_of_decode h
  have hlimit : Cursor.limit { rest := bytes } = bytes.length := Nat.zero_add _
  have hfits := (Reader.within_contents hshort).result hlimit hread
  rw [himage]
  exact hfits

end BytecodeLowering

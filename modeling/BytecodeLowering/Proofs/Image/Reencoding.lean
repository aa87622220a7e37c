import BytecodeLowering.Proofs.Image.InRange
import BytecodeLowering.Proofs.Image.RoundTrip
import BytecodeLowering.Proofs.Lower.Steps

/-!
# Writing an image that was read

Reading accepts many forms that writing never produces: long indices, records
that only move the line, a last string without a byte after it, bytes behind
the end.  An image that was read without a remark can always be written again,
and what was written is read as the same image exactly when its lines and its
string blocks stay within the limits of the writer.
-/

namespace BytecodeLowering

open Reader (Returns)

theorem Reader.contents_returns_quiet :
    Returns contents fun image => image.diagnostics = [] :=
  .bind fun _ => .bind fun _ => .bind fun _ => .bind fun _ => .bind fun _ => .bind fun _ =>
    .bind fun _ => .bind fun _ => .bind fun _ => .bind fun _ => .bind fun _ => .bind fun _ =>
    .bind fun _ => .bind fun _ => .pure rfl

namespace Image

variable {bytes : Bytes} {image : Image}

theorem decode_eq_ok_iff (hquiet : image.diagnostics = []) :
    decode bytes = .ok image ↔
      (image.functionTable.resolve? image.entrypoint).isSome = true ∧
        ∃ after, after.diagnostics = [] ∧ Reader.contents { rest := bytes } = .ok image after := by
  constructor
  · intro h
    rw [decode] at h
    split at h <;> cases h
    case h_1 final hrun =>
      obtain ⟨read, middle, hread, hrest⟩ := Reader.of_bind_ok hrun
      obtain ⟨_, checked, hchecked, hresult⟩ := Reader.of_bind_ok hrest
      cases hresult
      have hsame : { read with diagnostics := checked.diagnostics } = read := by
        have hnone := Reader.contents_returns_quiet _ _ _ hread
        simp only at hquiet
        rw [hquiet, ← hnone]
      obtain ⟨hresolves, hmiddle⟩ :=
        (@Reader.reads_checkEntrypoint true _ _).result hchecked fun _ => hquiet
      rw [hsame]
      exact ⟨hresolves rfl, middle, hmiddle rfl, hread⟩
  · rintro ⟨hresolves, after, hafter, hread⟩
    have hcheck : Reader.checkEntrypoint image.functionTable image.entrypoint = pure () := by
      rw [Reader.checkEntrypoint, if_neg]
      simpa [Option.isSome_iff_ne_none] using hresolves
    have hrun : Reader.image { rest := bytes } =
        .ok { image with diagnostics := after.diagnostics } { after with diagnostics := [] } := by
      rw [Reader.image, Reader.bind_ok _ hread, hcheck]
      rfl
    rw [decode, hrun, hafter, ← hquiet]

theorem recorded_of_decode (h : decode bytes = .ok image) (hquiet : image.diagnostics = []) :
    image.Recorded image.tables := by
  obtain ⟨-, after, hafter, hread⟩ := (decode_eq_ok_iff hquiet).mp h
  exact ((@Reader.reads_recorded true).result hread fun _ => hafter).1

/-- An image that was read without a remark is written, and what was written is
read as that image exactly when it is expressible. -/
theorem decode_reencoded_iff (bytes : Bytes) (image : Image) (h : decode bytes = .ok image)
    (hquiet : image.diagnostics = []) :
    ∃ written, image.encode = .ok written ∧
      (decode written = .ok image ↔ image.Expressible) := by
  obtain ⟨hresolves, -⟩ := (decode_eq_ok_iff hquiet).mp h
  obtain ⟨written, hencode, -, htakes, hback⟩ :=
    Carried.recordedContents (recorded_of_decode h hquiet) hquiet
  refine ⟨written, hencode, ?_⟩
  rw [decode_eq_ok_iff hquiet, and_iff_right hresolves]
  constructor
  · rintro ⟨after, -, hread⟩
    rw [← List.append_nil written] at hread
    exact hback [] 0 [] after (Nat.zero_le _) hread
  · intro hexpressible
    have hread := htakes hexpressible [] 0 [] (Nat.zero_le _)
    rw [List.append_nil] at hread
    exact ⟨_, rfl, hread⟩

def twoSteps (debugFiles : List String) (first second : SourceLine) : Image where
  version := 2
  flags := 1
  debugFiles
  types := [.void, .func ⟨[], 0⟩]
  functions := [{
    index := 0, type := 1, registers := [], operations := [⟨.nop, []⟩, ⟨.nop, []⟩]
    lines := some [first, second], names := [] }]
  functionTable := FunctionTable.build [0] []

/-- Indices in their long forms, a file name without a byte after it, records
that only select a file or move the line, and two bytes behind the end. -/
def wasteful : Bytes :=
  [0x48, 0x4C, 0x42, 2, 0x80, 1, 0, 0, 0, 0xC0, 0, 0, 2, 0, 0, 1, 0, 0, 0, 0, 0,
    1, 0, 0, 0, 0, 0, 0, 10, 0, 0, 0x80, 1, 0, 0, 2, 98, 98, 1, 0, 0xC2, 0x42, 0x0C, 0xC2, 0x06,
    7, 7]

theorem decode_reencoded_iff_wasteful :
    decode wasteful = .ok (twoSteps [""] ⟨0, 5⟩ ⟨0, 8⟩) ∧
      ∃ written, (twoSteps [""] ⟨0, 5⟩ ⟨0, 8⟩).encode = .ok written ∧
        decode written = .ok (twoSteps [""] ⟨0, 5⟩ ⟨0, 8⟩) := by
  have hread : decode wasteful = .ok (twoSteps [""] ⟨0, 5⟩ ⟨0, 8⟩) :=
    ok_of_toOption (by decide +kernel)
  have hexpressible : (twoSteps [""] ⟨0, 5⟩ ⟨0, 8⟩).Expressible :=
    ⟨by decide, by decide, by simp [twoSteps, Text.length_terminated]⟩
  obtain ⟨written, hencode, hiff⟩ := decode_reencoded_iff wasteful _ hread rfl
  exact ⟨hread, written, hencode, hiff.mpr hexpressible⟩

/-- The absolute record holds the largest line it can, eleven empty records
move on from there, and the last instruction has a line of 22 bits. -/
def overgrown : Bytes :=
  [0x48, 0x4C, 0x42, 2, 1, 0, 0, 0, 2, 0, 0, 1, 0, 0, 0, 0, 0, 0, 0, 0, 0, 0, 0, 10, 0, 0,
    1, 0, 0, 2, 98, 98, 0xF8, 0xFF, 0xFF, 0xC2, 0xC2, 0xC2, 0xC2, 0xC2, 0xC2, 0xC2, 0xC2, 0xC2,
    0xC2, 0xC2, 0x06]

/-- The writer cuts the second line of `overgrown` to 21 bits. -/
theorem overgrown_not_reencoded :
    ¬ ∀ bytes image, decode bytes = .ok image → image.diagnostics = [] →
      ∃ written, image.encode = .ok written ∧ decode written = .ok image := by
  have hread : decode overgrown = .ok (twoSteps [] ⟨0, 2097151⟩ ⟨0, 2097184⟩) :=
    ok_of_toOption (by decide +kernel)
  intro hlossless
  obtain ⟨written, hencode, hdecode⟩ := hlossless overgrown _ hread rfl
  have hcut : ((twoSteps [] ⟨0, 2097151⟩ ⟨0, 2097184⟩).encode.toOption.bind
      fun written => (decode written).toOption) = some (twoSteps [] ⟨0, 2097151⟩ ⟨0, 32⟩) := by
    decide +kernel
  rw [hencode, Except.toOption, Option.bind_some, hdecode, Except.toOption] at hcut
  revert hcut
  decide

end Image

end BytecodeLowering

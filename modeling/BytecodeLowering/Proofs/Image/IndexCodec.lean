import BytecodeLowering.Proofs.Image.Segment

/-!
# The shortest form of an index

A writer that pushes an index byte by byte onto a buffer appends the segment
that belongs to the index, or fails before its first byte.  The reader takes
the segment back, and it can get the same value from no fewer bytes: the form
that it finds in a first byte bounds the value that it returns.
-/

namespace BytecodeLowering

/-! ## A buffer that grows byte by byte -/

/-- A sink keeps the buffer it reached, also when it fails. -/
abbrev Sink := EStateM EncodeError Bytes

namespace Sink

def push (byte : UInt8) : Sink Unit := modify (· ++ [byte])

def index (value : Int) : Sink Unit := do
  let magnitude := value.natAbs
  if 0 ≤ value ∧ magnitude < 128 then
    push (UInt8.ofNat magnitude)
  else if magnitude < 0x2000 then
    push (UInt8.ofNat (128 + Writer.signBit value + magnitude / 0x100))
    push (UInt8.ofNat magnitude)
  else if magnitude ≤ Writer.maxMagnitude then
    push (UInt8.ofNat (192 + Writer.signBit value + magnitude / 0x1000000))
    push (UInt8.ofNat (magnitude / 0x10000))
    push (UInt8.ofNat (magnitude / 0x100))
    push (UInt8.ofNat magnitude)
  else
    throw (.indexOutOfRange value)

def unsignedIndex (value : Nat) : Sink Unit :=
  let word := Word.signed64 value
  if (Writer.maxMagnitude : Int) < word then throw (.indexOutOfRange word)
  else index (Word.signed32 value)

/-- A part as a whole: its bytes, or its error with the buffer as it was. -/
def part (bytes : Writer.Result) : Sink Unit :=
  match bytes with
  | .ok segment => modify (· ++ segment)
  | .error error => throw error

theorem index_eq (value : Int) : index value = part (Writer.index value) := by
  simp only [index, Writer.index]
  split
  · rfl
  · split
    · funext buffer
      change EStateM.Result.ok () (buffer ++ [_] ++ [_]) = .ok () (buffer ++ [_, _])
      simp only [List.append_assoc, List.cons_append, List.nil_append]
    · split
      · funext buffer
        change EStateM.Result.ok () (buffer ++ [_] ++ [_] ++ [_] ++ [_]) =
          .ok () (buffer ++ [_, _, _, _])
        simp only [List.append_assoc, List.cons_append, List.nil_append]
      · rfl

theorem unsignedIndex_eq (value : Nat) :
    unsignedIndex value = part (Writer.unsignedIndex value) := by
  simp only [unsignedIndex, Writer.unsignedIndex]
  split
  · rfl
  · exact index_eq _

theorem part_ok {bytes : Writer.Result} {segment : Bytes} (h : bytes = .ok segment)
    (buffer : Bytes) : part bytes buffer = .ok () (buffer ++ segment) := by
  rw [h]
  rfl

theorem part_error {bytes : Writer.Result} {error : EncodeError} (h : bytes = .error error)
    (buffer : Bytes) : part bytes buffer = .error error buffer := by
  rw [h]
  rfl

end Sink

/-! ## The size of an index -/

def Writer.indexSize (value : Int) : Nat :=
  if 0 ≤ value ∧ value.natAbs < 128 then 1 else if value.natAbs < 0x2000 then 2 else 4

theorem Writer.length_index {value : Int} {segment : Bytes} (h : Writer.index value = .ok segment) :
    segment.length = indexSize value := by
  simp only [Writer.index] at h
  unfold indexSize
  split at h
  · cases h
    exact (if_pos ‹_›).symm
  · rw [if_neg ‹_›]
    split at h
    · cases h
      exact (if_pos ‹_›).symm
    · rw [if_neg ‹_›]
      split at h
      · cases h
        rfl
      · cases h

theorem Writer.index_error {value : Int} (h : maxMagnitude < value.natAbs) :
    Writer.index value = .error (.indexOutOfRange value) := by
  have hlarge : 0x1FFFFFFF < value.natAbs := h
  simp only [Writer.index]
  rw [if_neg (by omega), if_neg (by omega), if_neg (Nat.not_le.mpr h)]

theorem Writer.unsignedIndex_error {value : Nat} (hword : value < 0x8000000000000000)
    (h : maxMagnitude < value) : Writer.unsignedIndex value = .error (.indexOutOfRange value) := by
  rw [Writer.unsignedIndex, Word.signed64_of_lt hword]
  exact if_pos (by exact_mod_cast h)

namespace Reader

variable {input : Bytes} {offset : Nat} {notes : List Diagnostic} {value : Int} {after : Cursor}

theorem bytes_short {count : Nat} (h : input.length < count) :
    bytes count ⟨input, offset, notes⟩ =
      .error ⟨offset, .unexpectedEnd count input.length⟩ ⟨input, offset, notes⟩ := by
  have hget : (get : Reader Cursor) ⟨input, offset, notes⟩ = .ok _ _ := rfl
  have hremaining : Cursor.remaining ⟨input, offset, notes⟩ < count := h
  rw [bytes, bind_ok _ hget, if_pos hremaining]
  rfl

theorem natAbs_withSign (first : UInt8) (magnitude : Nat) :
    (withSign first magnitude).natAbs = magnitude := by
  unfold withSign
  split
  · exact Int.natAbs_neg magnitude
  · rfl

/-- Whatever was read, at least the size of the value has been taken. -/
theorem indexSize_le (h : index ⟨input, offset, notes⟩ = .ok value after) :
    Writer.indexSize value + after.rest.length ≤ input.length := by
  unfold Writer.indexSize
  cases input with
  | nil => cases h
  | cons first rest =>
      have hfirst (found : Bytes) : byte ⟨first :: found, offset, notes⟩ =
        .ok first ⟨found, offset + 1, notes⟩ := rfl
      by_cases hone : first.toNat < 128
      · rw [index_one hone] at h
        injection h with hvalue hafter
        rw [← hafter, if_pos ⟨by omega, by omega⟩, List.length_cons]
        exact Nat.le_of_eq (Nat.add_comm _ _)
      by_cases htwo : first.toNat / 64 % 2 = 0
      · cases rest with
        | nil =>
            rw [index, bind_ok _ (hfirst _), if_neg hone, if_pos htwo] at h
            cases h
        | cons low rest =>
            rw [index_two (by omega) htwo] at h
            injection h with hvalue hafter
            have hlow := low.toNat_lt
            have hsmall : value.natAbs < 0x2000 := by
              rw [← hvalue, natAbs_withSign]
              omega
            rw [← hafter, if_pos hsmall]
            simp only [List.length_cons]
            split <;> omega
      · by_cases hshort : rest.length < 3
        · rw [index, bind_ok _ (hfirst _), if_neg hone, if_neg htwo,
            bind_error _ (bytes_short hshort)] at h
          cases h
        obtain ⟨a, b, c, rest, rfl⟩ : ∃ a b c tail, rest = a :: b :: c :: tail := by
          rcases rest with _ | ⟨a, _ | ⟨b, _ | ⟨c, rest⟩⟩⟩
          · exact absurd (Nat.zero_lt_succ 2) hshort
          · exact absurd (Nat.one_lt_succ_succ 1) hshort
          · exact absurd (Nat.lt_succ_self 2) hshort
          · exact ⟨a, b, c, rest, rfl⟩
        rw [index_four (by omega) (by omega)] at h
        injection h with hvalue hafter
        rw [← hafter]
        simp only [List.length_cons]
        split
        · omega
        · split <;> omega

end Reader

/-! ## The codec -/

/-- Every index whose magnitude fits the longest form is appended to the
buffer in its shortest form and read back from there, and every other one
leaves the buffer as it was.  The same holds of unsigned indices up to the
largest signed word. -/
theorem index_exact_shortest :
    (∀ (value : Int) (buffer : Bytes),
      (value.natAbs ≤ Writer.maxMagnitude → ∃ segment,
        Sink.index value buffer = .ok () (buffer ++ segment) ∧
        (∀ (rest : Bytes) (offset : Nat) (notes : List Diagnostic),
          Reader.index ⟨segment ++ rest, offset, notes⟩ =
            .ok value ⟨rest, offset + segment.length, notes⟩) ∧
        ∀ shorter : Bytes, shorter.length < segment.length → ∀ offset notes after,
          Reader.index ⟨shorter, offset, notes⟩ ≠ .ok value after) ∧
      (Writer.maxMagnitude < value.natAbs →
        Sink.index value buffer = .error (.indexOutOfRange value) buffer)) ∧
    ∀ value : Nat, value < 0x8000000000000000 → ∀ buffer : Bytes,
      (value ≤ Writer.maxMagnitude → ∃ segment,
        Sink.unsignedIndex value buffer = .ok () (buffer ++ segment) ∧
        ∀ (rest : Bytes) (offset : Nat) (notes : List Diagnostic),
          Reader.unsignedIndex ⟨segment ++ rest, offset, notes⟩ =
            .ok value ⟨rest, offset + segment.length, notes⟩) ∧
      (Writer.maxMagnitude < value →
        Sink.unsignedIndex value buffer = .error (.indexOutOfRange value) buffer) := by
  refine ⟨fun value buffer => ⟨fun hfits => ?_, fun hlarge => ?_⟩,
    fun value hword buffer => ⟨fun hfits => ?_, fun hlarge => ?_⟩⟩
  · obtain ⟨segment, hpart, -, htakes⟩ := Carried.index hfits
    refine ⟨segment, ?_, ?_, ?_⟩
    · rw [Sink.index_eq, Sink.part_ok hpart]
    · intro rest offset notes
      exact htakes rest offset notes (Nat.zero_le _)
    · intro shorter hshorter offset notes after hread
      have htaken := Reader.indexSize_le hread
      rw [← Writer.length_index hpart] at htaken
      omega
  · rw [Sink.index_eq, Sink.part_error (Writer.index_error hlarge)]
  · obtain ⟨segment, hpart, -, htakes⟩ := Carried.unsignedIndex hfits
    refine ⟨segment, ?_, ?_⟩
    · rw [Sink.unsignedIndex_eq, Sink.part_ok hpart]
    · intro rest offset notes
      exact htakes rest offset notes (Nat.zero_le _)
  · rw [Sink.unsignedIndex_eq, Sink.part_error (Writer.unsignedIndex_error hword hlarge)]

/-- The smallest magnitude with four bytes is written and read back with either
sign, and no two bytes are read as it; the smallest that is too large is refused. -/
theorem index_exact_shortest_at_two_byte_limit :
    (∃ segment, Sink.index (-0x2000) [7] = .ok () (7 :: segment) ∧
      Reader.index ⟨segment ++ [1], 3, []⟩ = .ok (-0x2000) ⟨[1], 3 + segment.length, []⟩ ∧
      ∀ shorter : Bytes, shorter.length < segment.length → ∀ offset notes after,
        Reader.index ⟨shorter, offset, notes⟩ ≠ .ok (-0x2000) after) ∧
    Sink.index (-0x20000000) [7] = .error (.indexOutOfRange (-0x20000000)) [7] ∧
    ∃ segment, Sink.unsignedIndex 0x2000 [7] = .ok () (7 :: segment) ∧
      Reader.unsignedIndex ⟨segment ++ [1], 3, []⟩
        = .ok 0x2000 ⟨[1], 3 + segment.length, []⟩ := by
  refine ⟨?_, ?_, ?_⟩
  · obtain ⟨hfits, -⟩ := index_exact_shortest.1 (-0x2000) [7]
    obtain ⟨segment, hwritten, hread, hshortest⟩ := hfits (by decide)
    exact ⟨segment, hwritten, hread [1] 3 [], hshortest⟩
  · obtain ⟨-, hlarge⟩ := index_exact_shortest.1 (-0x20000000) [7]
    exact hlarge (by decide)
  · obtain ⟨hfits, -⟩ := index_exact_shortest.2 0x2000 (by decide) [7]
    obtain ⟨segment, hwritten, hread⟩ := hfits (by decide)
    exact ⟨segment, hwritten, hread [1] 3 []⟩

end BytecodeLowering

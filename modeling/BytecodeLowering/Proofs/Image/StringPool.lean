import BytecodeLowering.Proofs.Image.Pools

/-!
# The strings of a pool are slices of its block

The lengths behind a block cut it from its start on, with one byte left out
after each string.  Reading succeeds exactly when every string lies in the
block and is text, and otherwise reports the first one that does not or is not.
-/

namespace BytecodeLowering

def Text.Encodes (bytes : Bytes) : Prop :=
  (⟨bytes.toArray⟩ : ByteArray).IsValidUTF8

theorem Text.fromUTF8?_eq_none {bytes : Bytes} (h : ¬ Text.Encodes bytes) :
    String.fromUTF8? ⟨bytes.toArray⟩ = none :=
  dif_neg h

theorem Text.exists_fromUTF8? {bytes : Bytes} (h : Text.Encodes bytes) :
    ∃ text, String.fromUTF8? ⟨bytes.toArray⟩ = some text ∧ text.toUTF8.toList = bytes := by
  refine ⟨String.fromUTF8 ⟨bytes.toArray⟩ h, dif_pos h, ?_⟩
  rw [Text.byteArray_toList]
  rfl

namespace Reader

/-! ## The places of the strings -/

/-- Where a string starts: behind each of those before it a byte is left out. -/
def sliceStart (lengths : List Nat) (index : Nat) : Nat :=
  (lengths.take index).foldl (fun start length => start + (length + 1)) 0

def sliceStop (lengths : List Nat) (index : Nat) : Nat :=
  sliceStart lengths index + lengths.getD index 0

def slice (block : Bytes) (lengths : List Nat) (index : Nat) : Bytes :=
  (block.drop (sliceStart lengths index)).take (lengths.getD index 0)

def SoundSlice (block : Bytes) (lengths : List Nat) (index : Nat) : Prop :=
  sliceStop lengths index ≤ block.length ∧ Text.Encodes (slice block lengths index)

/-- What is wrong with a string; that it leaves the block comes first. -/
inductive SliceFault (block : Bytes) (lengths : List Nat) (index : Nat) : DecodeFault → Prop
  | outOfBlock (hstop : block.length < sliceStop lengths index) :
      SliceFault block lengths index
        (.stringOutOfBlock index (sliceStop lengths index) block.length)
  | notText (hstop : sliceStop lengths index ≤ block.length)
      (htext : ¬ Text.Encodes (slice block lengths index)) :
      SliceFault block lengths index (.invalidUtf8 index)

section Slices

variable {block : Bytes} {lengths : List Nat} {index : Nat}

theorem SliceFault.not_sound {fault : DecodeFault} (h : SliceFault block lengths index fault) :
    ¬ SoundSlice block lengths index := by
  intro hsound
  cases h with
  | outOfBlock hstop => exact Nat.not_lt.mpr hsound.1 hstop
  | notText _ htext => exact htext hsound.2

theorem sliceStart_zero (lengths : List Nat) : sliceStart lengths 0 = 0 := rfl

theorem sliceStart_succ {length : Nat} (h : lengths[index]? = some length) :
    sliceStart lengths (index + 1) = sliceStart lengths index + (length + 1) := by
  rw [sliceStart, List.take_add_one, h, List.foldl_append]
  rfl

theorem sliceStop_eq {length : Nat} (h : lengths[index]? = some length) :
    sliceStop lengths index = sliceStart lengths index + length := by
  rw [sliceStop, List.getD_eq_getElem?_getD, h, Option.getD_some]

theorem slice_eq {length : Nat} (h : lengths[index]? = some length) :
    slice block lengths index = (block.drop (sliceStart lengths index)).take
      (sliceStop lengths index - sliceStart lengths index) := by
  rw [sliceStop_eq h, Nat.add_sub_cancel_left, slice, List.getD_eq_getElem?_getD, h,
    Option.getD_some]

/-! ## One string -/

section Step

variable {cursor middle : Cursor} {length : Nat} (hlength : lengths[index]? = some length)
  (hread : unsignedIndex cursor = .ok length middle)

include hlength hread

theorem slices_sound (h : SoundSlice block lengths index) (count : Nat) :
    ∃ text, text.toUTF8.toList = slice block lengths index ∧
      slices block (count + 1) index (sliceStart lengths index) cursor =
        (slices block count (index + 1) (sliceStart lengths (index + 1)) >>= fun others =>
          pure (text :: others)) middle := by
  obtain ⟨hstop, htext⟩ := h
  obtain ⟨text, hfound, hbytes⟩ := Text.exists_fromUTF8? htext
  refine ⟨text, hbytes, ?_⟩
  rw [slice_eq hlength] at hfound
  rw [slices, bind_ok _ hread]
  rw [← sliceStop_eq hlength, if_neg (Nat.not_lt.mpr hstop), hfound, sliceStart_succ hlength,
    sliceStop_eq hlength, Nat.add_assoc]

theorem slices_unsound (h : ¬ SoundSlice block lengths index) (count : Nat) :
    ∃ fault, SliceFault block lengths index fault ∧
      slices block (count + 1) index (sliceStart lengths index) cursor =
        .error ⟨middle.offset, fault⟩ middle := by
  rw [slices, bind_ok _ hread]
  rw [← sliceStop_eq hlength]
  by_cases hstop : block.length < sliceStop lengths index
  · exact ⟨_, .outOfBlock hstop, by rw [if_pos hstop]; rfl⟩
  · have htext : ¬ Text.Encodes (slice block lengths index) :=
      fun htext => h ⟨Nat.not_lt.mp hstop, htext⟩
    refine ⟨_, .notText (Nat.not_lt.mp hstop) htext, ?_⟩
    rw [if_neg hstop, ← slice_eq hlength, Text.fromUTF8?_eq_none htext]
    rfl

end Step

/-! ## All strings -/

/-- The strings from one on, with all their lengths in the stream: either all of
them are sound and are read, or the first one that is not is reported. -/
theorem slices_cases (block : Bytes) (lengths : List Nat) {count : Nat}
    (hcount : index + count = lengths.length) {cursor after : Cursor}
    (hlengths : times count unsignedIndex cursor = .ok (lengths.drop index) after) :
    ((∀ i, index ≤ i → i < lengths.length → SoundSlice block lengths i) ∧
      ∃ strings, slices block count index (sliceStart lengths index) cursor = .ok strings after ∧
        strings.map (·.toUTF8.toList) = (List.range' index count).map (slice block lengths)) ∨
    ∃ i fault middle, index ≤ i ∧ i < lengths.length ∧ SliceFault block lengths i fault ∧
      (∀ j, index ≤ j → j < i → SoundSlice block lengths j) ∧
      slices block count index (sliceStart lengths index) cursor =
        .error ⟨middle.offset, fault⟩ middle := by
  induction count generalizing index cursor with
  | zero =>
      obtain ⟨-, rfl⟩ := EStateM.Result.ok.inj hlengths
      exact .inl ⟨fun i hle hlt => by omega, [], rfl, rfl⟩
  | succ count ih =>
      have hindex : index < lengths.length := by omega
      obtain ⟨length, middle, hread, hrest⟩ := of_bind_ok hlengths
      obtain ⟨others, last, hothers, hlast⟩ := of_bind_ok hrest
      obtain ⟨hcons, rfl⟩ := EStateM.Result.ok.inj hlast
      rw [List.drop_eq_getElem_cons hindex] at hcons
      obtain ⟨rfl, rfl⟩ := List.cons.inj hcons
      have hlength := List.getElem?_eq_getElem hindex
      by_cases hsound : SoundSlice block lengths index
      · obtain ⟨text, htext, hstep⟩ := slices_sound hlength hread hsound count
        have hlater {i : Nat} (h : ∀ j, index + 1 ≤ j → j < i → SoundSlice block lengths j) :
            ∀ j, index ≤ j → j < i → SoundSlice block lengths j := by
          intro j hle hlt
          rcases Nat.eq_or_lt_of_le hle with rfl | hlt'
          · exact hsound
          · exact h j hlt' hlt
        rcases ih (by omega) hothers with
          ⟨hall, strings, hstrings, hslices⟩ | ⟨i, fault, stop, hle, hlt, hfault, hearlier, herror⟩
        · refine .inl ⟨hlater hall, text :: strings, ?_, ?_⟩
          · rw [hstep, bind_ok _ hstrings]
            rfl
          · rw [List.map_cons, hslices, htext, List.range'_succ, List.map_cons]
        · refine .inr ⟨i, fault, stop, Nat.le_of_succ_le hle, hlt, hfault, hlater hearlier, ?_⟩
          rw [hstep, bind_error _ herror]
      · obtain ⟨fault, hfault, herror⟩ := slices_unsound hlength hread hsound count
        exact .inr ⟨index, fault, middle, Nat.le_refl _, hindex, hfault,
          fun j hle hlt => absurd hlt (Nat.not_lt.mpr hle), herror⟩

end Slices

/-! ## Pools -/

structure Sliced (block : Bytes) (lengths : List Nat) (after : Cursor)
    (outcome : EStateM.Result DecodeError Cursor (List String)) : Prop where
  succeeds : (∃ strings last, outcome = .ok strings last) ↔
    ∀ index < lengths.length, SoundSlice block lengths index
  strings : ∀ strings last, outcome = .ok strings last → last = after ∧
    strings.map (·.toUTF8.toList) = (List.range lengths.length).map (slice block lengths)
  fails : ∀ error last, outcome = .error error last → ∃ index < lengths.length,
    SliceFault block lengths index error.fault ∧
      ∀ earlier < index, SoundSlice block lengths earlier

theorem stringPool_eq (block rest : Bytes) (hblock : block.length < 0x80000000) (count offset : Nat)
    (notes : List Diagnostic) :
    stringPool count ⟨Writer.int32 block.length ++ block ++ rest, offset, notes⟩ =
      slices block count 0 0 ⟨rest, offset + 4 + block.length, notes⟩ := by
  obtain ⟨segment, hsegment, -, htakes⟩ := Carried.block hblock
  obtain rfl := Except.ok.inj hsegment
  rw [stringPool, bind_ok _ (htakes rest offset notes (Nat.zero_le _)), List.length_append,
    Writer.int32, Word.length_toBytes, Nat.add_assoc]

/-- A pool is cut at the prefix sums of its lengths: all its strings are read as
they stand in the block, or the first one that cannot be is reported.  So the
strings that were written are read back. -/
theorem stringPool_sliced :
    (∀ (block rest : Bytes) (lengths : List Nat) (offset : Nat) (notes : List Diagnostic)
      (after : Cursor), block.length < 0x80000000 →
      times lengths.length unsignedIndex ⟨rest, offset + 4 + block.length, notes⟩
        = .ok lengths after →
      Sliced block lengths after (stringPool lengths.length
        ⟨Writer.int32 block.length ++ block ++ rest, offset, notes⟩)) ∧
    ∀ strings : List String, (∀ text ∈ strings, text.utf8ByteSize < 0x20000000) →
      (strings.flatMap Writer.terminated).length < 0x80000000 →
      ∃ bytes, Writer.stringPool strings = .ok bytes ∧
        ∀ (rest : Bytes) (offset : Nat) (notes : List Diagnostic),
          stringPool strings.length ⟨bytes ++ rest, offset, notes⟩
            = .ok strings ⟨rest, offset + bytes.length, notes⟩ := by
  constructor
  · intro block rest lengths offset notes after hblock hlengths
    rw [stringPool_eq block rest hblock]
    have hcases := slices_cases block lengths (Nat.zero_add lengths.length) hlengths
    rw [sliceStart_zero] at hcases
    rcases hcases with
      ⟨hall, strings, hstrings, hslices⟩ | ⟨i, fault, middle, -, hlt, hfault, hearlier, herror⟩
    · rw [hstrings]
      refine ⟨iff_of_true ⟨strings, after, rfl⟩ fun i => hall i (Nat.zero_le i), ?_, ?_⟩
      · rintro _ _ ⟨⟩
        rw [List.range_eq_range']
        exact ⟨rfl, hslices⟩
      · rintro _ _ ⟨⟩
    · rw [herror]
      refine ⟨iff_of_false ?_ fun hall => hfault.not_sound (hall i hlt), ?_, ?_⟩
      · rintro ⟨_, _, ⟨⟩⟩
      · rintro _ _ ⟨⟩
      · rintro _ _ ⟨⟩
        exact ⟨i, hlt, hfault, fun j => hearlier j (Nat.zero_le j)⟩
  · intro strings hlengths hblock
    obtain ⟨bytes, hbytes, -, htakes⟩ :=
      Carried.stringPool_of_block (fun text htext => Nat.le_of_lt_succ (hlengths text htext)) hblock
    exact ⟨bytes, hbytes, fun rest offset notes => htakes rest offset notes (Nat.zero_le _)⟩

theorem stringPool_sliced_accent :
    Sliced [0xC3, 0xA9, 0, 0x61] [2, 1] ⟨[7], 10, []⟩
      (stringPool 2 ⟨Writer.int32 4 ++ [0xC3, 0xA9, 0, 0x61] ++ [2, 1, 7], 0, []⟩) ∧
    Sliced [0xC3, 0xA9, 0, 0x61] [1, 9] ⟨[], 10, []⟩
      (stringPool 2 ⟨Writer.int32 4 ++ [0xC3, 0xA9, 0, 0x61] ++ [1, 9], 0, []⟩) ∧
    ∃ bytes, Writer.stringPool ["", "a\x00é", ""] = .ok bytes ∧
      ∀ (rest : Bytes) (offset : Nat) (notes : List Diagnostic),
        stringPool 3 ⟨bytes ++ rest, offset, notes⟩
          = .ok ["", "a\x00é", ""] ⟨rest, offset + bytes.length, notes⟩ :=
  ⟨stringPool_sliced.1 [0xC3, 0xA9, 0, 0x61] [2, 1, 7] [2, 1] 0 [] _ (by decide) rfl,
    stringPool_sliced.1 [0xC3, 0xA9, 0, 0x61] [1, 9] [1, 9] 0 [] _ (by decide) rfl,
    stringPool_sliced.2 ["", "a\x00é", ""] (by decide +kernel) (by decide +kernel)⟩

end Reader

end BytecodeLowering

import BytecodeLowering.Proofs.Image.Segment
import BytecodeLowering.Proofs.Image.WellFormed

/-!
# Pools of strings and blobs

A pool is a block of bytes and the numbers that cut it.  The strings of a pool
stand in the block one after the other, each with a zero byte after it, so the
reader finds string `i` behind the strings before it.
-/

namespace BytecodeLowering

/-! ## The bytes of a string -/

namespace Text

theorem byteArray_loop (bytes : ByteArray) (position : Nat) (done : List UInt8) :
    ByteArray.toList.loop bytes position done =
      done.reverse ++ bytes.data.toList.drop position := by
  fun_induction ByteArray.toList.loop bytes position done with
  | case1 position done hlt ih =>
      have hdata : position < bytes.data.size := hlt
      have hget : bytes.get! position = bytes.data.toList[position] := by
        change bytes.data[position]! = _
        rw [getElem!_pos bytes.data position hdata, Array.getElem_toList]
      rw [ih, hget, List.reverse_cons, List.append_assoc, List.singleton_append,
        List.getElem_cons_drop]
  | case2 position done hge =>
      have hsize : bytes.data.toList.length ≤ position := Nat.not_lt.mp hge
      rw [List.drop_eq_nil_of_le hsize, List.append_nil]

theorem byteArray_toList (bytes : ByteArray) : bytes.toList = bytes.data.toList := by
  rw [ByteArray.toList, byteArray_loop]
  rfl

theorem fromUTF8?_toUTF8 (text : String) :
    String.fromUTF8? ⟨text.toUTF8.toList.toArray⟩ = some text := by
  have hbytes : (⟨text.toUTF8.toList.toArray⟩ : ByteArray) = text.toUTF8 := by
    rw [byteArray_toList, Array.toArray_toList]
  rw [hbytes]
  exact dif_pos text.isValidUTF8

theorem length_toUTF8 (text : String) : text.toUTF8.toList.length = text.utf8ByteSize := by
  rw [byteArray_toList]
  rfl

theorem length_terminated (text : String) :
    (Writer.terminated text).length = text.utf8ByteSize + 1 := by
  rw [Writer.terminated, List.length_append, length_toUTF8, List.length_singleton]

end Text

namespace Carried

/-! ## Words in a row -/

theorem each_ok (bytes : α → Bytes) (items : List α) :
    Writer.each (fun item => .ok (bytes item)) items = .ok (items.flatMap bytes) := by
  induction items with
  | nil => rfl
  | cons item items ih =>
      rw [List.flatMap_cons]
      exact Writer.join_cons_ok rfl ih

theorem words {bytes : α → Bytes} {reader : Reader α} (items : List α)
    (hlength : ∀ item, 1 ≤ (bytes item).length)
    (htakes : ∀ item ∈ items, reader.Takes (bytes item) item 0) :
    Carried (.ok (items.flatMap bytes)) (1 * items.length)
      (Reader.times items.length reader) items 0 := by
  rw [← each_ok]
  exact times items fun item hitem => ⟨bytes item, rfl, hlength item, htakes item hitem⟩

/-! ## Blocks -/

theorem block {bytes : Bytes} (h : bytes.length < 0x80000000) :
    Carried (.ok (Writer.int32 bytes.length ++ bytes)) bytes.length Reader.block bytes 0 := by
  refine ⟨_, rfl, by simp, ?_⟩
  intro rest offset notes hneed
  have hsize := @Reader.takes_int32 bytes.length (by omega) (by omega)
    (bytes ++ rest) offset notes (Nat.zero_le _)
  rw [← List.append_assoc] at hsize
  rw [Reader.block, Reader.bind_ok _ hsize, if_neg (by omega), Int.toNat_natCast,
    List.length_append, ← Nat.add_assoc]
  exact Reader.takes_bytes bytes rest _ notes hneed

theorem slices {strings : List String} (before : Bytes) (index : Nat)
    (hlengths : ∀ text ∈ strings, Fits text.utf8ByteSize) :
    Carried (Writer.each (fun text => Writer.unsignedIndex text.utf8ByteSize) strings)
      (1 * strings.length)
      (Reader.slices (before ++ strings.flatMap Writer.terminated) strings.length index
        before.length) strings 0 := by
  induction strings generalizing before index with
  | nil => exact Carried.pure []
  | cons text strings ih =>
      have htext := Text.length_toUTF8 text
      have hlength := unsignedIndex (hlengths text List.mem_cons_self)
      have hothers := ih (before ++ Writer.terminated text) (index + 1)
        fun other hother => hlengths other (List.mem_cons_of_mem text hother)
      have hblock : before ++ (text :: strings).flatMap Writer.terminated
          = before ++ Writer.terminated text ++ strings.flatMap Writer.terminated := by
        rw [List.flatMap_cons, List.append_assoc]
      have hnext : before.length + text.utf8ByteSize + 1
          = (before ++ Writer.terminated text).length := by
        rw [List.length_append, Text.length_terminated, Nat.add_assoc]
      refine (hlength.bind (?_ : Carried _ (1 * strings.length) _ _ 0) (Nat.zero_le _)).weaken
        (by rw [List.length_cons]; omega) (Nat.le_refl 0)
      have hslice : ((before ++ (text :: strings).flatMap Writer.terminated).drop
          before.length).take (before.length + text.utf8ByteSize - before.length)
            = text.toUTF8.toList := by
        rw [List.drop_left, List.flatMap_cons, Writer.terminated, List.append_assoc,
          Nat.add_sub_cancel_left, ← htext, List.take_left]
      have hroom : ¬ (before ++ (text :: strings).flatMap Writer.terminated).length
          < before.length + text.utf8ByteSize := by
        rw [List.length_append, List.flatMap_cons, List.length_append, Text.length_terminated]
        omega
      rw [if_neg hroom, hslice, Text.fromUTF8?_toUTF8, hblock]
      simp only [hnext]
      exact hothers.map (text :: ·)

theorem stringPool_of_block {strings : List String}
    (hlengths : ∀ text ∈ strings, Fits text.utf8ByteSize)
    (hblock : (strings.flatMap Writer.terminated).length < 0x80000000) :
    Carried (Writer.stringPool strings) (1 * strings.length)
      (Reader.stringPool strings.length) strings 0 :=
  ((block hblock).bind (slices [] 0 hlengths).last (Nat.zero_le _)).weaken
    (Nat.le_add_left _ _) (Nat.le_refl 0)

theorem stringPool {strings : List String} (h : WellFormedPool strings) :
    Carried (Writer.stringPool strings) (1 * strings.length)
      (Reader.stringPool strings.length) strings 0 :=
  stringPool_of_block h.lengths h.block

/-- The size of a block one byte too long is read as a negative number. -/
theorem block_refused {bytes : Bytes} (h : bytes.length = 0x80000000) (rest : Bytes) (offset : Nat)
    (notes : List Diagnostic) (found : Bytes) (after : Cursor) :
    Reader.block ⟨Writer.int32 bytes.length ++ bytes ++ rest, offset, notes⟩ ≠ .ok found after := by
  have hword : Writer.int32 (bytes.length : Int) = Writer.int32 (-0x80000000) := by
    rw [h]
    decide
  have hsize := @Reader.takes_int32 (-0x80000000) (by decide) (by decide)
    (bytes ++ rest) offset notes (Nat.zero_le _)
  intro hrun
  rw [hword, List.append_assoc, Reader.block, Reader.bind_ok _ hsize, if_pos (by decide)] at hrun
  cases hrun

/-- A pool as it is read: with a byte after its last string, its block may have
become too long. -/
theorem recordedPool {strings : List String} (h : RecordedPool strings) :
    CarriedIff (Writer.stringPool strings) (1 * strings.length)
      (Reader.stringPool strings.length) strings 0
      ((strings.flatMap Writer.terminated).length < 0x80000000) := by
  by_cases hblock : (strings.flatMap Writer.terminated).length < 0x80000000
  · exact (stringPool ⟨h.count, h.lengths, hblock⟩).always hblock
  · have hsize : (strings.flatMap Writer.terminated).length = 0x80000000 :=
      Nat.le_antisymm h.block (Nat.le_of_not_lt hblock)
    obtain ⟨lengths, hlengths, hcount, -⟩ := (slices [] 0 h.lengths).last
    refine ⟨_, Writer.join_cons_ok rfl hlengths, ?_, fun hshort => absurd hshort hblock, ?_⟩
    · rw [List.length_append]
      omega
    · intro rest offset notes after _ hrun
      obtain ⟨found, middle, hfound, -⟩ := Reader.of_bind_ok hrun
      rw [List.append_assoc] at hfound
      exact absurd hfound (block_refused hsize _ offset notes found middle)

theorem blobStart {size start : Nat} (h : start ≤ size) (hfits : Fits start) :
    Carried (Writer.unsignedIndex start) 1 (Reader.blobStart size) start 0 := by
  obtain ⟨segment, hpart, hsize, htakes⟩ := unsignedIndex hfits
  refine ⟨segment, hpart, hsize, ?_⟩
  intro rest offset notes hneed
  have hoffset : Reader.offset ⟨segment ++ rest, offset, notes⟩ = .ok offset _ := rfl
  rw [Reader.blobStart, Reader.bind_ok _ hoffset,
    Reader.bind_ok _ (htakes rest offset notes hneed), if_neg (Nat.not_lt.mpr h)]
  rfl

theorem blobPool {bytes : Bytes} {starts : List Nat} (hbytes : bytes.length < 0x80000000)
    (hstarts : ∀ start ∈ starts, start ≤ bytes.length ∧ Fits start) :
    Carried (Writer.blobPool bytes starts) (1 * starts.length)
      (Reader.blobPool starts.length) (bytes, starts) 0 := by
  have hlist := times starts fun start hstart =>
    blobStart (hstarts start hstart).1 (hstarts start hstart).2
  refine ((block hbytes).bind (hlist.bind (Carried.pure (bytes, starts)) ?_) ?_).weaken ?_ ?_
  all_goals omega

end Carried

end BytecodeLowering

import BytecodeLowering.Image.Decode
import BytecodeLowering.Image.Encode

/-!
# Segments of an image

A written part of an image and the reader of that part belong together when
the reader takes exactly the bytes that were written, whatever follows them.
A count is refused unless that many bytes are left, so a reader may need bytes
after its own segment; the relation carries this need, and it carries a lower
bound on the segment by which later parts meet the need of earlier ones.
-/

namespace BytecodeLowering

open Decimal (Binary64)

/-- The reader takes exactly the segment when at least `need` bytes follow. -/
def Reader.Takes (reader : Reader α) (segment : Bytes) (value : α) (need : Nat) : Prop :=
  ∀ (rest : Bytes) (offset : Nat) (notes : List Diagnostic), need ≤ rest.length →
    reader ⟨segment ++ rest, offset, notes⟩ =
      .ok value ⟨rest, offset + segment.length, notes⟩

namespace Reader

theorem bind_ok {reader : Reader α} (next : α → Reader β) {cursor after : Cursor}
    {value : α} (h : reader cursor = .ok value after) :
    (reader >>= next) cursor = next value after := by
  change EStateM.bind reader next cursor = _
  rw [EStateM.bind, h]

theorem bind_error {reader : Reader α} (next : α → Reader β) {cursor after : Cursor}
    {error : DecodeError} (h : reader cursor = .error error after) :
    (reader >>= next) cursor = .error error after := by
  change EStateM.bind reader next cursor = _
  rw [EStateM.bind, h]

theorem of_bind_ok {reader : Reader α} {next : α → Reader β} {cursor after : Cursor} {value : β}
    (h : (reader >>= next) cursor = .ok value after) :
    ∃ first middle, reader cursor = .ok first middle ∧ next first middle = .ok value after := by
  cases hfirst : reader cursor with
  | ok first middle => exact ⟨first, middle, rfl, by rwa [bind_ok next hfirst] at h⟩
  | error error middle =>
      rw [bind_error next hfirst] at h
      cases h

def Returns (reader : Reader α) (post : α → Prop) : Prop :=
  ∀ cursor value after, reader cursor = .ok value after → post value

theorem Returns.pure {value : α} {post : α → Prop} (h : post value) :
    Returns (Pure.pure value) post := by
  intro cursor found after hrun
  cases hrun
  exact h

theorem Returns.bind {reader : Reader α} {next : α → Reader β} {post : β → Prop}
    (h : ∀ first, Returns (next first) post) : Returns (reader >>= next) post := by
  intro cursor value after hrun
  obtain ⟨first, middle, -, hnext⟩ := of_bind_ok hrun
  exact h first middle value after hnext

end Reader

/-- The part is written, in at least `size` bytes, and read back as `value`. -/
def Carried (part : Writer.Result) (size : Nat) (reader : Reader α) (value : α)
    (need : Nat) : Prop :=
  ∃ segment, part = .ok segment ∧ size ≤ segment.length ∧ reader.Takes segment value need

namespace Writer

@[simp] theorem join_nil : join [] = .ok [] := rfl

theorem join_cons (part : Result) (parts : List Result) :
    join (part :: parts) = do
      let bytes ← part
      let others ← join parts
      return bytes ++ others := rfl

theorem join_cons_ok {part : Result} {parts : List Result} {first others : Bytes}
    (hfirst : part = .ok first) (hothers : join parts = .ok others) :
    join (part :: parts) = .ok (first ++ others) := by
  rw [join_cons, hfirst, hothers]
  rfl

theorem join_append (parts others : List Result) :
    join (parts ++ others) = do
      let bytes ← join parts
      let rest ← join others
      return bytes ++ rest := by
  induction parts with
  | nil => cases h : join others <;> simp [h, bind, Except.bind, pure, Except.pure]
  | cons part parts ih =>
      simp only [List.cons_append, join_cons, ih]
      cases part <;> cases join parts <;> cases join others <;>
        simp [bind, Except.bind, pure, Except.pure]

theorem join_cons_join (parts others : List Result) :
    join (join parts :: others) = join (parts ++ others) := by
  rw [join_cons, join_append]

theorem join_nested (before parts after : List Result) :
    join (before ++ join parts :: after) = join (before ++ parts ++ after) := by
  rw [join_append, join_cons_join, List.append_assoc, ← join_append]

end Writer

/-! ## Composition -/

namespace Carried

theorem pure (value : α) :
    Carried (Writer.join []) 0 (Pure.pure value : Reader α) value 0 := by
  refine ⟨[], rfl, Nat.zero_le _, ?_⟩
  intro rest offset notes _
  rfl

/-- One part after the other; the later parts meet the need of the first. -/
theorem bind {part : Writer.Result} {parts : List Writer.Result}
    {reader : Reader α} {next : α → Reader β} {first : α} {value : β}
    {size others need after : Nat}
    (hfirst : Carried part size reader first need)
    (hnext : Carried (Writer.join parts) others (next first) value after)
    (hneed : need ≤ others + after) :
    Carried (Writer.join (part :: parts)) (size + others) (reader >>= next) value after := by
  obtain ⟨segment, hpart, hsize, hreads⟩ := hfirst
  obtain ⟨tail, hparts, hothers, hrest⟩ := hnext
  refine ⟨segment ++ tail, Writer.join_cons_ok hpart hparts, ?_, ?_⟩
  · rw [List.length_append]
    omega
  · intro rest offset notes hafter
    have hlong : need ≤ (tail ++ rest).length := by
      rw [List.length_append]
      omega
    have hread := hreads (tail ++ rest) offset notes hlong
    have hread' := hrest rest (offset + segment.length) notes hafter
    rw [← List.append_assoc] at hread
    rw [Reader.bind_ok next hread, hread', List.length_append, Nat.add_assoc]

theorem last {part : Writer.Result} {reader : Reader α} {value : α} {size need : Nat}
    (h : Carried part size reader value need) :
    Carried (Writer.join [part]) size reader value need := by
  obtain ⟨segment, hpart, hsize, hreads⟩ := h
  refine ⟨segment, ?_, hsize, hreads⟩
  rw [Writer.join_cons_ok hpart Writer.join_nil, List.append_nil]

theorem map {part : Writer.Result} {reader : Reader α} {value : α} {size need : Nat}
    (f : α → β) (h : Carried part size reader value need) :
    Carried part size (reader >>= fun a => Pure.pure (f a)) (f value) need := by
  obtain ⟨segment, hpart, hsize, hreads⟩ := h
  refine ⟨segment, hpart, hsize, ?_⟩
  intro rest offset notes hneed
  rw [Reader.bind_ok _ (hreads rest offset notes hneed)]
  rfl

theorem weaken {part : Writer.Result} {reader : Reader α} {value : α}
    {size size' need need' : Nat} (h : Carried part size reader value need)
    (hsize : size' ≤ size) (hneed : need ≤ need') :
    Carried part size' reader value need' := by
  obtain ⟨segment, hpart, hlength, hreads⟩ := h
  refine ⟨segment, hpart, Nat.le_trans hsize hlength, ?_⟩
  intro rest offset notes hrest
  exact hreads rest offset notes (Nat.le_trans hneed hrest)

theorem times {write : α → Writer.Result} {reader : Reader α} {size : Nat} (items : List α)
    (h : ∀ item ∈ items, Carried (write item) size reader item 0) :
    Carried (Writer.each write items) (size * items.length)
      (Reader.times items.length reader) items 0 := by
  induction items with
  | nil => exact Carried.pure []
  | cons item items ih =>
      have hitems := ih fun other hother => h other (List.mem_cons_of_mem item hother)
      have hitem := h item List.mem_cons_self
      have hall : Carried (Writer.join (write item :: items.map write))
          (size + size * items.length) (Reader.times (items.length + 1) reader)
          (item :: items) 0 :=
        hitem.bind (hitems.map (item :: ·)) (Nat.zero_le _)
      refine hall.weaken ?_ (Nat.le_refl 0)
      rw [List.length_cons, Nat.mul_succ]
      omega

end Carried

/-! ## Parts with a limit -/

/-- The part is written, in at least `size` bytes; it is read back as `value`
exactly when the condition holds. -/
def CarriedIff (part : Writer.Result) (size : Nat) (reader : Reader α) (value : α) (need : Nat)
    (condition : Prop) : Prop :=
  ∃ segment, part = .ok segment ∧ size ≤ segment.length ∧
    (condition → reader.Takes segment value need) ∧
      ∀ (rest : Bytes) (offset : Nat) (notes : List Diagnostic) (after : Cursor),
        need ≤ rest.length → reader ⟨segment ++ rest, offset, notes⟩ = .ok value after → condition

theorem Carried.always {part : Writer.Result} {reader : Reader α} {value : α} {size need : Nat}
    {condition : Prop} (h : Carried part size reader value need) (hholds : condition) :
    CarriedIff part size reader value need condition := by
  obtain ⟨segment, hpart, hsize, htakes⟩ := h
  exact ⟨segment, hpart, hsize, fun _ => htakes, fun _ _ _ _ _ _ => hholds⟩

theorem Carried.bindIff {part : Writer.Result} {parts : List Writer.Result}
    {reader : Reader α} {next : α → Reader β} {first : α} {value : β}
    {size others need after : Nat} {condition : Prop}
    (hfirst : Carried part size reader first need)
    (hnext : CarriedIff (Writer.join parts) others (next first) value after condition)
    (hneed : need ≤ others + after) :
    CarriedIff (Writer.join (part :: parts)) (size + others) (reader >>= next) value after
      condition := by
  obtain ⟨segment, hpart, hsize, htakes⟩ := hfirst
  obtain ⟨tail, hparts, hothers, hread, hback⟩ := hnext
  have hlong (rest : Bytes) (hrest : after ≤ rest.length) : need ≤ (tail ++ rest).length := by
    rw [List.length_append]
    omega
  have hrun (rest : Bytes) (offset : Nat) (notes : List Diagnostic) (hrest : after ≤ rest.length) :
      (reader >>= next) ⟨segment ++ tail ++ rest, offset, notes⟩ =
        next first ⟨tail ++ rest, offset + segment.length, notes⟩ := by
    rw [List.append_assoc]
    exact Reader.bind_ok next (htakes (tail ++ rest) offset notes (hlong rest hrest))
  refine ⟨segment ++ tail, Writer.join_cons_ok hpart hparts, ?_, ?_, ?_⟩
  · rw [List.length_append]
    omega
  · intro hholds rest offset notes hrest
    rw [hrun rest offset notes hrest, hread hholds rest _ notes hrest, List.length_append,
      Nat.add_assoc]
  · intro rest offset notes final hrest hvalue
    rw [hrun rest offset notes hrest] at hvalue
    exact hback rest _ notes final hrest hvalue

namespace CarriedIff

theorem carried {part : Writer.Result} {reader : Reader α} {value : α} {size need : Nat}
    {condition : Prop} (h : CarriedIff part size reader value need condition)
    (hholds : condition) : Carried part size reader value need := by
  obtain ⟨segment, hpart, hsize, htakes, -⟩ := h
  exact ⟨segment, hpart, hsize, htakes hholds⟩

/-- A part with a limit comes first: what follows must show in its value what
was read of the first part. -/
theorem bind {part : Writer.Result} {parts : List Writer.Result}
    {reader : Reader α} {next : α → Reader β} {first : α} {value : β}
    {size others need after : Nat} {condition further : Prop}
    (hfirst : CarriedIff part size reader first need condition)
    (hnext : CarriedIff (Writer.join parts) others (next first) value after further)
    (hneed : need ≤ others + after)
    (hshown : ∀ found, Reader.Returns (next found) fun result => result = value → found = first) :
    CarriedIff (Writer.join (part :: parts)) (size + others) (reader >>= next) value after
      (condition ∧ further) := by
  by_cases hholds : condition
  · rw [and_iff_right hholds]
    exact (hfirst.carried hholds).bindIff hnext hneed
  · obtain ⟨segment, hpart, hsize, -, hback⟩ := hfirst
    obtain ⟨tail, hparts, hothers, -⟩ := hnext
    refine ⟨segment ++ tail, Writer.join_cons_ok hpart hparts, ?_, fun h => absurd h.1 hholds, ?_⟩
    · rw [List.length_append]
      omega
    · intro rest offset notes final hrest hvalue
      rw [List.append_assoc] at hvalue
      obtain ⟨found, middle, hfound, hresult⟩ := Reader.of_bind_ok hvalue
      rw [hshown found middle value final hresult rfl] at hfound
      have hlong : need ≤ (tail ++ rest).length := by
        rw [List.length_append]
        omega
      exact absurd (hback (tail ++ rest) offset notes middle hlong hfound) hholds

theorem last {part : Writer.Result} {reader : Reader α} {value : α} {size need : Nat}
    {condition : Prop} (h : CarriedIff part size reader value need condition) :
    CarriedIff (Writer.join [part]) size reader value need condition := by
  obtain ⟨segment, hpart, hsize, hreads⟩ := h
  refine ⟨segment, ?_, hsize, hreads⟩
  rw [Writer.join_cons_ok hpart Writer.join_nil, List.append_nil]

theorem weaken {part : Writer.Result} {reader : Reader α} {value : α}
    {size size' need need' : Nat} {condition : Prop}
    (h : CarriedIff part size reader value need condition)
    (hsize : size' ≤ size) (hneed : need ≤ need') :
    CarriedIff part size' reader value need' condition := by
  obtain ⟨segment, hpart, hlength, hread, hback⟩ := h
  refine ⟨segment, hpart, Nat.le_trans hsize hlength, ?_, ?_⟩
  · intro hholds rest offset notes hrest
    exact hread hholds rest offset notes (Nat.le_trans hneed hrest)
  · intro rest offset notes after hrest
    exact hback rest offset notes after (Nat.le_trans hneed hrest)

theorem congr {part : Writer.Result} {reader : Reader α} {value : α} {size need : Nat}
    {condition other : Prop} (h : CarriedIff part size reader value need condition)
    (hiff : condition ↔ other) : CarriedIff part size reader value need other := by
  rwa [← hiff]

theorem map {part : Writer.Result} {reader : Reader α} {value : α} {size need : Nat}
    {condition : Prop} {f : α → β} (hf : Function.Injective f)
    (h : CarriedIff part size reader value need condition) :
    CarriedIff part size (reader >>= fun a => Pure.pure (f a)) (f value) need condition := by
  obtain ⟨segment, hpart, hsize, hread, hback⟩ := h
  refine ⟨segment, hpart, hsize, ?_, ?_⟩
  · intro hholds rest offset notes hneed
    rw [Reader.bind_ok _ (hread hholds rest offset notes hneed)]
    rfl
  · intro rest offset notes after hneed hvalue
    obtain ⟨found, middle, hfound, hresult⟩ := Reader.of_bind_ok hvalue
    injection hresult with hsame
    rw [hf hsame] at hfound
    exact hback rest offset notes middle hneed hfound

theorem times {write : α → Writer.Result} {reader : Reader α} {size : Nat} {condition : α → Prop}
    (items : List α)
    (h : ∀ item ∈ items, CarriedIff (write item) size reader item 0 (condition item)) :
    CarriedIff (Writer.each write items) (size * items.length)
      (Reader.times items.length reader) items 0 (∀ item ∈ items, condition item) := by
  induction items with
  | nil => exact (Carried.times [] nofun).always nofun
  | cons item items ih =>
      have hitems := ih fun other hother => h other (List.mem_cons_of_mem item hother)
      have hitem := h item List.mem_cons_self
      have hall : CarriedIff (Writer.join (write item :: items.map write))
          (size + size * items.length) (Reader.times (items.length + 1) reader)
          (item :: items) 0 (condition item ∧ ∀ other ∈ items, condition other) :=
        hitem.bind (hitems.map fun _ _ hsame => (List.cons.inj hsame).2) (Nat.zero_le _)
          fun found => .bind fun others => .pure fun hsame => (List.cons.inj hsame).1
      refine (hall.congr List.forall_mem_cons.symm).weaken ?_ (Nat.le_refl 0)
      rw [List.length_cons, Nat.mul_succ]
      omega

end CarriedIff

/-! ## Words -/

namespace Word

theorem ofBytes_toBytes (width n : Nat) : ofBytes (toBytes width n) = n % Nat.pow 256 width := by
  induction width generalizing n with
  | zero => simp [toBytes, ofBytes, Nat.mod_one]
  | succ width ih =>
      have hbyte : (UInt8.ofNat (n % 256)).toNat = n % 256 := by
        simp
      have hpow : Nat.pow 256 (width + 1) = 256 * Nat.pow 256 width := Nat.pow_succ'
      rw [toBytes, ofBytes, ih, hbyte, hpow, Nat.mod_mul]

theorem unsigned32_lt (value : Int) : unsigned32 value < 0x100000000 := by
  rw [unsigned32]
  omega

theorem signed32_unsigned32 {value : Int} (hlow : -0x80000000 ≤ value)
    (hhigh : value < 0x80000000) : signed32 (unsigned32 value) = value := by
  have hword : ((unsigned32 value : Nat) : Int) = value % 0x100000000 := by
    rw [unsigned32]
    omega
  have hmod : (value % 0x100000000).bmod 0x100000000 = value.bmod 0x100000000 :=
    Int.emod_bmod value 0x100000000
  rw [signed32, hword, hmod]
  exact Int.bmod_eq_of_le_mul_two (by omega) (by omega)

theorem signed32_of_lt {n : Nat} (h : n < 0x80000000) : signed32 n = n :=
  Int.bmod_eq_of_le_mul_two (by omega) (by omega)

end Word

namespace Reader

theorem takes_bytes (segment : Bytes) : (bytes segment.length).Takes segment segment 0 := by
  intro rest offset notes _
  have hlength : ¬ Cursor.remaining ⟨segment ++ rest, offset, notes⟩ < segment.length := by
    rw [Cursor.remaining, List.length_append]
    omega
  have hget : (get : Reader Cursor) ⟨segment ++ rest, offset, notes⟩ = .ok _ _ := rfl
  rw [bytes, bind_ok _ hget, if_neg hlength, List.drop_left, List.take_left]
  rfl

theorem takes_byte (first : UInt8) : byte.Takes [first] first 0 := by
  intro rest offset notes _
  rfl

theorem takes_int32 {value : Int} (hlow : -0x80000000 ≤ value) (hhigh : value < 0x80000000) :
    int32.Takes (Writer.int32 value) value 0 := by
  intro rest offset notes hneed
  have hread := takes_bytes (Writer.int32 value) rest offset notes hneed
  have hlength : (Writer.int32 value).length = 4 := by
    rw [Writer.int32, Word.length_toBytes]
  have hvalue : Word.signed32 (Word.ofBytes (Writer.int32 value)) = value := by
    rw [Writer.int32, Word.ofBytes_toBytes, Nat.mod_eq_of_lt (Word.unsigned32_lt value),
      Word.signed32_unsigned32 hlow hhigh]
  rw [hlength] at hread
  rw [int32, bind_ok _ hread, hvalue, hlength]
  rfl

theorem takes_binary64 (value : Binary64) : binary64.Takes (Writer.binary64 value) value 0 := by
  intro rest offset notes hneed
  have hread := takes_bytes (Writer.binary64 value) rest offset notes hneed
  have hlength : (Writer.binary64 value).length = 8 := by
    rw [Writer.binary64, Word.length_toBytes]
  have hvalue : UInt64.ofNat (Word.ofBytes (Writer.binary64 value)) = value.bits := by
    rw [Writer.binary64, Word.ofBytes_toBytes, Nat.mod_eq_of_lt value.bits.toNat_lt,
      UInt64.ofNat_toNat]
  rw [hlength] at hread
  rw [binary64, bind_ok _ hread, hvalue, hlength]
  rfl

end Reader

/-! ## Indices -/

namespace Reader

theorem index_one {first : UInt8} (h : first.toNat < 128) (rest : Bytes) (offset : Nat)
    (notes : List Diagnostic) :
    index ⟨first :: rest, offset, notes⟩ = .ok first.toNat ⟨rest, offset + 1, notes⟩ := by
  have hbyte : byte ⟨first :: rest, offset, notes⟩ = .ok first ⟨rest, offset + 1, notes⟩ := rfl
  rw [index, bind_ok _ hbyte, if_pos h]
  rfl

theorem index_two {first : UInt8} (hlong : 128 ≤ first.toNat) (hform : first.toNat / 64 % 2 = 0)
    (low : UInt8) (rest : Bytes) (offset : Nat) (notes : List Diagnostic) :
    index ⟨first :: low :: rest, offset, notes⟩ =
      .ok (withSign first (first.toNat % 32 * 0x100 + low.toNat)) ⟨rest, offset + 2, notes⟩ := by
  have hbyte : byte ⟨first :: low :: rest, offset, notes⟩ =
    .ok first ⟨low :: rest, offset + 1, notes⟩ := rfl
  rw [index, bind_ok _ hbyte, if_neg (by omega), if_pos hform]
  rfl

theorem index_four {first : UInt8} (hlong : 128 ≤ first.toNat)
    (hform : first.toNat / 64 % 2 = 1) (a b c : UInt8) (rest : Bytes) (offset : Nat)
    (notes : List Diagnostic) :
    index ⟨first :: a :: b :: c :: rest, offset, notes⟩ =
      .ok (withSign first (first.toNat % 32 * 0x1000000 + Word.ofBytes [c, b, a]))
        ⟨rest, offset + 4, notes⟩ := by
  have hbyte : byte ⟨first :: a :: b :: c :: rest, offset, notes⟩ =
    .ok first ⟨a :: b :: c :: rest, offset + 1, notes⟩ := rfl
  have hbytes : bytes 3 ⟨a :: b :: c :: rest, offset + 1, notes⟩ =
      .ok [a, b, c] ⟨rest, offset + 4, notes⟩ :=
    takes_bytes [a, b, c] rest (offset + 1) notes (Nat.zero_le _)
  rw [index, bind_ok _ hbyte, if_neg (by omega), if_neg (by omega), bind_ok _ hbytes]
  rfl

end Reader

namespace Carried

theorem signBit_cases (value : Int) :
    (value < 0 ∧ Writer.signBit value = 32) ∨ (0 ≤ value ∧ Writer.signBit value = 0) := by
  unfold Writer.signBit
  split <;> omega

theorem index {value : Int} (h : value.natAbs ≤ Writer.maxMagnitude) :
    Carried (Writer.index value) 1 Reader.index value 0 := by
  have hsign := signBit_cases value
  have hmax : value.natAbs ≤ 0x1FFFFFFF := h
  simp only [Writer.index]
  split
  · refine ⟨_, rfl, Nat.le_refl 1, ?_⟩
    intro rest offset notes _
    have hfirst : (UInt8.ofNat value.natAbs).toNat = value.natAbs := by
      rw [UInt8.toNat_ofNat']
      omega
    have hvalue : ((value.natAbs : Nat) : Int) = value := by omega
    rw [List.singleton_append, Reader.index_one (by omega), hfirst, hvalue]
    rfl
  · split
    · refine ⟨_, rfl, by simp, ?_⟩
      intro rest offset notes _
      have hfirst : (UInt8.ofNat (128 + Writer.signBit value + value.natAbs / 0x100)).toNat
          = 128 + Writer.signBit value + value.natAbs / 0x100 := by
        rw [UInt8.toNat_ofNat']
        omega
      rw [List.cons_append, List.singleton_append,
        Reader.index_two (by omega) (by omega), Reader.withSign, hfirst, UInt8.toNat_ofNat']
      congr 1
      split <;> omega
    · refine ⟨_, rfl, by simp, ?_⟩
      intro rest offset notes _
      have hfirst : (UInt8.ofNat (192 + Writer.signBit value + value.natAbs / 0x1000000)).toNat
          = 192 + Writer.signBit value + value.natAbs / 0x1000000 := by
        rw [UInt8.toNat_ofNat']
        omega
      simp only [List.cons_append, List.nil_append]
      rw [Reader.index_four (by omega) (by omega), Reader.withSign, hfirst]
      simp only [Word.ofBytes, UInt8.toNat_ofNat']
      congr 1
      split <;> omega

theorem unsignedIndex_written {value : Nat} (h : value ≤ Writer.maxMagnitude) :
    Writer.unsignedIndex value = Writer.index value := by
  have hword : Word.signed64 value = value :=
    Word.signed64_of_lt (by unfold Writer.maxMagnitude at h; omega)
  have hshort : Word.signed32 value = value :=
    Word.signed32_of_lt (by unfold Writer.maxMagnitude at h; omega)
  rw [Writer.unsignedIndex, hword, hshort]
  exact if_neg (by omega)

theorem natIndex {value : Nat} (h : value ≤ Writer.maxMagnitude) :
    Carried (Writer.unsignedIndex value) 1 Reader.index value 0 := by
  rw [unsignedIndex_written h]
  exact Carried.index h

theorem unsignedIndex {value : Nat} (h : value ≤ Writer.maxMagnitude) :
    Carried (Writer.unsignedIndex value) 1 Reader.unsignedIndex value 0 := by
  obtain ⟨segment, hpart, hsize, htakes⟩ := natIndex h
  refine ⟨segment, hpart, hsize, ?_⟩
  intro rest offset notes hneed
  have hoffset : Reader.offset ⟨segment ++ rest, offset, notes⟩ = .ok offset _ := rfl
  rw [Reader.unsignedIndex, Reader.bind_ok _ hoffset,
    Reader.bind_ok _ (htakes rest offset notes hneed)]
  rfl

/-- A count needs as many bytes after it as it announces elements. -/
theorem count {value : Nat} (h : value ≤ Writer.maxMagnitude) :
    Carried (Writer.unsignedIndex value) 1 Reader.count value value := by
  obtain ⟨segment, hpart, hsize, htakes⟩ := unsignedIndex h
  refine ⟨segment, hpart, hsize, ?_⟩
  intro rest offset notes hneed
  have hremaining (cursor : Cursor) :
      Reader.remaining cursor = .ok cursor.remaining cursor := rfl
  rw [Reader.count, Reader.bind_ok _ (htakes rest offset notes (Nat.zero_le _)),
    Reader.bind_ok _ (hremaining _)]
  split
  · rename_i hshort
    exact absurd hneed (Nat.not_le.mpr hshort)
  · rfl

theorem byteCount (what : String) {value : Nat} (h : value ≤ 255) :
    Carried (Writer.byteCount what value) 1 Reader.byte (UInt8.ofNat value) 0 := by
  rw [Writer.byteCount, if_pos h]
  exact ⟨_, rfl, Nat.le_refl 1, Reader.takes_byte _⟩

theorem toNat_byteCount {value : Nat} (h : value ≤ 255) :
    (UInt8.ofNat value).toNat = value := by
  rw [UInt8.toNat_ofNat']
  omega

end Carried

end BytecodeLowering

import BytecodeLowering.Proofs.Image.Segment
import BytecodeLowering.Proofs.Image.WellFormed

/-!
# What a reader promises on any bytes

Two runs of a reader, on some bytes and on the same bytes with more behind
them, go the same way until the first run meets the end of its bytes: a value
that was read is read again, and an error stays unless it reports a shortage
of bytes.  Beside this a reader promises a property of the values it returns.
Bad data may have been replaced by a default, so the promise has a strong form
for runs that left no diagnostic.
-/

namespace BytecodeLowering

/-- The faults that more bytes could have prevented. -/
def DecodeFault.isShortage : DecodeFault → Bool
  | .unexpectedEnd .. | .invalidCount .. => true
  | _ => false

namespace Cursor

def followedBy (cursor : Cursor) (more : Bytes) : Cursor :=
  { cursor with rest := cursor.rest ++ more }

def limit (cursor : Cursor) : Nat := cursor.offset + cursor.remaining

variable (cursor : Cursor) (more : Bytes)

@[simp] theorem followedBy_rest : (cursor.followedBy more).rest = cursor.rest ++ more := rfl

@[simp] theorem followedBy_remaining :
    (cursor.followedBy more).remaining = cursor.remaining + more.length :=
  List.length_append

end Cursor

namespace Reader

/-! ## Two runs -/

/-- The outcome of a run on bytes that end at `limit`, and that of a run with
`more` bytes behind them. -/
inductive Agree (more : Bytes) (limit : Nat) :
    EStateM.Result DecodeError Cursor α → EStateM.Result DecodeError Cursor α → Prop
  | value {value : α} {after : Cursor} (hlimit : after.limit = limit) :
      Agree more limit (.ok value after) (.ok value (after.followedBy more))
  | shortage {error : DecodeError} {after : Cursor} {other : EStateM.Result DecodeError Cursor α}
      (hshort : error.fault.isShortage = true) (hoffset : error.offset ≤ limit) :
      Agree more limit (.error error after) other
  | fault {error : DecodeError} {after after' : Cursor} (hoffset : error.offset ≤ limit) :
      Agree more limit (.error error after) (.error error after')

def Steady (reader : Reader α) : Prop :=
  ∀ cursor more, Agree more cursor.limit (reader cursor) (reader (cursor.followedBy more))

theorem Agree.bind {reader : Reader α} {next : α → Reader β} {cursor : Cursor} {more : Bytes}
    (hreader : Agree more cursor.limit (reader cursor) (reader (cursor.followedBy more)))
    (hnext : ∀ first middle, reader cursor = .ok first middle → middle.limit = cursor.limit →
      Agree more cursor.limit (next first middle) (next first (middle.followedBy more))) :
    Agree more cursor.limit ((reader >>= next) cursor)
      ((reader >>= next) (cursor.followedBy more)) := by
  generalize hmore : reader (cursor.followedBy more) = outcome at hreader
  cases hrun : reader cursor with
  | ok first middle =>
      rw [hrun] at hreader
      cases hreader with
      | value hlimit =>
          rw [bind_ok next hrun, bind_ok next hmore]
          exact hnext first middle hrun hlimit
  | error error middle =>
      rw [hrun] at hreader
      rw [bind_error next hrun]
      cases hreader with
      | shortage hshort hoffset => exact .shortage hshort hoffset
      | fault hoffset =>
          rw [bind_error next hmore]
          exact .fault hoffset

namespace Steady

theorem pure (value : α) : Steady (Pure.pure value : Reader α) :=
  fun _ _ => .value rfl

theorem bind {reader : Reader α} {next : α → Reader β} (hreader : Steady reader)
    (hnext : ∀ first, Steady (next first)) : Steady (reader >>= next) := by
  intro cursor more
  refine (hreader cursor more).bind fun first middle _ hlimit => ?_
  rw [← hlimit]
  exact hnext first middle more

theorem fail (fault : DecodeFault) : Steady (fail fault : Reader α) :=
  fun _ _ => .fault (Nat.le_add_right _ _)

theorem takeDiagnostics : Steady takeDiagnostics :=
  fun _ _ => .value rfl

end Steady

/-! ## The values that are read -/

/-- Every value that the reader returns has the property; for a quiet run only
those that it returns without a diagnostic need to have it. -/
structure Reads (quiet : Bool) (reader : Reader α) (post : α → Prop) : Prop where
  steady : Steady reader
  result {cursor after : Cursor} {value : α} :
    reader cursor = .ok value after → (quiet = true → after.diagnostics = []) →
      post value ∧ (quiet = true → cursor.diagnostics = [])

namespace Reads

variable {quiet : Bool}

theorem mono {reader : Reader α} {post wider : α → Prop} (h : Reads quiet reader post)
    (himp : ∀ value, post value → wider value) : Reads quiet reader wider where
  steady := h.steady
  result hrun hquiet := (h.result hrun hquiet).imp_left (himp _)

theorem pure {value : α} {post : α → Prop} (h : post value) :
    Reads quiet (Pure.pure value) post where
  steady := .pure value
  result hrun hquiet := by
    cases hrun
    exact ⟨h, hquiet⟩

/-- The two runs of the second part agree whatever the first returned, so what
is known of the first value is a hypothesis of the property only. -/
theorem bind {reader : Reader α} {next : α → Reader β} {first : α → Prop} {post : β → Prop}
    (hreader : Reads quiet reader first)
    (hnext : ∀ a, Reads quiet (next a) fun b => first a → post b) :
    Reads quiet (reader >>= next) post where
  steady := hreader.steady.bind fun a => (hnext a).steady
  result hrun hquiet := by
    obtain ⟨a, middle, hfirst, hrest⟩ := of_bind_ok hrun
    obtain ⟨hpost, hmiddle⟩ := (hnext a).result hrest hquiet
    obtain ⟨ha, hbefore⟩ := hreader.result hfirst hmiddle
    exact ⟨hpost ha, hbefore⟩

theorem fail (fault : DecodeFault) (post : α → Prop) : Reads quiet (fail fault) post where
  steady := .fail fault
  result hrun := by cases hrun

theorem ite {condition : Prop} [Decidable condition] {yes no : Reader α} {post : α → Prop}
    (hyes : condition → Reads quiet yes post) (hno : ¬ condition → Reads quiet no post) :
    Reads quiet (if condition then yes else no) post := by
  split
  case isTrue h => exact hyes h
  case isFalse h => exact hno h

theorem offset : Reads quiet offset fun _ => True where
  steady _ _ := .value rfl
  result hrun hquiet := by
    cases hrun
    exact ⟨trivial, hquiet⟩

theorem diagnose (offset : Nat) (message : String) :
    Reads quiet (diagnose offset message) fun _ => quiet = false where
  steady _ _ := .value rfl
  result hrun hquiet := by
    cases hrun
    have hloud : quiet = false := by
      cases quiet with
      | false => rfl
      | true => exact absurd (hquiet rfl) (by simp)
    exact ⟨hloud, fun h => absurd (hloud.symm.trans h) (by decide)⟩

theorem replaced (offset : Nat) (message : String) {value : α} {post : α → Prop}
    (h : quiet = false → post value) :
    Reads quiet (Reader.diagnose offset message >>= fun _ => Pure.pure value) post :=
  (diagnose offset message).bind fun _ => .pure h

theorem times {reader : Reader α} {post : α → Prop} (h : Reads quiet reader post)
    (count : Nat) :
    Reads quiet (times count reader) fun items =>
      items.length = count ∧ ∀ item ∈ items, post item := by
  induction count with
  | zero => exact .pure ⟨rfl, by simp⟩
  | succ count ih =>
      refine h.bind fun first => ih.bind fun others => .pure ?_
      rintro ⟨hlength, hothers⟩ hfirst
      exact ⟨by simp [hlength], List.forall_mem_cons.mpr ⟨hfirst, hothers⟩⟩

end Reads

/-! ## Bytes and indices -/

section Bytes

variable {quiet : Bool}

theorem bytes_run (count : Nat) (cursor : Cursor) :
    bytes count cursor =
      if cursor.remaining < count then
        .error ⟨cursor.offset, .unexpectedEnd count cursor.remaining⟩ cursor
      else .ok (cursor.rest.take count)
        ⟨cursor.rest.drop count, cursor.offset + count, cursor.diagnostics⟩ := by
  have hget : (get : Reader Cursor) cursor = .ok cursor cursor := rfl
  rw [bytes, bind_ok _ hget]
  split <;> rfl

theorem reads_bytes (count : Nat) :
    Reads quiet (bytes count) fun value => value.length = count where
  steady cursor more := by
    rw [bytes_run]
    split
    case isTrue => exact .shortage rfl (Nat.le_add_right _ _)
    case isFalse h =>
      have hle : count ≤ cursor.rest.length := Nat.le_of_not_lt h
      rw [bytes_run, if_neg (by rw [Cursor.followedBy_remaining]; omega),
        Cursor.followedBy_rest, List.take_append_of_le_length hle,
        List.drop_append_of_le_length hle]
      refine .value ?_
      simp only [Cursor.limit, Cursor.remaining, List.length_drop]
      omega
  result {cursor after value} hrun hquiet := by
    rw [bytes_run] at hrun
    split at hrun
    case isTrue => cases hrun
    case isFalse h =>
      cases hrun
      exact ⟨List.length_take_of_le (Nat.le_of_not_lt h), hquiet⟩

theorem byte_eq_bytes : byte = bytes 1 >>= fun found => pure (found.headD 0) := by
  funext ⟨rest, offset, notes⟩
  cases rest <;> rfl

theorem reads_byte : Reads quiet byte fun _ => True := by
  rw [byte_eq_bytes]
  exact (reads_bytes 1).bind fun _ => .pure fun _ => trivial

theorem reads_int32 :
    Reads quiet int32 fun value => -0x80000000 ≤ value ∧ value < 0x80000000 :=
  (reads_bytes 4).bind fun found => .pure fun _ => by
    rw [Word.signed32]
    exact ⟨Int.le_bmod (by decide), Int.bmod_lt (by decide)⟩

theorem reads_binary64 : Reads quiet binary64 fun _ => True :=
  (reads_bytes 8).bind fun _ => .pure fun _ => trivial

theorem withSign_fits {first : UInt8} {magnitude : Nat} (h : Fits magnitude) :
    FitsSigned (withSign first magnitude) := by
  rw [withSign]
  split <;> simpa [FitsSigned] using h

theorem ofBytes_lt (found : Bytes) : Word.ofBytes found < Nat.pow 256 found.length := by
  induction found with
  | nil => decide
  | cons byte found ih =>
      have hbyte := byte.toNat_lt
      have hpow : Nat.pow 256 (found.length + 1) = 256 * Nat.pow 256 found.length :=
        Nat.pow_succ'
      rw [Word.ofBytes, List.length_cons, hpow]
      omega

theorem reads_index : Reads quiet index FitsSigned := by
  refine reads_byte.bind fun first => ?_
  have hfirst := first.toNat_lt
  have hlow : first.toNat % 32 < 32 := Nat.mod_lt _ (by decide)
  refine .ite (fun hsmall => .pure fun _ => ?_) fun _ => .ite (fun _ => ?_) fun _ => ?_
  · simp only [FitsSigned, Int.natAbs_natCast, Writer.maxMagnitude]
    omega
  · refine reads_byte.bind fun second => .pure fun _ _ => withSign_fits ?_
    have hsecond := second.toNat_lt
    simp only [Fits, Writer.maxMagnitude]
    omega
  · refine (reads_bytes 3).bind fun others => .pure fun hlength _ => withSign_fits ?_
    have hothers := ofBytes_lt others.reverse
    rw [List.length_reverse, hlength] at hothers
    have hpow : Nat.pow 256 3 = 0x1000000 := rfl
    simp only [Fits, Writer.maxMagnitude]
    omega

theorem reads_unsignedIndex : Reads quiet unsignedIndex Fits := by
  refine Reads.offset.bind fun start => reads_index.bind fun value => ?_
  cases value with
  | ofNat value => exact .pure fun hfits _ => by simpa [FitsSigned] using hfits
  | negSucc value => exact .replaced _ _ fun _ _ _ => Nat.zero_le _

theorem reads_count : Reads quiet count Fits := by
  refine reads_unsignedIndex.bind fun value => ?_
  have hget (cursor : Cursor) : remaining cursor = .ok cursor.remaining cursor := rfl
  constructor
  case steady =>
    intro cursor more
    rw [bind_ok _ (hget cursor), bind_ok _ (hget _), Cursor.followedBy_remaining]
    split
    case isTrue => exact .shortage rfl (Nat.le_add_right _ _)
    case isFalse h =>
      -- a count that fits the bytes left still fits when more are left
      rw [if_neg (by omega)]
      exact .value rfl
  case result =>
    intro cursor after found hrun hquiet
    rw [bind_ok _ (hget cursor)] at hrun
    split at hrun <;> cases hrun
    exact ⟨id, hquiet⟩

end Bytes

/-! ## Line tables -/

section Lines

open LineTable (Extent Progress scan)

variable {quiet : Bool} {extent : Extent} {notes : List Diagnostic}

theorem scan_agree (more : Bytes) (progress : Progress) (offset : Nat) (input : Bytes) :
    Agree more (offset + input.length) (scan extent notes progress offset input)
      (scan extent notes progress offset (input ++ more)) := by
  -- a record is cut short by the end of the first input, or both runs see all of it
  fun_induction scan extent notes progress offset input with
  | case1 input progress offset hdone =>
      rw [LineTable.scan_done hdone]
      exact .value rfl
  | case2 | case3 | case9 | case10 => exact .shortage rfl (Nat.le_refl _)
  | case4 progress offset hopen control c hodd low rest file hfile =>
      conv => rhs; rw [List.cons_append, List.cons_append, scan.eq_def, if_neg hopen]
      dsimp only
      rw [if_pos hodd, if_pos hfile]
      exact .fault (by simp)
  | case5 progress offset hopen control c hodd low rest file hfile ih =>
      conv => rhs; rw [List.cons_append, List.cons_append, scan.eq_def, if_neg hopen]
      dsimp only [List.length_cons]
      rw [if_pos hodd, if_neg hfile, Nat.add_comm _ 2, ← Nat.add_assoc]
      exact ih
  | case6 progress offset hopen control rest c heven hrepeat count hover =>
      conv => rhs; rw [List.cons_append, scan.eq_def, if_neg hopen]
      dsimp only
      rw [if_neg heven, if_pos hrepeat, if_pos hover]
      exact .fault (by simp)
  | case7 progress offset hopen control rest c heven hrepeat count hroom ih =>
      conv => rhs; rw [List.cons_append, scan.eq_def, if_neg hopen]
      dsimp only [List.length_cons]
      rw [if_neg heven, if_pos hrepeat, if_neg hroom, Nat.add_comm _ 1, ← Nat.add_assoc]
      exact ih
  | case8 progress offset hopen control rest c heven hlong hsmall ih =>
      conv => rhs; rw [List.cons_append, scan.eq_def, if_neg hopen]
      dsimp only [List.length_cons]
      rw [if_neg heven, if_neg hlong, if_pos hsmall, Nat.add_comm _ 1, ← Nat.add_assoc]
      exact ih
  | case11 progress offset hopen control c heven hlong hlarge middle high rest line ih =>
      conv => rhs; rw [List.cons_append, scan.eq_def, if_neg hopen]
      dsimp only [List.cons_append, List.length_cons]
      rw [if_neg heven, if_neg hlong, if_neg hlarge, Nat.add_comm _ 3, ← Nat.add_assoc]
      exact ih

/-- No record goes past the last instruction, so the table has one entry for
each. -/
theorem length_of_scan {progress : Progress} {offset : Nat} {input : Bytes}
    {lines : List SourceLine} {after : Cursor}
    (hroom : progress.lines.length ≤ extent.total)
    (hrun : scan extent notes progress offset input = .ok lines after) :
    lines.length = extent.total ∧ after.diagnostics = notes := by
  fun_induction scan extent notes progress offset input with
  | case1 input progress offset hdone =>
      cases hrun
      exact ⟨Nat.le_antisymm hroom hdone, rfl⟩
  | case2 | case3 | case4 | case6 | case9 | case10 => cases hrun
  | case5 progress offset hopen control c hodd low rest file hfile ih => exact ih hroom hrun
  | case7 progress offset hopen control rest c heven hrepeat count hfits ih =>
      refine ih ?_ hrun
      simp only [Progress.moveBy, Progress.extend, List.length_append, List.length_replicate]
      omega
  | case8 progress offset hopen control rest c heven hlong hsmall ih =>
      refine ih ?_ hrun
      simp only [Progress.moveBy, Progress.extend, List.length_append, List.length_replicate]
      omega
  | case11 progress offset hopen control c heven hlong hlarge middle high rest line ih =>
      refine ih ?_ hrun
      simp only [Progress.extend, List.length_append, List.length_replicate]
      omega

/-- A record that selects a file names one that exists, and holds fifteen bits
of it. -/
theorem selectable_of_scan {progress : Progress} {offset : Nat} {input : Bytes}
    {lines : List SourceLine} {after : Cursor}
    (hcurrent : SourceLine.Selectable extent.fileCount ⟨progress.file, progress.line⟩)
    (hlines : ∀ entry ∈ progress.lines, entry.Selectable extent.fileCount)
    (hrun : scan extent notes progress offset input = .ok lines after) :
    ∀ entry ∈ lines, entry.Selectable extent.fileCount := by
  have hextend (entries : List SourceLine) (count : Nat) (entry : SourceLine)
      (hentries : ∀ other ∈ entries, other.Selectable extent.fileCount)
      (hentry : entry.Selectable extent.fileCount) :
      ∀ other ∈ entries ++ List.replicate count entry, other.Selectable extent.fileCount := by
    intro other hother
    obtain hother | hother := List.mem_append.mp hother
    · exact hentries other hother
    · rw [List.eq_of_mem_replicate hother]
      exact hentry
  fun_induction scan extent notes progress offset input with
  | case1 input progress offset hdone =>
      cases hrun
      exact hlines
  | case2 | case3 | case4 | case6 | case9 | case10 => cases hrun
  | case5 progress offset hopen control c hodd low rest file hfile ih =>
      refine ih ⟨?_, .inr (Nat.lt_of_not_le hfile)⟩ hlines hrun
      have hcontrol := control.toNat_lt
      have hlow := low.toNat_lt
      show control.toNat / 2 * 256 + low.toNat < 0x8000
      omega
  | case7 progress offset hopen control rest c heven hrepeat count hfits ih =>
      exact ih ⟨hcurrent.file_lt, hcurrent.known⟩ (hextend _ _ _ hlines hcurrent) hrun
  | case8 progress offset hopen control rest c heven hlong hsmall ih =>
      exact ih ⟨hcurrent.file_lt, hcurrent.known⟩
        (hextend _ _ _ hlines ⟨hcurrent.file_lt, hcurrent.known⟩) hrun
  | case11 progress offset hopen control c heven hlong hlarge middle high rest line ih =>
      exact ih ⟨hcurrent.file_lt, hcurrent.known⟩
        (hextend _ _ _ hlines ⟨hcurrent.file_lt, hcurrent.known⟩) hrun

theorem reads_lines (extent : Extent) :
    Reads quiet (LineTable.read extent) fun lines =>
      lines.length = extent.total ∧ ∀ entry ∈ lines, entry.Selectable extent.fileCount where
  steady cursor more := scan_agree more {} cursor.offset cursor.rest
  result hrun hquiet := by
    obtain ⟨hlength, hnotes⟩ := length_of_scan (Nat.zero_le _) hrun
    have hstart : SourceLine.Selectable extent.fileCount ⟨0, 0⟩ := ⟨by decide, .inl rfl⟩
    exact ⟨⟨hlength, selectable_of_scan hstart (by simp) hrun⟩, hnotes ▸ hquiet⟩

end Lines

end Reader

end BytecodeLowering

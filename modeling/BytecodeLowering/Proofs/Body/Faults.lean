import BytecodeLowering.Proofs.Body.Run

/-!
# Errors about branches

The analysis of the control flow refuses a function exactly when some offset
leads out of it, and it finds the instructions that are jumped to.  Behind the
analysis no instruction fails because of a branch or because something is not
yet declared.
-/

namespace BytecodeLowering

/-! ## The analysis -/

def FunctionDef.Covers (function : FunctionDef) (target : Int) : Prop :=
  0 ≤ target ∧ target < function.operations.length

def FunctionDef.JumpsTo (function : FunctionDef) (target : Int) : Prop :=
  ∃ (position : Nat) (op : Operation), function.operations[position]? = some op ∧
    target ∈ op.targetsAt position

namespace Flow

variable {function : FunctionDef} {flow : Flow}

theorem checkTarget_ok {position target : Nat} {offset : Int}
    (h : checkTarget function position offset = .ok target) :
    function.Covers target ∧ Operation.branchTarget position offset = target := by
  unfold checkTarget at h
  generalize Operation.branchTarget position offset = found at h ⊢
  dsimp only at h
  split at h
  · rename_i hcovers
    cases h
    rw [Int.toNat_of_nonneg hcovers.1]
    exact ⟨hcovers, rfl⟩
  · cases h

theorem checkTarget_error {position : Nat} {offset : Int} {error : LoweringError}
    (h : checkTarget function position offset = .error error) :
    ¬ function.Covers (Operation.branchTarget position offset) ∧ error.isBranch = true := by
  unfold checkTarget at h
  dsimp only at h
  split at h
  · cases h
  · rename_i hcovers
    cases h
    exact ⟨hcovers, rfl⟩

theorem jumpTargets_ok {targets : List Nat} (h : jumpTargets function = .ok targets) :
    (∀ target, function.JumpsTo target → function.Covers target) ∧
      ∀ target : Nat, target ∈ targets ↔ function.JumpsTo target := by
  obtain ⟨lists, hlists, h⟩ := ok_of_bind h
  cases h
  have hfound {target : Int} (hjumps : function.JumpsTo target) :
      ∃ found ∈ lists.flatten, (found : Int) = target ∧ function.Covers target := by
    obtain ⟨position, op, hop, htarget⟩ := hjumps
    obtain ⟨offset, hoffset, rfl⟩ := List.mem_map.mp htarget
    have hitem : (op, position) ∈ function.operations.zipIdx :=
      List.mem_zipIdx_iff_getElem?.mpr hop
    obtain ⟨list, hlist, htargets⟩ := exists_of_mapM hlists hitem
    obtain ⟨found, hfound, hcheck⟩ := exists_of_mapM htargets hoffset
    obtain ⟨hcovers, hleads⟩ := checkTarget_ok hcheck
    rw [hleads]
    exact ⟨found, List.mem_flatten.mpr ⟨list, hlist, hfound⟩, rfl, hcovers⟩
  refine ⟨?_, ?_⟩
  · intro target hjumps
    obtain ⟨_, -, -, hcovers⟩ := hfound hjumps
    exact hcovers
  · intro target
    refine ⟨?_, ?_⟩
    · intro htarget
      obtain ⟨list, hlist, htarget⟩ := List.mem_flatten.mp htarget
      obtain ⟨⟨op, position⟩, hitem, htargets⟩ := mem_of_mapM hlists hlist
      obtain ⟨offset, hoffset, hcheck⟩ := mem_of_mapM htargets htarget
      exact ⟨position, op, List.mem_zipIdx_iff_getElem?.mp hitem,
        List.mem_map.mpr ⟨offset, hoffset, (checkTarget_ok hcheck).2⟩⟩
    · intro hjumps
      obtain ⟨found, hmem, hsame, -⟩ := hfound hjumps
      rwa [Int.ofNat_inj.mp hsame] at hmem

theorem jumpTargets_error {error : LoweringError} (h : jumpTargets function = .error error) :
    (∃ target, function.JumpsTo target ∧ ¬ function.Covers target) ∧ error.isBranch = true := by
  rcases error_of_bind h with h | ⟨lists, -, h⟩
  · obtain ⟨⟨op, position⟩, hitem, htargets⟩ := error_of_mapM h
    obtain ⟨offset, hoffset, hcheck⟩ := error_of_mapM htargets
    obtain ⟨hcovers, herror⟩ := checkTarget_error hcheck
    exact ⟨⟨_, ⟨position, op, List.mem_zipIdx_iff_getElem?.mp hitem,
      List.mem_map_of_mem hoffset⟩, hcovers⟩, herror⟩
  · cases h

theorem analyze_covers (h : analyze function = .ok flow) {target : Int}
    (hjumps : function.JumpsTo target) : function.Covers target := by
  obtain ⟨targets, htargets, -⟩ := ok_of_bind h
  exact (jumpTargets_ok htargets).1 target hjumps

theorem isTarget_iff (h : analyze function = .ok flow) (position : Nat) :
    flow.isTarget position = true ↔ function.JumpsTo position := by
  obtain ⟨targets, htargets, hflow⟩ := ok_of_bind h
  cases hflow
  obtain ⟨hcovers, hmem⟩ := jumpTargets_ok htargets
  rw [← hmem]
  by_cases hposition : position < function.operations.length
  · simp [isTarget, hposition]
  · have hnone : position ∉ targets := fun htarget =>
      hposition (Int.ofNat_lt.mp (hcovers position ((hmem position).mp htarget)).2)
    simp [isTarget, hposition, hnone]

theorem analyze_error {error : LoweringError} (h : analyze function = .error error) :
    (∃ target, function.JumpsTo target ∧ ¬ function.Covers target) ∧ error.isBranch = true := by
  rcases error_of_bind h with h | ⟨targets, -, h⟩
  · exact jumpTargets_error h
  · cases h

end Flow

/-! ## Instructions -/

namespace Emit

variable {scope : Scope} {position : Nat} {op : Operation}

theorem Blameless.forM {items : List α} {step : α → Emit PUnit}
    (h : ∀ item ∈ items, Blameless scope position (step item)) :
    Blameless scope position (items.forM step) := by
  induction items with
  | nil => exact .pure
  | cons item items ih =>
      refine (h item List.mem_cons_self).bind fun _ => ?_
      exact ih fun other hother => h other (List.mem_cons_of_mem item hother)

theorem Blameless.mapM {items : List α} {step : α → Emit β}
    (h : ∀ item ∈ items, Blameless scope position (step item)) :
    Blameless scope position (items.mapM step) := by
  induction items with
  | nil => exact .pure
  | cons item items ih =>
      rw [List.mapM_cons]
      refine (h item List.mem_cons_self).bind fun _ => ?_
      exact (ih fun other hother => h other (List.mem_cons_of_mem item hother)).bind fun _ => .pure

/-! ### Operands -/

theorem unsupported_blameless (found : String) :
    Blameless scope position (unsupported found : Emit α) :=
  (emits_unsupported found : Emits False scope _ 0 0 fun _ => True).blameless position

theorem registerType_blameless (register : Int) :
    Blameless scope position (registerType register) :=
  (emits_registerType register : Emits False scope _ 0 0 _).blameless position

theorem load_blameless (register : Int) : Blameless scope position (load register) :=
  (emits_load register : Emits False scope _ 0 1 _).blameless position

theorem loadAs_blameless (register : Int) (type : TargetType) :
    Blameless scope position (loadAs register type) :=
  (emits_loadAs False.elim register False.elim : Emits False scope _ 0 1).blameless position

/-! ### Branches -/

section Branch

variable {offset : Int}
  (hcovers : scope.function.Covers (Operation.branchTarget position offset))

include hcovers

theorem branchLabel_blameless : Blameless scope position (branchLabel offset) := by
  refine ⟨?_, ?_⟩
  · intro before target after hposition h
    rw [← (branchLabel_ok h).1, hposition]
  · rintro before error after rfl h
    rcases bind_error h with hget | ⟨_, _, hget, h⟩
    · cases hget
    · obtain ⟨rfl, rfl⟩ := get_ok hget
      obtain ⟨target, htarget⟩ := Int.eq_ofNat_of_zero_le hcovers.1
      have hlt : target < scope.function.operations.length :=
        Int.ofNat_lt.mp (htarget ▸ hcovers.2)
      simp only [Int.mem_toNat?.mpr htarget] at h
      rcases bind_error h with hread | ⟨_, _, hread, h⟩
      · cases hread
      · obtain ⟨rfl, rfl⟩ := read_ok hread
        rw [if_pos hlt] at h
        cases h

theorem jump_blameless : Blameless scope position (jump offset) :=
  (branchLabel_blameless hcovers).bind fun _ => Blameless.get.bind fun _ => .emit

theorem branch_blameless (make : Label → Instr) :
    Blameless scope position (branch offset make) := by
  refine (branchLabel_blameless hcovers).bind fun target => Blameless.get.bind fun _ => ?_
  refine .ite ?_ .emit
  refine Blameless.newLabel.bind fun taken => Blameless.newLabel.bind fun skip => ?_
  refine Blameless.emit.bind fun _ => Blameless.emit.bind fun _ => ?_
  exact Blameless.mark.bind fun _ => Blameless.emit.bind fun _ => .mark

theorem switchEntry_blameless : Blameless scope position (switchEntry offset) := by
  refine (branchLabel_blameless hcovers).bind fun target => Blameless.get.bind fun _ => ?_
  exact .ite (Blameless.newLabel.bind fun _ => .pure) .pure

theorem truthBranch_blameless (register : Int) (make : Label → Instr) :
    Blameless scope position (truthBranch register offset make) :=
  (load_blameless register).bind fun _ => branch_blameless hcovers make

theorem compareBranch_blameless (comparison : Comparison) (left right : Int) :
    Blameless scope position (compareBranch comparison left right offset) := by
  refine (registerType_blameless left).bind fun a => (registerType_blameless right).bind fun b => ?_
  refine .ite (unsupported_blameless _) ?_
  refine (loadAs_blameless left _).bind fun _ => (loadAs_blameless right _).bind fun _ => ?_
  exact branch_blameless hcovers _

theorem nullBranch_blameless (register : Int) :
    Blameless scope position (nullBranch register offset) :=
  (registerType_blameless register).bind fun _ => .ite (truthBranch_blameless hcovers _ _) .pure

theorem notNullBranch_blameless (register : Int) :
    Blameless scope position (notNullBranch register offset) :=
  (registerType_blameless register).bind fun _ =>
    .ite (jump_blameless hcovers) (truthBranch_blameless hcovers _ _)

theorem openTrap_blameless (register : Int) :
    Blameless scope position (openTrap register offset) := by
  refine (registerType_blameless register).bind fun _ => ?_
  refine (branchLabel_blameless hcovers).bind fun handler => ?_
  have hregion : Blameless scope position trapRegion := by
    refine Blameless.read.bind fun _ => Blameless.get.bind fun _ => ?_
    exact (emits_orUnsupported _ _ : Emits False scope _ 0 0 _).blameless _
  refine hregion.bind fun region => Blameless.bind (.of_total fun _ => ⟨_, _, rfl, rfl⟩) fun _ => ?_
  exact .emit

end Branch

theorem switchOn_blameless {register : Int} {offsets : List Int}
    (hcovers : ∀ offset ∈ offsets,
      scope.function.Covers (Operation.branchTarget position offset)) :
    Blameless scope position (switchOn register offsets) := by
  have hexit (exit : Label × Label) : Blameless scope position (emitExit exit) :=
    Blameless.mark.bind fun _ => .emit
  refine (loadAs_blameless register _).bind fun _ => ?_
  refine (Blameless.mapM fun offset hoffset => switchEntry_blameless (hcovers offset hoffset)).bind
    fun entries => Blameless.emit.bind fun _ => .ite ?_ .pure
  refine Blameless.newLabel.bind fun skip => Blameless.emit.bind fun _ => ?_
  exact (Blameless.forM fun exit _ => hexit exit).bind fun _ => .mark

/-! ### Returns, traps and checks -/

theorem returnExit_blameless (type : TargetType) :
    Blameless scope position (returnExit type) := by
  refine Blameless.get.bind fun progress => ?_
  split
  · exact .pure
  · refine Blameless.newLabel.bind fun label => ?_
    have hslot (slot : Option UInt16) : Blameless scope position (do
        modify fun progress => { progress with returnExit := some { label, slot } }
        return { label, slot } : Emit ReturnExit) :=
      Blameless.bind (.of_total fun _ => ⟨_, _, rfl, rfl⟩) fun _ => .pure
    refine .ite (Blameless.pure.bind hslot) (Blameless.bind ?_ hslot)
    exact .of_total fun _ => ⟨_, _, rfl, rfl⟩

theorem ret_blameless (register : Int) : Blameless scope position (ret register) := by
  refine Blameless.read.bind fun other => .ite ((loadAs_blameless _ _).bind fun _ => ?_) ?_
  all_goals
    refine Blameless.get.bind fun progress => .ite .emit ?_
    refine (returnExit_blameless _).bind fun exit => ?_
    dsimp only
    split
    · exact Blameless.emit.bind fun _ => .emit
    · exact .emit

theorem nullCheck_blameless (register : Int) : Blameless scope position (nullCheck register) := by
  refine (registerType_blameless register).bind fun _ => .ite ?_ .pure
  refine Blameless.newLabel.bind fun present => (load_blameless register).bind fun _ => ?_
  refine Blameless.emit.bind fun _ => Blameless.emit.bind fun _ => ?_
  exact Blameless.emit.bind fun _ => .mark

theorem throwValue_blameless (register : Int) :
    Blameless scope position (throwValue register) :=
  (loadAs_blameless register _).bind fun _ => Blameless.emit.bind fun _ => .emit

theorem closeTrap_blameless (register : Int) :
    Blameless scope position (closeTrap register) := by
  have hstore (found : Int) : Emits False scope (storeFrom found .dynamic) 1 0 :=
    emits_storeFrom False.elim False.elim False.elim
  refine Blameless.bind (.of_total fun _ => ⟨_, _, rfl, rfl⟩) fun frame => ?_
  refine ((emits_orUnsupported _ _ : Emits False scope _ 0 0 _).blameless _).bind fun frame => ?_
  refine .ite (unsupported_blameless _) ?_
  refine Blameless.newLabel.bind fun after => Blameless.emit.bind fun _ => ?_
  refine Blameless.emit.bind fun _ => Blameless.emit.bind fun _ => ?_
  refine ((hstore frame.register).blameless _).bind fun _ => Blameless.emit.bind fun _ => ?_
  exact Blameless.emit.bind fun _ => .mark

/-! ### Every instruction -/

theorem operation_blameless
    (hcovers : ∀ target ∈ op.targetsAt position, scope.function.Covers target) :
    Blameless scope position (operation op) := by
  have hoffset (offset : Int) (h : offset ∈ op.branchOffsets) :
      scope.function.Covers (Operation.branchTarget position offset) :=
    hcovers _ (List.mem_map_of_mem h)
  by_cases hgoes : goesOn op.opcode = true
  · exact (operation_emits False.elim False.elim hgoes).blameless position
  · unfold operation
    cases hop : op.opcode
    case jTrue | jFalse =>
      exact truthBranch_blameless (hoffset _ (by simp [Operation.branchOffsets, hop])) _ _
    case jNull => exact nullBranch_blameless (hoffset _ (by simp [Operation.branchOffsets, hop])) _
    case jNotNull =>
      exact notNullBranch_blameless (hoffset _ (by simp [Operation.branchOffsets, hop])) _
    case jSLt | jSGte | jSGt | jSLte | jULt | jUGte | jNotLt | jNotGte | jEq | jNotEq =>
      exact compareBranch_blameless (hoffset _ (by simp [Operation.branchOffsets, hop])) _ _ _
    case jAlways => exact jump_blameless (hoffset _ (by simp [Operation.branchOffsets, hop]))
    case ret => exact ret_blameless _
    case throw => exact throwValue_blameless _
    case switch =>
      refine switchOn_blameless fun offset h => hoffset offset ?_
      simpa [Operation.branchOffsets, hop] using h
    case nullCheck => exact nullCheck_blameless _
    case trap => exact openTrap_blameless (hoffset _ (by simp [Operation.branchOffsets, hop])) _
    case endTrap => exact closeTrap_blameless _
    all_goals exact absurd (by rw [hop]; rfl) hgoes

theorem sequencePoint_blameless : Blameless scope position sequencePoint := by
  refine Blameless.get.bind fun progress => Blameless.read.bind fun other => ?_
  split
  · exact .pure
  · refine .ite ?_ .pure
    exact Blameless.emit.bind fun _ => .of_total fun _ => ⟨_, _, rfl, rfl⟩

theorem instruction_fault
    (hcovers : ∀ target ∈ op.targetsAt position, scope.function.Covers target)
    {before after : Progress} {error : LoweringError}
    (h : instruction (op, position) scope before = .error error after) :
    error.isUsage = true := by
  have hmarked : Blameless scope position (do
      if (← MonadReader.read).flow.isTarget position then mark position
      sequencePoint : Emit Unit) := by
    refine Blameless.read.bind fun other => ?_
    exact .ite (Blameless.mark.bind fun _ => sequencePoint_blameless) sequencePoint_blameless
  rcases bind_error h with hbegin | ⟨_, start, hbegin, hoperation⟩
  · rcases bind_error hbegin with hmodify | ⟨_, middle, hmodify, hbegin⟩
    · cases hmodify
    · cases hmodify
      exact hmarked.fault _ error after rfl hbegin
  · obtain ⟨_, middle, hmodify, hbegin⟩ := bind_ok hbegin
    cases hmodify
    exact (operation_blameless hcovers).fault start error after
      (hmarked.ok _ _ start rfl hbegin) hoperation

theorem instructions_fault {items : List (Operation × Nat)}
    (hcovers : ∀ op position, (op, position) ∈ items →
      ∀ target ∈ op.targetsAt position, scope.function.Covers target)
    {before after : Progress} {error : LoweringError}
    (h : items.forM instruction scope before = .error error after) : error.isUsage = true := by
  induction items generalizing before with
  | nil => cases h
  | cons item items ih =>
      rcases bind_error h with hitem | ⟨_, middle, -, hitems⟩
      · exact instruction_fault (hcovers item.1 item.2 List.mem_cons_self) hitem
      · exact ih (fun op position hmem => hcovers op position (List.mem_cons_of_mem _ hmem)) hitems

theorem closeExit_blameless : Blameless scope position closeExit := by
  refine Blameless.get.bind fun progress => ?_
  split
  · exact Blameless.mark.bind fun _ => .forM fun _ _ => .emit
  · exact .pure

end Emit

theorem FunctionDef.scope_error {function : FunctionDef} {image : Image} {registry : Registry}
    {settings : Settings} {signature : Signature} {error : LoweringError}
    (h : function.scope image registry settings signature = .error error) :
    Flow.analyze function = .error error ∨ error.isUsage = true := by
  rcases error_of_bind h with hflow | ⟨flow, -, h⟩
  · exact Or.inl hflow
  · refine Or.inr ?_
    rcases error_of_bind h with htypes | ⟨types, -, h⟩
    · obtain ⟨index, -, hindex⟩ := error_of_mapM htypes
      exact Registry.isUsage_of_mapType hindex
    · dsimp only at h
      split at h <;> cases h
      rfl

theorem FunctionDef.lower_error {function : FunctionDef} {image : Image} {registry : Registry}
    {settings : Settings} {signature : Signature} {error : LoweringError}
    (h : function.lower image registry settings signature = .error error) :
    function.scope image registry settings signature = .error error ∨
      ∃ scope final, function.scope image registry settings signature = .ok scope ∧
        Emit.body scope scope.begin = .error error final := by
  rcases error_of_bind h with hscope | ⟨scope, hscope, h⟩
  · exact Or.inl hscope
  · refine Or.inr ?_
    cases hbody : Emit.body scope scope.begin with
    | error found final =>
        simp only [hbody] at h
        cases h
        exact ⟨scope, final, hscope, hbody⟩
    | ok found final =>
        simp only [hbody] at h
        cases h

end BytecodeLowering

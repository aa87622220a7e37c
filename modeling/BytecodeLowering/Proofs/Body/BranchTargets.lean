import BytecodeLowering.Proofs.Body.Faults
import BytecodeLowering.Proofs.Body.Labels
import BytecodeLowering.Proofs.Body.Regions

/-!
# Labels and branches of lowered functions

A body is the code of its source instructions one after the other, followed by
the shared exit.  The label of an instruction is marked, once and in front of
its code, when some instruction leads to it, and every branch goes where the
source does.
-/

namespace BytecodeLowering

def Scope.Lowers (scope : Scope) (position : Nat) (code : List Instr) : Prop :=
  ∃ before after, scope.Reaches position before ∧ scope.Reaches (position + 1) after ∧
    after.builder.body = before.builder.body ++ code

def FunctionDef.Handles (function : FunctionDef) (position : Nat) (label : Label) : Prop :=
  ∃ (start : Nat) (outer : List Nat) (trap : Operation),
    Flow.openAt function.operations position = start :: outer ∧
      function.operations[start]? = some trap ∧ trap.opcode = .trap ∧
      (label : Int) ∈ trap.targetsAt start

structure FunctionDef.CodeOf (function : FunctionDef) (exit : Option ReturnExit) (position : Nat)
    (op : Operation) (code : List Instr) : Prop where
  head : function.JumpsTo position → code.head? = some (.markLabel position)
  /-- A branch goes to a label of the code itself, to a position to which the
  instruction leads, to the shared exit, or to the handler of the trap that is
  ended. -/
  branch : ∀ instr ∈ code, ∀ label ∈ instr.targets,
    .markLabel label ∈ code ∨ (label : Int) ∈ op.targetsAt position ∨
      op.opcode = .ret ∧ exit.map (·.label) = some label ∨
      op.opcode = .endTrap ∧ function.Handles position label
  /-- Every offset is taken, directly or through one leave instruction; a trap
  is taken at its end, and an unboxed value is not tested for null. -/
  taken : op.opcode ≠ .trap → ∀ target ∈ op.targetsAt position,
    op.opcode = .jNull ∧ (∀ instr ∈ code, instr.targets = []) ∨
      ∃ instr ∈ code, ∃ label ∈ instr.targets, LeadsTo code label target

/-! ## One instruction -/

section Instruction

variable {typed : Prop} {scope : Scope} {position : Nat} {before start after : Progress}
  {head code : List Instr}

def TrapFrame.Handled (function : FunctionDef) (frame : TrapFrame) : Prop :=
  ∃ trap : Operation, function.operations[frame.region.start]? = some trap ∧
    trap.opcode = .trap ∧ (frame.handler : Int) ∈ trap.targetsAt frame.region.start

theorem Emit.Begun.targets_nil (h : Emit.Begun scope position before start head) :
    ∀ instr ∈ head, instr.targets = [] := by
  obtain ⟨lines, hlines, hhead⟩ := h.form
  have hnone : ∀ instr ∈ lines, instr.targets = [] := by
    cases hlines <;> simp [Instr.targets]
  rcases hhead with ⟨-, rfl⟩ | ⟨-, rfl⟩
  · exact hnone
  · rw [List.forall_mem_cons]
    exact ⟨rfl, hnone⟩

theorem Emit.Begun.marks_eq (h : Emit.Begun scope position before start head) :
    marks head = if scope.flow.isTarget position then [position] else [] := by
  obtain ⟨lines, hlines, hhead⟩ := h.form
  have hnone : marks lines = [] := by
    cases hlines <;> rfl
  rcases hhead with ⟨htarget, rfl⟩ | ⟨htarget, rfl⟩
  · simp [htarget, hnone]
  · simpa [htarget, marks, Instr.marked?] using hnone

theorem Lowered.handled (hposition : position < scope.function.operations.length)
    (hstart : before.position = position)
    (hlowered : Lowered typed scope scope.function.operations[position] before after code)
    (h : ∀ frame ∈ before.traps, frame.Handled scope.function) :
    ∀ frame ∈ after.traps, frame.Handled scope.function := by
  cases hlowered.trapStep with
  | keeps _ htraps => rwa [htraps]
  | @opens frame hopcode hregion _ htraps hsource =>
      rw [htraps, List.forall_mem_cons]
      refine ⟨?_, h⟩
      have hfirst := List.find?_some hregion
      have hfound : frame.region.start = position := (beq_iff_eq.mp hfirst).trans hstart
      rw [hstart] at hsource
      refine ⟨scope.function.operations[position], ?_, hopcode, ?_⟩
      · rw [hfound, List.getElem?_eq_getElem hposition]
      · simp [hfound, hsource]
  | closes _ htraps =>
      rw [htraps, List.forall_mem_cons] at h
      exact h.2

theorem LeadsTo.append_left {label : Label} {target : Int} (h : LeadsTo code label target) :
    LeadsTo (head ++ code) label target := by
  refine h.imp_right ?_
  rintro ⟨found, hfound, hcode⟩
  exact ⟨found, hfound, hcode.trans (List.suffix_append head code).isInfix⟩

theorem Lowered.codeOf {op : Operation} (hflow : Flow.analyze scope.function = .ok scope.flow)
    (hfollows : before.Follows scope position)
    (hhandled : ∀ frame ∈ before.traps, frame.Handled scope.function)
    (hbegun : Emit.Begun scope position before start head)
    (hlowered : Lowered typed scope op start after code) :
    scope.function.CodeOf after.returnExit position op (head ++ code) := by
  have hsilent := hbegun.targets_nil
  refine ⟨?_, ?_, ?_⟩
  · intro hjumps
    obtain ⟨lines, -, ⟨hnot, -⟩ | ⟨-, rfl⟩⟩ := hbegun.form
    · rw [(Flow.isTarget_iff hflow position).mpr hjumps] at hnot
      cases hnot
    · rfl
  · intro instr hinstr label hlabel
    rcases List.mem_append.mp hinstr with hinstr | hinstr
    · rw [hsilent instr hinstr] at hlabel
      cases hlabel
    · rcases hlowered.wired.branch instr hinstr label hlabel with
        hown | hleads | hexit | ⟨hopcode, hhandler⟩
      · exact Or.inl (List.mem_append_right _ hown)
      · rw [hbegun.position] at hleads
        exact Or.inr (Or.inl hleads)
      · exact Or.inr (Or.inr (Or.inl hexit))
      · refine Or.inr (Or.inr (Or.inr ⟨hopcode, ?_⟩))
        rw [hbegun.traps, Option.map_eq_some_iff] at hhandler
        obtain ⟨frame, hframe, rfl⟩ := hhandler
        obtain ⟨outer, htraps⟩ := List.head?_eq_some_iff.mp hframe
        obtain ⟨trap, htrap, hopens, hleads⟩ := hhandled frame (List.mem_of_mem_head? hframe)
        refine ⟨frame.region.start, outer.map (·.region.start), trap, ?_, htrap, hopens, hleads⟩
        rw [← hfollows.starts, htraps, List.map_cons]
  · intro htrap target htarget
    rw [← hbegun.position] at htarget
    rcases hlowered.taken htrap htarget with ⟨hopcode, rfl⟩ | ⟨instr, hinstr, label, hlabel, hleads⟩
    · rw [List.append_nil]
      exact Or.inl ⟨hopcode, hsilent⟩
    · exact Or.inr ⟨instr, List.mem_append_right _ hinstr, label, hlabel, hleads.append_left⟩

theorem Lowered.marks_cases {op : Operation}
    (hposition : position < before.builder.labels.length)
    (hbegun : Emit.Begun scope position before start head)
    (hlowered : Lowered typed scope op start after code) :
    (marks (head ++ code)).Nodup ∧ ∀ label : Nat, .markLabel label ∈ head ++ code →
      label = position ∧ scope.flow.isTarget position = true ∨
        before.builder.labels.length ≤ label ∧ label < after.builder.labels.length := by
  have hwired := hlowered.wired
  rw [hbegun.labels] at hwired
  have hhead (label : Nat) (hlabel : label ∈ marks head) :
      label = position ∧ scope.flow.isTarget position = true := by
    rw [hbegun.marks_eq] at hlabel
    split at hlabel
    · exact ⟨List.mem_singleton.mp hlabel, ‹_›⟩
    · cases hlabel
  refine ⟨?_, ?_⟩
  · rw [marks_append, List.nodup_append]
    refine ⟨?_, hwired.once, ?_⟩
    · rw [hbegun.marks_eq]
      split <;> simp
    · rintro label hlabel _ hother rfl
      have hown := (hwired.own label (mem_marks.mp hother)).1
      rw [(hhead label hlabel).1] at hown
      exact absurd hposition (Nat.not_lt_of_le hown)
  · intro label hlabel
    rcases List.mem_append.mp hlabel with hlabel | hlabel
    · exact Or.inl (hhead label (mem_marks.mpr hlabel))
    · exact Or.inr (hwired.own label hlabel)

end Instruction

theorem FunctionDef.CodeOf.mono {function : FunctionDef} {exit later : Option ReturnExit}
    {position : Nat} {op : Operation} {code : List Instr}
    (h : function.CodeOf exit position op code)
    (hexit : ∀ found, exit = some found → later = some found) :
    function.CodeOf later position op code := by
  refine ⟨h.head, ?_, h.taken⟩
  intro instr hinstr label hlabel
  refine (h.branch instr hinstr label hlabel).imp_right (Or.imp_right (Or.imp_left ?_))
  rintro ⟨hopcode, hfound⟩
  obtain ⟨found, hsome, hsame⟩ := Option.map_eq_some_iff.mp hfound
  exact ⟨hopcode, by rw [hexit found hsome, Option.map_some, hsame]⟩

/-! ## The run -/

/-- The invariant in front of the instruction at a position, with the codes of
the instructions so far. -/
structure Progress.Linked (scope : Scope) (position : Nat) (codes : List (List Instr))
    (progress : Progress) : Prop where
  length : codes.length = position
  body : progress.builder.body = codes.flatten
  lowers : ∀ i code, codes[i]? = some code → scope.Lowers i code
  code : ∀ i op code, scope.function.operations[i]? = some op → codes[i]? = some code →
    scope.function.CodeOf progress.returnExit i op code
  once : (marks progress.builder.body).Nodup
  own : ∀ label : Nat, .markLabel label ∈ progress.builder.body →
    label < position ∧ scope.function.JumpsTo label ∨
      scope.function.operations.length ≤ label ∧ label < progress.builder.labels.length
  marked : ∀ label, progress.builder.isMarked label = true ↔
    .markLabel label ∈ progress.builder.body
  handled : ∀ frame ∈ progress.traps, frame.Handled scope.function

section Run

variable {scope : Scope} {position : Nat} {before after : Progress} {codes : List (List Instr)}

theorem Scope.begin_linked (scope : Scope) : scope.begin.Linked scope 0 [] := by
  refine ⟨rfl, rfl, nofun, nofun, List.nodup_nil, nofun, ?_, nofun⟩
  intro label
  refine iff_of_false (fun hmarked => ?_) List.not_mem_nil
  exact absurd (scope.begin_regular.marked label hmarked) List.not_mem_nil

theorem Progress.Linked.step (h : before.Linked scope position codes)
    (hflow : Flow.analyze scope.function = .ok scope.flow)
    (hposition : position < scope.function.operations.length)
    (hbefore : scope.Reaches position before) (hafter : scope.Reaches (position + 1) after)
    (hstep : Emit.instruction (scope.function.operations[position], position) scope before
      = .ok ⟨⟩ after) :
    ∃ code, after.Linked scope (position + 1) (codes ++ [code]) := by
  have hsource := (hbefore.bounded (Nat.le_of_lt hposition)).source
  have hfollows := (hbefore.regular hflow (Nat.le_of_lt hposition)).toFollows
  obtain ⟨start, head, code, hbegun, hextends, hlowered⟩ :=
    Emit.instruction_ok (False.elim : False → scope.Sound) False.elim
      (Nat.lt_of_lt_of_le hposition hsource) hstep
  have hall := hbegun.toExtends.trans hextends
  obtain ⟨honce, hnew⟩ := hlowered.marks_cases (Nat.lt_of_lt_of_le hposition hsource) hbegun
  refine ⟨head ++ code, by simp [h.length], ?_, ?_, ?_, ?_, ?_, ?_, ?_⟩
  · rw [hall.body, h.body, List.flatten_append, List.flatten_singleton]
  · intro i found hfound
    rcases getElem?_concat_cases hfound with hfound | ⟨hi, rfl⟩
    · exact h.lowers i found hfound
    · rw [hi, h.length]
      exact ⟨before, after, hbefore, hafter, hall.body⟩
  · intro i op found hop hfound
    rcases getElem?_concat_cases hfound with hfound | ⟨hi, rfl⟩
    · refine (h.code i op found hop hfound).mono fun exit hexit => ?_
      exact hlowered.exit_kept (hbegun.exit.trans hexit)
    · rw [hi, h.length] at hop ⊢
      rw [List.getElem?_eq_getElem hposition] at hop
      cases hop
      exact hlowered.codeOf hflow hfollows h.handled hbegun
  · rw [hall.body, marks_append, List.nodup_append]
    refine ⟨h.once, honce, ?_⟩
    rintro label hlabel _ hother rfl
    -- labels so far belong to earlier instructions or were handed out earlier
    have hearlier := h.own label (mem_marks.mp hlabel)
    have hlater := hnew label (mem_marks.mp hother)
    omega
  · intro label hlabel
    have hgrows := hall.grows
    rw [hall.body, List.mem_append] at hlabel
    rcases hlabel with hlabel | hlabel
    · rcases h.own label hlabel with ⟨hlt, hjumps⟩ | hown
      · exact Or.inl ⟨Nat.lt_succ_of_lt hlt, hjumps⟩
      · exact Or.inr (by omega)
    · rcases hnew label hlabel with ⟨rfl, htarget⟩ | hown
      · exact Or.inl ⟨Nat.lt_succ_self _, (Flow.isTarget_iff hflow label).mp htarget⟩
      · exact Or.inr (by omega)
  · intro label
    rw [hall.marked, hall.body, h.marked, ← List.mem_append]
  · refine hlowered.handled hposition hbegun.position ?_
    rw [hbegun.traps]
    exact h.handled

theorem Scope.Reaches.linked (hflow : Flow.analyze scope.function = .ok scope.flow)
    (hposition : position ≤ scope.function.operations.length)
    (h : scope.Reaches position after) : ∃ codes, after.Linked scope position codes := by
  induction position generalizing after with
  | zero =>
      cases h
      exact ⟨[], scope.begin_linked⟩
  | succ position ih =>
      obtain ⟨before, hbefore, hstep⟩ := Scope.Reaches.succ hposition h
      obtain ⟨codes, hcodes⟩ := ih (by omega) hbefore
      obtain ⟨code, hcode⟩ := hcodes.step hflow hposition hbefore h hstep
      exact ⟨codes ++ [code], hcode⟩

end Run

/-! ## The end of a body -/

theorem Emit.targets_nil_of_mem_exitBlock {exit : Option ReturnExit} {instr : Instr}
    (h : instr ∈ exitBlock exit) : instr.targets = [] := by
  unfold exitBlock at h
  split at h
  · rcases List.mem_cons.mp h with rfl | h
    · rfl
    · unfold exitCode at h
      split at h <;> simp at h
      · rcases h with rfl | rfl <;> rfl
      · rw [h]
        rfl
  · cases h

theorem Emit.marks_exitBlock (exit : Option ReturnExit) :
    marks (exitBlock exit) = exit.toList.map (·.label) := by
  cases exit with
  | none => rfl
  | some exit => cases hslot : exit.slot <;> simp [exitBlock, exitCode, marks, Instr.marked?, hslot]

section Whole

variable {scope : Scope} {last : Progress} {codes : List (List Instr)}

theorem Progress.Linked.marks_source
    (h : last.Linked scope scope.function.operations.length codes)
    (hflow : Flow.analyze scope.function = .ok scope.flow) {label : Nat}
    (hjumps : scope.function.JumpsTo label) : .markLabel label ∈ last.builder.body := by
  have hlt : label < scope.function.operations.length :=
    Int.ofNat_lt.mp (Flow.analyze_covers hflow hjumps).2
  have hcode := List.getElem?_eq_getElem (h.length.symm ▸ hlt : label < codes.length)
  have hhead := (h.code label _ _ (List.getElem?_eq_getElem hlt) hcode).head hjumps
  rw [h.body, List.mem_flatten]
  exact ⟨_, List.mem_of_getElem? hcode, List.mem_of_mem_head? hhead⟩

theorem Progress.Linked.bound (h : last.Linked scope scope.function.operations.length codes)
    (hflow : Flow.analyze scope.function = .ok scope.flow) :
    ∀ instr ∈ last.builder.body ++ Emit.exitBlock last.returnExit, ∀ label ∈ instr.targets,
      .markLabel label ∈ last.builder.body ∨
        .markLabel label ∈ Emit.exitBlock last.returnExit := by
  intro instr hinstr label hlabel
  rcases List.mem_append.mp hinstr with hinstr | hinstr
  · rw [h.body, List.mem_flatten] at hinstr
    obtain ⟨code, hcode, hinstr⟩ := hinstr
    obtain ⟨position, hfound⟩ := List.mem_iff_getElem?.mp hcode
    have hlt : position < scope.function.operations.length :=
      h.length ▸ (List.getElem?_eq_some_iff.mp hfound).1
    have hop := List.getElem?_eq_getElem hlt
    rcases (h.code position _ code hop hfound).branch instr hinstr label hlabel with
      hown | hleads | ⟨-, hexit⟩ | ⟨-, start, outer, trap, -, htrap, -, hleads⟩
    · rw [h.body]
      exact Or.inl (List.mem_flatten.mpr ⟨code, hcode, hown⟩)
    · exact Or.inl (h.marks_source hflow ⟨position, _, hop, hleads⟩)
    · refine Or.inr ?_
      rw [← mem_marks, Emit.marks_exitBlock]
      simpa using hexit
    · exact Or.inl (h.marks_source hflow ⟨start, trap, htrap, hleads⟩)
  · rw [Emit.targets_nil_of_mem_exitBlock hinstr] at hlabel
    cases hlabel

theorem Scope.finish_of_reaches (hflow : Flow.analyze scope.function = .ok scope.flow)
    (hlast : scope.Reaches scope.function.operations.length last) {final : Progress}
    (hclose : Emit.closeExit scope last = .ok ⟨⟩ final) :
    ∃ body, final.builder.finish = .ok body := by
  obtain ⟨codes, hlinked⟩ := hlast.linked hflow (Nat.le_refl _)
  have happends := Emit.closeExit_ok (hlast.bounded (Nat.le_refl _)) hclose
  have hmarked : final.builder.unmarked? = none := by
    refine List.find?_eq_none.mpr ?_
    intro label hlabel
    obtain ⟨instr, hinstr, hlabel⟩ := List.mem_flatMap.mp hlabel
    rw [happends.body] at hinstr
    rw [(happends.marked label).mpr]
    · simp
    · exact (hlinked.bound hflow instr hinstr label hlabel).imp_left (hlinked.marked label).mpr
  exact ⟨_, by rw [BodyBuilder.finish, hmarked]⟩

theorem Emit.finish_fault (hflow : Flow.analyze scope.function = .ok scope.flow)
    (hlast : scope.Reaches scope.function.operations.length last) {final : Progress}
    {error : LoweringError} (h : finish scope last = .error error final) :
    error.isUsage = true := by
  rcases bind_error h with hget | ⟨_, _, hget, h⟩
  · cases hget
  · obtain ⟨rfl, rfl⟩ := get_ok hget
    dsimp only at h
    split at h
    · rcases bind_error h with hopen | ⟨_, _, hopen, -⟩
      · exact (unsupported_blameless _).fault last error final rfl hopen
      · cases hopen
    · rcases bind_error h with hclose | ⟨_, closed, hclose, h⟩
      · exact closeExit_blameless.fault last error final rfl hclose
      · obtain ⟨body, hbody⟩ := scope.finish_of_reaches hflow hlast hclose
        rcases bind_error h with hget | ⟨_, _, hget, h⟩
        · cases hget
        · obtain ⟨rfl, rfl⟩ := get_ok hget
          simp only [hbody] at h
          cases h

theorem Emit.body_fault (hflow : Flow.analyze scope.function = .ok scope.flow)
    {final : Progress} {error : LoweringError}
    (h : body scope scope.begin = .error error final) : error.isUsage = true := by
  rcases bind_error h with hread | ⟨_, _, hread, h⟩
  · cases hread
  · obtain ⟨rfl, rfl⟩ := read_ok hread
    rcases bind_error h with hrun | ⟨_, last, hrun, hfinish⟩
    · refine instructions_fault ?_ hrun
      intro op position hitem target htarget
      exact Flow.analyze_covers hflow
        ⟨position, op, List.mem_zipIdx_iff_getElem?.mp hitem, htarget⟩
    · exact finish_fault hflow (Scope.Reaches.of_run hrun) hfinish

end Whole

/-! ## Whole functions -/

/-- The body of a function as the codes of its instructions and the shared
exit, with its labels and branches. -/
structure FunctionDef.Branching (function : FunctionDef) (codes : List (List Instr))
    (exit : Option ReturnExit) (body : List Instr) : Prop where
  length : codes.length = function.operations.length
  parts : body = codes.flatten ++ Emit.exitBlock exit
  code : ∀ position op code, function.operations[position]? = some op →
    codes[position]? = some code → function.CodeOf exit position op code
  /-- The label of an instruction is marked just when it is jumped to. -/
  source : ∀ position < function.operations.length,
    .markLabel position ∈ body ↔ function.JumpsTo position
  /-- Every label that is mentioned is marked once. -/
  once : ∀ instr ∈ body, ∀ label, instr = .markLabel label ∨ label ∈ instr.targets →
    body.count (.markLabel label) = 1

theorem Progress.Linked.branching {scope : Scope} {last : Progress} {codes : List (List Instr)}
    (h : last.Linked scope scope.function.operations.length codes)
    (hflow : Flow.analyze scope.function = .ok scope.flow)
    (hregular : last.Regular scope scope.function.operations.length) :
    scope.function.Branching codes last.returnExit
      (last.builder.body ++ Emit.exitBlock last.returnExit) := by
  have hexit (label : Nat) (hlabel : .markLabel label ∈ Emit.exitBlock last.returnExit) :
      scope.function.operations.length ≤ label ∧ .markLabel label ∉ last.builder.body := by
    rw [← mem_marks, Emit.marks_exitBlock, List.mem_map] at hlabel
    obtain ⟨exit, hfound, rfl⟩ := hlabel
    obtain ⟨hrange, hfresh⟩ := hregular.exit exit (Option.mem_toList.mp hfound)
    exact ⟨hrange.1, hfresh⟩
  have honce : (marks (last.builder.body ++ Emit.exitBlock last.returnExit)).Nodup := by
    rw [marks_append, List.nodup_append]
    refine ⟨h.once, ?_, ?_⟩
    · rw [Emit.marks_exitBlock]
      cases last.returnExit <;> simp
    · rintro label hlabel _ hother rfl
      exact (hexit label (mem_marks.mp hother)).2 (mem_marks.mp hlabel)
  refine ⟨h.length, by rw [h.body], h.code, ?_, ?_⟩
  · intro position hposition
    rw [List.mem_append]
    refine ⟨?_, fun hjumps => Or.inl (h.marks_source hflow hjumps)⟩
    rintro (hmark | hmark)
    · exact (h.own position hmark).elim And.right
        fun hown => absurd hposition (Nat.not_lt_of_le hown.1)
    · exact absurd hposition (Nat.not_lt_of_le (hexit position hmark).1)
  · rintro instr hinstr label (rfl | hlabel)
    · exact count_markLabel honce hinstr
    · exact count_markLabel honce (List.mem_append.mpr (h.bound hflow instr hinstr label hlabel))

/-- A body that is lowered keeps the branches of its function; behind the
analysis every label has its place; and lowering fails at a branch just when
some offset leads out of the function. -/
theorem FunctionDef.lower_branches (function : FunctionDef) (image : Image) (registry : Registry)
    (settings : Settings) (signature : Signature) :
    (∀ body stats, function.lower image registry settings signature = .ok (body, stats) →
      ∃ scope codes exit, function.scope image registry settings signature = .ok scope ∧
        (∀ position code, codes[position]? = some code → scope.Lowers position code) ∧
        function.Branching codes exit body.body) ∧
    (∀ scope last final, function.scope image registry settings signature = .ok scope →
      scope.Reaches function.operations.length last →
      Emit.closeExit scope last = .ok ⟨⟩ final → ∃ body, final.builder.finish = .ok body) ∧
    ((∃ site target, function.lower image registry settings signature
        = .error (.invalidBranchTarget site target)) ↔
      ∃ target, function.JumpsTo target ∧ ¬ function.Covers target) := by
  refine ⟨?_, ?_, ?_, ?_⟩
  · intro body stats h
    obtain ⟨scope, final, hscope, hbody⟩ := lower_ok h
    obtain ⟨hflow, -, -, -, rfl, -⟩ := scope_ok hscope
    obtain ⟨last, hlast, -, hcode, -⟩ := Emit.body_ok hbody
    obtain ⟨codes, hlinked⟩ := hlast.linked hflow (Nat.le_refl _)
    refine ⟨scope, codes, last.returnExit, hscope, hlinked.lowers, ?_⟩
    rw [show body.body = _ from hcode]
    exact hlinked.branching hflow (hlast.regular hflow (Nat.le_refl _))
  · intro scope last final hscope hlast hclose
    obtain ⟨hflow, -, -, -, rfl, -⟩ := scope_ok hscope
    exact scope.finish_of_reaches hflow hlast hclose
  · rintro ⟨site, target, h⟩
    rcases lower_error h with hscope | ⟨scope, final, hscope, hbody⟩
    · rcases scope_error hscope with hflow | hother
      · exact (Flow.analyze_error hflow).1
      · cases hother
    · obtain ⟨hflow, -, -, -, rfl, -⟩ := scope_ok hscope
      cases Emit.body_fault hflow hbody
  · rintro ⟨target, hjumps, houtside⟩
    cases hflow : Flow.analyze function with
    | ok flow => exact absurd (Flow.analyze_covers hflow hjumps) houtside
    | error error =>
        have hlower : function.lower image registry settings signature = .error error := by
          unfold lower FunctionDef.scope
          rw [hflow]
          rfl
        have hbranch := (Flow.analyze_error hflow).2
        cases error with
        | invalidBranchTarget site target => exact ⟨site, target, hlower⟩
        | _ => cases hbranch

def strayJump : FunctionDef where
  index := 0
  type := 3
  registers := [1]
  operations := [⟨.jAlways, [1]⟩, ⟨.ret, [0]⟩]
  lines := none
  names := []

theorem lower_branches_nestedTraps :
    (∃ body stats codes exit,
      nestedTraps.lower nestedTrapsImage (nestedTrapsImage.registry {}) {} ⟨[], .i32⟩
        = .ok (body, stats) ∧ nestedTraps.Branching codes exit body.body) ∧
    ∃ site target,
      strayJump.lower nestedTrapsImage (nestedTrapsImage.registry {}) {} ⟨[], .i32⟩
        = .error (.invalidBranchTarget site target) := by
  refine ⟨?_, ?_⟩
  · obtain ⟨result, hlower⟩ := nestedTraps_lower_ok
    obtain ⟨_, codes, exit, -, -, hbranching⟩ :=
      (nestedTraps.lower_branches nestedTrapsImage (nestedTrapsImage.registry {}) {}
        ⟨[], .i32⟩).1 result.1 result.2 hlower
    exact ⟨result.1, result.2, codes, exit, hlower, hbranching⟩
  · refine (strayJump.lower_branches nestedTrapsImage (nestedTrapsImage.registry {}) {}
      ⟨[], .i32⟩).2.2.mpr ⟨2, ⟨0, ⟨.jAlways, [1]⟩, rfl, ?_⟩, ?_⟩
    · decide
    · simp [FunctionDef.Covers, strayJump]

end BytecodeLowering

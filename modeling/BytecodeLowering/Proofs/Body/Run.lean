import BytecodeLowering.Proofs.Body.Parts

/-!
# The run over a function

Lowering passes through one state per source instruction; between two of them
lies the label of the instruction, if it is jumped to, its source position, and
one of the forms of lowered instructions.
-/

namespace BytecodeLowering

/-- The state in front of the instruction at a position. -/
def Scope.Reaches (scope : Scope) (position : Nat) (progress : Progress) : Prop :=
  (scope.function.operations.zipIdx.take position).forM Emit.instruction scope scope.begin
    = .ok ⟨⟩ progress

theorem Emit.forM_append_ok {scope : Scope} {before after : Progress} {first second : List α}
    {step : α → Emit PUnit} {result : PUnit}
    (h : (first ++ second).forM step scope before = .ok result after) :
    ∃ middle, first.forM step scope before = .ok ⟨⟩ middle ∧
      second.forM step scope middle = .ok result after := by
  induction first generalizing before with
  | nil => exact ⟨before, rfl, h⟩
  | cons item first ih =>
      obtain ⟨_, next, hitem, h⟩ := bind_ok h
      obtain ⟨middle, hfirst, hsecond⟩ := ih h
      refine ⟨middle, ?_, hsecond⟩
      change EStateM.bind (step item scope) _ before = _
      rw [EStateM.bind, hitem]
      exact hfirst

namespace Scope.Reaches

variable {scope : Scope} {position : Nat} {before after : Progress}

theorem unique (h : scope.Reaches position before) (hother : scope.Reaches position after) :
    before = after := by
  unfold Scope.Reaches at h hother
  rw [h] at hother
  cases hother
  rfl

theorem succ (hposition : position < scope.function.operations.length)
    (h : scope.Reaches (position + 1) after) :
    ∃ before, scope.Reaches position before ∧
      Emit.instruction (scope.function.operations[position], position) scope before
        = .ok ⟨⟩ after := by
  have hlength : position < scope.function.operations.zipIdx.length := by
    rwa [List.length_zipIdx]
  unfold Scope.Reaches at h
  rw [List.take_succ_eq_append_getElem hlength] at h
  obtain ⟨middle, hfirst, hlast⟩ := Emit.forM_append_ok h
  obtain ⟨_, last, hinstruction, hnone⟩ := Emit.bind_ok hlast
  cases hnone
  refine ⟨middle, hfirst, ?_⟩
  simpa using hinstruction

theorem earlier {last : Nat} (hposition : position ≤ last) (h : scope.Reaches last after) :
    ∃ reached, scope.Reaches position reached := by
  unfold Scope.Reaches at h
  rw [← List.take_append_drop position (List.take last _), List.take_take,
    Nat.min_eq_left hposition] at h
  obtain ⟨reached, hreached, -⟩ := Emit.forM_append_ok h
  exact ⟨reached, hreached⟩

theorem of_run
    (h : scope.function.operations.zipIdx.forM Emit.instruction scope scope.begin
      = .ok ⟨⟩ after) :
    scope.Reaches scope.function.operations.length after := by
  unfold Scope.Reaches
  rw [List.take_of_length_le (by simp)]
  exact h

end Scope.Reaches

namespace Emit

variable {typed : Prop} {scope : Scope} {before after : Progress}

/-! ## The start of an instruction -/

/-- At most one source position, which no control passes by. -/
inductive SourcePoint : List Instr → Prop
  | none : SourcePoint []
  | point (file line : Nat) : SourcePoint [.sequencePoint file line]

theorem sequencePoint_ok {result : Unit} (h : sequencePoint scope before = .ok result after) :
    ∃ lines, SourcePoint lines ∧ before.Appends after lines ∧
      after.builder.labels.length = before.builder.labels.length := by
  obtain ⟨_, _, hget, h⟩ := bind_ok h
  obtain ⟨rfl, rfl⟩ := get_ok hget
  obtain ⟨_, _, hread, h⟩ := bind_ok h
  obtain ⟨rfl, rfl⟩ := read_ok hread
  cases hline : sourceLine? scope before.position with
  | none =>
      simp only [hline] at h
      cases h
      exact ⟨[], .none, .refl _, rfl⟩
  | some line =>
      simp only [hline] at h
      split at h
      · obtain ⟨_, middle, hemit, hmodify⟩ := bind_ok h
        obtain ⟨happends, hlabels⟩ := emit_ok hemit (Instr.ne_mark rfl)
        cases hmodify
        exact ⟨_, .point line.file line.line,
          ⟨⟨happends.body, happends.marked, happends.grows⟩, happends.traps, happends.position,
            happends.exit⟩,
          hlabels⟩
      · cases h
        exact ⟨[], .none, .refl _, rfl⟩

structure Begun (scope : Scope) (position : Nat) (before start : Progress) (code : List Instr) :
    Prop extends before.Extends start code where
  form : ∃ lines, SourcePoint lines ∧
    (scope.flow.isTarget position = false ∧ code = lines ∨
      scope.flow.isTarget position = true ∧ code = .markLabel position :: lines)
  traps : start.traps = before.traps
  exit : start.returnExit = before.returnExit
  position : start.position = position
  labels : start.builder.labels.length = before.builder.labels.length

theorem begin_ok {position : Nat} {opcode : Opcode} {result : Unit}
    (hposition : position < before.builder.labels.length)
    (h : begin position opcode scope before = .ok result after) :
    ∃ code, Begun scope position before after code := by
  obtain ⟨_, p₁, hmodify, h⟩ := bind_ok h
  cases hmodify
  obtain ⟨_, _, hread, h⟩ := bind_ok h
  obtain ⟨rfl, rfl⟩ := read_ok hread
  dsimp only at h
  split at h
  · rename_i hjumped
    obtain ⟨_, p₂, hmark, h⟩ := bind_ok h
    obtain ⟨a₁, l₁⟩ := mark_ok hmark hposition
    obtain ⟨lines, hlines, a₂, l₂⟩ := sequencePoint_ok h
    have hall := a₁.trans a₂
    exact ⟨_, ⟨hall.body, hall.marked, hall.grows⟩, ⟨lines, hlines, Or.inr ⟨hjumped, rfl⟩⟩,
      hall.traps, hall.exit, hall.position, l₂.trans l₁⟩
  · rename_i hjumped
    obtain ⟨lines, hlines, a₂, l₂⟩ := sequencePoint_ok h
    exact ⟨_, ⟨a₂.body, a₂.marked, a₂.grows⟩,
      ⟨lines, hlines, Or.inl ⟨Bool.eq_false_iff.mpr hjumped, rfl⟩⟩, a₂.traps, a₂.exit,
      a₂.position, l₂⟩

theorem instruction_ok (hscope : typed → scope.Sound) {op : Operation} {position : Nat}
    (hadmits : typed → scope.Admits op) (hposition : position < before.builder.labels.length)
    {result : Unit} (h : instruction (op, position) scope before = .ok result after) :
    ∃ start head code, Begun scope position before start head ∧ start.Extends after code ∧
      Lowered typed scope op start after code := by
  obtain ⟨_, start, hbegin, h⟩ := bind_ok h
  obtain ⟨head, hhead⟩ := begin_ok hposition hbegin
  obtain ⟨code, hextends, hlowered⟩ := operation_becomes hscope hadmits h
  exact ⟨start, head, code, hhead, hextends, hlowered⟩

end Emit

/-! ## Traps and the shared exit -/

inductive TrapStep (scope : Scope) (op : Operation) (before after : Progress) : Prop
  | keeps (hopcode : op.opcode ≠ .trap ∧ op.opcode ≠ .endTrap)
      (htraps : after.traps = before.traps)
  | opens {frame : TrapFrame} (hopcode : op.opcode = .trap)
      (hregion : scope.flow.regionAt? before.position = some frame.region)
      (hhandler : frame.handler < scope.function.operations.length)
      (htraps : after.traps = frame :: before.traps)
      (hsource : op.targetsAt before.position = [(frame.handler : Int)])
  | closes {frame : TrapFrame} (hopcode : op.opcode = .endTrap)
      (htraps : before.traps = frame :: after.traps)

section Lowered

variable {typed : Prop} {scope : Scope} {op : Operation} {before after : Progress}
  {code : List Instr}

theorem Lowered.trapStep (h : Lowered typed scope op before after code) :
    TrapStep scope op before after := by
  cases h with
  | straight hstands | thrown hstands | check hstands | jump hstands | leave hstands
  | test hstands | testOut hstands | table hstands | tableOut hstands | ret hstands =>
      exact .keeps hstands.opcode hstands.traps
  | exit hopcode htraps => exact .keeps (by simp [hopcode]) htraps
  | openTrap hopcode hregion hhandler htraps _ _ hsource =>
      exact .opens hopcode hregion hhandler htraps hsource
  | closeTrap hopcode htraps => exact .closes hopcode htraps

theorem Lowered.exit_cases (h : Lowered typed scope op before after code) :
    after.returnExit = before.returnExit ∨
      before.returnExit = none ∧ ∀ exit, after.returnExit = some exit →
        (before.builder.labels.length ≤ exit.label ∧ exit.label < after.builder.labels.length) ∧
          .markLabel exit.label ∉ code := by
  cases h with
  | straight hstands | thrown hstands | check hstands | jump hstands | leave hstands
  | test hstands | testOut hstands | table hstands | tableOut hstands | ret hstands =>
      exact Or.inl hstands.exit
  | openTrap _ _ _ _ hsame | closeTrap _ _ hsame => exact Or.inl hsame
  | @exit load found middle _ _ hload hfound hmade =>
      rcases hmade with ⟨hbefore, -⟩ | ⟨hnone, hlabel, hnext, -⟩
      · exact Or.inl (hfound.trans hbefore.symm)
      · refine Or.inr ⟨hnone, fun exit hexit => ?_⟩
        obtain rfl : found = exit := Option.some.inj (hfound.symm.trans hexit)
        rw [hlabel, hnext]
        refine ⟨⟨hload.first_le, Nat.lt_succ_self _⟩, ?_⟩
        intro hmark
        have hrange := hload.mark_range (by simpa using hmark)
        exact absurd hrange.2 (Nat.lt_irrefl _)

theorem Lowered.exit_fresh (hlowered : Lowered typed scope op before after code)
    {exit : ReturnExit} (hexit : after.returnExit = some exit) :
    before.returnExit = some exit ∨
      (before.builder.labels.length ≤ exit.label ∧ exit.label < after.builder.labels.length) ∧
        .markLabel exit.label ∉ code := by
  rcases hlowered.exit_cases with hsame | ⟨-, hfresh⟩
  · exact Or.inl (hsame.symm.trans hexit)
  · exact Or.inr (hfresh exit hexit)

theorem Lowered.exit_kept (h : Lowered typed scope op before after code) {exit : ReturnExit}
    (hexit : before.returnExit = some exit) : after.returnExit = some exit := by
  rcases h.exit_cases with hsame | ⟨hnone, -⟩
  · exact hsame.trans hexit
  · cases hnone.symm.trans hexit

end Lowered

/-! ## Labels that exist -/

structure Progress.Bounded (scope : Scope) (progress : Progress) : Prop where
  source : scope.function.operations.length ≤ progress.builder.labels.length
  exit : ∀ exit, progress.returnExit = some exit → exit.label < progress.builder.labels.length

theorem Progress.Bounded.step {scope : Scope} {position : Nat} {before after : Progress}
    {op : Operation} (h : before.Bounded scope)
    (hposition : position < scope.function.operations.length)
    (hstep : Emit.instruction (op, position) scope before = .ok ⟨⟩ after) :
    after.Bounded scope := by
  obtain ⟨start, head, code, hbegun, hextends, hlowered⟩ :=
    Emit.instruction_ok (False.elim : False → scope.Sound) False.elim
      (Nat.lt_of_lt_of_le hposition h.source) hstep
  have hgrows := Nat.le_trans hbegun.grows hextends.grows
  refine ⟨Nat.le_trans h.source hgrows, ?_⟩
  intro exit hexit
  rcases hlowered.exit_fresh hexit with hstart | ⟨hrange, -⟩
  · rw [hbegun.exit] at hstart
    exact Nat.lt_of_lt_of_le (h.exit exit hstart) hgrows
  · exact hrange.2

theorem Scope.Reaches.bounded {scope : Scope} {position : Nat} {progress : Progress}
    (hposition : position ≤ scope.function.operations.length)
    (h : scope.Reaches position progress) : progress.Bounded scope := by
  induction position generalizing progress with
  | zero =>
      cases h
      exact ⟨by simp [Scope.begin], nofun⟩
  | succ position ih =>
      obtain ⟨before, hbefore, hstep⟩ := Scope.Reaches.succ hposition h
      exact (ih (by omega) hbefore).step hposition hstep

namespace Emit

variable {scope : Scope} {before after : Progress}

/-! ## The end of a body -/

def exitBlock (exit : Option ReturnExit) : List Instr :=
  match exit with
  | some exit => .markLabel exit.label :: exitCode exit
  | none => []

theorem emitAll_ok {code : List Instr} {result : Unit}
    (hcode : ∀ label, .markLabel label ∉ code)
    (h : emitAll code scope before = .ok result after) : before.Appends after code := by
  induction code generalizing before with
  | nil =>
      cases h
      exact .refl _
  | cons instr code ih =>
      obtain ⟨_, middle, hemit, h⟩ := bind_ok h
      have hinstr (label : Label) : .markLabel label ≠ instr := by
        rintro rfl
        exact hcode label List.mem_cons_self
      have hrest (label : Label) : .markLabel label ∉ code := fun hlabel =>
        hcode label (List.mem_cons_of_mem _ hlabel)
      exact (emit_ok hemit hinstr).1.trans (ih hrest h)

theorem markLabel_not_mem_exitCode (exit : ReturnExit) (label : Label) :
    .markLabel label ∉ exitCode exit := by
  unfold exitCode
  split <;> simp

theorem closeExit_ok {result : Unit} (hbounded : before.Bounded scope)
    (h : closeExit scope before = .ok result after) :
    before.Appends after (exitBlock before.returnExit) := by
  obtain ⟨_, _, hget, h⟩ := bind_ok h
  obtain ⟨rfl, rfl⟩ := get_ok hget
  cases hexit : before.returnExit with
  | none =>
      simp only [hexit] at h
      cases h
      exact .refl _
  | some exit =>
      simp only [hexit] at h
      obtain ⟨_, middle, hmark, h⟩ := bind_ok h
      exact (mark_ok hmark (hbounded.exit exit hexit)).1.trans
        (emitAll_ok (markLabel_not_mem_exitCode exit) h)

theorem isMarked_of_finish {builder : BodyBuilder} {body : MethodBody}
    (h : builder.finish = .ok body) :
    body.body = builder.body ∧
      ∀ label ∈ builder.body.flatMap Instr.targets, builder.isMarked label = true := by
  unfold BodyBuilder.finish at h
  cases hunmarked : builder.unmarked? with
  | some label =>
      rw [hunmarked] at h
      cases h
  | none =>
      rw [hunmarked] at h
      cases h
      refine ⟨rfl, ?_⟩
      intro label hlabel
      simpa using List.find?_eq_none.mp hunmarked label hlabel

theorem finish_ok {result : MethodBody × BodyStats} (hbounded : before.Bounded scope)
    (h : finish scope before = .ok result after) :
    before.traps = [] ∧ result.1.body = before.builder.body ++ exitBlock before.returnExit ∧
      ∀ label ∈ result.1.body.flatMap Instr.targets,
        before.builder.isMarked label = true ∨
          .markLabel label ∈ exitBlock before.returnExit := by
  obtain ⟨_, _, hget, h⟩ := bind_ok h
  obtain ⟨rfl, rfl⟩ := get_ok hget
  dsimp only at h
  split at h
  · obtain ⟨_, _, hfails, -⟩ := bind_ok h
    cases hfails
  · rename_i hclosed
    obtain ⟨_, middle, hclose, h⟩ := bind_ok h
    have happends := closeExit_ok hbounded hclose
    obtain ⟨_, _, hget, h⟩ := bind_ok h
    obtain ⟨rfl, rfl⟩ := get_ok hget
    cases hfinish : middle.builder.finish with
    | error label =>
        simp only [hfinish] at h
        cases h
    | ok body =>
        simp only [hfinish] at h
        cases h
        obtain ⟨hbody, hmarked⟩ := isMarked_of_finish hfinish
        refine ⟨List.eq_nil_of_length_eq_zero (by omega), hbody.trans happends.body, ?_⟩
        intro label hlabel
        rw [show (body, _).1.body = _ from hbody] at hlabel
        exact (happends.marked label).mp (hmarked label hlabel)

/-- A body that is lowered passes the states of all instructions and ends
without an open trap. -/
theorem body_ok {result : MethodBody × BodyStats}
    (h : body scope scope.begin = .ok result after) :
    ∃ last, scope.Reaches scope.function.operations.length last ∧ last.traps = [] ∧
      result.1.body = last.builder.body ++ exitBlock last.returnExit ∧
      ∀ label ∈ result.1.body.flatMap Instr.targets,
        last.builder.isMarked label = true ∨
          .markLabel label ∈ exitBlock last.returnExit := by
  obtain ⟨_, _, hread, h⟩ := bind_ok h
  obtain ⟨rfl, rfl⟩ := read_ok hread
  obtain ⟨_, last, hrun, hfinish⟩ := bind_ok h
  have hlast := Scope.Reaches.of_run hrun
  exact ⟨last, hlast, finish_ok (hlast.bounded (Nat.le_refl _)) hfinish⟩

end Emit

theorem FunctionDef.scope_ok {function : FunctionDef} {image : Image} {registry : Registry}
    {settings : Settings} {signature : Signature} {scope : Scope}
    (h : function.scope image registry settings signature = .ok scope) :
    Flow.analyze function = .ok scope.flow ∧
      function.registers.mapM (registry.mapType image) = .ok scope.registerTypes ∧
      scope.image = image ∧ scope.registry = registry ∧ scope.function = function ∧
      scope.signature = signature := by
  obtain ⟨flow, hflow, h⟩ := ok_of_bind h
  obtain ⟨types, htypes, h⟩ := ok_of_bind h
  dsimp only at h
  split at h
  · cases h
  · cases h
    exact ⟨hflow, htypes, rfl, rfl, rfl, rfl⟩

theorem FunctionDef.lower_ok {function : FunctionDef} {image : Image} {registry : Registry}
    {settings : Settings} {signature : Signature} {result : MethodBody × BodyStats}
    (h : function.lower image registry settings signature = .ok result) :
    ∃ scope final, function.scope image registry settings signature = .ok scope ∧
      Emit.body scope scope.begin = .ok result final := by
  obtain ⟨scope, hscope, h⟩ := ok_of_bind h
  cases hbody : Emit.body scope scope.begin with
  | error error final =>
      simp only [hbody] at h
      cases h
  | ok found final =>
      simp only [hbody] at h
      cases h
      exact ⟨scope, final, hscope, hbody⟩

end BytecodeLowering

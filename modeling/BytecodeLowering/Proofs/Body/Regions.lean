import BytecodeLowering.Lower.Program
import BytecodeLowering.Proofs.Body.Run

/-!
# Protected regions of lowered bodies

The parts of a body nest like the traps of its source, and control leaves a part
only by a leave instruction: neither by a return, nor by a branch, nor by going
on past the end of the part.
-/

namespace BytecodeLowering

open BytecodeLowering.Flow (nestingAt)

/-! ## One instruction -/

/-- The traps that are open while the instruction at a position is lowered are
those that are open in the source. -/
structure Progress.Follows (scope : Scope) (position : Nat) (progress : Progress) : Prop where
  starts : progress.traps.map (·.region.start) = Flow.openAt scope.function.operations position
  regions : ∀ frame ∈ progress.traps, frame.region ∈ scope.flow.regions

section Instruction

variable {typed : Prop} {scope : Scope} {position : Nat} {before after : Progress}
  {code : List Instr}

theorem Progress.Follows.keeps (h : before.Follows scope position)
    (hflow : Flow.analyze scope.function = .ok scope.flow) {target : Nat}
    (htarget : target < scope.function.operations.length) (hstays : before.Stays target) :
    Block.Keeps scope.function.operations (nestingAt scope.function.operations position)
      target := by
  refine ⟨htarget, ?_⟩
  intro part hpart
  unfold nestingAt at hpart
  rw [← h.starts, List.map_map, List.head?_map, Option.mem_def, Option.map_eq_some_iff] at hpart
  obtain ⟨frame, hframe, rfl⟩ := hpart
  have hopen := Flow.start_mem_openAt hflow (h.regions frame (List.mem_of_mem_head? hframe))
    (hstays frame hframe) (Nat.le_of_lt htarget)
  exact List.mem_map_of_mem hopen

theorem Progress.Follows.parts_eq_nil (h : before.Follows scope position)
    (hclosed : before.traps = []) :
    (nestingAt scope.function.operations position).parts = [] := by
  have hopen := h.starts
  rw [hclosed, List.map_nil] at hopen
  simp [nestingAt, ← hopen]

theorem block_closeTrap {operations : List Operation} {module : TargetModule}
    {nesting : Nesting} {start first target next depth depth' : Nat} {outer : List Part}
    {store : List Instr} (hparts : nesting.parts = ⟨start, false⟩ :: outer)
    (hstore : Fragment typed module (first + 1) depth store depth' next)
    (hfirst : operations.length ≤ first) :
    Block operations first nesting ([Instr.leave first, .beginCatch .any] ++ store
      ++ [Instr.leave target, .endTry, .markLabel first])
      { nesting with parts := nesting.parts.tail } next := by
  have hin : Block operations (first + 1) nesting [.leave first, .beginCatch .any]
      { nesting with parts := ⟨start, true⟩ :: outer } (first + 1) := by
    refine .of_bounds ?_ (sealed_leave _ _) (by simp [Instr.isLeave, Instr.boundsPart])
    simp [Nesting.run?, Nesting.step?, hparts]
  have hout : Block operations next { nesting with parts := ⟨start, true⟩ :: outer }
      [.leave target, .endTry] { nesting with parts := nesting.parts.tail } next := by
    refine .of_bounds ?_ (sealed_leave _ _) (by simp [Instr.isLeave, Instr.boundsPart])
    simp [Nesting.run?, Nesting.step?, hparts]
  have hnext := hstore.first_le
  have hwhole := (hin.append (.of_fragment hstore) (by omega)).append hout (by omega)
  have hfresh : .markLabel first ∉
      [Instr.leave first, .beginCatch .any] ++ store ++ [Instr.leave target, .endTry] := by
    intro hmark
    have hown := hstore.mark_range (by simpa using hmark)
    exact absurd hown.1 (Nat.not_succ_le_self _)
  simpa using hwhole.weaken.mark_later ⟨Nat.le_refl _, hnext⟩ hfresh

variable (hposition : position < scope.function.operations.length)

include hposition

theorem Lowered.follows (h : before.Follows scope position) (hbefore : before.position = position)
    (hlowered : Lowered typed scope scope.function.operations[position] before after code) :
    after.Follows scope (position + 1) := by
  have hopen := Flow.openAt_succ hposition
  cases hlowered.trapStep with
  | keeps hopcode htraps =>
      rw [Flow.openStep_other hopcode] at hopen
      exact ⟨by rw [htraps, hopen, h.starts], by rw [htraps]; exact h.regions⟩
  | opens hopcode hregion _ htraps =>
      rw [Flow.openStep_trap hopcode] at hopen
      have hstart := List.find?_some hregion
      refine ⟨?_, ?_⟩
      · rw [htraps, List.map_cons, h.starts, hopen, beq_iff_eq.mp hstart, hbefore]
      · intro frame hframe
        rw [htraps] at hframe
        rcases List.mem_cons.mp hframe with rfl | hframe
        · exact List.mem_of_find?_eq_some hregion
        · exact h.regions frame hframe
  | closes hopcode htraps =>
      rw [Flow.openStep_endTrap hopcode, ← h.starts, htraps] at hopen
      refine ⟨hopen.symm, ?_⟩
      intro frame hframe
      exact h.regions frame (by rw [htraps]; exact List.mem_cons_of_mem _ hframe)

theorem Lowered.block (h : before.Follows scope position)
    (hflow : Flow.analyze scope.function = .ok scope.flow)
    (hlabels : scope.function.operations.length ≤ before.builder.labels.length)
    (hlowered : Lowered typed scope scope.function.operations[position] before after code) :
    Block scope.function.operations before.builder.labels.length
      (nestingAt scope.function.operations position) code
      (nestingAt scope.function.operations (position + 1)) after.builder.labels.length := by
  have hkeeps {target : Nat} (htarget : target < scope.function.operations.length)
      (hstays : before.Stays target) := h.keeps hflow htarget hstays
  cases hlowered with
  | straight hstands hcode =>
      rw [Flow.nestingAt_other hposition hstands.opcode]
      exact .of_fragment hcode
  | thrown hstands hcode =>
      rw [Flow.nestingAt_other hposition hstands.opcode]
      refine .of_fragment_append hcode (Nat.le_refl _) ?_ hlabels
      simp [Instr.Confined, Instr.targets]
  | check hstands hload hmake =>
      rw [Flow.nestingAt_other hposition hstands.opcode]
      have hlow := hload.first_le
      have hhigh := hmake.first_le
      exact .of_confined (by omega) (confined_check hload hmake)
  | jump hstands hsame htarget hstays =>
      rw [Flow.nestingAt_other hposition hstands.opcode]
      refine .of_confined (Nat.le_of_eq hsame.symm) ?_
      simp [Instr.Confined, Instr.targets, hkeeps htarget hstays]
  | leave hstands hsame =>
      rw [Flow.nestingAt_other hposition hstands.opcode]
      exact .of_confined (Nat.le_of_eq hsame.symm) (by simp [Instr.Confined])
  | test hstands hmake hload htarget hstays =>
      rw [Flow.nestingAt_other hposition hstands.opcode]
      refine .of_fragment_append hload (Nat.le_refl _) ?_ hlabels
      cases hmake <;>
        simp [Instr.Confined, Instr.targets, hkeeps htarget hstays]
  | testOut hstands hmake hload hsame htarget =>
      rw [Flow.nestingAt_other hposition hstands.opcode, hsame]
      refine .of_fragment_append hload (Nat.le_add_right _ _) ?_ hlabels
      cases hmake <;> simp [Instr.Confined, Instr.targets]
  | table hstands hload hmiddle hentries =>
      rw [Flow.nestingAt_other hposition hstands.opcode]
      refine .of_fragment_append hload hmiddle ?_ hlabels
      intro instr hinstr
      rw [List.mem_singleton.mp hinstr]
      intro label hlabel
      exact Or.inl (hkeeps (hentries label hlabel).1 (hentries label hlabel).2)
  | @tableOut load labels exits middle skip hstands hload hmiddle hskip hentries hexits =>
      rw [Flow.nestingAt_other hposition hstands.opcode, hskip]
      have htable := confined_tableOut
        (fun label hlabel => (hentries label hlabel).imp_left fun hstays =>
          hkeeps hstays.1 hstays.2) hmiddle
        fun exit hexit => ⟨(hexits exit hexit).1, (hexits exit hexit).2.1⟩
      simpa using Block.of_fragment_append hload (Nat.le_succ_of_le hmiddle) htable hlabels
  | ret hstands hclosed hload =>
      rw [Flow.nestingAt_other hposition hstands.opcode]
      exact (Block.of_fragment hload).append (.of_ret (h.parts_eq_nil hclosed)) hlabels
  | exit hopcode htraps hload hexit hsame =>
      rw [Flow.nestingAt_other hposition (by simp [hopcode]), List.append_assoc]
      refine .of_fragment_append hload (by omega) ?_ hlabels
      simp only [List.forall_mem_append, List.forall_mem_map]
      simp [Instr.Confined, Instr.targets]
  | openTrap hopcode _ _ _ _ hsame =>
      rw [hsame]
      refine .of_bounds ?_ (sealed_of_open (by simp [Instr.endsPart])) (by simp [Instr.boundsPart])
      simp only [Nesting.run?, Flow.nestingAt_trap hposition hopcode]
  | @closeTrap frame store hopcode htraps _ hstore =>
      have hopen := h.starts
      rw [htraps, List.map_cons] at hopen
      obtain ⟨block, outer, hparts⟩ : ∃ block outer,
          (nestingAt scope.function.operations position).parts = ⟨block, false⟩ :: outer := by
        simp [nestingAt, ← hopen]
      rw [Flow.nestingAt_endTrap hposition hopcode]
      exact block_closeTrap hparts hstore hlabels

end Instruction

/-! ## The run -/

structure Progress.Regular (scope : Scope) (position : Nat) (progress : Progress) : Prop
    extends progress.Follows scope position where
  block : Block scope.function.operations scope.function.operations.length {}
    progress.builder.body (nestingAt scope.function.operations position)
    progress.builder.labels.length
  marked : ∀ label, progress.builder.isMarked label = true →
    .markLabel label ∈ progress.builder.body
  exit : ∀ exit, progress.returnExit = some exit →
    (scope.function.operations.length ≤ exit.label ∧
      exit.label < progress.builder.labels.length) ∧
    .markLabel exit.label ∉ progress.builder.body

section Run

variable {typed : Prop} {scope : Scope} {position : Nat} {before after : Progress}

theorem Scope.begin_regular (scope : Scope) : scope.begin.Regular scope 0 := by
  refine ⟨⟨rfl, nofun⟩, ?_, ?_, nofun⟩
  · refine ⟨?_, rfl, sealed_of_open nofun, nofun, nofun, nofun⟩
    simp [Scope.begin]
  · intro label hmarked
    simp only [Scope.begin, BodyBuilder.isMarked, List.getD_eq_getElem?_getD, List.getElem?_map]
      at hmarked
    cases hop : scope.function.operations[label]? with
    | none => simp [hop] at hmarked
    | some op => simp [hop] at hmarked

theorem Progress.Regular.extend {next : Nat} {code : List Instr}
    (h : before.Regular scope position) (hextends : before.Extends after code)
    (hfollows : after.Follows scope next)
    (hblock : Block scope.function.operations before.builder.labels.length
      (nestingAt scope.function.operations position) code
      (nestingAt scope.function.operations next) after.builder.labels.length)
    (hexit : ∀ exit, after.returnExit = some exit → before.returnExit = some exit ∨
      (before.builder.labels.length ≤ exit.label ∧ exit.label < after.builder.labels.length) ∧
        .markLabel exit.label ∉ code) :
    after.Regular scope next := by
  have hfirst := h.block.labels
  have hnext := hblock.labels
  refine ⟨hfollows, ?_, ?_, ?_⟩
  · rw [hextends.body]
    exact h.block.append hblock (Nat.le_refl _)
  · intro label hmarked
    rw [hextends.body, List.mem_append]
    exact ((hextends.marked label).mp hmarked).imp_left (h.marked label)
  · intro exit hfound
    rw [hextends.body, List.mem_append, not_or]
    rcases hexit exit hfound with hbefore | ⟨⟨hlow, hhigh⟩, hcode⟩
    · obtain ⟨⟨hlow, hhigh⟩, hbody⟩ := h.exit exit hbefore
      refine ⟨⟨hlow, Nat.lt_of_lt_of_le hhigh hnext⟩, hbody, ?_⟩
      intro hmark
      rcases hblock.mark_range hmark with hsource | hown
      · exact absurd hlow (Nat.not_le_of_lt hsource)
      · exact absurd hhigh (Nat.not_lt_of_le hown.1)
    · refine ⟨⟨Nat.le_trans hfirst hlow, hhigh⟩, ?_, hcode⟩
      intro hmark
      rcases h.block.mark_range hmark with hsource | hown
      · exact absurd (Nat.le_trans hfirst hlow) (Nat.not_le_of_lt hsource)
      · exact absurd hlow (Nat.not_le_of_lt hown.2)

theorem Progress.Regular.begun {start : Progress} {head : List Instr}
    (h : before.Regular scope position) (hposition : position < scope.function.operations.length)
    (hbegun : Emit.Begun scope position before start head) : start.Regular scope position := by
  obtain ⟨lines, hlines, hhead⟩ := hbegun.form
  have hblock : Block scope.function.operations before.builder.labels.length
      (nestingAt scope.function.operations position) lines
      (nestingAt scope.function.operations position) before.builder.labels.length := by
    refine .of_confined (Nat.le_refl _) ?_
    cases hlines <;> simp [Instr.Confined, Instr.targets]
  have hfresh : ∀ exit, start.returnExit = some exit → before.returnExit = some exit ∨
      (before.builder.labels.length ≤ exit.label ∧ exit.label < start.builder.labels.length) ∧
        .markLabel exit.label ∉ head :=
    fun exit hexit => Or.inl (by rw [← hbegun.exit, hexit])
  refine h.extend hbegun.toExtends ⟨?_, ?_⟩ ?_ hfresh
  · rw [hbegun.traps, h.starts]
  · rw [hbegun.traps]
    exact h.regions
  · rw [hbegun.labels]
    rcases hhead with ⟨-, rfl⟩ | ⟨-, rfl⟩
    · exact hblock
    · exact (Block.of_source hposition).append hblock h.block.labels

theorem Progress.Regular.step (h : before.Regular scope position)
    (hflow : Flow.analyze scope.function = .ok scope.flow)
    (hposition : position < scope.function.operations.length) {result : Unit}
    (hstep : Emit.instruction (scope.function.operations[position], position) scope before
      = .ok result after) : after.Regular scope (position + 1) := by
  obtain ⟨start, head, code, hbegun, hextends, hlowered⟩ :=
    Emit.instruction_ok (False.elim : False → scope.Sound) False.elim
      (Nat.lt_of_lt_of_le hposition h.block.labels) hstep
  have hstart := h.begun hposition hbegun
  exact hstart.extend hextends (hlowered.follows hposition hstart.toFollows hbegun.position)
    (hlowered.block hposition hstart.toFollows hflow hstart.block.labels)
    fun _ => hlowered.exit_fresh

theorem Scope.Reaches.regular (hflow : Flow.analyze scope.function = .ok scope.flow)
    (hposition : position ≤ scope.function.operations.length)
    (h : scope.Reaches position after) : after.Regular scope position := by
  induction position generalizing after with
  | zero =>
      cases h
      exact scope.begin_regular
  | succ position ih =>
      obtain ⟨before, hbefore, hstep⟩ := Scope.Reaches.succ hposition h
      exact (ih (by omega) hbefore).step hflow hposition hstep

end Run

/-! ## Whole bodies -/

theorem Progress.Regular.exitBlock {scope : Scope} {position : Nat} {last : Progress}
    (h : last.Regular scope position) (hclosed : last.traps = []) :
    Block scope.function.operations scope.function.operations.length {}
      (last.builder.body ++ Emit.exitBlock last.returnExit)
      (nestingAt scope.function.operations position) last.builder.labels.length := by
  cases hexit : last.returnExit with
  | none => simpa [Emit.exitBlock] using h.block
  | some exit =>
      have hret : Block scope.function.operations last.builder.labels.length
          (nestingAt scope.function.operations position) [.ret]
          (nestingAt scope.function.operations position) last.builder.labels.length :=
        .of_ret (h.parts_eq_nil hclosed)
      have hcode : Block scope.function.operations last.builder.labels.length
          (nestingAt scope.function.operations position) (Emit.exitCode exit)
          (nestingAt scope.function.operations position) last.builder.labels.length := by
        cases hslot : exit.slot with
        | none =>
            simp only [Emit.exitCode, hslot]
            exact hret
        | some slot =>
            simp only [Emit.exitCode, hslot]
            have hload : Block scope.function.operations last.builder.labels.length
                (nestingAt scope.function.operations position) [.ldLoc slot]
                (nestingAt scope.function.operations position) last.builder.labels.length :=
              .of_confined (Nat.le_refl _) (by simp [Instr.Confined, Instr.targets])
            exact hload.append hret h.block.labels
      obtain ⟨hrange, hfresh⟩ := h.exit exit hexit
      simpa [Emit.exitBlock] using (h.block.mark_later hrange hfresh).append hcode (Nat.le_refl _)

/-- What the blocks of a body have to do with the traps of its source, and how
control leaves them. -/
structure FunctionDef.Guards (function : FunctionDef) (body : List Instr) : Prop where
  /-- Blocks are well nested, with one catching part each, and there is one
  block per trap. -/
  nested : Nesting.run? {} body
    = some { parts := [], begun := Flow.trapCount function.operations }
  /-- No instruction returns from inside a block. -/
  ret : ∀ parts, (.ret, parts) ∈ Nesting.places {} body → parts = []
  /-- A branch inside a part goes to labels that are marked inside that part. -/
  branch : ∀ instr part outer, (instr, part :: outer) ∈ Nesting.places {} body →
    instr.isLeave = false → ∀ label ∈ instr.targets, .markLabel label ∈ body ∧
      ∀ inner, (.markLabel label, inner) ∈ Nesting.places {} body → part ∈ inner
  /-- Control does not go on past the end of a part. -/
  closed : Sealed body

theorem FunctionDef.guards_of_lower {function : FunctionDef} {image : Image}
    {registry : Registry} {settings : Settings} {signature : Signature} {body : MethodBody}
    {stats : BodyStats}
    (h : function.lower image registry settings signature = .ok (body, stats)) :
    function.Guards body.body := by
  obtain ⟨scope, final, hscope, hbody⟩ := FunctionDef.lower_ok h
  obtain ⟨hflow, -, -, -, rfl, -⟩ := FunctionDef.scope_ok hscope
  obtain ⟨last, hlast, hclosed, hcode, hmarked⟩ := Emit.body_ok hbody
  have hregular := hlast.regular hflow (Nat.le_refl _)
  have hblock := hregular.exitBlock hclosed
  rw [← hcode] at hblock
  refine ⟨?_, hblock.ret, ?_, hblock.closed⟩
  · rw [hblock.nested]
    have hparts := hregular.parts_eq_nil hclosed
    simp only [nestingAt, List.take_length] at hparts ⊢
    rw [hparts]
  · intro instr part outer hbranch hleave label hlabel
    rcases hblock.branch instr part outer hbranch hleave label hlabel with
      ⟨hsource, hpart⟩ | ⟨-, hown, hinner⟩
    · refine ⟨?_, ?_⟩
      · have hinstr := Nesting.mem_of_mem_places hbranch
        have htarget := hmarked label (List.mem_flatMap.mpr ⟨instr, hinstr, hlabel⟩)
        rw [hcode, List.mem_append]
        exact htarget.imp_left (hregular.marked label)
      · intro inner hmark
        rcases hblock.mark label inner hmark with ⟨-, rfl⟩ | ⟨hlow, -⟩
        · exact hpart
        · exact absurd hlow (Nat.not_le_of_lt hsource)
    · exact ⟨hown, hinner⟩

def nestedTraps : FunctionDef where
  index := 0
  type := 3
  registers := [1, 2]
  operations := [⟨.trap, [1, 5]⟩, ⟨.trap, [1, 4]⟩, ⟨.jSLt, [0, 0, 4]⟩, ⟨.ret, [0]⟩,
    ⟨.endTrap, [1]⟩, ⟨.endTrap, [1]⟩, ⟨.ret, [0]⟩, ⟨.ret, [0]⟩]
  lines := none
  names := []

def nestedTrapsImage : Image where
  version := 4
  types := [.void, .i32, .null 1, .func ⟨[], 1⟩]
  functions := [nestedTraps]
  functionTable := FunctionTable.build [0] []

theorem nestedTraps_lower_ok :
    ∃ result, nestedTraps.lower nestedTrapsImage (nestedTrapsImage.registry {}) {} ⟨[], .i32⟩
      = .ok result :=
  ok_of_isOk (by decide +kernel)

theorem guards_of_lower_nestedTraps :
    ∃ body stats,
      nestedTraps.lower nestedTrapsImage (nestedTrapsImage.registry {}) {} ⟨[], .i32⟩
        = .ok (body, stats) ∧ nestedTraps.Guards body.body := by
  obtain ⟨result, hlower⟩ := nestedTraps_lower_ok
  exact ⟨result.1, result.2, hlower, FunctionDef.guards_of_lower hlower⟩

end BytecodeLowering

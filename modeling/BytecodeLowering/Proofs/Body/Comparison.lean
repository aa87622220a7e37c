import BytecodeLowering.Proofs.Body.BranchTargets
import BytecodeLowering.Proofs.Body.Steady
import Mathlib.Data.List.Induction

/-!
# Two lowerings of one function

Two lowerings of one function in different surroundings pass through its
instructions together: behind the label and the source position of an
instruction they lay the same code, the second one without some of the casts,
and when one fails so does the other.
-/

namespace BytecodeLowering

/-! ## The start of an instruction -/

namespace Emit

def pointCode (line last : Option SourceLine) : List Instr :=
  match line with
  | some line => if last ≠ some line then [.sequencePoint line.file line.line] else []
  | none => []

end Emit

/-- What stands in front of the code of an instruction: its label, if it is
jumped to, and its source position, unless that was told last. -/
def Scope.headAfter (scope : Scope) (position : Nat) (last : Option SourceLine) : List Instr :=
  (if scope.flow.isTarget position then [.markLabel position] else [])
    ++ Emit.pointCode (Emit.sourceLine? scope position) last

def Scope.started (scope : Scope) (position : Nat) (opcode : Opcode) (before : Progress) :
    Progress :=
  { before with
    builder := { before.builder with
      body := before.builder.body ++ scope.headAfter position before.lastLine
      labels := if scope.flow.isTarget position then before.builder.labels.set position true
        else before.builder.labels }
    position
    opcode
    lastLine := (Emit.sourceLine? scope position).or before.lastLine }

namespace Emit

theorem sequencePoint_run (scope : Scope) (before : Progress) :
    sequencePoint scope before = .ok () { before with
      builder := { before.builder with
        body := before.builder.body
          ++ pointCode (sourceLine? scope before.position) before.lastLine }
      lastLine := (sourceLine? scope before.position).or before.lastLine } := by
  unfold sequencePoint
  rw [bind_of_ok (show (get : Emit Progress) scope before = .ok before before from rfl),
    bind_of_ok (show (read : Emit Scope) scope before = .ok scope before from rfl)]
  dsimp only
  cases hline : sourceLine? scope before.position with
  | none =>
      simp only [pointCode, List.append_nil]
      rfl
  | some line =>
      dsimp only [pointCode]
      by_cases hlast : before.lastLine = some line
      · have hsame : (some line).or before.lastLine = before.lastLine := by
          rw [hlast]
          rfl
        rw [if_neg (· hlast), if_neg (· hlast), hsame, List.append_nil]
        rfl
      · rw [if_pos hlast, if_pos hlast]
        rfl

theorem begin_run (scope : Scope) (position : Nat) (opcode : Opcode) (before : Progress) :
    begin position opcode scope before = .ok () (scope.started position opcode before) := by
  change (if scope.flow.isTarget position then mark position >>= fun _ => sequencePoint
    else sequencePoint : Emit Unit) scope { before with position, opcode } = _
  unfold Scope.started Scope.headAfter
  by_cases htarget : scope.flow.isTarget position = true
  · simp only [if_pos htarget]
    change sequencePoint scope _ = _
    rw [sequencePoint_run, ← List.append_assoc]
    rfl
  · simp only [if_neg htarget, List.nil_append]
    exact sequencePoint_run scope _

theorem instruction_run (scope : Scope) (op : Operation) (position : Nat) (before : Progress) :
    instruction (op, position) scope before
      = operation op scope (scope.started position op.opcode before) :=
  bind_of_ok (begin_run scope position op.opcode before)

end Emit

namespace Scope

variable {scope : Scope} {other : Surroundings}

def lineBefore (scope : Scope) : Nat → Option SourceLine
  | 0 => none
  | position + 1 => (Emit.sourceLine? scope position).or (scope.lineBefore position)

def head (scope : Scope) (position : Nat) : List Instr :=
  scope.headAfter position (scope.lineBefore position)

theorem head_within (h : other.settings.emitSequencePoints = scope.settings.emitSequencePoints) :
    (scope.within other).head = scope.head := by
  have hline (position : Nat) :
      Emit.sourceLine? (scope.within other) position = Emit.sourceLine? scope position := by
    unfold Emit.sourceLine?
    rw [show (scope.within other).settings.emitSequencePoints = _ from h]
    rfl
  have hbefore (position : Nat) :
      (scope.within other).lineBefore position = scope.lineBefore position := by
    induction position with
    | zero => rfl
    | succ position ih => rw [lineBefore, lineBefore, hline, ih]
  funext position
  rw [head, head, headAfter, headAfter, hbefore, hline]
  rfl

/-- Codes of instructions, each behind its head. -/
def laid (scope : Scope) (codes : List (List Instr)) : List Instr :=
  (codes.mapIdx fun position code => scope.head position ++ code).flatten

theorem laid_concat (scope : Scope) (codes : List (List Instr)) (code : List Instr) :
    scope.laid (codes ++ [code]) = scope.laid codes ++ (scope.head codes.length ++ code) := by
  rw [laid, List.mapIdx_concat, List.flatten_append, List.flatten_singleton]
  rfl

/-! ## Runs up to a position -/

def runTo (scope : Scope) (position : Nat) : EStateM.Result LoweringError Progress PUnit :=
  (scope.function.operations.zipIdx.take position).forM Emit.instruction scope scope.begin

section RunTo

variable {position : Nat} {op : Operation} {error : LoweringError} {before final : Progress}

theorem runTo_succ (hop : scope.function.operations[position]? = some op) :
    scope.runTo (position + 1)
      = ((scope.function.operations.zipIdx.take position).forM Emit.instruction
          >>= fun _ => Emit.instruction (op, position)) scope scope.begin := by
  have hitem : scope.function.operations.zipIdx[position]? = some (op, position) := by
    rw [List.getElem?_zipIdx, hop, Option.map_some, Nat.zero_add]
  have hone : [(op, position)].forM Emit.instruction = Emit.instruction (op, position) :=
    bind_pure_unit
  rw [runTo, List.take_add_one, hitem, Option.toList_some, ← hone]
  exact congrFun (congrFun List.forM_append scope) scope.begin

theorem runTo_succ_of_ok (hop : scope.function.operations[position]? = some op)
    (h : scope.runTo position = .ok ⟨⟩ before) :
    scope.runTo (position + 1) = Emit.instruction (op, position) scope before :=
  (runTo_succ hop).trans (Emit.bind_of_ok h)

theorem runTo_of_error {later : Nat} (hlater : position ≤ later)
    (hlength : later ≤ scope.function.operations.length)
    (h : scope.runTo position = .error error final) :
    scope.runTo later = .error error final := by
  obtain ⟨more, rfl⟩ := Nat.exists_eq_add_of_le hlater
  clear hlater
  induction more with
  | zero => exact h
  | succ more ih =>
      exact (runTo_succ (List.getElem?_eq_getElem hlength)).trans
        (Emit.bind_of_error (ih (Nat.le_of_lt hlength)))

theorem body_of_ok (h : scope.runTo scope.function.operations.length = .ok ⟨⟩ before) :
    Emit.body scope scope.begin = Emit.finish scope before := by
  rw [runTo, List.take_of_length_le (by simp)] at h
  exact Emit.bind_of_ok h

theorem body_of_error (h : scope.runTo scope.function.operations.length = .error error final) :
    Emit.body scope scope.begin = .error error final := by
  rw [runTo, List.take_of_length_le (by simp)] at h
  change (scope.function.operations.zipIdx.forM Emit.instruction
    >>= fun _ => Emit.finish) scope _ = _
  exact Emit.bind_of_error h

end RunTo

/-! ## Two runs -/

def withCastsAt (casts : Nat → Bool) (codes : List (List Instr)) : List (List Instr) :=
  codes.mapIdx fun position code => withCasts (casts position) code

theorem withCastsAt_concat (casts : Nat → Bool) (codes : List (List Instr)) (code : List Instr) :
    withCastsAt casts (codes ++ [code])
      = withCastsAt casts codes ++ [withCasts (casts codes.length) code] :=
  List.mapIdx_concat

theorem withCastsAt_true (codes : List (List Instr)) :
    withCastsAt (fun _ => true) codes = codes := by
  refine List.ext_getElem? fun position => ?_
  rw [withCastsAt, List.getElem?_mapIdx]
  simp only [withCasts_true, Option.map_id']

theorem length_withCastsAt (casts : Nat → Bool) (codes : List (List Instr)) :
    (withCastsAt casts codes).length = codes.length :=
  List.length_mapIdx

def gapsBefore (scope : Scope) (position : Nat) : Nat :=
  (scope.function.operations.take position).countP (·.opcode.isGap)

theorem gapsBefore_succ {position : Nat} {op : Operation}
    (hop : scope.function.operations[position]? = some op) :
    scope.gapsBefore (position + 1)
      = scope.gapsBefore position + if op.opcode.isGap then 1 else 0 := by
  rw [gapsBefore, List.take_add_one, hop, Option.toList_some, List.countP_append,
    List.countP_singleton]
  rfl

/-- Two runs that have come to one position: the same state but for the code,
which they have laid instruction by instruction. -/
structure Paired (scope : Scope) (other : Surroundings) (casts : Nat → Bool) (position : Nat)
    (codes : List (List Instr)) (progress : Progress) (opcode : Opcode) : Prop where
  reached : scope.Reaches position progress
  reached' : (scope.within other).Reaches position
    (progress.recast ((scope.within other).laid (withCastsAt casts codes))
      ((scope.within other).lineBefore position) opcode)
  body : progress.builder.body = scope.laid codes
  line : progress.lastLine = scope.lineBefore position
  opcode : other.operations = scope.function.operations → opcode = progress.opcode
  gaps : progress.stats.gaps = scope.gapsBefore position
  length : codes.length = position
  points : ∀ code ∈ codes, ∀ instr ∈ code, instr.isPoint = false
  lowers : ∀ i code, codes[i]? = some code → scope.Lowers i (scope.head i ++ code) ∧
    (scope.within other).Lowers i ((scope.within other).head i ++ withCasts (casts i) code)

def Pairs (scope : Scope) (other : Surroundings) (casts : Nat → Bool) (position : Nat) : Prop :=
  ∀ op op', scope.function.operations[position]? = some op →
    other.operations[position]? = some op' →
      Emit.Tandem (casts position) scope (scope.within other) (Emit.operation op)
        (Emit.operation op') (if op.opcode.isGap then 1 else 0)

theorem Pairs.of_same {casts : Nat → Bool} {position : Nat}
    (hsame : other.operations = scope.function.operations)
    (h : ∀ op, scope.function.operations[position]? = some op →
      Emit.Tandem (casts position) scope (scope.within other) (Emit.operation op)
        (Emit.operation op) (if op.opcode.isGap then 1 else 0)) :
    scope.Pairs other casts position := by
  intro op op' hop hop'
  rw [hsame, hop] at hop'
  cases hop'
  exact h op hop

def BothFail (scope : Scope) (other : Surroundings)
    (run run' : EStateM.Result LoweringError Progress α) : Prop :=
  ∃ error error' final final', run = .error error final ∧ run' = .error error' final' ∧
    (other.operations = scope.function.operations → error' = error)

theorem begin_paired (scope : Scope) (other : Surroundings)
    (hlength : other.operations.length = scope.function.operations.length)
    (casts : Nat → Bool) : scope.Paired other casts 0 [] scope.begin .nop := by
  have hbegin : (scope.within other).begin = scope.begin.recast [] none .nop := by
    have hlabels : other.operations.map (fun _ => false)
        = scope.function.operations.map fun _ => false := by
      rw [List.map_const', List.map_const', hlength]
    change ({ builder := { locals := _, labels := other.operations.map fun _ => false } } :
      Progress) = _
    rw [hlabels]
    rfl
  refine ⟨rfl, ?_, rfl, rfl, fun _ => rfl, rfl, rfl, nofun, nofun⟩
  exact congrArg _ hbegin

section Paired

variable {casts : Nat → Bool} {position : Nat} {codes : List (List Instr)} {progress : Progress}
  {opcode : Opcode} {op op' : Operation}

theorem Paired.step (h : scope.Paired other casts position codes progress opcode)
    (hop : scope.function.operations[position]? = some op)
    (hop' : other.operations[position]? = some op') (hpairs : scope.Pairs other casts position) :
    (∃ code after, scope.Paired other casts (position + 1) (codes ++ [code]) after op'.opcode) ∨
      scope.BothFail other (scope.runTo (position + 1))
        ((scope.within other).runTo (position + 1)) := by
  have hop'' : (scope.within other).function.operations[position]? = some op' := hop'
  have hrun := runTo_succ_of_ok hop h.reached
  have hrun' := runTo_succ_of_ok hop'' h.reached'
  rw [Emit.instruction_run] at hrun hrun'
  have houtcome := hpairs op op' hop hop' (scope.started position op.opcode progress)
    ((scope.within other).laid (withCastsAt casts codes)
      ++ (scope.within other).head position)
    ((scope.within other).lineBefore (position + 1)) op'.opcode
  rcases houtcome.cases with
    ⟨⟨⟩, after, code, hok, hok', hgains⟩ | ⟨error, error', final, final', hfail, hfail', herror⟩
  · have hreached : scope.Reaches (position + 1) after := hrun.trans hok
    have hreached' := hrun'.trans hok'
    have hbody : after.builder.body = progress.builder.body ++ (scope.head position ++ code) := by
      rw [hgains.body, head, ← h.line, ← List.append_assoc]
      rfl
    have hlaid' : (scope.within other).laid (withCastsAt casts (codes ++ [code]))
        = (scope.within other).laid (withCastsAt casts codes)
          ++ ((scope.within other).head position ++ withCasts (casts position) code) := by
      rw [withCastsAt_concat, laid_concat, length_withCastsAt, h.length]
    rw [List.append_assoc, ← hlaid'] at hreached'
    refine Or.inl ⟨code, after, hreached, hreached', ?_, ?_, ?_, ?_, ?_, ?_, ?_⟩
    · rw [hbody, laid_concat, h.body, h.length]
    · rw [hgains.line, lineBefore, ← h.line]
      rfl
    · intro hsame
      rw [hsame, hop] at hop'
      cases hop'
      exact hgains.opcode.symm
    · rw [hgains.gaps, gapsBefore_succ hop, ← h.gaps]
      rfl
    · rw [List.length_append, h.length, List.length_singleton]
    · exact List.forall_mem_append.mpr ⟨h.points, List.forall_mem_singleton.mpr hgains.points⟩
    · intro i found hfound
      rcases getElem?_concat_cases hfound with hearlier | ⟨rfl, rfl⟩
      · exact h.lowers i found hearlier
      · rw [h.length]
        exact ⟨⟨progress, after, h.reached, hreached, hbody⟩,
          ⟨_, _, h.reached', hreached', hlaid'⟩⟩
  · refine Or.inr ⟨error, error', final, final', hrun.trans hfail, hrun'.trans hfail', ?_⟩
    intro hsame
    rw [hsame, hop] at hop'
    cases hop'
    exact herror rfl

/-- The two runs pass the instructions together, or they fail. -/
theorem paired (hlength : other.operations.length = scope.function.operations.length)
    (hposition : position ≤ scope.function.operations.length)
    (hpairs : ∀ earlier < position, scope.Pairs other casts earlier) :
    (∃ codes progress opcode, scope.Paired other casts position codes progress opcode) ∨
      scope.BothFail other (scope.runTo position) ((scope.within other).runTo position) := by
  induction position with
  | zero => exact Or.inl ⟨[], scope.begin, .nop, begin_paired scope other hlength casts⟩
  | succ position ih =>
      have hposition' : position < (scope.within other).function.operations.length :=
        Nat.lt_of_lt_of_eq hposition hlength.symm
      rcases ih (Nat.le_of_lt hposition) fun earlier hearlier =>
          hpairs earlier (Nat.lt_succ_of_lt hearlier) with
        ⟨codes, progress, opcode, h⟩ | ⟨error, error', final, final', hfail, hfail', herror⟩
      · rcases h.step (List.getElem?_eq_getElem hposition) (List.getElem?_eq_getElem hposition')
          (hpairs position (Nat.lt_succ_self position)) with ⟨code, after, hnext⟩ | hfail
        · exact Or.inl ⟨_, after, _, hnext⟩
        · exact Or.inr hfail
      · refine Or.inr ⟨error, error', final, final', ?_, ?_, herror⟩
        · exact runTo_of_error (Nat.le_succ position) hposition hfail
        · exact runTo_of_error (Nat.le_succ position) hposition' hfail'

end Paired

/-! ## The end of a body -/

theorem targets_head (scope : Scope) (position : Nat) :
    (scope.head position).flatMap Instr.targets = [] := by
  have hpoint (line last : Option SourceLine) :
      (Emit.pointCode line last).flatMap Instr.targets = [] := by
    unfold Emit.pointCode
    split
    · split <;> rfl
    · rfl
  rw [head, headAfter, List.flatMap_append, hpoint, List.append_nil]
  split <;> rfl

theorem targets_withCasts (casts : Bool) (code : List Instr) :
    (withCasts casts code).flatMap Instr.targets = code.flatMap Instr.targets := by
  induction code with
  | nil => rfl
  | cons instr code ih =>
      have hcons : withCasts casts (instr :: code) = if casts || !instr.isCast
          then instr :: withCasts casts code else withCasts casts code := List.filter_cons
      rw [hcons, List.flatMap_cons, ← ih]
      split
      · rw [List.flatMap_cons]
      · rename_i hcast
        have hnone : instr.targets = [] := by
          unfold Instr.isCast at hcast
          split at hcast
          · rfl
          · simp at hcast
        rw [hnone, List.nil_append]

theorem targets_laid (scope : Scope) (other : Surroundings) (casts : Nat → Bool)
    (codes : List (List Instr)) :
    ((scope.within other).laid (withCastsAt casts codes)).flatMap Instr.targets
      = (scope.laid codes).flatMap Instr.targets := by
  induction codes using List.reverseRecOn with
  | nil => rfl
  | append_singleton codes code ih =>
      rw [withCastsAt_concat, laid_concat, laid_concat]
      simp only [List.flatMap_append, targets_head, targets_withCasts, ih]

end Scope

namespace Emit

section Finish

variable {scope : Scope} {before after : Progress}

theorem finish_of_open (h : 0 < before.traps.length) :
    finish scope before = .error (.unsupportedOperand ⟨scope.function.index, before.position⟩
      before.opcode s!"{before.traps.length} unclosed trap region(s)") before := by
  unfold finish
  rw [bind_of_ok (show (get : Emit Progress) scope before = .ok before before from rfl)]
  dsimp only
  rw [if_pos h]
  rfl

theorem finish_of_closed (h : ¬ 0 < before.traps.length)
    (hclose : closeExit scope before = .ok () after) :
    finish scope before = match after.builder.finish with
      | .error label =>
          .error (.invalidBranchTarget ⟨scope.function.index, after.position⟩ label) after
      | .ok body => .ok (body, { after.stats with instructions := body.body.length }) after := by
  unfold finish
  rw [bind_of_ok (show (get : Emit Progress) scope before = .ok before before from rfl)]
  dsimp only
  rw [if_neg h, bind_of_ok hclose,
    bind_of_ok (show (get : Emit Progress) scope after = .ok after after from rfl)]
  cases after.builder.finish <;> rfl

theorem finish_of_closeExit_error {error : LoweringError} (h : ¬ 0 < before.traps.length)
    (hclose : closeExit scope before = .error error after) :
    finish scope before = .error error after := by
  unfold finish
  rw [bind_of_ok (show (get : Emit Progress) scope before = .ok before before from rfl)]
  dsimp only
  rw [if_neg h, bind_of_error hclose]

end Finish

end Emit

theorem BodyBuilder.unmarked?_body {builder : BodyBuilder} {body : List Instr}
    (h : body.flatMap Instr.targets = builder.body.flatMap Instr.targets) :
    ({ builder with body } : BodyBuilder).unmarked? = builder.unmarked? := by
  unfold unmarked?
  rw [h]
  rfl

namespace Scope

/-- The bodies of two lowerings, instruction by instruction.  They differ in the
heads of the instructions, in casts and in their length. -/
structure Twins (scope : Scope) (other : Surroundings) (casts : Nat → Bool)
    (codes : List (List Instr)) (exit : List Instr) (result result' : MethodBody × BodyStats) :
    Prop where
  body : result.1.body = scope.laid codes ++ exit
  body' : result'.1.body = (scope.within other).laid (withCastsAt casts codes) ++ exit
  locals : result'.1.locals = result.1.locals
  instructions : result.2.instructions = result.1.body.length
  instructions' : result'.2.instructions = result'.1.body.length
  bridges : result'.2.bridges = result.2.bridges
  gaps : result.2.gaps = scope.gapsBefore scope.function.operations.length
  gaps' : result'.2.gaps = result.2.gaps
  length : codes.length = scope.function.operations.length
  points : ∀ code ∈ codes, ∀ instr ∈ code, instr.isPoint = false
  exitPoints : ∀ instr ∈ exit, instr.isPoint = false
  lowers : ∀ i code, codes[i]? = some code → scope.Lowers i (scope.head i ++ code) ∧
    (scope.within other).Lowers i ((scope.within other).head i ++ withCasts (casts i) code)

theorem Twins.same {scope : Scope} {other : Surroundings} {codes : List (List Instr)}
    {exit : List Instr} {result result' : MethodBody × BodyStats}
    (h : scope.Twins other (fun _ => true) codes exit result result')
    (hpoints : other.settings.emitSequencePoints = scope.settings.emitSequencePoints) :
    result' = result := by
  have hbody : result'.1.body = result.1.body := by
    rw [h.body', h.body, withCastsAt_true, laid, laid, head_within hpoints]
  have hinstructions : result'.2.instructions = result.2.instructions := by
    rw [h.instructions', h.instructions, hbody]
  obtain ⟨⟨body, locals⟩, ⟨instructions, bridges, gaps⟩⟩ := result
  obtain ⟨⟨body', locals'⟩, ⟨instructions', bridges', gaps'⟩⟩ := result'
  cases hbody
  cases h.locals
  cases hinstructions
  cases h.bridges
  cases h.gaps'
  rfl

theorem Paired.finish {scope : Scope} {other : Surroundings} {casts : Nat → Bool}
    {codes : List (List Instr)} {progress : Progress} {opcode : Opcode}
    (h : scope.Paired other casts scope.function.operations.length codes progress opcode) :
    (∃ exit result result' final final', Emit.finish scope progress = .ok result final ∧
      Emit.finish (scope.within other) (progress.recast
        ((scope.within other).laid (withCastsAt casts codes))
        ((scope.within other).lineBefore scope.function.operations.length) opcode)
          = .ok result' final' ∧
      scope.Twins other casts codes exit result result') ∨
    scope.BothFail other (Emit.finish scope progress)
      (Emit.finish (scope.within other) (progress.recast
        ((scope.within other).laid (withCastsAt casts codes))
        ((scope.within other).lineBefore scope.function.operations.length) opcode)) := by
  generalize hlaid : (scope.within other).laid (withCastsAt casts codes) = laid
  generalize (scope.within other).lineBefore _ = line
  by_cases hopen : 0 < progress.traps.length
  · have hopen' : 0 < (progress.recast laid line opcode).traps.length := hopen
    refine Or.inr ⟨_, _, _, _, Emit.finish_of_open hopen, Emit.finish_of_open hopen', ?_⟩
    intro hsame
    rw [h.opcode hsame]
    rfl
  · have hopen' : ¬ 0 < (progress.recast laid line opcode).traps.length := hopen
    have hclose : Emit.Steady scope other Emit.closeExit := Emit.steady_closeExit
    rcases (hclose progress laid line opcode).cases with
      ⟨⟨⟩, after, exit, hok, hok', hgains⟩ | ⟨error, error', final, final', hfail, hfail', herror⟩
    · rw [withCasts_true] at hok'
      rw [Emit.finish_of_closed hopen hok, Emit.finish_of_closed hopen' hok']
      have htargets : (laid ++ exit).flatMap Instr.targets
          = after.builder.body.flatMap Instr.targets := by
        rw [hgains.body, h.body, List.flatMap_append, List.flatMap_append, ← hlaid, targets_laid]
      have hunmarked : (after.recast (laid ++ exit) line opcode).builder.unmarked?
          = after.builder.unmarked? := BodyBuilder.unmarked?_body htargets
      unfold BodyBuilder.finish
      rw [hunmarked]
      cases after.builder.unmarked? with
      | some label => exact Or.inr ⟨_, _, _, _, rfl, rfl, fun _ => rfl⟩
      | none =>
          refine Or.inl ⟨exit, _, _, _, _, rfl, rfl, ?_, ?_, rfl, rfl, rfl, rfl, ?_, rfl, h.length,
            h.points, hgains.points, h.lowers⟩
          · rw [← h.body]
            exact hgains.body
          · rw [hlaid]
            rfl
          · exact hgains.gaps.trans h.gaps
    · refine Or.inr ⟨error, error', final, final', ?_, ?_, fun hsame => herror (h.opcode hsame)⟩
      · exact Emit.finish_of_closeExit_error hopen hfail
      · exact Emit.finish_of_closeExit_error hopen' hfail'

theorem body_twins {scope : Scope} {other : Surroundings} {casts : Nat → Bool}
    (hlength : other.operations.length = scope.function.operations.length)
    (hpairs : ∀ position < scope.function.operations.length, scope.Pairs other casts position) :
    (∃ codes exit result result' final final', Emit.body scope scope.begin = .ok result final ∧
      Emit.body (scope.within other) (scope.within other).begin = .ok result' final' ∧
      scope.Twins other casts codes exit result result') ∨
    scope.BothFail other (Emit.body scope scope.begin)
      (Emit.body (scope.within other) (scope.within other).begin) := by
  have hlength' : (scope.within other).function.operations.length
      = scope.function.operations.length := hlength
  rcases paired hlength (Nat.le_refl _) hpairs with
    ⟨codes, progress, opcode, h⟩ | ⟨error, error', final, final', hfail, hfail', herror⟩
  · have hreached' := h.reached'
    rw [← hlength'] at hreached'
    rw [body_of_ok h.reached, body_of_ok hreached', hlength']
    rcases h.finish with ⟨exit, result, result', final, final', hfinish⟩ | hfail
    · exact Or.inl ⟨codes, exit, result, result', final, final', hfinish⟩
    · exact Or.inr hfail
  · rw [← hlength'] at hfail'
    exact Or.inr ⟨error, error', final, final', body_of_error hfail, body_of_error hfail', herror⟩

end Scope

/-! ## Whole functions -/

def BodyStats.Agree (stats other : BodyStats) : Prop :=
  other.bridges = stats.bridges ∧ other.gaps = stats.gaps

/-- The outcomes of two lowerings of a function.  Both succeed, with related code
and everything else the same, or both fail with one error. -/
inductive FunctionDef.Abreast (code : List Instr → List Instr → Prop) :
    Except LoweringError (MethodBody × BodyStats) →
      Except LoweringError (MethodBody × BodyStats) → Prop
  | ok {result result' : MethodBody × BodyStats} (hlocals : result'.1.locals = result.1.locals)
      (hstats : result.2.Agree result'.2) (hcode : code result.1.body result'.1.body) :
      Abreast code (.ok result) (.ok result')
  | error {error : LoweringError} : Abreast code (.error error) (.error error)

theorem FunctionDef.Abreast.imp {code other : List Instr → List Instr → Prop}
    {run run' : Except LoweringError (MethodBody × BodyStats)} (h : Abreast code run run')
    (hcode : ∀ body body', code body body' → other body body') : Abreast other run run' := by
  cases h with
  | ok hlocals hstats hbodies => exact .ok hlocals hstats (hcode _ _ hbodies)
  | error => exact .error

namespace FunctionDef

section Lower

variable {function : FunctionDef} {image : Image} {registry : Registry} {settings : Settings}
  {signature : Signature} {other : Surroundings} {casts : Nat → Bool}

theorem settings_of_scope {scope : Scope}
    (h : function.scope image registry settings signature = .ok scope) :
    scope.settings = settings := by
  obtain ⟨flow, -, h⟩ := ok_of_bind h
  obtain ⟨types, -, h⟩ := ok_of_bind h
  dsimp only at h
  split at h
  · cases h
  · cases h
    rfl

theorem lower_of_scope_error {error : LoweringError}
    (h : function.scope image registry settings signature = .error error) :
    function.lower image registry settings signature = .error error := by
  rw [lower, h]
  rfl

theorem lower_of_ok {scope : Scope} {result : MethodBody × BodyStats} {final : Progress}
    (hscope : function.scope image registry settings signature = .ok scope)
    (h : Emit.body scope scope.begin = .ok result final) :
    function.lower image registry settings signature = .ok result := by
  simp only [lower, hscope, bind, Except.bind, h]

theorem lower_of_error {scope : Scope} {error : LoweringError} {final : Progress}
    (hscope : function.scope image registry settings signature = .ok scope)
    (h : Emit.body scope scope.begin = .error error final) :
    function.lower image registry settings signature = .error error := by
  simp only [lower, hscope, bind, Except.bind, h]

theorem scope_within (image : Image) (registry : Registry) (settings : Settings)
    (signature : Signature) (other : Surroundings)
    (hflow : Flow.analyze (function.within other) = Flow.analyze function) :
    (function.within other).scope (image.within other) (registry.within other) other.settings
        signature
      = (function.scope image registry settings signature).map (·.within other) := by
  have hregisters : (function.within other).registers = function.registers := rfl
  simp only [scope, Scope.create, hflow, hregisters, Registry.mapType_within]
  cases Flow.analyze function with
  | error error => rfl
  | ok flow =>
      change (do
        let types ← function.registers.mapM (registry.mapType image)
        _) = Except.map _ (do
        let types ← function.registers.mapM (registry.mapType image)
        _)
      cases function.registers.mapM (registry.mapType image) with
      | error error => rfl
      | ok types =>
          change (if _ then _ else _) = Except.map _ (if _ then _ else _)
          split <;> rfl

theorem lower_twins
    (hpairs : ∀ scope, function.scope image registry settings signature = .ok scope →
      ∀ position < scope.function.operations.length, scope.Pairs other casts position)
    (hflow : Flow.analyze (function.within other) = Flow.analyze function)
    (hlength : other.operations.length = function.operations.length) :
    (∃ scope codes exit result result',
      function.scope image registry settings signature = .ok scope ∧
      function.lower image registry settings signature = .ok result ∧
      (function.within other).lower (image.within other) (registry.within other) other.settings
        signature = .ok result' ∧
      scope.Twins other casts codes exit result result') ∨
    ∃ error error', function.lower image registry settings signature = .error error ∧
      (function.within other).lower (image.within other) (registry.within other) other.settings
        signature = .error error' ∧
      (other.operations = function.operations → error' = error) := by
  have hwithin := scope_within image registry settings signature other hflow
  cases hscope : function.scope image registry settings signature with
  | error error =>
      rw [hscope] at hwithin
      exact Or.inr ⟨error, error, lower_of_scope_error hscope, lower_of_scope_error hwithin,
        fun _ => rfl⟩
  | ok scope =>
      rw [hscope] at hwithin
      obtain ⟨-, -, -, -, hfunction, -⟩ := scope_ok hscope
      rw [← hfunction] at hlength
      rcases Scope.body_twins hlength (hpairs scope hscope) with
        ⟨codes, exit, result, result', final, final', hrun, hrun', htwins⟩ |
        ⟨error, error', final, final', hfail, hfail', herror⟩
      · exact Or.inl ⟨scope, codes, exit, result, result', rfl, lower_of_ok hscope hrun,
          lower_of_ok hwithin hrun', htwins⟩
      · refine Or.inr ⟨error, error', lower_of_error hscope hfail,
          lower_of_error hwithin hfail', fun hsame => herror ?_⟩
        rw [hfunction, hsame]

def surroundings (function : FunctionDef) (image : Image) (registry : Registry)
    (settings : Settings) : Surroundings :=
  ⟨settings, image.functions, registry.target.methods, function.operations⟩

theorem lower_beside {settings' : Settings} {registry' : Registry}
    (hregistry : registry.within (function.surroundings image registry' settings') = registry')
    (hpairs : ∀ scope, function.scope image registry settings signature = .ok scope →
      ∀ position < scope.function.operations.length,
        scope.Pairs (function.surroundings image registry' settings') casts position) :
    (∃ scope codes exit result result',
      function.scope image registry settings signature = .ok scope ∧
      function.lower image registry settings signature = .ok result ∧
      function.lower image registry' settings' signature = .ok result' ∧
      scope.Twins (function.surroundings image registry' settings') casts codes exit result
        result') ∨
    ∃ error, function.lower image registry settings signature = .error error ∧
      function.lower image registry' settings' signature = .error error := by
  have htwins := lower_twins hpairs rfl rfl
  rw [hregistry] at htwins
  rcases htwins with htwins | ⟨error, error', hlower, hlower', hsame⟩
  · exact Or.inl htwins
  · obtain rfl := hsame rfl
    exact Or.inr ⟨error', hlower, hlower'⟩

theorem abreast_of_pairs (casts : Nat → Bool) {settings' : Settings} {registry' : Registry}
    {code : List Instr → List Instr → Prop}
    (hregistry : registry.within (function.surroundings image registry' settings') = registry')
    (hpairs : ∀ scope, function.scope image registry settings signature = .ok scope →
      ∀ position < scope.function.operations.length,
        scope.Pairs (function.surroundings image registry' settings') casts position)
    (hcode : ∀ scope codes exit result result',
      function.scope image registry settings signature = .ok scope →
      function.lower image registry settings signature = .ok result →
      scope.Twins (function.surroundings image registry' settings') casts codes exit result
        result' → code result.1.body result'.1.body) :
    Abreast code (function.lower image registry settings signature)
      (function.lower image registry' settings' signature) := by
  rcases lower_beside hregistry hpairs with
    ⟨scope, codes, exit, result, result', hscope, hlower, hlower', htwins⟩ |
    ⟨error, hlower, hlower'⟩
  · rw [hlower, hlower']
    exact .ok htwins.locals ⟨htwins.bridges, htwins.gaps'⟩
      (hcode scope codes exit result result' hscope hlower htwins)
  · rw [hlower, hlower']
    exact .error

end Lower

end FunctionDef

end BytecodeLowering

import BytecodeLowering.Body.Casts
import BytecodeLowering.Proofs.Lower.ClassFields

/-!
# Two lowerings side by side

Lowering an instruction does not look at the code that is already there, at the
source line told last, or at most of the setting: the same step, run in two such
states, fails in both or appends the same code to both.  The only freedom is
that the second one may leave out the casts, which a step does that is told not
to check.
-/

namespace BytecodeLowering

/-! ## Code -/

namespace Instr

def isCast : Instr → Bool
  | .castClass _ => true
  | _ => false

def isPoint : Instr → Bool
  | .sequencePoint _ _ => true
  | _ => false

/-- Neither a cast nor a source position, the instructions that a setting may
leave out. -/
def isCommon (instr : Instr) : Bool := !instr.isCast && !instr.isPoint

theorem isCast_of_isCommon {instr : Instr} (h : instr.isCommon = true) : instr.isCast = false :=
  (Bool.not_eq_true' _).mp (Bool.and_eq_true_iff.mp h).1

theorem isPoint_of_isCommon {instr : Instr} (h : instr.isCommon = true) : instr.isPoint = false :=
  (Bool.not_eq_true' _).mp (Bool.and_eq_true_iff.mp h).2

end Instr

def withCasts (casts : Bool) (code : List Instr) : List Instr :=
  code.filter fun instr => casts || !instr.isCast

theorem withCasts_true (code : List Instr) : withCasts true code = code :=
  List.filter_eq_self.mpr fun _ _ => rfl

theorem withCasts_append (casts : Bool) (code more : List Instr) :
    withCasts casts (code ++ more) = withCasts casts code ++ withCasts casts more :=
  List.filter_append code more

/-! ## Settings and states -/

/-- What lowering an instruction does not look at: the settings of the user, the
functions of the image, the methods of the module and the other instructions of
the function. -/
structure Surroundings where
  settings : Settings
  functions : List FunctionDef
  methods : List MethodDecl
  operations : List Operation

def FunctionDef.within (function : FunctionDef) (other : Surroundings) : FunctionDef :=
  { function with operations := other.operations }

def Image.within (image : Image) (other : Surroundings) : Image :=
  { image with functions := other.functions }

def Registry.within (registry : Registry) (other : Surroundings) : Registry :=
  { registry with target := { registry.target with methods := other.methods } }

def Scope.within (scope : Scope) (other : Surroundings) : Scope :=
  { scope with
    image := scope.image.within other
    registry := scope.registry.within other
    settings := other.settings
    function := scope.function.within other }

theorem Registry.mapType_within (image : Image) (registry : Registry) (other : Surroundings) :
    (registry.within other).mapType (image.within other) = registry.mapType image := by
  have htypes : (image.within other).types = image.types := rfl
  rw [Registry.mapType_types htypes]
  exact Registry.mapType_same rfl

namespace Progress

def recast (progress : Progress) (body : List Instr) (line : Option SourceLine)
    (opcode : Opcode) : Progress :=
  { progress with
    builder := { progress.builder with body }
    lastLine := line
    opcode }

/-- What a step adds to a state: code without source positions, and some
instructions that were given up. -/
structure Gains (before after : Progress) (code : List Instr) (given : Nat := 0) : Prop where
  body : after.builder.body = before.builder.body ++ code
  points : ∀ instr ∈ code, instr.isPoint = false
  opcode : after.opcode = before.opcode
  line : after.lastLine = before.lastLine
  gaps : after.stats.gaps = before.stats.gaps + given

namespace Gains

theorem idle {before after : Progress} (hbody : after.builder.body = before.builder.body)
    (hopcode : after.opcode = before.opcode) (hline : after.lastLine = before.lastLine)
    (hgaps : after.stats.gaps = before.stats.gaps) : before.Gains after [] :=
  ⟨hbody.trans (List.append_nil _).symm, List.forall_mem_nil _, hopcode, hline, hgaps⟩

theorem refl (progress : Progress) : progress.Gains progress [] := .idle rfl rfl rfl rfl

theorem trans {first second third : Progress} {code more : List Instr}
    (h : first.Gains second code) (hnext : second.Gains third more) :
    first.Gains third (code ++ more) := by
  refine ⟨?_, ?_, hnext.opcode.trans h.opcode, hnext.line.trans h.line, hnext.gaps.trans h.gaps⟩
  · rw [hnext.body, h.body, List.append_assoc]
  · exact List.forall_mem_append.mpr ⟨h.points, hnext.points⟩

end Gains

end Progress

namespace Emit

/-- The outcomes of two runs, the second one from the state of the first with
other code, another line and another opcode.  They succeed with one value, or
they fail, with one error unless the opcodes differ. -/
inductive Abreast (casts : Bool) (given : Nat) (before : Progress) (body : List Instr)
    (line : Option SourceLine) (opcode : Opcode) :
    EStateM.Result LoweringError Progress α → EStateM.Result LoweringError Progress α → Prop
  | ok {value : α} {after : Progress} {code code' : List Instr}
      (hgains : before.Gains after code given) (hcode : withCasts casts code = code') :
      Abreast casts given before body line opcode (.ok value after)
        (.ok value (after.recast (body ++ code') line opcode))
  | error {error error' : LoweringError} {after after' : Progress}
      (herror : opcode = before.opcode → error' = error) :
      Abreast casts given before body line opcode (.error error after) (.error error' after')

/-- Two steps that keep abreast from every state, each in its own setting. -/
def Tandem (casts : Bool) (scope scope' : Scope) (step step' : Emit α) (given : Nat := 0) : Prop :=
  ∀ before body line opcode,
    Abreast casts given before body line opcode (step scope before)
      (step' scope' (before.recast body line opcode))

theorem Abreast.cases {casts : Bool} {given : Nat} {before : Progress} {body : List Instr}
    {line : Option SourceLine} {opcode : Opcode}
    {run run' : EStateM.Result LoweringError Progress α}
    (h : Abreast casts given before body line opcode run run') :
    (∃ value after code, run = .ok value after ∧
        run' = .ok value (after.recast (body ++ withCasts casts code) line opcode) ∧
        before.Gains after code given) ∨
      ∃ error error' after after', run = .error error after ∧ run' = .error error' after' ∧
        (opcode = before.opcode → error' = error) := by
  cases h with
  | ok hgains hcode =>
      subst hcode
      exact Or.inl ⟨_, _, _, rfl, rfl, hgains⟩
  | error herror => exact Or.inr ⟨_, _, _, _, rfl, rfl, herror⟩

theorem Abreast.unseen {casts : Bool} {given : Nat} {before after : Progress} {value : α}
    {code : List Instr} (hgains : before.Gains after code given) (hcode : withCasts casts code = [])
    (body : List Instr) (line : Option SourceLine) (opcode : Opcode) :
    Abreast casts given before body line opcode (.ok value after)
      (.ok value (after.recast body line opcode)) := by
  have h : Abreast casts given before body line opcode (.ok value after)
      (.ok value (after.recast (body ++ []) line opcode)) := .ok hgains hcode
  rwa [List.append_nil] at h

namespace Tandem

variable {casts : Bool} {scope scope' : Scope}

theorem pure (value : α) : Tandem casts scope scope' (Pure.pure value) (Pure.pure value) :=
  fun before => .unseen (.refl before) rfl

theorem bind {step step' : Emit α} {next next' : α → Emit β}
    (hstep : Tandem casts scope scope' step step')
    (hnext : ∀ value, Tandem casts scope scope' (next value) (next' value)) :
    Tandem casts scope scope' (step >>= next) (step' >>= next') := by
  intro before body line opcode
  change Abreast casts 0 before body line opcode
    (EStateM.bind (step scope) (fun value => next value scope) before)
    (EStateM.bind (step' scope') (fun value => next' value scope') _)
  unfold EStateM.bind
  have hfirst := hstep before body line opcode
  generalize step scope before = run at hfirst ⊢
  generalize step' scope' (before.recast body line opcode) = run' at hfirst ⊢
  cases hfirst with
  | error herror => exact .error herror
  | @ok value middle code _ hgains hcode =>
      subst hcode
      have hsecond := hnext value middle (body ++ withCasts casts code) line opcode
      dsimp only
      generalize next value scope middle = last at hsecond ⊢
      generalize next' value scope' (middle.recast _ line opcode) = last' at hsecond ⊢
      cases hsecond with
      | error herror => exact .error fun h => herror (h.trans hgains.opcode.symm)
      | @ok result after more _ hmore hcode =>
          subst hcode
          rw [List.append_assoc, ← withCasts_append]
          exact .ok (hgains.trans hmore) rfl

theorem ite {condition : Prop} [Decidable condition] {yes no yes' no' : Emit α}
    (hyes : condition → Tandem casts scope scope' yes yes')
    (hno : ¬ condition → Tandem casts scope scope' no no') :
    Tandem casts scope scope' (if condition then yes else no)
      (if condition then yes' else no') := by
  by_cases h : condition
  · rw [if_pos h, if_pos h]
    exact hyes h
  · rw [if_neg h, if_neg h]
    exact hno h

theorem read {next next' : Scope → Emit α}
    (h : Tandem casts scope scope' (next scope) (next' scope')) :
    Tandem casts scope scope' (MonadReader.read >>= next) (MonadReader.read >>= next') := h

theorem get {next next' : Progress → Emit α}
    (h : ∀ progress body line opcode,
      Tandem casts scope scope' (next progress) (next' (progress.recast body line opcode))) :
    Tandem casts scope scope' (MonadState.get >>= next) (MonadState.get >>= next') :=
  fun before body line opcode => h before body line opcode before body line opcode

theorem throw (error : LoweringError) :
    Tandem casts scope scope' (MonadExcept.throw error : Emit α) (MonadExcept.throw error) :=
  fun _ _ _ _ => .error fun _ => rfl

theorem forM {items : List α} {step step' : α → Emit PUnit}
    (h : ∀ item ∈ items, Tandem casts scope scope' (step item) (step' item)) :
    Tandem casts scope scope' (items.forM step) (items.forM step') := by
  induction items with
  | nil => exact pure _
  | cons item items ih =>
      refine (h item List.mem_cons_self).bind fun _ => ?_
      exact ih fun other hother => h other (List.mem_cons_of_mem item hother)

theorem mapM {items : List α} {step step' : α → Emit β}
    (h : ∀ item ∈ items, Tandem casts scope scope' (step item) (step' item)) :
    Tandem casts scope scope' (items.mapM step) (items.mapM step') := by
  induction items with
  | nil => exact pure _
  | cons item items ih =>
      rw [List.mapM_cons, List.mapM_cons]
      refine (h item List.mem_cons_self).bind fun _ => ?_
      exact (ih fun other hother => h other (List.mem_cons_of_mem item hother)).bind
        fun _ => pure _

theorem silent {change : Progress → α × Progress}
    (hgains : ∀ progress : Progress, progress.Gains (change progress).2 [])
    (hsame : ∀ progress body line opcode,
      change (progress.recast body line opcode)
        = ((change progress).1, (change progress).2.recast body line opcode)) :
    Tandem casts scope scope' (modifyGet change : Emit α) (modifyGet change) := by
  intro before body line opcode
  change Abreast casts 0 before body line opcode (.ok (change before).1 (change before).2)
    (.ok (change (before.recast body line opcode)).1 (change (before.recast body line opcode)).2)
  rw [hsame]
  exact .unseen (hgains before) rfl body line opcode

end Tandem

/-! ## Elementary steps -/

section Elementary

variable {casts : Bool} {scope : Scope} {other : Surroundings}

theorem tandem_kept {instr : Instr} (hkept : (casts || !instr.isCast) = true)
    (hpoint : instr.isPoint = false) :
    Tandem casts scope (scope.within other) (emit instr) (emit instr) := by
  intro before body line opcode
  have hcode : withCasts casts [instr] = [instr] := List.filter_cons_of_pos hkept
  exact .ok ⟨rfl, by simpa using hpoint, rfl, rfl, rfl⟩ hcode

theorem tandem_emit {instr : Instr} (hcommon : instr.isCommon = true) :
    Tandem casts scope (scope.within other) (emit instr) (emit instr) := by
  have hcast := Instr.isCast_of_isCommon hcommon
  have hkept : (casts || !instr.isCast) = true := by rw [hcast, Bool.not_false, Bool.or_true]
  exact tandem_kept hkept (Instr.isPoint_of_isCommon hcommon)

theorem tandem_castClass (type : TargetType) :
    Tandem true scope (scope.within other) (emit (.castClass type)) (emit (.castClass type)) :=
  tandem_kept rfl rfl

theorem tandem_dropCast (type : TargetType) :
    Tandem false scope (scope.within other) (emit (.castClass type)) (pure ()) :=
  fun _ => .unseen ⟨rfl, by simp [Instr.isPoint], rfl, rfl, rfl⟩ rfl

theorem tandem_mark (label : Label) :
    Tandem casts scope (scope.within other) (mark label) (mark label) := by
  intro before body line opcode
  have hcode : withCasts casts [.markLabel label] = [.markLabel label] :=
    List.filter_cons_of_pos (by simp [Instr.isCast])
  exact .ok ⟨rfl, by simp [Instr.isPoint], rfl, rfl, rfl⟩ hcode

theorem tandem_newLabel : Tandem casts scope (scope.within other) newLabel newLabel :=
  .silent (fun _ => .idle rfl rfl rfl rfl) fun _ _ _ _ => rfl

theorem tandem_bridge : Tandem casts scope (scope.within other) bridge bridge :=
  .silent (fun _ => .idle rfl rfl rfl rfl) fun _ _ _ _ => rfl

theorem tandem_callRuntime (member : RuntimeMember) :
    Tandem casts scope (scope.within other) (callRuntime member) (callRuntime member) := by
  unfold callRuntime
  split
  · exact tandem_emit rfl
  · exact tandem_emit rfl

/-! ### Errors -/

theorem tandem_site : Tandem casts scope (scope.within other) site site :=
  .read (.get fun progress _ _ _ => .pure (Site.mk scope.function.index progress.position))

theorem tandem_throwAt (error : Site → LoweringError) :
    Tandem casts scope (scope.within other) (do throw (error (← site)) : Emit α)
      (do throw (error (← site))) :=
  tandem_site.bind fun _ => .throw _

theorem tandem_unsupported (found : String) :
    Tandem casts scope (scope.within other) (unsupported found : Emit α) (unsupported found) := by
  intro before body line opcode
  refine .error ?_
  rintro rfl
  rfl

theorem tandem_orUnsupported (value : Option α) (found : String) :
    Tandem casts scope (scope.within other) (orUnsupported value found)
      (orUnsupported value found) := by
  cases value with
  | some value => exact .pure value
  | none => exact tandem_unsupported found

theorem tandem_ofExcept (result : Except LoweringError α) :
    Tandem casts scope (scope.within other) (ofExcept result) (ofExcept result) := by
  cases result with
  | ok value => exact .pure value
  | error error => exact .throw error

/-! ### Registers -/

theorem tandem_registerIndex (register : Int) :
    Tandem casts scope (scope.within other) (registerIndex register) (registerIndex register) := by
  unfold registerIndex
  split
  · exact .read (.ite (fun _ => .pure _) fun _ => tandem_throwAt _)
  · exact tandem_throwAt _

theorem tandem_registerType (register : Int) :
    Tandem casts scope (scope.within other) (registerType register) (registerType register) :=
  (tandem_registerIndex register).bind fun _ => .read (.pure _)

theorem tandem_sourceTypeIndex (register : Int) :
    Tandem casts scope (scope.within other) (sourceTypeIndex register)
      (sourceTypeIndex register) :=
  (tandem_registerIndex register).bind fun _ => .read (.pure _)

theorem tandem_sourceType (register : Int) :
    Tandem casts scope (scope.within other) (sourceType register) (sourceType register) := by
  refine .read ((tandem_sourceTypeIndex register).bind fun type => ?_)
  rw [show (scope.within other).image.type? type = scope.image.type? type from rfl]
  split
  · exact .pure _
  · exact .throw _

theorem loadInstr_isCommon (scope : Scope) (index : Nat) (type : TargetType) :
    (loadInstr scope index type).isCommon = true := by
  unfold loadInstr
  split
  · rfl
  · split <;> rfl

theorem storeInstr_isCommon (scope : Scope) (index : Nat) (type : TargetType) :
    (storeInstr scope index type).isCommon = true := by
  unfold storeInstr
  split
  · rfl
  · split <;> rfl

theorem tandem_load (register : Int) :
    Tandem casts scope (scope.within other) (load register) (load register) := by
  refine (tandem_registerIndex register).bind fun index => ?_
  refine (tandem_registerType register).bind fun type => .read ?_
  exact (tandem_emit (loadInstr_isCommon scope index type)).bind fun _ => .pure type

theorem tandem_store (register : Int) :
    Tandem casts scope (scope.within other) (store register) (store register) := by
  refine (tandem_registerIndex register).bind fun index => ?_
  exact (tandem_registerType register).bind fun type =>
    .read (tandem_emit (storeInstr_isCommon scope index type))

end Elementary

/-! ## Conversions -/

section Conversion

variable {casts : Bool} {scope : Scope} {other : Surroundings} (source target : TargetType)
  (checked : Bool)

theorem tandem_pushDefault :
    Tandem casts scope (scope.within other) (pushDefault target) (pushDefault target) := by
  have hcommon : (defaultInstr target).isCommon = true := by
    unfold defaultInstr
    split <;> rfl
  exact tandem_emit hcommon

theorem tandem_convertNumeric :
    Tandem casts scope (scope.within other) (convertNumeric source target)
      (convertNumeric source target) := by
  unfold convertNumeric
  split
  · exact tandem_emit rfl
  · exact .pure _

theorem tandem_check {condition condition' : Prop} [Decidable condition] [Decidable condition']
    (h : condition' ↔ condition ∧ casts = true) :
    Tandem casts scope (scope.within other)
      (if condition then emit (.castClass target) else pure ())
      (if condition' then emit (.castClass target) else pure ()) := by
  by_cases hcondition : condition
  · rw [if_pos hcondition]
    cases casts with
    | true =>
        rw [if_pos (h.mpr ⟨hcondition, rfl⟩)]
        exact tandem_castClass target
    | false =>
        rw [if_neg fun hcondition' => absurd (h.mp hcondition').2 Bool.false_ne_true]
        exact tandem_dropCast target
  · rw [if_neg hcondition, if_neg fun hcondition' => hcondition (h.mp hcondition').1]
    exact .pure ()

theorem tandem_unwrapObject :
    Tandem casts scope (scope.within other) (unwrapObject target checked)
      (unwrapObject target (checked && casts)) := by
  refine .ite (fun _ => ?_) fun _ => ?_
  · exact (tandem_emit rfl).bind fun _ => tandem_bridge
  · refine tandem_check target ?_
    rw [Bool.and_eq_true, and_right_comm]

theorem isWidening_within :
    isWidening (scope.within other).registry.target source target
      = isWidening scope.registry.target source target := by
  have hderives (b : TypeId) (steps : Nat) (a : TypeId) :
      (scope.within other).registry.target.derivesWithin b steps a
        = scope.registry.target.derivesWithin b steps a := by
    induction steps generalizing a with
    | zero => rfl
    | succ steps ih =>
        have htype : (scope.within other).registry.target.type? a
            = scope.registry.target.type? a := rfl
        simp only [TargetModule.derivesWithin, htype, ih]
  unfold isWidening
  split
  · exact hderives _ _ _
  · rfl

theorem tandem_convertReference :
    Tandem casts scope (scope.within other) (convertReference source target checked)
      (convertReference source target (checked && casts)) := by
  refine .read (tandem_check target ?_)
  rw [isWidening_within, ← Bool.and_assoc, Bool.and_eq_true]

theorem tandem_boxIfValue :
    Tandem casts scope (scope.within other) (boxIfValue source) (boxIfValue source) :=
  .ite (fun _ => tandem_emit rfl) fun _ => .pure ()

theorem tandem_wrapDynamic :
    Tandem casts scope (scope.within other) (wrapDynamic source) (wrapDynamic source) :=
  (tandem_boxIfValue source).bind fun _ =>
    (tandem_callRuntime .dynamicNew).bind fun _ => tandem_bridge

theorem tandem_wrapAny :
    Tandem casts scope (scope.within other) (wrapAny source) (wrapAny source) :=
  .ite (fun _ => (tandem_emit rfl).bind fun _ => tandem_bridge)
    fun _ => .pure ()

theorem tandem_convertPlain :
    Tandem casts scope (scope.within other) (convertPlain source target checked)
      (convertPlain source target (checked && casts)) := by
  unfold convertPlain
  split
  · exact tandem_emit rfl
  · refine .ite (fun _ => ?_) fun _ => .pure ()
    exact (tandem_emit rfl).bind fun _ => tandem_pushDefault _
  · refine .ite (fun _ => tandem_convertNumeric _ _) fun _ => ?_
    split
    · exact tandem_wrapDynamic _
    · exact tandem_wrapAny _
    · refine (tandem_callRuntime .dynamicValue).bind fun _ => ?_
      exact tandem_bridge.bind fun _ => tandem_unwrapObject _ _
    · exact tandem_unwrapObject _ _
    · exact .ite (fun _ => tandem_unsupported _) fun _ => tandem_convertReference _ _ _

theorem tandem_convertInto :
    Tandem casts scope (scope.within other) (convertInto checked source target)
      (convertInto (checked && casts) source target) := by
  induction target using convertInto.induct source with
  | case1 inner hsame =>
      rw [convertInto, convertInto, if_pos hsame, if_pos hsame]
      exact .pure ()
  | case2 inner hother hvalue ih =>
      rw [convertInto, convertInto, if_neg hother, if_neg hother, if_pos hvalue, if_pos hvalue]
      exact ih.bind fun _ => tandem_callRuntime _
  | case3 inner hother hvalue ih =>
      rw [convertInto, convertInto, if_neg hother, if_neg hother, if_neg hvalue, if_neg hvalue]
      refine tandem_newLabel.bind fun empty => tandem_newLabel.bind fun done => ?_
      refine (tandem_emit rfl).bind fun _ => ?_
      refine (tandem_emit rfl).bind fun _ => ih.bind fun _ => ?_
      refine (tandem_callRuntime _).bind fun _ => ?_
      refine (tandem_emit rfl).bind fun _ => ?_
      refine (tandem_mark _).bind fun _ => (tandem_emit rfl).bind fun _ => ?_
      exact (tandem_pushDefault _).bind fun _ => tandem_mark _
  | case4 hnullable =>
      rw [convertInto, convertInto, if_pos rfl, if_pos rfl]
      · exact .pure ()
      · exact hnullable
      · exact hnullable
  | case5 target hnullable hother =>
      rw [convertInto, convertInto, if_neg hother, if_neg hother]
      · exact tandem_convertPlain source target checked
      · exact hnullable
      · exact hnullable

theorem tandem_convert :
    Tandem casts scope (scope.within other) (convert checked source target)
      (convert (checked && casts) source target) := by
  induction source, target using convert.induct with
  | case1 inner =>
      rw [convert, convert, if_pos rfl, if_pos rfl]
      exact .pure ()
  | case2 inner target hother hplain =>
      rw [convert, convert, if_neg hother, if_neg hother, if_pos hplain, if_pos hplain]
      exact tandem_convertPlain _ target checked
  | case3 inner target hother hplain ih =>
      rw [convert, convert, if_neg hother, if_neg hother, if_neg hplain, if_neg hplain]
      exact (tandem_callRuntime _).bind fun _ => ih
  | case4 source target hnullable =>
      rw [convert, convert]
      · exact tandem_convertInto source target checked
      · exact hnullable
      · exact hnullable

theorem tandem_cast (target source : Int) :
    Tandem casts scope (scope.within other) (cast target source checked)
      (cast target source (checked && casts)) := by
  refine (tandem_registerType target).bind fun wanted => ?_
  refine (tandem_load source).bind fun type => ?_
  exact (tandem_convert type wanted checked).bind fun _ => tandem_store target

end Conversion

end Emit
end BytecodeLowering

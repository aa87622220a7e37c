import BytecodeLowering.Body.Coercion
import BytecodeLowering.Proofs.Lower.Steps
import BytecodeLowering.Proofs.Target.StackEffect

/-!
# Fragments of code

What a lowering step appends to a body.  A fragment is code that control enters
at its first and leaves behind its last instruction: it returns, leaves and
opens nothing, and its branches go to labels of its own, which it marks.  Every
fragment moves the height of the evaluation stack by a fixed amount; that part
of the account rests on the types of the program and is given only under a
condition `typed`, so that one account serves typed and untyped statements.
-/

namespace BytecodeLowering

/-! ## Fragments -/

/-- A fragment with the own labels from `first` to before `next`, between two
heights of the stack. -/
inductive Fragment (typed : Prop) (module : TargetModule) :
    (first depth : Nat) → (code : List Instr) → (depth' next : Nat) → Prop
  | nil {first depth} : Fragment typed module first depth [] depth first
  | plain {first depth depth' instr} (hplain : instr.isPlain = true)
      (heffect : typed → instr.pops module ≤ depth ∧
        depth' + instr.pops module = depth + instr.pushes module) :
      Fragment typed module first depth [instr] depth' first
  | append {first middle last depth between depth' code more}
      (hcode : Fragment typed module first depth code between middle)
      (hmore : Fragment typed module middle between more depth' last) :
      Fragment typed module first depth (code ++ more) depth' last
  /-- A null on top of the stack skips the code and is replaced by a null. -/
  | nullTest {first last depth code} (hdepth : typed → 0 < depth)
      (hcode : Fragment typed module (first + 2) depth code depth last) :
      Fragment typed module first depth
        ([Instr.dup, .brFalse first] ++ code
          ++ [Instr.br (first + 1), .markLabel first, .pop, .ldNull, .markLabel (first + 1)])
        depth last

theorem Fragment.first_le {typed : Prop} {module : TargetModule}
    {first depth depth' next : Nat} {code : List Instr}
    (h : Fragment typed module first depth code depth' next) : first ≤ next := by
  induction h with
  | nil => exact Nat.le_refl _
  | plain => exact Nat.le_refl _
  | append _ _ hfirst hsecond => exact Nat.le_trans hfirst hsecond
  | nullTest _ _ ih => omega

/-! ## Steps -/

namespace Instr

def isMark : Instr → Bool
  | .markLabel _ => true
  | _ => false

theorem ne_mark {instr : Instr} (h : instr.isMark = false) (label : Label) :
    .markLabel label ≠ instr := by
  rintro rfl
  cases h

end Instr

namespace BodyBuilder

theorem isMarked_newLabel (builder : BodyBuilder) (label : Label) :
    builder.newLabel.2.isMarked label = builder.isMarked label := by
  simp only [newLabel, isMarked, List.getD_eq_getElem?_getD, List.getElem?_append]
  split
  · rfl
  · rename_i hlabel
    rw [List.getElem?_eq_none (Nat.le_of_not_lt hlabel)]
    cases hrest : label - builder.labels.length with
    | zero => simp
    | succ rest => simp

theorem isMarked_mark {builder : BodyBuilder} {label : Label}
    (hlabel : label < builder.labels.length) (other : Label) :
    (builder.mark label).isMarked other = true ↔
      builder.isMarked other = true ∨ other = label := by
  by_cases hsame : other = label
  · subst hsame
    simp [mark, isMarked, hlabel]
  · simp [mark, isMarked, List.getElem?_set_ne (Ne.symm hsame), hsame]

end BodyBuilder

/-- A step that appends code to the body and gives places to the labels that it
marks there. -/
structure Progress.Extends (before after : Progress) (code : List Instr) : Prop where
  body : after.builder.body = before.builder.body ++ code
  marked : ∀ label, after.builder.isMarked label = true ↔
    before.builder.isMarked label = true ∨ .markLabel label ∈ code
  grows : before.builder.labels.length ≤ after.builder.labels.length

theorem Progress.Extends.trans {first second third : Progress} {code more : List Instr}
    (h : first.Extends second code) (hnext : second.Extends third more) :
    first.Extends third (code ++ more) := by
  refine ⟨?_, ?_, Nat.le_trans h.grows hnext.grows⟩
  · rw [hnext.body, h.body, List.append_assoc]
  · intro label
    rw [hnext.marked, h.marked, List.mem_append, or_assoc]

/-- A step that also touches neither the traps nor the shared exit. -/
structure Progress.Appends (before after : Progress) (code : List Instr) : Prop
    extends before.Extends after code where
  traps : after.traps = before.traps
  position : after.position = before.position
  exit : after.returnExit = before.returnExit

namespace Progress.Appends

theorem refl (progress : Progress) : progress.Appends progress [] :=
  ⟨⟨by simp, by simp, Nat.le_refl _⟩, rfl, rfl, rfl⟩

theorem trans {first second third : Progress} {code more : List Instr}
    (h : first.Appends second code) (hnext : second.Appends third more) :
    first.Appends third (code ++ more) :=
  ⟨h.toExtends.trans hnext.toExtends, hnext.traps.trans h.traps,
    hnext.position.trans h.position, hnext.exit.trans h.exit⟩

end Progress.Appends

namespace Emit

theorem bind_ok {step : Emit α} {next : α → Emit β} {scope : Scope} {before after : Progress}
    {result : β} (h : (step >>= next) scope before = .ok result after) :
    ∃ value middle, step scope before = .ok value middle ∧
      next value scope middle = .ok result after := by
  change EStateM.bind (step scope) (fun value => next value scope) before = _ at h
  unfold EStateM.bind at h
  cases hstep : step scope before with
  | ok value middle =>
      rw [hstep] at h
      exact ⟨value, middle, rfl, h⟩
  | error error middle =>
      rw [hstep] at h
      cases h

theorem bind_error {step : Emit α} {next : α → Emit β} {scope : Scope}
    {before after : Progress} {error : LoweringError}
    (h : (step >>= next) scope before = .error error after) :
    step scope before = .error error after ∨
      ∃ value middle, step scope before = .ok value middle ∧
        next value scope middle = .error error after := by
  change EStateM.bind (step scope) (fun value => next value scope) before = _ at h
  unfold EStateM.bind at h
  cases hstep : step scope before with
  | ok value middle =>
      rw [hstep] at h
      exact Or.inr ⟨value, middle, rfl, h⟩
  | error found middle =>
      rw [hstep] at h
      cases h
      exact Or.inl rfl

section Bind

variable {step : Emit α} {next : α → Emit β} {scope : Scope} {before after : Progress}

theorem bind_of_ok {value : α} (h : step scope before = .ok value after) :
    (step >>= next) scope before = next value scope after := by
  change EStateM.bind (step scope) (fun value => next value scope) before = _
  rw [EStateM.bind, h]

theorem bind_of_error {error : LoweringError} (h : step scope before = .error error after) :
    (step >>= next) scope before = .error error after := by
  change EStateM.bind (step scope) (fun value => next value scope) before = _
  rw [EStateM.bind, h]

end Bind

/-! ### Runs of the elementary steps -/

theorem get_ok {scope : Scope} {before after progress : Progress}
    (h : (get : Emit Progress) scope before = .ok progress after) :
    before = progress ∧ before = after := by
  cases h
  exact ⟨rfl, rfl⟩

theorem read_ok {scope other : Scope} {before after : Progress}
    (h : (read : Emit Scope) scope before = .ok other after) :
    scope = other ∧ before = after := by
  cases h
  exact ⟨rfl, rfl⟩

theorem emit_ok {instr : Instr} {scope : Scope} {before after : Progress} {result : Unit}
    (h : emit instr scope before = .ok result after)
    (hinstr : ∀ label, .markLabel label ≠ instr) :
    before.Appends after [instr] ∧ after.builder.labels.length = before.builder.labels.length := by
  cases h
  refine ⟨⟨⟨rfl, ?_, Nat.le_refl _⟩, rfl, rfl, rfl⟩, rfl⟩
  intro label
  rw [List.mem_singleton, or_iff_left (hinstr label)]
  rfl

theorem mark_ok {label : Nat} {scope : Scope} {before after : Progress} {result : Unit}
    (h : mark label scope before = .ok result after)
    (hlabel : label < before.builder.labels.length) :
    before.Appends after [.markLabel label] ∧
      after.builder.labels.length = before.builder.labels.length := by
  cases h
  have hlength : (before.builder.labels.set label true).length = before.builder.labels.length :=
    List.length_set
  refine ⟨⟨⟨rfl, ?_, Nat.le_of_eq hlength.symm⟩, rfl, rfl, rfl⟩, hlength⟩
  intro other
  rw [List.mem_singleton, Instr.markLabel.injEq]
  exact BodyBuilder.isMarked_mark hlabel other

theorem newLabel_ok {label : Label} {scope : Scope} {before after : Progress}
    (h : newLabel scope before = .ok label after) :
    before.builder.labels.length = label ∧ before.Appends after [] ∧
      after.builder.labels.length = before.builder.labels.length + 1 := by
  cases h
  have hlength : (before.builder.newLabel.2).labels.length = before.builder.labels.length + 1 :=
    List.length_append
  refine ⟨rfl, ⟨⟨by simp, ?_, ?_⟩, rfl, rfl, rfl⟩, hlength⟩
  · intro label
    rw [or_iff_left List.not_mem_nil]
    exact (before.builder.isMarked_newLabel label).symm ▸ Iff.rfl
  · exact Nat.le_of_lt (Nat.lt_of_lt_of_eq (Nat.lt_succ_self _) hlength.symm)

/-- When the step succeeds it appends a fragment that moves the stack from one
height to another, and its result is as told; when it fails, a type or an operand
is at fault. -/
structure Emits (typed : Prop) (scope : Scope) (step : Emit α) (depth depth' : Nat)
    (post : α → Prop := fun _ => True) : Prop where
  ok : ∀ before result after, step scope before = .ok result after →
    post result ∧ ∃ code, before.Appends after code ∧
      Fragment typed scope.registry.target before.builder.labels.length depth code depth'
        after.builder.labels.length
  fault : ∀ before error after, step scope before = .error error after → error.isUsage = true

namespace Emits

variable {typed : Prop} {scope : Scope} {depth depth' : Nat}

theorem silent {step : Emit α} {post : α → Prop}
    (h : ∀ before result after, step scope before = .ok result after →
      after = before ∧ post result)
    (hfault : ∀ before error after, step scope before = .error error after →
      error.isUsage = true) : Emits typed scope step depth depth post := by
  refine ⟨?_, hfault⟩
  intro before result after hstep
  obtain ⟨rfl, hpost⟩ := h before result after hstep
  exact ⟨hpost, [], .refl _, .nil⟩

theorem fails {step : Emit α} {post : α → Prop} {error : Progress → LoweringError}
    (h : ∀ before, step scope before = .error (error before) before)
    (herror : ∀ before, (error before).isUsage = true) :
    Emits typed scope step depth depth' post := by
  refine ⟨?_, ?_⟩
  · intro before result after hstep
    rw [h] at hstep
    cases hstep
  · intro before found after hstep
    rw [h] at hstep
    cases hstep
    exact herror before

theorem pure {post : α → Prop} {value : α} (h : post value) :
    Emits typed scope (Pure.pure value) depth depth post := by
  refine silent ?_ ?_
  · intro before result after hstep
    cases hstep
    exact ⟨rfl, h⟩
  · intro before error after hstep
    cases hstep

theorem bind {step : Emit α} {next : α → Emit β} {between : Nat} {post : α → Prop}
    {final : β → Prop} (hstep : Emits typed scope step depth between post)
    (hnext : ∀ value, post value → Emits typed scope (next value) between depth' final) :
    Emits typed scope (step >>= next) depth depth' final := by
  refine ⟨?_, ?_⟩
  · intro before result after hrun
    obtain ⟨value, middle, hfirst, hsecond⟩ := bind_ok hrun
    obtain ⟨hvalue, code, happends, hcode⟩ := hstep.ok before value middle hfirst
    obtain ⟨hresult, more, hmore, hfragment⟩ := (hnext value hvalue).ok middle result after hsecond
    exact ⟨hresult, code ++ more, happends.trans hmore, .append hcode hfragment⟩
  · intro before error after hrun
    rcases bind_error hrun with hfirst | ⟨value, middle, hfirst, hsecond⟩
    · exact hstep.fault before error after hfirst
    · exact (hnext value (hstep.ok before value middle hfirst).1).fault middle error after hsecond

theorem mono {step : Emit α} {post final : α → Prop} (h : Emits typed scope step depth depth' post)
    (himp : ∀ value, post value → final value) : Emits typed scope step depth depth' final :=
  ⟨fun before result after hstep =>
    ⟨himp result (h.ok before result after hstep).1, (h.ok before result after hstep).2⟩, h.fault⟩

theorem ite {condition : Prop} [Decidable condition] {yes no : Emit α} {post : α → Prop}
    (hyes : condition → Emits typed scope yes depth depth' post)
    (hno : ¬ condition → Emits typed scope no depth depth' post) :
    Emits typed scope (if condition then yes else no) depth depth' post := by
  split
  · exact hyes ‹_›
  · exact hno ‹_›

theorem read : Emits typed scope (MonadReader.read : Emit Scope) depth depth (scope = ·) := by
  refine silent ?_ ?_
  · intro before result after hstep
    cases hstep
    exact ⟨rfl, rfl⟩
  · intro before error after hstep
    cases hstep

theorem tally {change : Progress → Progress}
    (h : ∀ progress, (change progress).builder = progress.builder ∧
      (change progress).traps = progress.traps ∧
      (change progress).position = progress.position ∧
      (change progress).returnExit = progress.returnExit) :
    Emits typed scope (modify change : Emit Unit) depth depth := by
  refine ⟨?_, ?_⟩
  · intro before result after hstep
    cases hstep
    obtain ⟨hbuilder, htraps, hposition, hexit⟩ := h before
    refine ⟨trivial, [], ⟨⟨?_, ?_, ?_⟩, htraps, hposition, hexit⟩, ?_⟩
    · rw [hbuilder, List.append_nil]
    · simp [hbuilder]
    · simp [hbuilder]
    · rw [hbuilder]
      exact .nil
  · intro before error after hstep
    cases hstep

theorem forM_keep {items : List α} {step : α → Emit PUnit}
    (h : ∀ item ∈ items, Emits typed scope (step item) depth depth) :
    Emits typed scope (items.forM step) depth depth := by
  induction items with
  | nil => exact pure trivial
  | cons item items ih =>
      refine (h item List.mem_cons_self).bind fun _ _ => ?_
      exact ih fun other hother => h other (List.mem_cons_of_mem item hother)

theorem forM_push {items : List α} {step : α → Emit PUnit}
    (h : ∀ item ∈ items, ∀ depth, Emits typed scope (step item) depth (depth + 1)) :
    Emits typed scope (items.forM step) depth (depth + items.length) := by
  induction items generalizing depth with
  | nil => exact pure trivial
  | cons item items ih =>
      refine (h item List.mem_cons_self depth).bind fun _ _ => ?_
      rw [List.length_cons, Nat.add_comm items.length, ← Nat.add_assoc]
      exact ih fun other hother => h other (List.mem_cons_of_mem item hother)

end Emits

/-! ## Steps that are no fragments -/

/-- A step that stays at a position and whose failure no branch is to blame for,
only a type or an operand. -/
structure Blameless (scope : Scope) (position : Nat) (step : Emit α) : Prop where
  ok : ∀ before result after, before.position = position →
    step scope before = .ok result after → after.position = position
  fault : ∀ before error after, before.position = position →
    step scope before = .error error after → error.isUsage = true

theorem Emits.blameless {typed : Prop} {scope : Scope} {depth depth' : Nat} {step : Emit α}
    {post : α → Prop} (h : Emits typed scope step depth depth' post) (position : Nat) :
    Blameless scope position step := by
  refine ⟨?_, fun before error after _ => h.fault before error after⟩
  intro before result after hposition hstep
  obtain ⟨-, code, happends, -⟩ := h.ok before result after hstep
  exact happends.position.trans hposition

namespace Blameless

variable {scope : Scope} {position : Nat}

theorem of_total {step : Emit α}
    (h : ∀ before, ∃ result after, step scope before = .ok result after ∧
      after.position = before.position) : Blameless scope position step := by
  refine ⟨?_, ?_⟩
  · intro before result after hposition hstep
    obtain ⟨_, _, hrun, hsame⟩ := h before
    rw [hrun] at hstep
    cases hstep
    exact hsame.trans hposition
  · intro before error after _ hstep
    obtain ⟨_, _, hrun, -⟩ := h before
    rw [hrun] at hstep
    cases hstep

theorem pure {value : α} : Blameless scope position (Pure.pure value : Emit α) :=
  of_total fun _ => ⟨_, _, rfl, rfl⟩

theorem get : Blameless scope position (MonadState.get : Emit Progress) :=
  of_total fun _ => ⟨_, _, rfl, rfl⟩

theorem read : Blameless scope position (MonadReader.read : Emit Scope) :=
  of_total fun _ => ⟨_, _, rfl, rfl⟩

theorem emit {instr : Instr} : Blameless scope position (Emit.emit instr) :=
  of_total fun _ => ⟨_, _, rfl, rfl⟩

theorem mark {label : Label} : Blameless scope position (Emit.mark label) :=
  of_total fun _ => ⟨_, _, rfl, rfl⟩

theorem newLabel : Blameless scope position Emit.newLabel :=
  of_total fun _ => ⟨_, _, rfl, rfl⟩

theorem bind {step : Emit α} {next : α → Emit β} (hstep : Blameless scope position step)
    (hnext : ∀ value, Blameless scope position (next value)) :
    Blameless scope position (step >>= next) := by
  refine ⟨?_, ?_⟩
  · intro before result after hposition hrun
    obtain ⟨value, middle, hfirst, hsecond⟩ := bind_ok hrun
    exact (hnext value).ok middle result after (hstep.ok before value middle hposition hfirst)
      hsecond
  · intro before error after hposition hrun
    rcases bind_error hrun with hfirst | ⟨value, middle, hfirst, hsecond⟩
    · exact hstep.fault before error after hposition hfirst
    · exact (hnext value).fault middle error after
        (hstep.ok before value middle hposition hfirst) hsecond

theorem ite {condition : Prop} [Decidable condition] {yes no : Emit α}
    (hyes : Blameless scope position yes) (hno : Blameless scope position no) :
    Blameless scope position (if condition then yes else no) := by
  split
  · exact hyes
  · exact hno

end Blameless

/-! ## Elementary steps -/

section Elementary

variable {typed : Prop} {scope : Scope} {depth depth' : Nat}

theorem emits_unsupported {post : α → Prop} (found : String) :
    Emits typed scope (unsupported found : Emit α) depth depth' post :=
  Emits.fails (fun _ => rfl) fun _ => rfl

theorem emits_throwAt {post : α → Prop} (error : Site → LoweringError)
    (herror : ∀ site, (error site).isUsage = true) :
    Emits typed scope (do throw (error (← site)) : Emit α) depth depth' post :=
  Emits.fails (fun _ => rfl) fun _ => herror _

theorem emits_orUnsupported (value : Option α) (found : String) :
    Emits typed scope (orUnsupported value found) depth depth (value = some ·) := by
  cases value with
  | some value => exact Emits.pure rfl
  | none => exact emits_unsupported found

theorem emits_ofExcept {result : Except LoweringError α}
    (h : ∀ error, result = .error error → error.isUsage = true) :
    Emits typed scope (ofExcept result) depth depth (result = .ok ·) := by
  cases result with
  | ok value => exact Emits.pure rfl
  | error error => exact Emits.fails (fun _ => rfl) fun _ => h error rfl

theorem emits_emit_of {instr : Instr} (hplain : instr.isPlain = true)
    (heffect : typed → instr.pops scope.registry.target ≤ depth ∧
      depth' + instr.pops scope.registry.target = depth + instr.pushes scope.registry.target) :
    Emits typed scope (emit instr) depth depth' := by
  refine ⟨?_, ?_⟩
  · intro before result after hstep
    have hmark (label : Label) : .markLabel label ≠ instr := by
      rintro rfl
      cases hplain
    obtain ⟨happends, hlabels⟩ := emit_ok hstep hmark
    rw [hlabels]
    exact ⟨trivial, [instr], happends, .plain hplain heffect⟩
  · intro before error after hstep
    cases hstep

theorem emits_emit {instr : Instr} (depth : Nat) (hplain : instr.isPlain = true) :
    Emits typed scope (emit instr) (depth + instr.pops scope.registry.target)
      (depth + instr.pushes scope.registry.target) :=
  emits_emit_of hplain fun _ => ⟨Nat.le_add_left _ _, by omega⟩

theorem emits_bridge : Emits typed scope bridge depth depth :=
  Emits.tally fun _ => ⟨rfl, rfl, rfl, rfl⟩

theorem slots_of_isConstructor {member : RuntimeMember} (h : member.isConstructor = true) :
    member.signature.ret.slots = 1 := by
  cases member <;> simp [RuntimeMember.isConstructor] at h <;>
    simp [RuntimeMember.signature, TargetType.slots]

theorem emits_callRuntime_of {member : RuntimeMember}
    (heffect : typed → member.signature.params.length ≤ depth ∧
      depth' + member.signature.params.length = depth + member.signature.ret.slots) :
    Emits typed scope (callRuntime member) depth depth' := by
  unfold callRuntime
  split
  · rename_i hconstructor
    refine emits_emit_of rfl fun htyped => ?_
    have hslots := slots_of_isConstructor hconstructor
    rw [hslots] at heffect
    exact heffect htyped
  · refine emits_emit_of rfl fun htyped => ?_
    simpa [Instr.pops, Instr.pushes, CallTarget.signature, CallTarget.receivers]
      using heffect htyped

theorem emits_callRuntime (depth : Nat) (member : RuntimeMember) :
    Emits typed scope (callRuntime member) (depth + member.signature.params.length)
      (depth + member.signature.ret.slots) :=
  emits_callRuntime_of fun _ => ⟨Nat.le_add_left _ _, by omega⟩

end Elementary

end Emit

end BytecodeLowering

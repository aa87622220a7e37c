import BytecodeLowering.Proofs.Body.Fragment
import BytecodeLowering.Proofs.Lower.Proper

/-!
# Fragments of loads, stores and conversions

A conversion to anything but void keeps the height of the stack, on both ways
through a test for null.
-/

namespace BytecodeLowering

def Scope.typeOf? (scope : Scope) (register : Int) : Option TargetType :=
  register.toNat?.bind (scope.registerTypes[·]?)

def Scope.sourceIndex (scope : Scope) (register : Int) : TypeIndex :=
  scope.function.registers.getD register.toNat 0

theorem Scope.Sound.typeOf? {scope : Scope} (h : scope.Sound) {register : Int} {type : TargetType}
    (htype : scope.typeOf? register = some type) : type.Proper := by
  obtain ⟨index, -, hindex⟩ := Option.bind_eq_some_iff.mp htype
  exact h.registers type (List.mem_of_getElem? hindex)

/-! ## Conversions that keep one value -/

namespace TargetType

def contents : TargetType → List TargetType
  | .nullable inner => inner :: inner.contents
  | _ => []

/-- Conversions between types that take one value and leave one.  Void counts
for no value as a target and inside a nullable, unless the nullable is passed
on whole or opened no further than to the target. -/
def Keeps (source target : TargetType) : Prop :=
  source = target ∨ target ≠ .void ∧
    (source = .void ∨ target = .dynamic ∨ target = .any ∨ target ∈ source.contents ∨
      TargetType.void ∉ source.contents ∧ TargetType.void ∉ target.contents)

instance decidableKeeps (source target : TargetType) : Decidable (source.Keeps target) :=
  inferInstanceAs (Decidable (_ ∨ _ ∧ (_ ∨ _ ∨ _ ∨ _ ∨ _ ∧ _)))

section Keeps

variable {source target inner : TargetType}

theorem Keeps.ne_void (h : source.Keeps target) (hother : source ≠ target) : target ≠ .void :=
  (h.resolve_left hother).1

theorem Keeps.wrapped (h : source.Keeps (.nullable inner)) (hplain : source.contents = [])
    (hother : ¬ (source = .nullable inner ∨ source = .void)) : source.Keeps inner := by
  obtain ⟨hnullable, hvoid⟩ := not_or.mp hother
  obtain hfound | hfound | hfound | hfound | ⟨-, htarget⟩ :=
    (h.resolve_left hnullable).2
  · exact absurd hfound hvoid
  · cases hfound
  · cases hfound
  · rw [hplain] at hfound
    cases hfound
  · obtain ⟨hinner, hdeeper⟩ := not_or.mp (mt List.mem_cons.mpr htarget)
    refine .inr ⟨Ne.symm hinner, .inr (.inr (.inr (.inr ⟨?_, hdeeper⟩)))⟩
    rw [hplain]
    exact List.not_mem_nil

theorem Keeps.opened (h : Keeps (.nullable inner) target) (hother : .nullable inner ≠ target)
    (hdynamic : target ≠ .dynamic) (hany : target ≠ .any) : inner ≠ .void ∧ inner.Keeps target := by
  obtain ⟨hvoid, hcases⟩ := h.resolve_left hother
  obtain hfound | hfound | hfound | hfound | ⟨hsource, htarget⟩ := hcases
  · cases hfound
  · exact absurd hfound hdynamic
  · exact absurd hfound hany
  · rcases List.mem_cons.mp hfound with rfl | hdeeper
    · exact ⟨hvoid, .inl rfl⟩
    · refine ⟨?_, .inr ⟨hvoid, .inr (.inr (.inr (.inl hdeeper)))⟩⟩
      rintro rfl
      cases hdeeper
  · obtain ⟨hinner, hdeeper⟩ := not_or.mp (mt List.mem_cons.mpr hsource)
    exact ⟨Ne.symm hinner, .inr ⟨hvoid, .inr (.inr (.inr (.inr ⟨hdeeper, htarget⟩)))⟩⟩

theorem Keeps.of_opened (h : inner.Keeps target) (hinner : inner ≠ .void)
    (htarget : target ≠ .void) : Keeps (.nullable inner) target := by
  refine .inr ⟨htarget, ?_⟩
  obtain rfl | ⟨-, hfound | hfound | hfound | hfound | ⟨hsource, hother⟩⟩ := h
  · exact .inr (.inr (.inr (.inl List.mem_cons_self)))
  · exact absurd hfound hinner
  · exact .inr (.inl hfound)
  · exact .inr (.inr (.inl hfound))
  · exact .inr (.inr (.inr (.inl (List.mem_cons_of_mem inner hfound))))
  · refine .inr (.inr (.inr (.inr ⟨?_, hother⟩)))
    exact List.not_mem_cons_of_ne_of_not_mem (Ne.symm hinner) hsource

theorem Held.void_not_mem_contents {type : TargetType} (h : type.Held) :
    TargetType.void ∉ type.contents := by
  induction type using contents.induct with
  | case1 inner ih =>
      have hinner := h.proper.wrapped
      exact List.not_mem_cons_of_ne_of_not_mem (Ne.symm hinner.value) (ih hinner)
  | case2 type hplain =>
      rw [contents]
      · exact List.not_mem_nil
      · exact hplain

theorem Keeps.of_held (hsource : ∀ inner, source = .nullable inner → inner.Held)
    (htarget : target.Held) : source.Keeps target := by
  refine .inr ⟨htarget.value, .inr (.inr (.inr (.inr ⟨?_, htarget.void_not_mem_contents⟩)))⟩
  cases source with
  | nullable inner =>
      have hinner := hsource inner rfl
      exact List.not_mem_cons_of_ne_of_not_mem (Ne.symm hinner.value) hinner.void_not_mem_contents
  | _ => exact List.not_mem_nil

end Keeps

end TargetType

namespace Emit

variable {typed : Prop} {scope : Scope} {depth depth' : Nat}

/-! ## Registers -/

theorem registerIndex_ok {register : Int} {before after : Progress} {index : Nat}
    (h : registerIndex register scope before = .ok index after) :
    before = after ∧ register.toNat? = some index ∧ index < scope.registerTypes.length := by
  unfold registerIndex at h
  cases hfound : register.toNat? with
  | none =>
      simp only [hfound] at h
      cases h
  | some found =>
      simp only [hfound] at h
      obtain ⟨_, _, hread, h⟩ := bind_ok h
      obtain ⟨rfl, rfl⟩ := read_ok hread
      split at h
      · rename_i hlt
        cases h
        exact ⟨rfl, rfl, hlt⟩
      · cases h

theorem emits_registerIndex (register : Int) :
    Emits typed scope (registerIndex register) depth depth fun index =>
      register.toNat? = some index ∧ index < scope.registerTypes.length := by
  have hthrow : Emits typed scope (do throw (.invalidRegister (← site) register) : Emit Nat) depth
      depth fun index => register.toNat? = some index ∧ index < scope.registerTypes.length :=
    emits_throwAt (.invalidRegister · register) fun _ => rfl
  unfold registerIndex
  split
  · rename_i hfound
    refine Emits.read.bind ?_
    rintro _ rfl
    exact Emits.ite (fun hlt => Emits.pure ⟨hfound, hlt⟩) fun _ => hthrow
  · exact hthrow

theorem registerType_ok {register : Int} {before after : Progress} {type : TargetType}
    (h : registerType register scope before = .ok type after) :
    before = after ∧ scope.typeOf? register = some type := by
  obtain ⟨index, _, hindex, h⟩ := bind_ok h
  obtain ⟨rfl, hfound, hlt⟩ := registerIndex_ok hindex
  obtain ⟨_, _, hread, h⟩ := bind_ok h
  obtain ⟨rfl, rfl⟩ := read_ok hread
  cases h
  refine ⟨rfl, ?_⟩
  simp [Scope.typeOf?, hfound, hlt]

theorem emits_registerType (register : Int) :
    Emits typed scope (registerType register) depth depth fun type =>
      scope.typeOf? register = some type := by
  refine (emits_registerIndex register).bind ?_
  rintro index ⟨hindex, hlt⟩
  refine Emits.read.bind ?_
  rintro _ rfl
  exact Emits.pure (by simp [Scope.typeOf?, hindex, hlt])

theorem emits_sourceTypeIndex (register : Int) :
    Emits typed scope (sourceTypeIndex register) depth depth fun type =>
      type = scope.sourceIndex register := by
  refine (emits_registerIndex register).bind ?_
  rintro index ⟨hindex, -⟩
  refine Emits.read.bind ?_
  rintro _ rfl
  refine Emits.pure ?_
  rw [Scope.sourceIndex, Int.mem_toNat?.mp hindex, Int.toNat_natCast]

theorem emits_sourceType (register : Int) :
    Emits typed scope (sourceType register) depth depth fun source =>
      scope.image.type? (scope.sourceIndex register) = some source := by
  refine Emits.read.bind ?_
  rintro _ rfl
  refine (emits_sourceTypeIndex register).bind ?_
  rintro _ rfl
  split
  · exact Emits.pure ‹_›
  · exact Emits.fails (fun _ => rfl) fun _ => rfl

theorem emits_load (register : Int) :
    Emits typed scope (load register) depth (depth + 1) fun type =>
      scope.typeOf? register = some type := by
  refine (emits_registerIndex register).bind fun index _ => ?_
  refine (emits_registerType register).bind fun type htype => Emits.read.bind fun other _ => ?_
  have hemit : Emits typed scope (emit (loadInstr other index type)) depth (depth + 1) := by
    unfold loadInstr
    split
    · exact emits_emit depth rfl
    · split
      · exact emits_emit depth rfl
      · exact emits_emit depth rfl
  exact hemit.bind fun _ _ => Emits.pure htype

theorem emits_store (register : Int) :
    Emits typed scope (store register) (depth + 1) depth := by
  refine (emits_registerIndex register).bind fun index _ => ?_
  refine (emits_registerType register).bind fun type _ => Emits.read.bind fun other _ => ?_
  unfold storeInstr
  split
  · exact emits_emit depth rfl
  · split
    · exact emits_emit depth rfl
    · exact emits_emit depth rfl

/-! ## Conversions -/

theorem emits_pushDefault (type : TargetType) :
    Emits typed scope (pushDefault type) depth (depth + 1) := by
  unfold pushDefault defaultInstr
  split <;> exact emits_emit depth rfl

theorem emits_convertNumeric (source target : TargetType) :
    Emits typed scope (convertNumeric source target) (depth + 1) (depth + 1) := by
  unfold convertNumeric
  split
  · exact emits_emit depth rfl
  · exact Emits.pure trivial

theorem emits_unwrapObject (target : TargetType) (checked : Bool) :
    Emits typed scope (unwrapObject target checked) (depth + 1) (depth + 1) := by
  refine Emits.ite ?_ ?_
  · intro _
    exact Emits.bind (emits_emit depth rfl) fun _ _ => emits_bridge
  · intro _
    exact Emits.ite (fun _ => emits_emit depth rfl) fun _ => Emits.pure trivial

theorem emits_convertReference (source target : TargetType) (checked : Bool) :
    Emits typed scope (convertReference source target checked) (depth + 1) (depth + 1) := by
  refine Emits.read.bind fun _ _ => ?_
  exact Emits.ite (fun _ => emits_emit depth rfl) fun _ => Emits.pure trivial

theorem emits_wrapDynamic (source : TargetType) :
    Emits typed scope (wrapDynamic source) (depth + 1) (depth + 1) := by
  have hbox : Emits typed scope (boxIfValue source) (depth + 1) (depth + 1) :=
    Emits.ite (fun _ => emits_emit depth rfl) fun _ => Emits.pure trivial
  refine hbox.bind fun _ _ => ?_
  exact (emits_callRuntime depth .dynamicNew).bind fun _ _ => emits_bridge

theorem emits_wrapAny (source : TargetType) :
    Emits typed scope (wrapAny source) (depth + 1) (depth + 1) := by
  refine Emits.ite ?_ fun _ => Emits.pure trivial
  intro _
  exact Emits.bind (emits_emit depth rfl) fun _ _ => emits_bridge

theorem emits_convertPlain {source target : TargetType} (checked : Bool)
    (htarget : typed → target ≠ .void) :
    Emits typed scope (convertPlain source target checked) (depth + 1) (depth + 1) := by
  unfold convertPlain
  split
  · exact emits_emit_of rfl fun htyped => absurd rfl (htarget htyped)
  · refine Emits.ite ?_ fun _ => Emits.pure trivial
    intro _
    exact Emits.bind (emits_emit depth rfl) fun _ _ => emits_pushDefault _
  · refine Emits.ite (fun _ => emits_convertNumeric _ _) ?_
    intro _
    split
    · exact emits_wrapDynamic _
    · exact emits_wrapAny _
    · refine (emits_callRuntime depth .dynamicValue).bind fun _ _ => ?_
      exact emits_bridge.bind fun _ _ => emits_unwrapObject _ _
    · exact emits_unwrapObject _ _
    · exact Emits.ite (fun _ => emits_unsupported _) fun _ => emits_convertReference _ _ _

theorem emits_nullTest {step : Emit Unit} {wrap : RuntimeMember} (inner : TargetType)
    (hstep : Emits typed scope step (depth + 1) (depth + 1))
    (hwrap : Emits typed scope (callRuntime wrap) (depth + 1) (depth + 1)) :
    Emits typed scope (do
      let empty ← newLabel
      let done ← newLabel
      emit .dup
      emit (.brFalse empty)
      step
      callRuntime wrap
      emit (.br done)
      mark empty
      emit .pop
      pushDefault (.nullable inner)
      mark done) (depth + 1) (depth + 1) := by
  refine ⟨?_, ?_⟩
  · intro before result after hrun
    obtain ⟨empty, p₁, h₁, hrun⟩ := bind_ok hrun
    obtain ⟨done, p₂, h₂, hrun⟩ := bind_ok hrun
    obtain ⟨_, p₃, h₃, hrun⟩ := bind_ok hrun
    obtain ⟨_, p₄, h₄, hrun⟩ := bind_ok hrun
    obtain ⟨_, p₅, hinner, hrun⟩ := bind_ok hrun
    obtain ⟨_, p₆, hcall, hrun⟩ := bind_ok hrun
    obtain ⟨_, p₇, h₇, hrun⟩ := bind_ok hrun
    obtain ⟨_, p₈, h₈, hrun⟩ := bind_ok hrun
    obtain ⟨_, p₉, h₉, hrun⟩ := bind_ok hrun
    obtain ⟨_, p₁₀, h₁₀, hlast⟩ := bind_ok hrun
    obtain ⟨rfl, a₁, l₁⟩ := newLabel_ok h₁
    obtain ⟨rfl, a₂, l₂⟩ := newLabel_ok h₂
    obtain ⟨a₃, l₃⟩ := emit_ok h₃ (Instr.ne_mark rfl)
    obtain ⟨a₄, l₄⟩ := emit_ok h₄ (Instr.ne_mark rfl)
    obtain ⟨-, code, happends, hcode⟩ := hstep.ok _ _ _ hinner
    obtain ⟨-, more, hmore, hfragment⟩ := hwrap.ok _ _ _ hcall
    obtain ⟨a₇, l₇⟩ := emit_ok h₇ (Instr.ne_mark rfl)
    have hgrows : before.builder.labels.length + 2 ≤ p₇.builder.labels.length := by
      have := (happends.trans (hmore.trans a₇)).grows
      omega
    obtain ⟨a₈, l₈⟩ := mark_ok h₈ (by omega)
    obtain ⟨a₉, l₉⟩ := emit_ok h₉ (Instr.ne_mark rfl)
    obtain ⟨a₁₀, l₁₀⟩ := emit_ok h₁₀ (Instr.ne_mark rfl)
    obtain ⟨a₁₁, l₁₁⟩ := mark_ok hlast (by omega)
    have hinside : Fragment typed scope.registry.target (before.builder.labels.length + 2)
        (depth + 1) (code ++ more) (depth + 1) after.builder.labels.length := by
      rw [l₁₁, l₁₀, l₉, l₈, l₇]
      rw [l₄, l₃, l₂, l₁] at hcode
      exact hcode.append hfragment
    refine ⟨trivial, _, ?_, .nullTest (fun _ => Nat.succ_pos depth) hinside⟩
    have hall := ((((((((((a₁.trans a₂).trans a₃).trans a₄).trans happends).trans hmore).trans
      a₇).trans a₈).trans a₉).trans a₁₀).trans a₁₁)
    simpa [l₁, defaultInstr] using hall
  · intro before error after hrun
    refine Blameless.fault ?_ before error after rfl hrun
    refine Blameless.newLabel.bind fun empty => Blameless.newLabel.bind fun done => ?_
    refine Blameless.emit.bind fun _ => Blameless.emit.bind fun _ => ?_
    refine (hstep.blameless _).bind fun _ => (hwrap.blameless _).bind fun _ => ?_
    refine Blameless.emit.bind fun _ => Blameless.mark.bind fun _ => ?_
    exact Blameless.emit.bind fun _ => Blameless.emit.bind fun _ => Blameless.mark

/-- A conversion into a nullable wraps at every level. -/
theorem emits_convertInto (checked : Bool) {source target : TargetType}
    (hplain : source.contents = []) (hkeeps : typed → source.Keeps target) :
    Emits typed scope (convertInto checked source target) (depth + 1) (depth + 1) := by
  have hnew (inner : TargetType) :
      Emits typed scope (callRuntime (.nullableNew inner)) (depth + 1) (depth + 1) :=
    emits_callRuntime depth (.nullableNew inner)
  induction target using convertInto.induct source with
  | case1 inner hsame =>
      rw [convertInto, if_pos hsame]
      exact Emits.pure trivial
  | case2 inner hother hvalue ih =>
      rw [convertInto, if_neg hother, if_pos hvalue]
      exact (ih fun htyped => (hkeeps htyped).wrapped hplain hother).bind fun _ _ => hnew inner
  | case3 inner hother hvalue ih =>
      rw [convertInto, if_neg hother, if_neg hvalue]
      exact emits_nullTest inner (ih fun htyped => (hkeeps htyped).wrapped hplain hother)
        (hnew inner)
  | case4 hnullable =>
      rw [convertInto, if_pos rfl]
      · exact Emits.pure trivial
      · exact hnullable
  | case5 target hnullable hother =>
      rw [convertInto, if_neg hother]
      · exact emits_convertPlain checked fun htyped => (hkeeps htyped).ne_void hother
      · exact hnullable

theorem emits_convert_of_keeps (checked : Bool) {source target : TargetType}
    (hkeeps : typed → source.Keeps target) :
    Emits typed scope (convert checked source target) (depth + 1) (depth + 1) := by
  induction source, target using convert.induct with
  | case1 inner =>
      rw [convert, if_pos rfl]
      exact Emits.pure trivial
  | case2 inner target hother hplain =>
      rw [convert, if_neg hother, if_pos hplain]
      exact emits_convertPlain checked fun htyped => (hkeeps htyped).ne_void (Ne.symm hother)
  | case3 inner target hother hplain ih =>
      rw [convert, if_neg hother, if_neg hplain]
      simp only [not_or] at hplain
      have hopened (htyped : typed) := (hkeeps htyped).opened (Ne.symm hother) hplain.2.1 hplain.2.2
      have hvalue : Emits typed scope (callRuntime (.nullableValue inner))
          (depth + 1) (depth + 1) := by
        refine emits_callRuntime_of fun htyped => ?_
        simp [RuntimeMember.signature, TargetType.slots, (hopened htyped).1]
      exact hvalue.bind fun _ _ => ih fun htyped => (hopened htyped).2
  | case4 source target hnullable =>
      rw [convert]
      · refine emits_convertInto checked ?_ hkeeps
        cases source with
        | nullable inner => exact absurd rfl (hnullable inner)
        | _ => rfl
      · exact hnullable

theorem emits_convert (checked : Bool) {source target : TargetType}
    (hsource : typed → ∀ inner, source = .nullable inner → inner.Held)
    (htarget : typed → target.Held) :
    Emits typed scope (convert checked source target) (depth + 1) (depth + 1) :=
  emits_convert_of_keeps checked fun htyped => .of_held (hsource htyped) (htarget htyped)

theorem emits_loadAs (hscope : typed → scope.Sound) (register : Int) {target : TargetType}
    (htarget : typed → target.Held) :
    Emits typed scope (loadAs register target) depth (depth + 1) := by
  refine (emits_load register).bind fun source hsource => ?_
  refine emits_convert true ?_ htarget
  rintro htyped inner rfl
  exact ((hscope htyped).typeOf? hsource).wrapped

theorem convert_self (checked : Bool) (type : TargetType) :
    convert checked type type = Pure.pure () := by
  have hinto (hnullable : ∀ inner, type = .nullable inner → False) :
      convertInto checked type type = Pure.pure () := by
    rw [convertInto, if_pos rfl]
    exact hnullable
  cases type with
  | nullable inner => rw [convert, if_pos rfl]
  | _ =>
      rw [convert]
      · exact hinto nofun
      · nofun

theorem emits_loadAs_self {register : Int} {target : TargetType}
    (h : scope.typeOf? register = some target) :
    Emits typed scope (loadAs register target) depth (depth + 1) := by
  refine (emits_load register).bind fun source hsource => ?_
  obtain rfl : source = target := Option.some.inj (hsource.symm.trans h)
  rw [coerce, convert_self]
  exact Emits.pure trivial

theorem emits_storeFrom (hscope : typed → scope.Sound) {register : Int} {source : TargetType}
    (hregister : typed → scope.typeOf? register ≠ some .void)
    (hsource : typed → ∀ inner, source = .nullable inner → inner.Held) :
    Emits typed scope (storeFrom register source) (depth + 1) depth := by
  refine (emits_registerType register).bind fun type htype => ?_
  have hheld (htyped : typed) : type.Held := by
    refine ⟨?_, (hscope htyped).typeOf? htype⟩
    rintro rfl
    exact hregister htyped htype
  exact (emits_convert true hsource hheld).bind fun _ _ => emits_store register

end Emit

end BytecodeLowering

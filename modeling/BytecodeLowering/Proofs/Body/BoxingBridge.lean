import BytecodeLowering.Proofs.Body.Coercion
import BytecodeLowering.Proofs.Lower.TypeUnfolding
import BytecodeLowering.Proofs.Target.Evaluation

/-!
# Values that cross into a dynamic or an object and come back

A value that is converted to the dynamic type or to a plain object and back is
the value it was, for every type of a program but two.  A nullable is taken
into its carrier as it is but opened on the way back, so only the empty one
returns, from a plain object; and a dynamic value that has been an object is
wrapped a second time.
-/

namespace BytecodeLowering

namespace Emit

/-! ## The code of a conversion -/

/-- The step succeeds and appends the code, whose own labels are those from
`first` to before `next`. -/
def Writes (scope : Scope) (step : Emit Unit) (first : Nat) (code : List Instr) (next : Nat) :
    Prop :=
  ∀ before : Progress, before.builder.labels.length = first → ∃ after,
    step scope before = .ok () after ∧ after.builder.body = before.builder.body ++ code ∧
      after.builder.labels.length = next

namespace Writes

variable {scope : Scope} {first next : Nat}

theorem pure : Writes scope (Pure.pure ()) first [] first :=
  fun before hfirst => ⟨before, rfl, (List.append_nil _).symm, hfirst⟩

theorem emit (instr : Instr) : Writes scope (emit instr) first [instr] first :=
  fun _ hfirst => ⟨_, rfl, rfl, hfirst⟩

theorem mark (label : Label) : Writes scope (mark label) first [.markLabel label] first :=
  fun _ hfirst => ⟨_, rfl, rfl, List.length_set.trans hfirst⟩

theorem bridge : Writes scope bridge first [] first :=
  fun _ hfirst => ⟨_, rfl, (List.append_nil _).symm, hfirst⟩

theorem bind {step : Emit Unit} {following : Emit Unit} {middle : Nat} {code more : List Instr}
    (h : Writes scope step first code middle) (hnext : Writes scope following middle more next) :
    Writes scope (step >>= fun _ => following) first (code ++ more) next := by
  intro before hfirst
  obtain ⟨between, hstep, hcode, hmiddle⟩ := h before hfirst
  obtain ⟨after, hfollowing, hmore, hlast⟩ := hnext between hmiddle
  refine ⟨after, ?_, by rw [hmore, hcode, List.append_assoc], hlast⟩
  change EStateM.bind (step scope) (fun _ => following scope) before = _
  rw [EStateM.bind, hstep]
  exact hfollowing

theorem ite {condition : Prop} [Decidable condition] {yes no : Emit Unit} {code other : List Instr}
    (hyes : condition → Writes scope yes first code next)
    (hno : ¬ condition → Writes scope no first other next) :
    Writes scope (if condition then yes else no) first (if condition then code else other) next := by
  split
  case isTrue h => exact hyes h
  case isFalse h => exact hno h

theorem newLabel {rest : Label → Emit Unit} {code : List Instr}
    (h : Writes scope (rest first) (first + 1) code next) :
    Writes scope (newLabel >>= rest) first code next := by
  intro before hfirst
  subst hfirst
  have hlength : before.builder.newLabel.2.labels.length = before.builder.labels.length + 1 :=
    List.length_append
  exact h { before with builder := before.builder.newLabel.2 } hlength

end Writes

variable {scope : Scope} {first : Nat}

theorem writes_unwrapObject {target : TargetType} (htarget : target ≠ .any) :
    Writes scope (unwrapObject target true) first
      [if target.isValue then .unboxAny target else .castClass target] first := by
  have h : Writes scope (unwrapObject target true) first
      (if target.isValue = true then [Instr.unboxAny target] ++ [] else
        if true = true ∧ target ≠ .any then [.castClass target] else []) first :=
    .ite (fun _ => (Writes.emit _).bind .bridge) fun _ => .ite (fun _ => .emit _) fun _ => .pure
  cases hvalue : target.isValue <;> simpa [hvalue, htarget] using h

theorem writes_wrapDynamic (source : TargetType) :
    Writes scope (wrapDynamic source) first
      ((if source.isValue then [Instr.box source] else [])
        ++ [Instr.newObj (.runtime .dynamicNew)]) first :=
  (Writes.ite (fun _ => .emit _) fun _ => .pure).bind ((Writes.emit _).bind .bridge)

theorem writes_wrapAny (source : TargetType) :
    Writes scope (wrapAny source) first (if source.isValue then [.box source] else []) first :=
  .ite (fun _ => (Writes.emit _).bind .bridge) fun _ => .pure

/-! ## Which conversion is taken -/

theorem convertPlain_dynamic {source : TargetType} (checked : Bool) (h : source ≠ .void) :
    convertPlain source .dynamic checked = wrapDynamic source := by
  cases source with
  | builtin type => cases type <;> first | rfl | exact absurd rfl h
  | _ => rfl

theorem convertPlain_any (source : TargetType) (checked : Bool) :
    convertPlain source .any checked = wrapAny source := by
  cases source with
  | builtin type => cases type <;> rfl
  | _ => rfl

theorem convertPlain_of_dynamic {target : TargetType} (checked : Bool) (hvoid : target ≠ .void)
    (hdynamic : target ≠ .dynamic) (hany : target ≠ .any) :
    convertPlain .dynamic target checked = (do
      callRuntime .dynamicValue
      bridge
      unwrapObject target checked) := by
  cases target with
  | builtin type => cases type <;> first | rfl | contradiction
  | _ => rfl

theorem convertPlain_of_any {target : TargetType} (checked : Bool) (hvoid : target ≠ .void)
    (hdynamic : target ≠ .dynamic) (hany : target ≠ .any) :
    convertPlain .any target checked = unwrapObject target checked := by
  cases target with
  | builtin type => cases type <;> first | rfl | contradiction
  | _ => rfl

theorem coerce_plain {source target : TargetType} (hsource : ∀ inner, source ≠ .nullable inner)
    (htarget : ∀ inner, target ≠ .nullable inner) (hother : source ≠ target) :
    coerce source target = convertPlain source target true := by
  rw [coerce, convert.eq_def]
  split
  · exact absurd rfl (hsource _)
  · rw [convertInto.eq_def]
    split
    · exact absurd rfl (htarget _)
    · rw [if_neg hother]

/-! ## There and back -/

def wrapCode (type carrier : TargetType) : List Instr :=
  (if type.isValue then [.box type] else [])
    ++ if carrier = .dynamic then [.newObj (.runtime .dynamicNew)] else []

def unwrapCode (type carrier : TargetType) : List Instr :=
  (if carrier = .dynamic then [.call (.runtime .dynamicValue)] else [])
    ++ [if type.isValue then .unboxAny type else .castClass type]

section Plain

variable {type carrier : TargetType} (hvoid : type ≠ .void) (hany : type ≠ .any)
  (hdynamic : type ≠ .dynamic) (hplain : ∀ inner, type ≠ .nullable inner)
  (hcarrier : carrier = .dynamic ∨ carrier = .any)

include hvoid hany hdynamic hplain hcarrier

theorem writes_into_carrier :
    Writes scope (coerce type carrier) first (wrapCode type carrier) first := by
  rcases hcarrier with rfl | rfl
  · rw [coerce_plain hplain (by simp) hdynamic, convertPlain_dynamic true hvoid]
    exact writes_wrapDynamic type
  · rw [coerce_plain hplain (by simp) hany, convertPlain_any type true]
    simpa [wrapCode] using writes_wrapAny type

theorem writes_from_carrier :
    Writes scope (coerce carrier type) first (unwrapCode type carrier) first := by
  rcases hcarrier with rfl | rfl
  · rw [coerce_plain (by simp) hplain hdynamic.symm, convertPlain_of_dynamic true hvoid hdynamic hany]
    exact (Writes.emit _).bind (Writes.bridge.bind (writes_unwrapObject hany))
  · rw [coerce_plain (by simp) hplain hany.symm, convertPlain_of_any true hvoid hdynamic hany]
    exact writes_unwrapObject hany

end Plain

def nullTestCode (inner : TargetType) (first : Label) (code : List Instr) : List Instr :=
  .dup :: .brFalse first :: (code ++ [Instr.newObj (.runtime (.nullableNew inner)), .br (first + 1),
    .markLabel first, .pop, .ldNull, .markLabel (first + 1)])

theorem writes_nullTest {source inner : TargetType} {next : Nat} {code : List Instr}
    (hother : ¬ (source = .nullable inner ∨ source = .void)) (hvalue : ¬ source.isValue = true)
    (h : Writes scope (convertInto true source inner) (first + 2) code next) :
    Writes scope (convertInto true source (.nullable inner)) first (nullTestCode inner first code)
      next := by
  rw [convertInto, if_neg hother, if_neg hvalue]
  refine .newLabel (.newLabel ?_)
  exact (Writes.emit _).bind ((Writes.emit _).bind (h.bind ((Writes.emit _).bind
    ((Writes.emit _).bind ((Writes.mark _).bind ((Writes.emit _).bind
      ((Writes.emit _).bind (Writes.mark _))))))))

theorem writes_from_any (target : TargetType) (first : Nat) :
    ∃ code next, Writes scope (convertInto true .any target) first code next ∧
      ∀ label, label < first → .markLabel label ∉ code := by
  induction target using convertInto.induct .any generalizing first with
  | case1 inner hsame => simp at hsame
  | case2 inner hother hvalue => cases hvalue
  | case3 inner hother hvalue ih =>
      obtain ⟨code, next, hcode, hlabels⟩ := ih (first + 2)
      refine ⟨nullTestCode inner first code, next, writes_nullTest hother hvalue hcode, ?_⟩
      intro label hlabel
      have hinner := hlabels label (by omega)
      simp only [nullTestCode, List.mem_append, List.mem_cons, List.not_mem_nil, or_false,
        Instr.markLabel.injEq, reduceCtorEq, false_or, hinner, not_or]
      exact ⟨Nat.ne_of_lt hlabel, Nat.ne_of_lt (by omega)⟩
  | case4 hnullable =>
      refine ⟨[], first, ?_, by simp⟩
      rw [convertInto, if_pos rfl]
      · exact .pure
      · exact hnullable
  | case5 target hnullable hother =>
      have hcode : convertInto true .any target = convertPlain .any target true := by
        rw [convertInto, if_neg hother]
        exact hnullable
      rw [hcode]
      by_cases hvoid : target = .void
      · subst hvoid
        exact ⟨[.pop], first, .emit .pop, by simp⟩
      by_cases hdynamic : target = .dynamic
      · subst hdynamic
        exact ⟨_, first, writes_wrapDynamic .any, by simp [TargetType.isValue]⟩
      · rw [convertPlain_of_any true hvoid hdynamic (Ne.symm hother)]
        refine ⟨_, first, writes_unwrapObject (Ne.symm hother), fun label _ => ?_⟩
        split <;> simp

end Emit

/-! ## Running there and back -/

/-- Whatever was written before, the conversions of a value into its carrier
and back are written, and their code completes with the same value. -/
def Runtime.RoundTrips (host : Runtime) (scope : Scope) (type carrier : TargetType)
    (value : host.Value) : Prop :=
  ∀ before : Progress, ∃ after code,
    (do Emit.coerce type carrier; Emit.coerce carrier type) scope before = .ok () after ∧
      after.builder.body = before.builder.body ++ code ∧
        ∀ stack, host.Completes code (value :: stack) (value :: stack)

namespace Runtime

variable {host : Runtime} {scope : Scope} {type carrier : TargetType} {value : host.Value}

theorem roundTrips_of_writes
    (h : ∀ first, ∃ code next,
      Emit.Writes scope (do Emit.coerce type carrier; Emit.coerce carrier type) first code next ∧
        ∀ stack, host.Completes code (value :: stack) (value :: stack)) :
    host.RoundTrips scope type carrier value := by
  intro before
  obtain ⟨code, next, hwrites, hruns⟩ := h before.builder.labels.length
  obtain ⟨after, hrun, hbody, -⟩ := hwrites before rfl
  exact ⟨after, code, hrun, hbody, hruns⟩

theorem not_roundTrips {code : List Instr} {after : Progress} (stack : List host.Value)
    (hrun : (do Emit.coerce type carrier; Emit.coerce carrier type) scope { builder := {} } =
      .ok () after)
    (hcode : after.builder.body = code)
    (hfails : ¬ host.Completes code (value :: stack) (value :: stack)) :
    ¬ host.RoundTrips scope type carrier value := by
  intro h
  obtain ⟨found, written, hfound, hwritten, hruns⟩ := h { builder := {} }
  cases hfound.symm.trans hrun
  rw [hcode, List.nil_append] at hwritten
  exact hfails (hwritten ▸ hruns stack)

theorem effects_bridge (hhost : host.Contract) (hvoid : type ≠ .void)
    (hvalue : host.HasType type value) (stack : List host.Value) :
    effects host (Emit.wrapCode type carrier ++ Emit.unwrapCode type carrier) (value :: stack) =
      some (value :: stack) := by
  unfold Emit.wrapCode Emit.unwrapCode
  cases hkind : type.isValue with
  | true =>
      have hbox := hhost.unbox_box type value hkind hvalue
      by_cases hcarrier : carrier = .dynamic <;>
        simp [hcarrier, effects, effect, hbox, hhost.dynamicValue_dynamicNew]
  | false =>
      have hreference : type.isReference = true := by
        simp [TargetType.isReference, hkind, hvoid]
      have hcast := hhost.cast_instance type value hreference hvalue
      by_cases hcarrier : carrier = .dynamic <;>
        simp [hcarrier, effects, effect, hcast, hhost.dynamicValue_dynamicNew]

theorem completes_nullTest (hhost : host.Contract) (inner : TargetType) (first : Label)
    {code : List Instr} (hlabel : .markLabel first ∉ code) (stack : List host.Value) :
    host.Completes (Emit.nullTestCode inner first code) (host.null :: stack)
      (host.null :: stack) := by
  obtain ⟨before, hbefore⟩ : ∃ before, before = [Instr.dup, .brFalse first] ++
    (code ++ [Instr.newObj (.runtime (.nullableNew inner)), .br (first + 1)]) := ⟨_, rfl⟩
  have hall : Emit.nullTestCode inner first code =
      before ++ [Instr.markLabel first, .pop, .ldNull, .markLabel (first + 1)] := by
    simp [hbefore, Emit.nullTestCode]
  have hplace : (Emit.nullTestCode inner first code).idxOf? (.markLabel first) =
      some before.length := by
    have hnew : .markLabel first ∉ before := by simp [hbefore, hlabel]
    rw [List.idxOf?_eq_some_iff]
    refine ⟨by simp [hall], by simp [hall], fun place hplace hfound => hnew ?_⟩
    simp only [hall, List.getElem_append_left hplace] at hfound
    exact hfound ▸ List.getElem_mem hplace
  have hdup : host.step (Emit.nullTestCode inner first code) (0, host.null :: stack) =
      some (1, host.null :: host.null :: stack) := rfl
  have hbranch : host.step (Emit.nullTestCode inner first code)
      (1, host.null :: host.null :: stack) = some (before.length, host.null :: stack) := by
    change (if host.isFalse host.null then host.goTo _ first _ else _) = _
    rw [if_pos hhost.null_isFalse, goTo, hplace]
    rfl
  have hlater := @reaches_of_effects host _ before
    [.markLabel first, .pop, .ldNull, .markLabel (first + 1)] [] (host.null :: stack)
    (host.null :: stack) hall rfl
  rw [← List.length_append, ← hall] at hlater
  exact .head hdup (.head hbranch hlater)

/-- The values that come back: those of the types without a wrapper of their
own, dynamic values from a dynamic carrier, and the empty nullable from an
object. -/
def Bridged (host : Runtime) (type carrier : TargetType) (value : host.Value) : Prop :=
  match type with
  | .nullable _ => carrier = .any ∧ value = host.null
  | .dynamic => carrier = .dynamic
  | _ => True

theorem roundTrips_dynamic (value : host.Value) :
    host.RoundTrips scope .dynamic .dynamic value := by
  have hself : Emit.coerce .dynamic .dynamic = pure () := Emit.convert_self true .dynamic
  refine roundTrips_of_writes fun first => ?_
  rw [hself]
  exact ⟨_, first, Emit.Writes.pure.bind .pure, fun stack => Reaches.refl _⟩

theorem roundTrips_plain (hhost : host.Contract) (hvoid : type ≠ .void) (hany : type ≠ .any)
    (hdynamic : type ≠ .dynamic) (hplain : ∀ inner, type ≠ .nullable inner)
    (hcarrier : carrier = .dynamic ∨ carrier = .any) (hvalue : host.HasType type value) :
    host.RoundTrips scope type carrier value := by
  refine roundTrips_of_writes fun first => ⟨_, first,
    (Emit.writes_into_carrier hvoid hany hdynamic hplain hcarrier).bind
      (Emit.writes_from_carrier hvoid hany hdynamic hplain hcarrier), fun stack => ?_⟩
  exact completes_of_effects (effects_bridge hhost hvoid hvalue stack)

theorem roundTrips_empty (hhost : host.Contract) (inner : TargetType) :
    host.RoundTrips scope (.nullable inner) .any host.null := by
  refine roundTrips_of_writes fun first => ?_
  obtain ⟨code, next, hcode, hlabels⟩ := @Emit.writes_from_any scope inner (first + 2)
  have hinto : Emit.Writes scope (Emit.coerce (.nullable inner) .any) first [] first := by
    rw [Emit.coerce, Emit.convert, if_neg (by simp), if_pos (by simp)]
    exact Emit.writes_wrapAny (.nullable inner)
  have hback : Emit.coerce .any (.nullable inner) = Emit.convertInto true .any (.nullable inner) :=
    rfl
  refine ⟨_, next, hinto.bind (hback ▸ Emit.writes_nullTest (by simp) (by decide) hcode),
    fun stack => ?_⟩
  exact completes_nullTest hhost inner first (hlabels first (by omega)) stack

end Runtime

/-! ## The types of a program -/

theorem TypeMapping.mapWithin_ne_any (image : Image) (registry : Registry) (levels : Nat)
    (index : TypeIndex) : mapWithin image registry levels index ≠ .ok .any := by
  intro h
  cases native_of_mapWithin h with
  | builtin hbuiltin => exact hbuiltin.2.2 rfl

namespace Runtime

/-- A value of a type of the program that crosses into a dynamic or an object
comes back. -/
theorem roundTrips_of_mapped (host : Runtime) (hhost : host.Contract) (scope : Scope)
    (index : TypeIndex) (type carrier : TargetType) (value : host.Value)
    (htype : scope.registry.mapType scope.image index = .ok type) (hvoid : type ≠ .void)
    (hcarrier : carrier = .dynamic ∨ carrier = .any) (hvalue : host.HasType type value)
    (hbridged : Bridged host type carrier value) :
    host.RoundTrips scope type carrier value := by
  have hany : type ≠ .any := by
    rintro rfl
    exact TypeMapping.mapWithin_ne_any _ _ _ _ htype
  unfold Bridged at hbridged
  split at hbridged
  · obtain ⟨rfl, rfl⟩ := hbridged
    exact roundTrips_empty hhost _
  · subst hbridged
    exact roundTrips_dynamic value
  · rename_i hplain hdynamic
    exact roundTrips_plain hhost hvoid hany (fun h => hdynamic h) (fun inner h => hplain inner h)
      hcarrier hvalue

end Runtime

def carriedScope : Scope where
  image := { version := 4, types := [.i32, .null 0, .dyn] }
  registry := .create "" 3 0
  settings := {}
  function := { index := 0, type := 0, registers := [], operations := [], lines := none, names := [] }
  signature := ⟨[], .void⟩
  flow := ⟨[], 0, []⟩
  registerTypes := []

theorem roundTrips_of_mapped_number :
    plainHost.Contract ∧
      plainHost.RoundTrips carriedScope .i32 .dynamic (HostValue.number .i32 5) ∧
        plainHost.RoundTrips carriedScope (.nullable .i32) .any HostValue.null :=
  ⟨plainHost_contract,
    Runtime.roundTrips_of_mapped plainHost plainHost_contract carriedScope 0 .i32 .dynamic _ rfl
      (by decide) (.inl rfl) ⟨rfl, rfl⟩ trivial,
    Runtime.roundTrips_of_mapped plainHost plainHost_contract carriedScope 1 (.nullable .i32) .any _
      rfl (by decide) (.inr rfl) rfl ⟨rfl, rfl⟩⟩

/-- A full nullable is unboxed as if it were its content, the empty one as if a
dynamic value held the content, and a dynamic value is wrapped again. -/
theorem carriedScope_not_roundTrips :
    plainHost.Contract ∧
      carriedScope.registry.mapType carriedScope.image 1 = .ok (.nullable .i32) ∧
      carriedScope.registry.mapType carriedScope.image 2 = .ok .dynamic ∧
      plainHost.HasType (.nullable .i32) (HostValue.nullable .i32 (.number .i32 5)) ∧
      plainHost.HasType (.nullable .i32) HostValue.null ∧
      plainHost.HasType .dynamic (HostValue.dynamic .null) ∧
      ¬ plainHost.RoundTrips carriedScope (.nullable .i32) .any
        (HostValue.nullable .i32 (.number .i32 5)) ∧
      ¬ plainHost.RoundTrips carriedScope (.nullable .i32) .dynamic HostValue.null ∧
      ¬ plainHost.RoundTrips carriedScope .dynamic .any (HostValue.dynamic .null) := by
  refine ⟨plainHost_contract, rfl, rfl, .inr ⟨rfl, rfl, rfl⟩, rfl, .inl rfl, ?_, ?_, ?_⟩
  · -- the wrapper is no box of its content
    refine Runtime.not_roundTrips [] rfl rfl ?_
    exact Runtime.not_completes (.head rfl (.head rfl (.refl _))) rfl nofun
  · -- a dynamic value is not null, and null is no box
    refine Runtime.not_roundTrips [] rfl rfl ?_
    exact Runtime.not_completes
      (.head rfl (.head rfl (.head rfl (.head rfl (.refl _))))) rfl nofun
  · refine Runtime.not_roundTrips [] rfl rfl ?_
    exact Runtime.not_completes (.head rfl (.refl _)) rfl nofun

end BytecodeLowering

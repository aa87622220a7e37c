import BytecodeLowering.Proofs.Body.Heights
import BytecodeLowering.Proofs.Lower.Preparation

/-!
# The stack discipline of lowered functions

In an image in which void is only a result, every body that is lowered has one
stack height for each place, and the stack is empty wherever the code of a
source instruction begins.
-/

namespace BytecodeLowering

instance Scope.decidableAdmits (scope : Scope) (op : Operation) : Decidable (scope.Admits op) :=
  inferInstanceAs (Decidable (_ → _ → _ ∨ _))

theorem FunctionDef.scope_sound {function : FunctionDef} {image : Image} {registry : Registry}
    {settings : Settings} {signature : Signature} {scope : Scope} (himage : image.Voidless)
    (hregistry : registry.Sound) (hsignature : signature.Proper)
    (h : function.scope image registry settings signature = .ok scope) : scope.Sound := by
  obtain ⟨-, hregisters, -, rfl, -, rfl⟩ := scope_ok h
  refine ⟨hregistry, ?_, hsignature.ret⟩
  intro type htype
  obtain ⟨index, -, hmapped⟩ := mem_of_mapM hregisters htype
  exact scope.registry.proper_of_mapType himage hmapped

/-- Every place of a lowered body has one height, whatever way control takes to
it, and the height is zero where the code of a source instruction begins. -/
theorem FunctionDef.heights_of_lower {function : FunctionDef} {image : Image}
    {settings : Settings} {registry : Registry} {entry : FunctionEntry} {scope : Scope}
    {body : MethodBody} {stats : BodyStats} (himage : image.Voidless)
    (hregistry : image.Prepared settings registry)
    (hentry : registry.function? function.index = some entry)
    (hscope : function.scope image registry settings entry.signature = .ok scope)
    (hadmits : ∀ op ∈ function.operations, scope.Admits op)
    (h : function.lower image registry settings entry.signature = .ok (body, stats)) :
    ∃ height, Heights registry.target entry.signature.ret body.body height ∧
      ∀ position ≤ function.operations.length, ∃ reached,
        scope.Reaches position reached ∧ reached.builder.body <+: body.body ∧
          height reached.builder.body.length = 0 := by
  have hready := hregistry.ready himage
  have hsound : scope.Sound :=
    scope_sound himage hready.sound (hready.functions _ entry hentry).2.1 hscope
  obtain ⟨found, final, hfound, hbody⟩ := lower_ok h
  obtain rfl : scope = found := Except.ok.inj (hscope.symm.trans hfound)
  obtain ⟨-, -, -, rfl, rfl, hsignature⟩ := scope_ok hscope
  rw [← hsignature]
  obtain ⟨height, hheights, hstarts⟩ := scope.exists_heights hsound hadmits hbody
  refine ⟨height, hheights, ?_⟩
  intro position hposition
  obtain ⟨last, hlast, -⟩ := Emit.body_ok hbody
  obtain ⟨reached, hreached⟩ := Scope.Reaches.earlier hposition hlast
  exact ⟨reached, hreached, hstarts position hposition reached hreached⟩

def resultlessCallee : FunctionDef where
  index := 0
  type := 3
  registers := [0]
  operations := [⟨.ret, [0]⟩]
  lines := none
  names := []

def guardedCall : FunctionDef where
  index := 1
  type := 4
  registers := [1, 0, 2]
  operations := [⟨.trap, [2, 4]⟩, ⟨.call0, [1, 0]⟩, ⟨.jSLt, [0, 0, 2]⟩, ⟨.ret, [0]⟩,
    ⟨.endTrap, [2]⟩, ⟨.ret, [0]⟩]
  lines := none
  names := []

def guardedCallImage : Image where
  version := 4
  types := [.void, .i32, .null 1, .func ⟨[], 0⟩, .func ⟨[1], 1⟩]
  functions := [resultlessCallee, guardedCall]
  functionTable := FunctionTable.build [0, 1] []

theorem heights_of_lower_guardedCall :
    ∃ registry entry scope body stats height,
      guardedCallImage.Voidless ∧ guardedCallImage.Prepared {} registry ∧
      registry.function? guardedCall.index = some entry ∧
      guardedCall.scope guardedCallImage registry {} entry.signature = .ok scope ∧
      (∀ op ∈ guardedCall.operations, scope.Admits op) ∧
      guardedCall.lower guardedCallImage registry {} entry.signature = .ok (body, stats) ∧
      Heights registry.target entry.signature.ret body.body height := by
  have hcheck : (match guardedCallImage.prepare (guardedCallImage.registry {}) with
      | .ok _ registry => (registry.function? guardedCall.index).any fun entry =>
          (guardedCall.scope guardedCallImage registry {} entry.signature).toOption.any
              (fun scope => guardedCall.operations.all fun op => decide (scope.Admits op))
            && (guardedCall.lower guardedCallImage registry {} entry.signature).isOk
      | .error _ _ => false) = true := by
    decide +kernel
  have himage : guardedCallImage.Voidless := by constructor <;> decide
  cases hprepare : guardedCallImage.prepare (guardedCallImage.registry {}) with
  | error error registry =>
      rw [hprepare] at hcheck
      cases hcheck
  | ok result registry =>
      simp only [hprepare, Option.any_eq_true, Bool.and_eq_true] at hcheck
      obtain ⟨entry, hentry, ⟨scope, hscope, hadmits⟩, hlower⟩ := hcheck
      have hregistry : guardedCallImage.Prepared {} registry := .first hprepare
      have hadmits : ∀ op ∈ guardedCall.operations, scope.Admits op :=
        fun op hop => of_decide_eq_true (List.all_eq_true.mp hadmits op hop)
      have hfound := ok_of_toOption hscope
      obtain ⟨lowered, hbody⟩ := ok_of_isOk hlower
      obtain ⟨height, hheights, -⟩ := FunctionDef.heights_of_lower himage hregistry hentry
        hfound hadmits hbody
      exact ⟨registry, entry, scope, lowered.1, lowered.2, height, himage, hregistry, hentry,
        hfound, hadmits, hbody, hheights⟩

end BytecodeLowering

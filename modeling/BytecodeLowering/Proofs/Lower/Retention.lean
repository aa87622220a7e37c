import BytecodeLowering.Proofs.Lower.ClosedModule
import BytecodeLowering.Proofs.Lower.Preparation

/-!
# What the type passes leave behind

After the passes over the type table no declaration and no class changes any
more, and constructors keep their bodies: globals, initial values and functions
only add to the module or write the methods that were reserved for functions.
-/

namespace BytecodeLowering

namespace Registry

structure Retains (before after : Registry) : Prop where
  types : after.types = before.types
  classes : after.target.types = before.target.types
  codes : ∀ id index, before.target.builds? id = some index →
    after.target.method? id = before.target.method? id

variable {first second third before after : Registry}

theorem Retains.refl (registry : Registry) : registry.Retains registry :=
  ⟨rfl, rfl, fun _ _ _ => rfl⟩

theorem Retains.builds? (h : before.Retains after) {id : MethodId} {index : Nat}
    (hbuilds : before.target.builds? id = some index) : after.target.builds? id = some index := by
  have hsource : after.target.sourceOf? = before.target.sourceOf? := by
    funext decl
    simp only [TargetModule.sourceOf?, TargetModule.type?, h.classes]
  rw [TargetModule.builds?, h.codes id index hbuilds, hsource]
  exact hbuilds

theorem Retains.trans (h : first.Retains second) (hnext : second.Retains third) :
    first.Retains third where
  types := hnext.types.trans h.types
  classes := hnext.classes.trans h.classes
  codes id index hbuilds :=
    (hnext.codes id index (h.builds? hbuilds)).trans (h.codes id index hbuilds)

theorem Retains.of_keeps {free : MethodId → Prop} (htypes : after.types = before.types)
    (hclasses : after.target.types = before.target.types)
    (htarget : before.target.Keeps free after.target)
    (hfree : ∀ id, free id → before.target.builds? id = none) : before.Retains after := by
  refine ⟨htypes, hclasses, ?_⟩
  intro id index hbuilds
  obtain ⟨method, hmethod, -⟩ := Option.bind_eq_some_iff.mp hbuilds
  rw [hmethod]
  refine htarget.method (fun hid => ?_) hmethod
  rw [hfree id hid] at hbuilds
  cases hbuilds

theorem Retains.grows {methods : List MethodDecl} (htypes : after.types = before.types)
    (hclasses : after.target.types = before.target.types)
    (hmethods : after.target.methods = before.target.methods ++ methods) : before.Retains after :=
  .of_keeps htypes hclasses
    (.append (hclasses.trans (List.append_nil _).symm) hmethods :
      before.target.Keeps (fun _ => False) after.target) nofun

theorem Linked.retains_enter (h : before.Linked) {function : Nat}
    (hfunction : function < before.functions.length) {entry : FunctionEntry}
    {f : MethodDecl → MethodDecl} (hkind : ∀ method, (f method).kind = method.kind)
    (howner : ∀ method, (f method).owner = method.owner) :
    before.Retains (before.enter function f entry) :=
  .of_keeps rfl rfl (.modifyMethod _ _ hkind howner rfl :
    before.target.Keeps (· = function) _) fun _ hid => hid ▸ h.builds?_eq_none hfunction

end Registry

section Passes

variable {image : Image} {settings : Settings} {typed before after : Registry} {result : Unit}

theorem GlobalSlots.declareAll_retains (h : declareAll image before = .ok result after) :
    before.Retains after := by
  refine Lowering.forM_keeps before.Retains ?_ (.refl before) h
  rintro ⟨type, number⟩ - first _ second hheld hstep
  obtain ⟨slot, -, -, rfl⟩ := declare_ok hstep
  exact hheld.trans (.grows rfl rfl (List.append_nil _).symm)

theorem GlobalSlots.lowerConstants_retains {result : Option MethodId}
    (h : lowerConstants image before = .ok result after) : before.Retains after := by
  rcases lowerConstants_ok h with rfl | ⟨code, -, rfl⟩
  · exact .refl before
  · exact .grows rfl rfl rfl

namespace Methods

theorem defineAll_retains (hbefore : before.Grounded ∧ before.Vacant)
    (h : defineAll image before = .ok result after) : before.Retains after := by
  obtain ⟨names, middle, hfunctions, hnatives⟩ := defineAll_ok h
  let holds (registry : Registry) : Prop :=
    (registry.Grounded ∧ registry.Vacant) ∧ before.Retains registry
  have hmiddle : holds middle := by
    refine Lowering.forM_keeps holds ?_ ⟨hbefore, .refl before⟩ hfunctions
    rintro function - first _ second ⟨hgrounded, hheld⟩ hstep
    refine ⟨defineFunction_grounded hgrounded hstep, hheld.trans ?_⟩
    obtain ⟨signature, locals, hvacant, -, -, rfl⟩ := defineFunction_ok hstep
    exact hgrounded.1.toLinked.retains_enter (List.getElem?_eq_some_iff.mp hvacant).1
      (fun _ => rfl) fun _ => rfl
  refine (Lowering.forM_keeps holds ?_ hmiddle hnatives).2
  rintro native - first _ second ⟨hgrounded, hheld⟩ hstep
  refine ⟨defineNative_grounded hgrounded hstep, hheld.trans ?_⟩
  obtain ⟨signature, hvacant, -, rfl⟩ := defineNative_ok hstep
  exact hgrounded.1.toLinked.retains_enter (List.getElem?_eq_some_iff.mp hvacant).1
    (fun _ => rfl) fun _ => rfl

theorem compileFunction_retains {function : FunctionDef} {stats : BodyStats}
    (hbefore : before.Grounded)
    (h : compileFunction image settings function before = .ok stats after) :
    before.Retains after := by
  obtain ⟨entry, found, hentry, -, rfl⟩ := compileFunction_ok h
  obtain ⟨hmethod, -⟩ := hbefore.functions function.index entry hentry
  have hlength := (List.getElem?_eq_some_iff.mp (Option.join_eq_some_iff.mp hentry)).1
  rw [hmethod]
  exact hbefore.toLinked.retains_enter hlength (fun _ => rfl) fun _ => rfl

theorem compileAll_retains {stats : BodyStats} (hbefore : before.Grounded)
    (h : compileAll image settings before = .ok stats after) : before.Retains after := by
  obtain ⟨found, coded, marked, hcoded, hmarked, hselect⟩ := compileAll_ok h
  have hfunctions : coded.Grounded ∧ before.Retains coded := by
    refine Lowering.mapM_keeps (fun registry => registry.Grounded ∧ before.Retains registry) ?_
      ⟨hbefore, .refl before⟩ hcoded
    rintro function - first _ second ⟨hgrounded, hheld⟩ hstep
    exact ⟨compileFunction_grounded hgrounded hstep,
      hheld.trans (compileFunction_retains hgrounded hstep)⟩
  have hnatives : before.Retains marked := by
    refine Lowering.forM_keeps before.Retains ?_ hfunctions.2 hmarked
    rintro native - first _ second hheld hstep
    obtain ⟨entry, -, rfl⟩ := Registry.markCompiled_ok hstep
    exact hheld.trans ⟨rfl, rfl, fun _ _ _ => rfl⟩
  rcases selectEntrypoint_ok hselect with rfl | rfl
  · exact hnatives
  · exact hnatives.trans ⟨rfl, rfl, fun _ _ _ => rfl⟩

end Methods

namespace Image

theorem prepare_retains (h : image.prepare (image.registry settings) = .ok result after) :
    ∃ typed, TypePasses.run image (image.registry settings) = .ok () typed ∧
      typed.Retains after := by
  obtain ⟨typed, declared, found, initial, htypes, hglobals, hconstants, hmethods⟩ := prepare_ok h
  have hinitial := initial_grounded (declared_grounded htypes hglobals) hconstants
  exact ⟨typed, htypes, (GlobalSlots.declareAll_retains hglobals).trans
    ((GlobalSlots.lowerConstants_retains hconstants).trans
      (Methods.defineAll_retains hinitial hmethods))⟩

theorem Prepared.retains {registry : Registry} (h : image.Prepared settings registry) :
    registry.Grounded ∧ ∃ typed, TypePasses.run image (image.registry settings) = .ok () typed ∧
      typed.Retains registry := by
  induction h with
  | first h => exact ⟨(prepare_grounded h).1, prepare_retains h⟩
  | next _ h ih =>
      obtain ⟨hgrounded, typed, hrun, hretains⟩ := ih
      exact ⟨Methods.compileFunction_grounded hgrounded h, typed, hrun,
        hretains.trans (Methods.compileFunction_retains hgrounded h)⟩

/-- A compiled module has the classes and the constructors of the type passes. -/
theorem compile_retains {module : TargetModule} (h : image.compile settings = .ok module) :
    ∃ typed registry, TypePasses.run image (image.registry settings) = .ok () typed ∧
      typed.Retains registry ∧ registry.target = module := by
  obtain ⟨stats, registry, hlowering, rfl⟩ := compile_ok h
  obtain ⟨prepared, hprepare, hcompile⟩ := lowering_ok hlowering
  obtain ⟨typed, hrun, hretains⟩ := prepare_retains hprepare
  exact ⟨typed, registry, hrun,
    hretains.trans (Methods.compileAll_retains (prepare_grounded hprepare).1 hcompile), rfl⟩

end Image

end Passes

end BytecodeLowering

import BytecodeLowering.Proofs.Lower.ClassFields

/-!
# Types apart from each other

What a pass does at one type of the table leaves the declaration, the classes and
the constructors of every other type as they are.  What the step at a type
establishes about these therefore still holds when the pass is over.
-/

namespace BytecodeLowering

/-- The declaration of a type, its classes and its constructors are as before. -/
structure Registry.Untouched (index : TypeIndex) (before after : Registry) : Prop where
  declaration : after.declaration? index = before.declaration? index
  classes : ∀ decl, before.target.sourceOf? decl = some index →
    after.target.type? decl = before.target.type? decl
  codes : ∀ id, before.target.builds? id = some index →
    after.target.method? id = before.target.method? id

namespace Registry

variable {image : Image} {index other : TypeIndex} {before after : Registry}

theorem Untouched.enter (stage : Option Stage) :
    before.Untouched index { before with pass := stage } :=
  ⟨rfl, fun _ _ => rfl, fun _ _ => rfl⟩

theorem Resolves.untouched {declaration : Declaration}
    (h : Resolves other declaration before after) (hne : other ≠ index) :
    before.Untouched index after := by
  refine ⟨?_, ?_, ?_⟩
  · rw [declaration?_of_resolves h, if_neg hne]
  · intro decl hsource
    obtain ⟨type, htype, -⟩ := Option.bind_eq_some_iff.mp hsource
    rw [htype]
    exact getElem?_of_begins h.begins htype
  · intro id hbuilds
    obtain ⟨method, hmethod, -⟩ := Option.bind_eq_some_iff.mp hbuilds
    rw [hmethod]
    exact h.target.method not_false hmethod

theorem Linked.untouched (h : before.Linked) {old new : Declaration}
    (hchanges : Changes other old new before after) (hne : other ≠ index)
    (hclasses : ∀ decl, before.target.sourceOf? decl ≠ some other →
      after.target.type? decl = before.target.type? decl) : before.Untouched index after := by
  refine ⟨hchanges.others index (Ne.symm hne), ?_, ?_⟩
  · intro decl hsource
    refine hclasses decl fun hother => hne ?_
    exact Option.some.inj (hother.symm.trans hsource)
  · intro id hbuilds
    obtain ⟨method, hmethod, -⟩ := Option.bind_eq_some_iff.mp hbuilds
    rw [hmethod]
    refine hchanges.target.method (fun hmem => hne ?_) hmethod
    exact Option.some.inj ((h.constructors other old hchanges.found id hmem).symm.trans hbuilds)

end Registry

namespace TypePasses

open Registry (Untouched)

variable {image : Image} {index other : TypeIndex} {source : SourceType} {before after : Registry}
  {result : Unit}

/-! ## The steps -/

theorem resolveType_untouched (hbefore : before.Linked)
    (h : resolveType (source, other) before = .ok result after) (hne : other ≠ index) :
    after.Linked ∧ before.Untouched index after := by
  rcases resolveType_ok h with rfl | ⟨declaration, hresolves, -⟩
  · exact ⟨hbefore, rfl, fun _ _ => rfl, fun _ _ => rfl⟩
  · exact ⟨hbefore.resolves hresolves, hresolves.untouched hne⟩

theorem defineType_untouched (hbefore : before.Linked)
    (h : defineType image (source, other) before = .ok result after) (hne : other ≠ index) :
    after.Linked ∧ before.Untouched index after ∧ after.decl? = before.decl? := by
  rcases defineType_ok h with rfl | ⟨old, new, hchanges⟩
  · exact ⟨hbefore, ⟨rfl, fun _ _ => rfl, fun _ _ => rfl⟩, rfl⟩
  · exact ⟨hbefore.changes hchanges, hbefore.untouched hchanges hne fun decl hother =>
      defineType_others hbefore h hother, hchanges.decl?⟩

theorem compileType_untouched (hbefore : before.Linked)
    (h : compileType image (source, other) before = .ok result after) (hne : other ≠ index) :
    after.Linked ∧ before.Untouched index after ∧ after.decl? = before.decl? := by
  rcases compileType_ok h with rfl | ⟨old, new, hrecodes, hchanges, -⟩
  · exact ⟨hbefore, ⟨rfl, fun _ _ => rfl, fun _ _ => rfl⟩, rfl⟩
  · exact ⟨hbefore.changes hchanges, hbefore.untouched hchanges hne fun decl _ =>
      hrecodes.type? decl, hchanges.decl?⟩

/-! ## The passes -/

/-- A pass takes a type from one state to another if its own step does and the
steps of the other types keep both states. -/
theorem pass_single {stage : Stage} {step : SourceType × TypeIndex → Lowering Unit}
    (early late : Registry → Prop) (apart : Registry → Registry → Prop)
    (hearly : ∀ first second : Registry, first.Linked → apart first second → early first →
      early second)
    (hlate : ∀ first second : Registry, first.Linked → apart first second → late first →
      late second)
    (henter : ∀ registry : Registry, apart registry { registry with pass := some stage })
    (hstep : ∀ (other : TypeIndex) source first result second, first.Linked → other ≠ index →
      step (source, other) first = .ok result second → second.Linked ∧ apart first second)
    (hsource : image.types[index]? = some source)
    (hown : ∀ first result second, first.Linked → early first →
      step (source, index) first = .ok result second → second.Linked ∧ late second)
    (hbefore : before.Linked ∧ early before)
    (h : (do Registry.enterPass stage; image.types.zipIdx.forM step) before = .ok result after) :
    after.Linked ∧ late after := by
  let holds (position : Nat) (registry : Registry) : Prop :=
    registry.Linked ∧ if position ≤ index then early registry else late registry
  have hdone : holds image.types.length after := by
    refine pass_positions holds h ?_ ?_ ⟨hbefore.1, by rw [if_pos (Nat.zero_le _)]; exact hbefore.2⟩
    · rintro registry ⟨hlinked, hheld⟩
      rw [if_pos (Nat.zero_le _)] at hheld
      exact ⟨hlinked.enter, by
        rw [if_pos (Nat.zero_le _)]; exact hearly _ _ hlinked (henter _) hheld⟩
    · rintro position found hfound first _ second ⟨hlinked, hheld⟩ hrun
      by_cases hsame : position = index
      · subst hsame
        obtain rfl := Option.some.inj (hfound.symm.trans hsource)
        rw [if_pos (Nat.le_refl _)] at hheld
        obtain ⟨hnext, hreached⟩ := hown first _ second hlinked hheld hrun
        exact ⟨hnext, by rw [if_neg (Nat.not_succ_le_self _)]; exact hreached⟩
      · obtain ⟨hnext, hapart⟩ := hstep position found first _ second hlinked hsame hrun
        refine ⟨hnext, ?_⟩
        by_cases hahead : position + 1 ≤ index
        · rw [if_pos (Nat.le_of_succ_le hahead)] at hheld
          rw [if_pos hahead]
          exact hearly _ _ hlinked hapart hheld
        · rw [if_neg fun hle => hahead (Nat.lt_of_le_of_ne hle hsame)] at hheld
          rw [if_neg hahead]
          exact hlate _ _ hlinked hapart hheld
  have hbehind := (List.getElem?_eq_some_iff.mp hsource).1
  exact ⟨hdone.1, by simpa only [if_neg (Nat.not_le_of_lt hbehind)] using hdone.2⟩

end TypePasses

end BytecodeLowering

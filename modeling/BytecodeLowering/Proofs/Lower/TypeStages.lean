import BytecodeLowering.Proofs.Lower.LayoutFaults

/-!
# Stages in the course of the passes

A pass moves every declared type on by one stage, in the order of the table, so
that all of them have the stage or the one before it.
-/

namespace BytecodeLowering

/-! ## Declared types -/

namespace Image

def declares (image : Image) (index : TypeIndex) : Bool :=
  ((image.type? index).bind SourceType.nominal?).isSome

/-- The stage of a type when the pass to `stage` has come to a position of the
table: the types behind it still have the stage before. -/
def stageAt (image : Image) (stage : Stage) (position : Nat) (index : TypeIndex) : Option Stage :=
  if image.declares index then
    if index < position then some stage else stage.previous
  else none

variable {image : Image} {index : TypeIndex} {stage : Stage}

theorem declares_of_source {source : SourceType} (h : image.types[index]? = some source) :
    image.declares index = source.nominal?.isSome := by
  rw [declares, type?, h, Option.bind_some]

theorem declares_of_object {object : ObjectType} (h : image.object? index = some object) :
    image.declares index = true := by
  obtain ⟨source, hsource, hobject⟩ := Option.bind_eq_some_iff.mp h
  rw [declares_of_source hsource]
  cases source <;> first | rfl | cases hobject

theorem lt_of_declares (h : image.declares index = true) : index < image.types.length := by
  obtain ⟨kind, hkind⟩ := Option.isSome_iff_exists.mp h
  obtain ⟨source, hsource, -⟩ := Option.bind_eq_some_iff.mp hkind
  exact (List.getElem?_eq_some_iff.mp hsource).1

theorem stageAt_undeclared (h : image.declares index = false) (position : Nat) :
    image.stageAt stage position index = none := by
  rw [stageAt, h]
  rfl

theorem stageAt_done {position : Nat} (h : image.declares index = true)
    (hindex : index < position) :
    image.stageAt stage position index = some stage := by
  rw [stageAt, if_pos h, if_pos hindex]

theorem stageAt_open {position : Nat} (h : image.declares index = true)
    (hindex : position ≤ index) :
    image.stageAt stage position index = stage.previous := by
  rw [stageAt, if_pos h, if_neg (Nat.not_lt_of_le hindex)]

theorem stageAt_other {position : Nat} (h : index ≠ position) :
    image.stageAt stage (position + 1) index = image.stageAt stage position index := by
  have hplace : index < position + 1 ↔ index < position :=
    Nat.lt_succ_iff.trans ⟨fun hle => Nat.lt_of_le_of_ne hle h, Nat.le_of_lt⟩
  simp only [stageAt, hplace]

theorem stageAt_least {least : Stage} (hleast : stage.previous = some least)
    (h : image.declares index = true) (position : Nat) :
    ∃ found, image.stageAt stage position index = some found ∧ least.rank ≤ found.rank := by
  by_cases hindex : index < position
  · refine ⟨stage, stageAt_done h hindex, ?_⟩
    cases stage <;> cases hleast <;> decide
  · exact ⟨least, (stageAt_open h (Nat.le_of_not_lt hindex)).trans hleast, Nat.le_refl _⟩

theorem stageAt_next {next : Stage} (hnext : next.previous = some stage) (index : TypeIndex) :
    image.stageAt next 0 index = image.stageAt stage image.types.length index := by
  cases hdeclares : image.declares index with
  | false => rw [stageAt_undeclared hdeclares, stageAt_undeclared hdeclares]
  | true =>
      rw [stageAt_open hdeclares (Nat.zero_le _), stageAt_done hdeclares (lt_of_declares hdeclares),
        hnext]

end Image

/-! ## One type moves on -/

structure Registry.Moves (index : TypeIndex) (stage : Stage) (before after : Registry) : Prop where
  pass : after.pass = before.pass
  moved : after.stage? index = some stage
  others : ∀ other, other ≠ index → after.stage? other = before.stage? other

namespace Registry

variable {index : TypeIndex} {before after : Registry}

theorem Resolves.moves {declaration : Declaration} (h : Resolves index declaration before after) :
    Moves index .resolved before after := by
  have hlook := declaration?_of_resolves h
  refine ⟨h.pass, ?_, ?_⟩
  · rw [stage?, hlook, if_pos rfl, Option.map_some, h.stage]
  · intro other hother
    rw [stage?, hlook, if_neg (Ne.symm hother), stage?]

theorem Changes.moves {old new : Declaration} (h : Changes index old new before after) :
    Moves index new.stage before after := by
  refine ⟨h.pass, ?_, ?_⟩
  · rw [stage?, h.changed, Option.map_some]
  · intro other hother
    rw [stage?, h.others other hother, stage?]

end Registry

/-- What a pass does at one position: a declared type moves on, and nothing
happens at any other. -/
def SourceType.MovesOn (source : SourceType) (index : TypeIndex) (stage : Stage)
    (before after : Registry) : Prop :=
  if source.nominal?.isSome then Registry.Moves index stage before after else before = after

namespace TypePasses

variable {image : Image} {index : TypeIndex} {source : SourceType} {before after : Registry}

theorem resolveType_moves {result : Unit}
    (h : resolveType (source, index) before = .ok result after) :
    source.MovesOn index .resolved before after := by
  cases source with
  | obj object | struct object =>
      obtain ⟨declaration, hresolves, -⟩ := ObjectLayout.resolve_ok h
      exact hresolves.moves
  | enum variants =>
      obtain ⟨declaration, hresolves, -⟩ := EnumLayout.resolve_ok h
      exact hresolves.moves
  | virtual fields =>
      obtain ⟨declaration, hresolves, -⟩ := VirtualLayout.resolve_ok h
      exact hresolves.moves
  | abstract name =>
      obtain ⟨declaration, hresolves, -⟩ := AbstractLayout.resolve_ok h
      exact hresolves.moves
  | _ =>
      cases h
      rfl

theorem defineType_moves {result : Unit}
    (h : defineType image (source, index) before = .ok result after) :
    source.MovesOn index .defined before after := by
  cases source with
  | obj object | struct object =>
      obtain ⟨_, _, _, _, _, -, -, -, -, -, hchanges⟩ := ObjectLayout.define_ok h
      exact hchanges.moves
  | enum variants =>
      obtain ⟨_, _, _, -, -, hchanges⟩ := EnumLayout.define_ok h
      exact hchanges.moves
  | virtual fields =>
      obtain ⟨_, _, _, -, -, -, hchanges⟩ := VirtualLayout.define_ok h
      exact hchanges.moves
  | abstract name =>
      obtain ⟨_, -, hchanges⟩ := advance_changes h
      exact hchanges.moves
  | _ =>
      cases h
      rfl

theorem compileType_moves {result : Unit}
    (h : compileType image (source, index) before = .ok result after) :
    source.MovesOn index .compiled before after := by
  cases source with
  | obj object | struct object =>
      obtain ⟨_, _, _, -, -, -, hchanges⟩ := ObjectLayout.compile_ok h
      exact hchanges.moves
  | enum variants =>
      obtain ⟨_, -, hchanges⟩ := EnumLayout.compile_ok h
      exact hchanges.moves
  | virtual fields =>
      obtain ⟨_, _, -, -, hchanges⟩ := VirtualLayout.compile_ok h
      exact hchanges.moves
  | abstract name =>
      obtain ⟨_, -, hchanges⟩ := advance_changes h
      exact hchanges.moves
  | _ =>
      cases h
      rfl

end TypePasses

/-! ## The course of a pass -/

structure Registry.Passing (image : Image) (stage : Stage) (position : Nat) (registry : Registry) :
    Prop where
  pass : registry.pass = some stage
  stages : ∀ index, registry.stage? index = image.stageAt stage position index

namespace Registry

variable {image : Image} {index : TypeIndex} {stage : Stage} {before after : Registry}

theorem Passing.stage_done {position : Nat} (h : before.Passing image stage position)
    (hdeclares : image.declares index = true) (hindex : index < position) :
    before.stage? index = some stage :=
  (h.stages index).trans (Image.stageAt_done hdeclares hindex)

theorem Passing.moves (h : before.Passing image stage index)
    (hdeclares : image.declares index = true) (hmoves : Moves index stage before after) :
    after.Passing image stage (index + 1) := by
  refine ⟨hmoves.pass.trans h.pass, ?_⟩
  intro other
  by_cases hsame : other = index
  · rw [hsame, hmoves.moved, Image.stageAt_done hdeclares (Nat.lt_succ_self _)]
  · rw [hmoves.others other hsame, h.stages, Image.stageAt_other hsame]

theorem Passing.next (h : before.Passing image stage index) {source : SourceType}
    (hsource : image.types[index]? = some source)
    (hmoves : source.MovesOn index stage before after) :
    after.Passing image stage (index + 1) := by
  have hdeclares := Image.declares_of_source hsource
  unfold SourceType.MovesOn at hmoves
  split at hmoves
  · exact h.moves (hdeclares.trans ‹_›) hmoves
  · subst hmoves
    refine ⟨h.pass, ?_⟩
    intro other
    by_cases hsame : other = index
    · have hnone : image.declares other = false := by
        rw [hsame, hdeclares]
        exact Bool.eq_false_iff.mpr ‹_›
      rw [h.stages, Image.stageAt_undeclared hnone, Image.stageAt_undeclared hnone]
    · rw [h.stages, Image.stageAt_other hsame]

theorem Passing.enter {next : Stage} (h : before.Passing image stage image.types.length)
    (hnext : next.previous = some stage) :
    Passing image next 0 { before with pass := some next } :=
  ⟨rfl, fun index => (h.stages index).trans (Image.stageAt_next hnext index).symm⟩

theorem create_passing (name : String) (typeCount functionCount : Nat) :
    Passing image .resolved 0
      { create name typeCount functionCount with pass := some .resolved } := by
  refine ⟨rfl, ?_⟩
  intro index
  have hnone : stage? (create name typeCount functionCount) index = none := by
    simp [stage?]
  refine hnone.trans ?_
  cases hdeclares : image.declares index with
  | false => rw [Image.stageAt_undeclared hdeclares]
  | true =>
      rw [Image.stageAt_open hdeclares (Nat.zero_le _)]
      rfl

theorem advance_of_passing (h : before.Passing image stage index)
    (hdeclares : image.declares index = true) (hstage : stage.previous.isSome) :
    advance index stage before
        = .ok () (before.update index fun declaration => { declaration with stage }) ∧
      Passing image stage (index + 1)
        (before.update index fun declaration => { declaration with stage }) := by
  have hfound : before.stage? index = stage.previous :=
    (h.stages index).trans (Image.stageAt_open hdeclares (Nat.le_refl _))
  have hadvance : advance index stage before
      = .ok () (before.update index fun declaration => { declaration with stage }) := by
    have hmoves : (before.stage? index).isSome ∧ before.stage? index = stage.previous :=
      ⟨hfound ▸ hstage, hfound⟩
    change (if (before.stage? index).isSome ∧ before.stage? index = stage.previous then
      modifyDeclaration index _ else throw _ : Lowering Unit) before = _
    rw [if_pos hmoves]
    rfl
  obtain ⟨old, -, hchanges⟩ := TypePasses.advance_changes hadvance
  exact ⟨hadvance, h.moves hdeclares hchanges.moves⟩

end Registry

namespace TypePasses

variable {image : Image} {before after : Registry}

theorem pass_passing {stage : Stage} {step : SourceType × TypeIndex → Lowering Unit}
    (hentered : Registry.Passing image stage 0 { before with pass := some stage })
    (hmoves : ∀ (index : TypeIndex) source, image.types[index]? = some source →
      ∀ before result after, step (source, index) before = .ok result after →
        source.MovesOn index stage before after)
    {result : Unit}
    (h : (do Registry.enterPass stage; image.types.zipIdx.forM step) before = .ok result after) :
    after.Passing image stage image.types.length := by
  obtain ⟨_, entered, henter, h⟩ := Lowering.bind_ok h
  obtain rfl := enterPass_ok henter
  rw [← Nat.zero_add image.types.length]
  refine Lowering.forM_zipIdx (Registry.Passing image stage) ?_ hentered h
  intro i source hsource
  rw [Nat.zero_add]
  exact fun before result after hbefore hstep =>
    hbefore.next hsource (hmoves i source hsource before result after hstep)

theorem resolveAll_passing {name : String} {typeCount functionCount : Nat}
    (h : resolveAll image (Registry.create name typeCount functionCount) = .ok () after) :
    after.Passing image .resolved image.types.length :=
  pass_passing (Registry.create_passing _ _ _)
    (fun _ _ _ _ _ _ hstep => resolveType_moves hstep) h

theorem defineAll_passing (hbefore : before.Passing image .resolved image.types.length)
    (h : defineAll image before = .ok () after) :
    after.Passing image .defined image.types.length :=
  pass_passing (hbefore.enter rfl) (fun _ _ _ _ _ _ hstep => defineType_moves hstep) h

/-- The passes over the type table end with every declared type compiled. -/
theorem run_passing {name : String} {typeCount functionCount : Nat} {result : Unit}
    (h : run image (Registry.create name typeCount functionCount) = .ok result after) :
    after.Passing image .compiled image.types.length := by
  obtain ⟨resolved, defined, hresolve, hdefine, hcompile⟩ := run_ok h
  have hdefined := defineAll_passing (resolveAll_passing hresolve) hdefine
  exact pass_passing (hdefined.enter rfl) (fun _ _ _ _ _ _ hstep => compileType_moves hstep)
    hcompile

end TypePasses

end BytecodeLowering

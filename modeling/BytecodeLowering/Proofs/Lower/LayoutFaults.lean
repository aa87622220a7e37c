import BytecodeLowering.Proofs.Lower.Constructors

/-!
# Why a type cannot be laid out

A look-up blames a type or an operand for its failure; only a declaration that
is missing or behind its stage is an error about the order of the passes.
-/

namespace BytecodeLowering

variable {image : Image} {index : TypeIndex} {registry : Registry} {error : LoweringError}

/-! ## Declarations at their stage -/

def Registry.stage? (registry : Registry) (index : TypeIndex) : Option Stage :=
  (registry.declaration? index).map (·.stage)

namespace Registry

variable {least stage : Stage}

theorem requireType_of_stage (hstage : registry.stage? index = some stage)
    (hrank : least.rank ≤ stage.rank) :
    ∃ declaration, registry.requireType index least = .ok declaration := by
  obtain ⟨declaration, hfound, rfl⟩ := Option.map_eq_some_iff.mp hstage
  exact ⟨declaration, by simp only [requireType, hfound, if_neg (Nat.not_lt_of_le hrank)]⟩

theorem isUsage_of_requireObject (hstage : registry.stage? index = some stage)
    (hrank : least.rank ≤ stage.rank) (h : registry.requireObject index least = .error error) :
    error.isUsage = true := by
  obtain ⟨declaration, hfound⟩ := requireType_of_stage hstage hrank
  rcases error_of_bind h with htype | ⟨found, -, h⟩
  · rw [hfound] at htype
    cases htype
  · split at h <;> cases h
    rfl

/-! ## Signatures -/

theorem isUsage_of_signatureOf (h : registry.signatureOf image index = .error error) :
    error.isUsage = true := by
  unfold signatureOf at h
  split at h
  · exact TypeMapping.isUsage_of_signatureWith
      (fun other => TypeMapping.isUsage_of_mapWithin _ other) h
  · cases h
    rfl

theorem isUsage_of_slotSignature (h : registry.slotSignature image index = .error error) :
    error.isUsage = true := by
  rcases error_of_bind h with h | ⟨signature, -, h⟩
  · exact isUsage_of_signatureOf h
  · cases h

end Registry

/-! ## Object types -/

namespace ObjectLayout

theorem isUsage_of_sourceObject (h : sourceObject image index = .error error) :
    error.isUsage = true := by
  unfold sourceObject at h
  split at h <;> cases h
  rfl

theorem isUsage_of_climb {start : TypeIndex} {budget : Nat} {current : ObjectType}
    {chain : List TypeIndex} (h : climb image start budget current chain = .error error) :
    error.isUsage = true := by
  fun_induction climb image start budget current chain with
  | case1 => cases h
  | case2 =>
      cases h
      rfl
  | case3 current chain parent hsuper budget ih =>
      rcases error_of_bind h with hnext | ⟨next, -, h⟩
      · exact isUsage_of_sourceObject hnext
      · exact ih next h

theorem isUsage_of_superChain (h : superChain image index = .error error) :
    error.isUsage = true := by
  rcases error_of_bind h with hobject | ⟨object, -, h⟩
  · exact isUsage_of_sourceObject hobject
  · exact isUsage_of_climb h

theorem isUsage_of_planOwner {owner : TypeIndex} {filled introduced : Nat}
    {prototypes : List Prototype}
    (h : planOwner owner filled introduced prototypes = .error error) : error.isUsage = true := by
  fun_induction planOwner owner filled introduced prototypes with
  | case1 => cases h
  | case2 filled introduced prototype prototypes hnone ih => exact ih h
  | case3 filled introduced prototype prototypes slot hsome hlow ih =>
      rcases error_of_bind h with hrest | ⟨⟨planned, stop⟩, -, h⟩
      · exact ih hrest
      · cases h
  | case4 introduced prototype prototypes slot hsome hlow ih =>
      rcases error_of_bind h with hrest | ⟨⟨planned, stop⟩, -, h⟩
      · exact ih hrest
      · cases h
  | case5 =>
      cases h
      rfl

theorem isUsage_of_planFrom {filled : Nat} {chain : List TypeIndex}
    (h : planFrom image filled chain = .error error) : error.isUsage = true := by
  induction chain generalizing filled with
  | nil => cases h
  | cons owner chain ih =>
      rcases error_of_bind h with hobject | ⟨object, -, h⟩
      · exact isUsage_of_sourceObject hobject
      · rcases error_of_bind h with hown | ⟨⟨planned, next⟩, -, h⟩
        · exact isUsage_of_planOwner hown
        · rcases error_of_bind h with hothers | ⟨others, -, h⟩
          · exact ih hothers
          · cases h

theorem isUsage_of_prototypeSignature {prototype : Prototype}
    (h : prototypeSignature image registry prototype = .error error) : error.isUsage = true := by
  unfold prototypeSignature at h
  split at h
  · exact Registry.isUsage_of_slotSignature h
  · cases h
    rfl

theorem isUsage_of_ownFields {object : ObjectType}
    (h : ownFields image object registry = .error error) : error.isUsage = true := by
  obtain ⟨field, -, hfield⟩ := error_of_mapM h
  rcases error_of_bind hfield with htype | ⟨type, -, hfield⟩
  · exact Registry.isUsage_of_mapType htype
  · cases hfield

theorem isUsage_of_slotFields (h : slotFields image index registry = .error error) :
    error.isUsage = true := by
  rcases error_of_bind h with hchain | ⟨chain, -, h⟩
  · exact isUsage_of_superChain hchain
  · rcases error_of_bind h with hplanned | ⟨planned, -, h⟩
    · exact isUsage_of_planFrom hplanned
    · obtain ⟨method, -, hmethod⟩ := error_of_mapM h
      rcases error_of_bind hmethod with hsignature | ⟨signature, -, hmethod⟩
      · exact isUsage_of_prototypeSignature hsignature
      · cases hmethod

theorem baseOf_error {object : ObjectType} (h : baseOf object registry = .error error) :
    error.isUsage = true ∨ ∃ parent, object.super = some parent ∧ registry.stage? parent = none ∧
      error = .stageOrder (TypeIndex.text parent) .resolved none := by
  unfold baseOf at h
  split at h
  · cases h
  · rename_i parent hsuper
    rcases error_of_bind h with hbase | ⟨base, -, h⟩
    · cases hstage : registry.stage? parent with
      | some stage =>
          exact Or.inl (Registry.isUsage_of_requireObject hstage (Nat.zero_le _) hbase)
      | none =>
          have hnone := Option.map_eq_none_iff.mp hstage
          refine Or.inr ⟨parent, hsuper, hstage, ?_⟩
          rw [Registry.requireObject, Registry.requireType, hnone] at hbase
          cases hbase
          rfl
    · cases h

theorem isUsage_of_flatFields {owner : TypeIndex} {decl : TypeId} {declared : List FieldDecl}
    {fields : List Field} (h : flatFields owner decl declared fields = .error error) :
    error.isUsage = true := by
  obtain ⟨⟨field, i⟩, -, hfield⟩ := error_of_mapM h
  dsimp only at hfield
  split at hfield <;> cases hfield
  rfl

theorem isUsage_of_contribution {owner : TypeIndex} {stage : Stage}
    (hstage : registry.stage? owner = some stage) (hrank : Stage.defined.rank ≤ stage.rank)
    (h : contribution image registry owner = .error error) : error.isUsage = true := by
  rcases error_of_bind h with hobject | ⟨object, -, h⟩
  · exact isUsage_of_sourceObject hobject
  · rcases error_of_bind h with hdeclared | ⟨⟨declaration, shape⟩, -, h⟩
    · exact Registry.isUsage_of_requireObject hstage hrank hdeclared
    · rcases error_of_bind h with hfields | ⟨fields, -, h⟩
      · exact isUsage_of_flatFields hfields
      · cases h

theorem isUsage_of_addSlot {parts : List Contribution} {slots : List MethodSlot}
    {planned : PlannedSlot} (h : addSlot image registry parts slots planned = .error error) :
    error.isUsage = true := by
  unfold addSlot at h
  split at h
  · cases h
  · split at h
    · cases h
      rfl
    · rcases error_of_bind h with hsignature | ⟨signature, -, h⟩
      · exact isUsage_of_prototypeSignature hsignature
      · cases h

theorem isUsage_of_addSlots {parts : List Contribution} {slots : List MethodSlot}
    {planned : List PlannedSlot}
    (h : planned.foldlM (addSlot image registry parts) slots = .error error) :
    error.isUsage = true := by
  induction planned generalizing slots with
  | nil => cases h
  | cons method planned ih =>
      rw [List.foldlM_cons] at h
      rcases error_of_bind h with hmethod | ⟨more, -, h⟩
      · exact isUsage_of_addSlot hmethod
      · exact ih h

theorem slot_lt_of_addSlots {chain : List TypeIndex} {parts : List Contribution}
    {planned : List PlannedSlot} {slots : List MethodSlot}
    (hparts : chain.mapM (contribution image registry) = .ok parts)
    (hplanned : planSlots image chain = .ok planned)
    (hslots : planned.foldlM (addSlot image registry parts) [] = .ok slots) :
    ∀ method ∈ planned, method.slot < slots.length := by
  obtain ⟨stop, hfills⟩ := planFrom_fills hplanned
  have hlength : slots.length = stop := by
    rw [← List.length_map MethodSlot.entry, slots_table hparts hslots]
    exact length_table _ hfills
  rw [hlength]
  exact hfills.slot_lt

theorem isUsage_of_bindSlot {name : String} {slots : List MethodSlot} {planned : PlannedSlot}
    (hslot : planned.slot < slots.length)
    (h : bindSlot registry name slots planned = .error error) : error.isUsage = true := by
  unfold bindSlot at h
  dsimp only at h
  rw [List.getElem?_eq_getElem hslot] at h
  split at h <;> cases h
  rfl

/-- A registry in which a class can be laid out: the object types are defined,
the own type has just been moved on, its base is that of the source type, and
its constructor is there. -/
structure Ready (image : Image) (index : TypeIndex) (object : ObjectType) (registry : Registry) :
    Prop where
  defined : ∀ owner, (image.object? owner).isSome →
    ∃ stage, registry.stage? owner = some stage ∧ Stage.defined.rank ≤ stage.rank
  compiled : registry.stage? index = some .compiled
  base : ∀ outline, registry.outline? index = some outline → outline.base = object.super
  built : ∀ declaration, registry.declaration? index = some declaration →
    ∀ constructor ∈ declaration.shape.constructors,
      constructor < registry.target.methods.length

theorem isUsage_of_callBase {base : Option TypeIndex}
    (hbase : ∀ parent, base = some parent →
      ∃ stage, registry.stage? parent = some stage ∧ Stage.defined.rank ≤ stage.rank)
    (h : callBase registry base = .error error) : error.isUsage = true := by
  unfold callBase at h
  split at h
  · cases h
  · rename_i parent
    obtain ⟨stage, hstage, hrank⟩ := hbase parent rfl
    rcases error_of_bind h with hdeclared | ⟨⟨declaration, shape⟩, -, h⟩
    · exact Registry.isUsage_of_requireObject hstage hrank hdeclared
    · cases h

theorem isUsage_of_layout {object : ObjectType} (hobject : image.object? index = some object)
    (hready : Ready image index object registry)
    (h : layout image index object registry = .error error) : error.isUsage = true := by
  rcases error_of_bind h with hchain | ⟨chain, hchain, h⟩
  · exact isUsage_of_superChain hchain
  have hline := superChain_ok hchain
  rcases error_of_bind h with hparts | ⟨parts, hparts, h⟩
  · obtain ⟨owner, howner, hpart⟩ := error_of_mapM hparts
    obtain ⟨stage, hstage, hrank⟩ := hready.defined owner (hline.object_of_mem howner)
    exact isUsage_of_contribution hstage hrank hpart
  rcases error_of_bind h with hplanned | ⟨planned, hplanned, h⟩
  · exact isUsage_of_planFrom hplanned
  rcases error_of_bind h with hslots | ⟨slots, hslots, h⟩
  · exact isUsage_of_addSlots hslots
  rcases error_of_bind h with hown | ⟨⟨declaration, shape⟩, hown, h⟩
  · exact Registry.isUsage_of_requireObject hready.compiled (Nat.le_refl _) hown
  obtain ⟨hfound, hshape⟩ := requireObject_ok hown
  rcases error_of_bind h with hbase | ⟨base, hbase, h⟩
  · refine isUsage_of_callBase ?_ hbase
    intro parent hparent
    -- the chain goes through the base
    have hsuper : object.super = some parent := by
      rw [← hready.base _ (Registry.outline?_of_declaration ⟨hfound, hshape⟩)]
      exact hparent
    refine hready.defined parent ?_
    cases hline with
    | root hother hnone =>
        cases hobject.symm.trans hother
        cases hsuper.symm.trans hnone
    | derived hother hsome hupper =>
        cases hobject.symm.trans hother
        cases hsuper.symm.trans hsome
        obtain ⟨above, habove⟩ := hupper.object
        rw [habove, Option.isSome_some]
  rcases error_of_bind h with hbindings | ⟨bindings, -, h⟩
  · obtain ⟨method, hmethod, hbinding⟩ := error_of_mapM hbindings
    refine isUsage_of_bindSlot ?_ hbinding
    exact slot_lt_of_addSlots hparts hplanned hslots method (List.mem_filter.mp hmethod).1
  have hbuilt := hready.built declaration hfound shape.constructor
    (by simp [hshape, Shape.constructors])
  rw [if_pos hbuilt] at h
  cases h

end ObjectLayout

/-! ## Enums and records -/

theorem EnumLayout.isUsage_of_constructFields {decl : TypeId} {params : List TypeIndex}
    (h : constructFields image decl params registry = .error error) : error.isUsage = true := by
  obtain ⟨⟨param, i⟩, -, hparam⟩ := error_of_mapM h
  rcases error_of_bind hparam with htype | ⟨type, -, hparam⟩
  · exact Registry.isUsage_of_mapType htype
  · cases hparam

theorem VirtualLayout.isUsage_of_recordFields {decl : TypeId} {fields : List Field}
    (h : recordFields image decl fields registry = .error error) : error.isUsage = true := by
  obtain ⟨⟨field, i⟩, -, hfield⟩ := error_of_mapM h
  rcases error_of_bind hfield with htype | ⟨type, -, hfield⟩
  · exact Registry.isUsage_of_mapType htype
  · cases hfield

end BytecodeLowering

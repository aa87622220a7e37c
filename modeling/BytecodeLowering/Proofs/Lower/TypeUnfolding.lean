import BytecodeLowering.Proofs.Lower.ClassFields
import BytecodeLowering.Proofs.Lower.TypeTrees

/-!
# Mapped types

A type unfolds through wrappers and function types to a tree, if it unfolds to
anything finite.  Mapping a type finds this tree, unless it is too deep, and
translates it from its leaves.
-/

namespace BytecodeLowering

/-! ## Unfolding -/

def SourceType.wrapped? : SourceType → Option (Wrapper × TypeIndex)
  | .ref inner => some (.ref, inner)
  | .null inner => some (.null, inner)
  | .packed inner => some (.packed, inner)
  | _ => none

/-- Nothing is to be unfolded; there may be no type at all. -/
def Image.Ends (image : Image) (index : TypeIndex) : Prop :=
  ∀ source, image.type? index = some source → source.wrapped? = none ∧ source.signature? = none

mutual

inductive Image.Unfolds (image : Image) : TypeIndex → TypeTree → Prop
  | leaf {index : TypeIndex} (hends : image.Ends index) : Unfolds image index (.leaf index)
  | wrapped {index inner : TypeIndex} {source : SourceType} {wrapper : Wrapper} {tree : TypeTree}
      (hsource : image.type? index = some source)
      (hwrapped : source.wrapped? = some (wrapper, inner)) (hinner : Unfolds image inner tree) :
      Unfolds image index (.wrapped wrapper tree)
  | func {index : TypeIndex} {signature : FunctionType} {args : List TypeTree} {ret : TypeTree}
      (hsignature : image.signature? index = some signature)
      (hargs : UnfoldsAll image signature.args args) (hret : Unfolds image signature.ret ret) :
      Unfolds image index (.func args ret)

inductive Image.UnfoldsAll (image : Image) : List TypeIndex → List TypeTree → Prop
  | nil : UnfoldsAll image [] []
  | cons {index : TypeIndex} {tree : TypeTree} {indexes : List TypeIndex} {trees : List TypeTree}
      (h : Unfolds image index tree) (hrest : UnfoldsAll image indexes trees) :
      UnfoldsAll image (index :: indexes) (tree :: trees)

end

section Unfolding

variable {image : Image} {index : TypeIndex} {indexes : List TypeIndex} {tree : TypeTree}
  {trees : List TypeTree}

theorem Image.unfold_cases (image : Image) (index : TypeIndex) :
    image.Ends index ∨
      (∃ source wrapper inner, image.type? index = some source ∧
        source.wrapped? = some (wrapper, inner)) ∨
      ∃ signature, image.signature? index = some signature := by
  cases hsource : image.type? index with
  | none =>
      left
      intro source hfound
      cases hsource.symm.trans hfound
  | some source =>
      cases hwrapped : source.wrapped? with
      | some wrapped => exact .inr (.inl ⟨source, wrapped.1, wrapped.2, rfl, hwrapped⟩)
      | none =>
          cases hsignature : source.signature? with
          | some signature =>
              refine .inr (.inr ⟨signature, ?_⟩)
              rw [Image.signature?, hsource, Option.bind_some, hsignature]
          | none =>
              left
              intro found hfound
              obtain rfl := Option.some.inj (hsource.symm.trans hfound)
              exact ⟨hwrapped, hsignature⟩

theorem Image.Ends.signature? (h : image.Ends index) : image.signature? index = none := by
  rw [Image.signature?, Option.bind_eq_none_iff]
  exact fun source hsource => (h source hsource).2

theorem Image.signature?_of_wrapped {source : SourceType} {wrapper : Wrapper} {inner : TypeIndex}
    (hsource : image.type? index = some source)
    (hwrapped : source.wrapped? = some (wrapper, inner)) : image.signature? index = none := by
  rw [Image.signature?, hsource, Option.bind_some]
  cases source <;> first | rfl | cases hwrapped

namespace Image.Unfolds

theorem of_ends (h : image.Unfolds index tree) (hends : image.Ends index) :
    tree = .leaf index := by
  cases h with
  | leaf => rfl
  | wrapped hsource hwrapped =>
      rw [(hends _ hsource).1] at hwrapped
      cases hwrapped
  | func hsignature =>
      rw [hends.signature?] at hsignature
      cases hsignature

theorem of_wrapped (h : image.Unfolds index tree) {source : SourceType} {wrapper : Wrapper}
    {inner : TypeIndex} (hsource : image.type? index = some source)
    (hwrapped : source.wrapped? = some (wrapper, inner)) :
    ∃ below, tree = .wrapped wrapper below ∧ image.Unfolds inner below := by
  cases h with
  | leaf hends =>
      rw [(hends _ hsource).1] at hwrapped
      cases hwrapped
  | wrapped hsource' hwrapped' hinner =>
      obtain rfl := Option.some.inj (hsource.symm.trans hsource')
      cases hwrapped.symm.trans hwrapped'
      exact ⟨_, rfl, hinner⟩
  | func hsignature =>
      rw [signature?_of_wrapped hsource hwrapped] at hsignature
      cases hsignature

theorem of_signature (h : image.Unfolds index tree) {signature : FunctionType}
    (hsignature : image.signature? index = some signature) :
    ∃ args ret, tree = .func args ret ∧ image.UnfoldsAll signature.args args ∧
      image.Unfolds signature.ret ret := by
  cases h with
  | leaf hends =>
      rw [hends.signature?] at hsignature
      cases hsignature
  | wrapped hsource hwrapped =>
      rw [signature?_of_wrapped hsource hwrapped] at hsignature
      cases hsignature
  | func hsignature' hargs hret =>
      obtain rfl := Option.some.inj (hsignature.symm.trans hsignature')
      exact ⟨_, _, rfl, hargs, hret⟩

end Image.Unfolds

mutual

theorem Image.Unfolds.unique {index : TypeIndex} {tree other : TypeTree}
    (h : image.Unfolds index tree) (hother : image.Unfolds index other) : tree = other := by
  cases h with
  | leaf hends => exact (hother.of_ends hends).symm
  | wrapped hsource hwrapped hinner =>
      obtain ⟨below, rfl, hbelow⟩ := hother.of_wrapped hsource hwrapped
      rw [hinner.unique hbelow]
  | func hsignature hargs hret =>
      obtain ⟨others, result, rfl, hothers, hresult⟩ := hother.of_signature hsignature
      rw [hargs.unique hothers, hret.unique hresult]

theorem Image.UnfoldsAll.unique {indexes : List TypeIndex} {trees others : List TypeTree}
    (h : image.UnfoldsAll indexes trees) (hothers : image.UnfoldsAll indexes others) :
    trees = others := by
  cases h with
  | nil =>
      cases hothers
      rfl
  | cons htree hrest =>
      cases hothers with
      | cons htree' hrest' => rw [htree.unique htree', hrest.unique hrest']

end

end Unfolding

/-! ## Mapping -/

/-- The types that need no declaration.  A 32-bit float is kept as a 64-bit one. -/
def SourceType.builtin? : SourceType → Option Builtin
  | .void => some .void
  | .u8 => some .u8
  | .u16 => some .u16
  | .i32 => some .i32
  | .i64 => some .i64
  | .f32 | .f64 => some .f64
  | .bool => some .bool
  | .bytes => some .bytes
  | .dyn | .dynObj => some .dynamic
  | .array => some .array
  | .type => some .typeValue
  | _ => none

def Registry.leafType? (registry : Registry) (image : Image) (index : TypeIndex) :
    Option TargetType :=
  (image.type? index).bind fun source =>
    match source.builtin? with
    | some type => some (.builtin type)
    | none => source.nominal?.bind fun kind => (registry.decl? index).map (.declared kind)

namespace TypeMapping

variable {image : Image} {registry : Registry} {levels : Nat} {index : TypeIndex}

theorem map_declared_ok {kind : Nominal} {type : TargetType} :
    TargetType.declared kind <$> declared registry index = .ok type ↔
      (registry.decl? index).map (.declared kind) = some type := by
  unfold declared Registry.decl?
  cases registry.declaration? index <;> simp [Functor.map, Except.map]

theorem mapWithin_of_ends (h : image.Ends index) {type : TargetType} :
    mapWithin image registry (levels + 1) index = .ok type ↔
      registry.leafType? image index = some type := by
  rw [mapWithin, Registry.leafType?]
  cases hsource : image.type? index with
  | none => simp
  | some source =>
      obtain ⟨hwrapped, hsignature⟩ := h source hsource
      cases source
      case func | method => cases hsignature
      case ref | null | packed => cases hwrapped
      case obj | struct | virtual | enum | abstract => exact map_declared_ok
      all_goals exact ⟨fun hmap => congrArg some (Except.ok.inj hmap),
        fun htype => congrArg Except.ok (Option.some.inj htype)⟩

theorem mapWithin_of_wrapped {source : SourceType} {wrapper : Wrapper} {inner : TypeIndex}
    (hsource : image.type? index = some source)
    (hwrapped : source.wrapped? = some (wrapper, inner)) :
    mapWithin image registry (levels + 1) index
      = wrapper.apply <$> mapWithin image registry levels inner := by
  rw [mapWithin, hsource]
  cases source <;> cases hwrapped
  · rfl
  · rfl
  · exact (id_map _).symm

/-- A function type takes two levels at once. -/
theorem mapWithin_of_signature {signature : FunctionType}
    (h : image.signature? index = some signature) :
    mapWithin image registry (levels + 1) index
      = .ofSignature <$> signatureWith (mapWithin image registry (levels - 1)) signature := by
  obtain ⟨source, hsource, hsignature⟩ := Option.bind_eq_some_iff.mp h
  rw [mapWithin, hsource]
  cases source <;> cases hsignature <;> cases levels <;> rfl

/-- The type unfolds, in less than so many levels, to a tree with the target type. -/
def Maps (image : Image) (registry : Registry) (levels : Nat) (index : TypeIndex)
    (type : TargetType) : Prop :=
  ∃ tree, image.Unfolds index tree ∧ tree.nesting < levels ∧
    tree.target? (registry.leafType? image) = some type

theorem trees_of_mapM {mapType : TypeIndex → Except LoweringError TargetType}
    (hmap : ∀ arg type, mapType arg = .ok type → Maps image registry levels arg type)
    (hlevels : 0 < levels) {args : List TypeIndex} {params : List TargetType}
    (h : args.mapM mapType = .ok params) :
    ∃ trees, image.UnfoldsAll args trees ∧ TypeTree.nestingOf trees < levels ∧
      TypeTree.targets? (registry.leafType? image) trees = some params := by
  induction args generalizing params with
  | nil =>
      cases h
      exact ⟨[], .nil, hlevels, rfl⟩
  | cons arg args ih =>
      obtain ⟨first, rest, hfirst, hrest, rfl⟩ := ok_of_mapM_cons h
      obtain ⟨tree, hunfolds, hnesting, htarget⟩ := hmap arg first hfirst
      obtain ⟨trees, hothers, hnestings, htargets⟩ := ih hrest
      exact ⟨tree :: trees, .cons hunfolds hothers, Nat.max_lt.mpr ⟨hnesting, hnestings⟩,
        TypeTree.targets?_cons.mpr ⟨first, rest, htarget, htargets, rfl⟩⟩

theorem maps_of_mapWithin (levels : Nat) (index : TypeIndex) {type : TargetType}
    (h : mapWithin image registry levels index = .ok type) :
    Maps image registry levels index type := by
  induction levels using Nat.strongRecOn generalizing index type with
  | ind levels ih =>
      cases levels with
      | zero => cases h
      | succ levels =>
          rcases image.unfold_cases index with
            hends | ⟨source, wrapper, inner, hsource, hwrapped⟩ | ⟨signature, hsignature⟩
          · exact ⟨.leaf index, .leaf hends, Nat.succ_pos levels, (mapWithin_of_ends hends).mp h⟩
          · rw [mapWithin_of_wrapped hsource hwrapped] at h
            obtain ⟨found, hfound, rfl⟩ := ok_of_map h
            obtain ⟨tree, hunfolds, hnesting, htarget⟩ := ih levels (by omega) inner hfound
            exact ⟨.wrapped wrapper tree, .wrapped hsource hwrapped hunfolds,
              Nat.succ_lt_succ hnesting, TypeTree.target?_wrapped.mpr ⟨found, htarget, rfl⟩⟩
          · rw [mapWithin_of_signature hsignature] at h
            obtain ⟨found, hfound, rfl⟩ := ok_of_map h
            obtain ⟨params, hparams, hfound⟩ := ok_of_bind hfound
            obtain ⟨result, hresult, hfound⟩ := ok_of_bind hfound
            cases hfound
            have hmap (arg : TypeIndex) (type : TargetType) := @ih (levels - 1) (by omega) arg type
            obtain ⟨ret, hret, hnesting, htarget⟩ := hmap _ _ hresult
            obtain ⟨args, hargs, hnestings, htargets⟩ :=
              trees_of_mapM hmap (Nat.zero_lt_of_lt hnesting) hparams
            refine ⟨.func args ret, .func hsignature hargs hret, ?_,
              TypeTree.target?_func.mpr ⟨params, result, htargets, htarget, rfl⟩⟩
            rw [TypeTree.nesting]
            omega

mutual

theorem mapWithin_of_unfolds {index : TypeIndex} {tree : TypeTree} {levels : Nat}
    {type : TargetType} (h : image.Unfolds index tree) (hnesting : tree.nesting < levels)
    (htarget : tree.target? (registry.leafType? image) = some type) :
    mapWithin image registry levels index = .ok type := by
  obtain ⟨levels, rfl⟩ := Nat.exists_eq_add_one_of_ne_zero (Nat.ne_zero_of_lt hnesting)
  cases h with
  | leaf hends => exact (mapWithin_of_ends hends).mpr htarget
  | wrapped hsource hwrapped hinner =>
      obtain ⟨found, hfound, rfl⟩ := TypeTree.target?_wrapped.mp htarget
      rw [mapWithin_of_wrapped hsource hwrapped,
        mapWithin_of_unfolds hinner (Nat.lt_of_succ_lt_succ hnesting) hfound]
      rfl
  | func hsignature hargs hret =>
      obtain ⟨params, result, hparams, hresult, rfl⟩ := TypeTree.target?_func.mp htarget
      rw [TypeTree.nesting] at hnesting
      rw [mapWithin_of_signature hsignature, signatureWith,
        mapM_of_unfoldsAll hargs (by omega) hparams, mapWithin_of_unfolds hret (by omega) hresult]
      rfl

theorem mapM_of_unfoldsAll {args : List TypeIndex} {trees : List TypeTree} {levels : Nat}
    {params : List TargetType} (h : image.UnfoldsAll args trees)
    (hnesting : TypeTree.nestingOf trees < levels)
    (htargets : TypeTree.targets? (registry.leafType? image) trees = some params) :
    args.mapM (mapWithin image registry levels) = .ok params := by
  cases h with
  | nil =>
      cases htargets
      rfl
  | cons htree hrest =>
      obtain ⟨type, rest, htype, htypes, rfl⟩ := TypeTree.targets?_cons.mp htargets
      obtain ⟨hfirst, hothers⟩ := Nat.max_lt.mp hnesting
      rw [List.mapM_cons, mapWithin_of_unfolds htree hfirst htype,
        mapM_of_unfoldsAll hrest hothers htypes]
      rfl

end

theorem mapWithin_ok_iff {type : TargetType} :
    mapWithin image registry levels index = .ok type ↔ Maps image registry levels index type := by
  constructor
  · exact maps_of_mapWithin levels index
  · rintro ⟨tree, hunfolds, hnesting, htarget⟩
    exact mapWithin_of_unfolds hunfolds hnesting htarget

end TypeMapping

/-! ## Leaves -/

def Image.nominal? (image : Image) (index : TypeIndex) : Option Nominal :=
  (image.type? index).bind (·.nominal?)

section Leaf

variable {image : Image} {registry : Registry} {index : TypeIndex} {type : TargetType}

theorem SourceType.builtin?_native {source : SourceType} {type : Builtin}
    (h : source.builtin? = some type) : TargetType.Native (.builtin type) := by
  cases source <;> cases h <;> exact .builtin (by decide)

theorem SourceType.nominal?_of_builtin? {source : SourceType} {type : Builtin}
    (h : source.builtin? = some type) : source.nominal? = none := by
  cases source <;> first | rfl | cases h

theorem SourceType.exists_nominal {source : SourceType} (hwrapped : source.wrapped? = none)
    (hsignature : source.signature? = none) (hbuiltin : source.builtin? = none) :
    ∃ kind, source.nominal? = some kind := by
  cases source
  case func | method => cases hsignature
  case ref | null | packed => cases hwrapped
  case obj | struct | virtual | enum | abstract => exact ⟨_, rfl⟩
  all_goals cases hbuiltin

theorem Registry.leafType?_cases (h : registry.leafType? image index = some type) :
    (∃ found, type = .builtin found ∧ type.Native ∧ image.nominal? index = none) ∨
      ∃ kind id, type = .declared kind id ∧ image.nominal? index = some kind ∧
        registry.decl? index = some id := by
  obtain ⟨source, hsource, h⟩ := Option.bind_eq_some_iff.mp h
  have hnominal : image.nominal? index = source.nominal? := by
    rw [Image.nominal?, hsource, Option.bind_some]
  cases hbuiltin : source.builtin? with
  | some found =>
      rw [hbuiltin] at h
      cases h
      exact .inl ⟨found, rfl, SourceType.builtin?_native hbuiltin,
        hnominal.trans (SourceType.nominal?_of_builtin? hbuiltin)⟩
  | none =>
      rw [hbuiltin] at h
      obtain ⟨kind, hkind, h⟩ := Option.bind_eq_some_iff.mp h
      obtain ⟨id, hid, rfl⟩ := Option.map_eq_some_iff.mp h
      exact .inr ⟨kind, id, rfl, hnominal.trans hkind, hid⟩

theorem Registry.native_of_leafType? (h : registry.leafType? image index = some type) :
    type.Native := by
  rcases leafType?_cases h with ⟨_, -, hnative, -⟩ | ⟨kind, id, rfl, -, -⟩
  · exact hnative
  · exact .declared kind id

theorem Registry.ids_of_leafType? (h : registry.leafType? image index = some type) :
    List.Forall₂ (fun leaf id => registry.decl? leaf = some id)
      ([index].filter fun leaf => (image.nominal? leaf).isSome) type.ids := by
  rcases leafType?_cases h with ⟨found, rfl, -, hnominal⟩ | ⟨kind, id, rfl, hnominal, hid⟩
  · simp [hnominal, TargetType.ids]
  · simp [hnominal, TargetType.ids, hid]

theorem TypeMapping.native_of_mapWithin {levels : Nat}
    (h : mapWithin image registry levels index = .ok type) : type.Native := by
  obtain ⟨tree, -, -, htarget⟩ := mapWithin_ok_iff.mp h
  exact tree.native_of_target? (fun _ _ => Registry.native_of_leafType?) htarget

theorem TypeMapping.exists_of_mem_ids {levels : Nat}
    (h : mapWithin image registry levels index = .ok type) {id : TypeId} (hid : id ∈ type.ids) :
    ∃ leaf, registry.decl? leaf = some id := by
  obtain ⟨tree, -, -, htarget⟩ := mapWithin_ok_iff.mp h
  obtain ⟨hlength, hnames⟩ := List.forall₂_iff_get.mp
    (tree.ids_of_target? (fun _ _ => Registry.ids_of_leafType?) htarget)
  obtain ⟨place, rfl⟩ := List.mem_iff_get.mp hid
  exact ⟨_, hnames place (by rw [hlength]; exact place.isLt) place.isLt⟩

theorem Image.Ends.leafType?_isSome (h : image.Ends index) :
    (registry.leafType? image index).isSome ↔ index < image.types.length ∧
      ((image.nominal? index).isSome → (registry.decl? index).isSome) := by
  rw [Registry.leafType?, Image.nominal?]
  cases hsource : image.type? index with
  | none =>
      have houtside := List.getElem?_eq_none_iff.mp hsource
      simp [houtside]
  | some source =>
      have hinside := (List.getElem?_eq_some_iff.mp hsource).1
      obtain ⟨hwrapped, hsignature⟩ := h source hsource
      cases hbuiltin : source.builtin? with
      | some type =>
          have hnominal := SourceType.nominal?_of_builtin? hbuiltin
          simp [hinside, hbuiltin, hnominal]
      | none =>
          obtain ⟨kind, hnominal⟩ := SourceType.exists_nominal hwrapped hsignature hbuiltin
          simp [hinside, hbuiltin, hnominal]

end Leaf

/-! ## Complete trees -/

def TypeTree.declared (image : Image) (tree : TypeTree) : List TypeIndex :=
  tree.leaves.filter fun leaf => (image.nominal? leaf).isSome

/-- Every leaf is in the type table and has a declaration if it needs one. -/
structure TypeTree.Complete (image : Image) (registry : Registry) (tree : TypeTree) : Prop where
  inside : ∀ leaf ∈ tree.leaves, leaf < image.types.length
  declared : ∀ leaf ∈ tree.declared image, (registry.decl? leaf).isSome

section Complete

variable {image : Image} {registry : Registry} {index : TypeIndex} {tree : TypeTree}

mutual

theorem Image.Unfolds.ends_of_mem {index : TypeIndex} {tree : TypeTree}
    (h : image.Unfolds index tree) : ∀ leaf ∈ tree.leaves, image.Ends leaf := by
  cases h with
  | leaf hends => simpa [TypeTree.leaves] using hends
  | wrapped _ _ hinner =>
      rw [TypeTree.leaves]
      exact hinner.ends_of_mem
  | func _ hargs hret =>
      rw [TypeTree.leaves]
      exact List.forall_mem_append.mpr ⟨hargs.ends_of_mem, hret.ends_of_mem⟩

theorem Image.UnfoldsAll.ends_of_mem {indexes : List TypeIndex} {trees : List TypeTree}
    (h : image.UnfoldsAll indexes trees) :
    ∀ leaf ∈ TypeTree.leavesOf trees, image.Ends leaf := by
  cases h with
  | nil => simp [TypeTree.leavesOf]
  | cons htree hrest =>
      rw [TypeTree.leavesOf]
      exact List.forall_mem_append.mpr ⟨htree.ends_of_mem, hrest.ends_of_mem⟩

end

theorem Image.Unfolds.target?_isSome (h : image.Unfolds index tree) :
    (tree.target? (registry.leafType? image)).isSome ↔ tree.Complete image registry := by
  rw [TypeTree.target?_isSome]
  constructor
  · intro hleaves
    refine ⟨?_, ?_⟩
    · intro leaf hleaf
      exact ((h.ends_of_mem leaf hleaf).leafType?_isSome.mp (hleaves leaf hleaf)).1
    · intro leaf hdeclared
      obtain ⟨hleaf, hnominal⟩ := List.mem_filter.mp hdeclared
      exact ((h.ends_of_mem leaf hleaf).leafType?_isSome.mp (hleaves leaf hleaf)).2 hnominal
  · intro hcomplete leaf hleaf
    refine (h.ends_of_mem leaf hleaf).leafType?_isSome.mpr ⟨hcomplete.inside leaf hleaf, ?_⟩
    exact fun hnominal => hcomplete.declared leaf (List.mem_filter.mpr ⟨hleaf, hnominal⟩)

end Complete

/-! ## Mapping is bounded unfolding -/

theorem Registry.mapType_exact (image : Image) (registry : Registry) (index : TypeIndex) :
    ((∃ type, registry.mapType image index = .ok type) ↔
      ∃ tree, image.Unfolds index tree ∧ tree.nesting ≤ 64 ∧ tree.Complete image registry) ∧
    ∀ type tree, registry.mapType image index = .ok type → image.Unfolds index tree →
      tree.target? (registry.leafType? image) = some type ∧ type.Native ∧
        List.Forall₂ (fun leaf id => registry.decl? leaf = some id) (tree.declared image)
          type.ids := by
  refine ⟨⟨?_, ?_⟩, ?_⟩
  · rintro ⟨type, h⟩
    obtain ⟨tree, hunfolds, hnesting, htarget⟩ := TypeMapping.mapWithin_ok_iff.mp h
    refine ⟨tree, hunfolds, Nat.le_of_lt_succ hnesting, hunfolds.target?_isSome.mp ?_⟩
    rw [htarget, Option.isSome_some]
  · rintro ⟨tree, hunfolds, hnesting, hcomplete⟩
    obtain ⟨type, htarget⟩ := Option.isSome_iff_exists.mp (hunfolds.target?_isSome.mpr hcomplete)
    exact ⟨type, TypeMapping.mapWithin_ok_iff.mpr
      ⟨tree, hunfolds, Nat.lt_succ_of_le hnesting, htarget⟩⟩
  · intro type tree h hunfolds
    obtain ⟨found, hfound, -, htarget⟩ := TypeMapping.mapWithin_ok_iff.mp h
    obtain rfl := hfound.unique hunfolds
    exact ⟨htarget, TypeMapping.native_of_mapWithin h,
      found.ids_of_target? (fun _ _ => ids_of_leafType?) htarget⟩

def wrappedImage : Image where
  version := 4
  types := [.func ⟨[1, 2], 3⟩, .null 2, .f32, .packed 4, .abstract "Handle", .ref 5]

def wrappedRegistry : Registry where
  types := [none, none, none, none,
    some { stage := .resolved, source := 4, decl := 7, shape := .abstract "Handle" }, none]
  functions := []
  target := { name := "" }

theorem Registry.mapType_exact_wrapped :
    (∃ tree, wrappedImage.Unfolds 0 tree ∧ tree.Complete wrappedImage wrappedRegistry ∧
      tree.target? (wrappedRegistry.leafType? wrappedImage)
        = some (.delegate [.nullable .f64, .f64] (.abstract 7)) ∧
      List.Forall₂ (fun leaf id => wrappedRegistry.decl? leaf = some id)
        (tree.declared wrappedImage) [7]) ∧
    ¬ ∃ tree, wrappedImage.Unfolds 5 tree ∧ tree.nesting ≤ 64 ∧
      tree.Complete wrappedImage wrappedRegistry := by
  have hmapped : wrappedRegistry.mapType wrappedImage 0
      = .ok (.delegate [.nullable .f64, .f64] (.abstract 7)) := rfl
  have hcyclic : wrappedRegistry.mapType wrappedImage 5
      = .error (.unresolvedType 5 "type nesting too deep") := rfl
  obtain ⟨hfound, htree⟩ := mapType_exact wrappedImage wrappedRegistry 0
  obtain ⟨tree, hunfolds, -, hcomplete⟩ := hfound.mp ⟨_, hmapped⟩
  obtain ⟨htarget, -, hids⟩ := htree _ tree hmapped hunfolds
  refine ⟨⟨tree, hunfolds, hcomplete, htarget, hids⟩, fun hdeep => ?_⟩
  obtain ⟨type, htype⟩ := (mapType_exact wrappedImage wrappedRegistry 5).1.mpr hdeep
  cases hcyclic.symm.trans htype

end BytecodeLowering

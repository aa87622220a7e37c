import BytecodeLowering.Image.SourceType
import BytecodeLowering.Proofs.Target.Closed
import Mathlib.Data.List.Forall2

/-!
# Trees of types

A type is made of wrappers and function types over its leaves.  The target type
of a tree is put together from those of the leaves and has nothing in it that does
not come from them.
-/

namespace BytecodeLowering

/-! ## Trees -/

inductive Wrapper where
  | ref | null | packed
  deriving DecidableEq, Repr

/-- A packed type is the type inside. -/
def Wrapper.apply : Wrapper → TargetType → TargetType
  | .ref, inner => .ref inner
  | .null, inner => .nullable inner
  | .packed, inner => inner

/-- What a type is made of.  A leaf is told by its position in the type table. -/
inductive TypeTree where
  | leaf (index : TypeIndex)
  | wrapped (wrapper : Wrapper) (inner : TypeTree)
  | func (args : List TypeTree) (ret : TypeTree)

namespace TypeTree

mutual

/-- A wrapper is one level, a function type two. -/
def nesting : TypeTree → Nat
  | .leaf _ => 0
  | .wrapped _ inner => nesting inner + 1
  | .func args ret => max (nestingOf args) (nesting ret) + 2

def nestingOf : List TypeTree → Nat
  | [] => 0
  | tree :: trees => max (nesting tree) (nestingOf trees)

end

mutual

def leaves : TypeTree → List TypeIndex
  | .leaf index => [index]
  | .wrapped _ inner => leaves inner
  | .func args ret => leavesOf args ++ leaves ret

def leavesOf : List TypeTree → List TypeIndex
  | [] => []
  | tree :: trees => leaves tree ++ leavesOf trees

end

section Target

variable (leaf? : TypeIndex → Option TargetType)

mutual

def target? : TypeTree → Option TargetType
  | .leaf index => leaf? index
  | .wrapped wrapper inner => (target? inner).map wrapper.apply
  | .func args ret => (targets? args).bind fun params => (target? ret).map (.delegate params)

def targets? : List TypeTree → Option (List TargetType)
  | [] => some []
  | tree :: trees => (target? tree).bind fun type => (targets? trees).map (type :: ·)

end

end Target

variable {leaf? : TypeIndex → Option TargetType}

theorem targets?_cons {tree : TypeTree} {trees : List TypeTree} {types : List TargetType} :
    targets? leaf? (tree :: trees) = some types ↔ ∃ type rest, target? leaf? tree = some type ∧
      targets? leaf? trees = some rest ∧ type :: rest = types := by
  simp [targets?, Option.bind_eq_some_iff]

theorem target?_wrapped {wrapper : Wrapper} {inner : TypeTree} {type : TargetType} :
    target? leaf? (.wrapped wrapper inner) = some type ↔
      ∃ found, target? leaf? inner = some found ∧ wrapper.apply found = type := by
  simp [target?]

theorem target?_func {args : List TypeTree} {ret : TypeTree} {type : TargetType} :
    target? leaf? (.func args ret) = some type ↔ ∃ params result,
      targets? leaf? args = some params ∧ target? leaf? ret = some result ∧
        .delegate params result = type := by
  simp [target?, Option.bind_eq_some_iff]

mutual

theorem target?_isSome : ∀ tree : TypeTree,
    (target? leaf? tree).isSome ↔ ∀ leaf ∈ leaves tree, (leaf? leaf).isSome
  | .leaf index => by simp [target?, leaves]
  | .wrapped wrapper inner => by
      rw [target?, Option.isSome_map, leaves]
      exact target?_isSome inner
  | .func args ret => by
      rw [leaves, List.forall_mem_append, ← targets?_isSome args, ← target?_isSome ret]
      cases hargs : targets? leaf? args <;> simp [target?, hargs]

theorem targets?_isSome : ∀ trees : List TypeTree,
    (targets? leaf? trees).isSome ↔ ∀ leaf ∈ leavesOf trees, (leaf? leaf).isSome
  | [] => by simp [targets?, leavesOf]
  | tree :: trees => by
      rw [leavesOf, List.forall_mem_append, ← target?_isSome tree, ← targets?_isSome trees]
      cases htree : target? leaf? tree <;> simp [targets?, htree]

end

end TypeTree

/-! ## What a target type is made of -/

/-- No 32-bit float, string or plain object at any depth. -/
inductive TargetType.Native : TargetType → Prop
  | builtin {type : Builtin} (h : type ≠ .f32 ∧ type ≠ .str ∧ type ≠ .any) :
      Native (.builtin type)
  | declared (kind : Nominal) (id : TypeId) : Native (.declared kind id)
  | delegate {params : List TargetType} {ret : TargetType}
      (hparams : ∀ param ∈ params, Native param) (hret : Native ret) :
      Native (.delegate params ret)
  | ref {inner : TargetType} (h : Native inner) : Native (.ref inner)
  | nullable {inner : TargetType} (h : Native inner) : Native (.nullable inner)

theorem Wrapper.native_apply {wrapper : Wrapper} {inner : TargetType} (h : inner.Native) :
    (wrapper.apply inner).Native := by
  cases wrapper with
  | ref => exact .ref h
  | null => exact .nullable h
  | packed => exact h

theorem Wrapper.ids_apply (wrapper : Wrapper) (inner : TargetType) :
    (wrapper.apply inner).ids = inner.ids := by
  cases wrapper <;> rfl

namespace TypeTree

variable {leaf? : TypeIndex → Option TargetType}

mutual

theorem native_of_target? (hleaf : ∀ leaf type, leaf? leaf = some type → type.Native) :
    ∀ (tree : TypeTree) {type : TargetType}, target? leaf? tree = some type → type.Native
  | .leaf index, type, h => hleaf index type h
  | .wrapped wrapper inner, type, h => by
      obtain ⟨found, hfound, rfl⟩ := target?_wrapped.mp h
      exact Wrapper.native_apply (native_of_target? hleaf inner hfound)
  | .func args ret, type, h => by
      obtain ⟨params, result, hparams, hresult, rfl⟩ := target?_func.mp h
      exact .delegate (native_of_targets? hleaf args hparams) (native_of_target? hleaf ret hresult)

theorem native_of_targets? (hleaf : ∀ leaf type, leaf? leaf = some type → type.Native) :
    ∀ (trees : List TypeTree) {types : List TargetType},
      targets? leaf? trees = some types → ∀ type ∈ types, type.Native
  | [], types, h => by
      cases h
      nofun
  | tree :: trees, types, h => by
      obtain ⟨type, rest, htype, hrest, rfl⟩ := targets?_cons.mp h
      exact List.forall_mem_cons.mpr
        ⟨native_of_target? hleaf tree htype, native_of_targets? hleaf trees hrest⟩

end

variable {names : TypeIndex → TypeId → Prop} {named : TypeIndex → Bool}

mutual

/-- The declarations in a type are those of the leaves, one after the other. -/
theorem ids_of_target? (hleaf : ∀ leaf type, leaf? leaf = some type →
      List.Forall₂ names ([leaf].filter named) type.ids) :
    ∀ (tree : TypeTree) {type : TargetType},
      target? leaf? tree = some type → List.Forall₂ names (tree.leaves.filter named) type.ids
  | .leaf index, type, h => by
      rw [leaves]
      exact hleaf index type h
  | .wrapped wrapper inner, type, h => by
      obtain ⟨found, hfound, rfl⟩ := target?_wrapped.mp h
      rw [leaves, Wrapper.ids_apply]
      exact ids_of_target? hleaf inner hfound
  | .func args ret, type, h => by
      obtain ⟨params, result, hparams, hresult, rfl⟩ := target?_func.mp h
      rw [leaves, List.filter_append]
      exact List.rel_append (ids_of_targets? hleaf args hparams) (ids_of_target? hleaf ret hresult)

theorem ids_of_targets? (hleaf : ∀ leaf type, leaf? leaf = some type →
      List.Forall₂ names ([leaf].filter named) type.ids) :
    ∀ (trees : List TypeTree) {types : List TargetType}, targets? leaf? trees = some types →
      List.Forall₂ names ((leavesOf trees).filter named) (TargetType.idsOf types)
  | [], types, h => by
      cases h
      exact .nil
  | tree :: trees, types, h => by
      obtain ⟨type, rest, htype, hrest, rfl⟩ := targets?_cons.mp h
      rw [leavesOf, List.filter_append]
      exact List.rel_append (ids_of_target? hleaf tree htype) (ids_of_targets? hleaf trees hrest)

end

end TypeTree

end BytecodeLowering

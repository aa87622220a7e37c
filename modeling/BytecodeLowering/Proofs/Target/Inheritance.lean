import BytecodeLowering.Body.Coercion
import Mathlib.Data.Finset.Card
import Mathlib.Data.Nat.Find
import Mathlib.Logic.Relation

/-!
# Classes and their bases

A class derives from itself, from its base and from whatever its base derives
from.  The chain of bases is followed for as many steps as there are classes,
which is enough, since a shortest way from one class to another comes by no class
twice.
-/

namespace BytecodeLowering.TargetModule

variable {module : TargetModule}

def base? (module : TargetModule) (type : TypeId) : Option TypeId :=
  (module.type? type).bind (·.base)

theorem base?_of_type {type : TypeId} {base : Option TypeId}
    (h : (module.type? type).map (·.base) = some base) : module.base? type = base := by
  obtain ⟨decl, hdecl, hbase⟩ := Option.map_eq_some_iff.mp h
  rw [base?, hdecl, Option.bind_some, hbase]

def above? (module : TargetModule) : (steps : Nat) → TypeId → Option TypeId
  | 0, type => some type
  | steps + 1, type => (module.base? type).bind (module.above? steps)

theorem above?_add (first second : Nat) (type : TypeId) :
    module.above? (first + second) type = (module.above? first type).bind (module.above? second) := by
  induction first generalizing type with
  | zero => rw [Nat.zero_add, above?, Option.bind_some]
  | succ first ih =>
      rw [Nat.add_right_comm, above?, above?, Option.bind_assoc]
      exact congrArg _ (funext ih)

theorem derivesWithin_iff {steps : Nat} {type other : TypeId} :
    module.derivesWithin other steps type = true ↔
      ∃ count ≤ steps, module.above? count type = some other := by
  induction steps generalizing type with
  | zero => simp [derivesWithin, above?]
  | succ steps ih =>
      rw [derivesWithin, Bool.or_eq_true, beq_iff_eq]
      constructor
      · rintro (rfl | h)
        · exact ⟨0, Nat.zero_le _, rfl⟩
        · split at h
          · rename_i base hbase
            obtain ⟨count, hcount, habove⟩ := ih.mp h
            exact ⟨count + 1, Nat.succ_le_succ hcount, by rw [above?, base?, hbase]; exact habove⟩
          · cases h
      · rintro ⟨_ | count, hcount, habove⟩
        · exact Or.inl (Option.some.inj habove)
        · obtain ⟨base, hbase, habove⟩ := Option.bind_eq_some_iff.mp habove
          right
          rw [base?] at hbase
          simp only [hbase]
          exact ih.mpr ⟨count, Nat.le_of_succ_le_succ hcount, habove⟩

/-- A shortest way comes by no class twice. -/
theorem above?_ne {type other passed : TypeId} {count i j : Nat}
    (h : module.above? count type = some other)
    (hshortest : ∀ fewer < count, module.above? fewer type ≠ some other) (hij : i < j)
    (hj : j ≤ count) (hi : module.above? i type = some passed) :
    module.above? j type ≠ some passed := by
  intro hagain
  refine hshortest (i + (count - j)) (by omega) ?_
  rw [above?_add, hi, ← hagain, ← above?_add, Nat.add_sub_cancel' hj, h]

theorem above?_le_types {type other : TypeId} {count : Nat}
    (h : module.above? count type = some other)
    (hshortest : ∀ fewer < count, module.above? fewer type ≠ some other) :
    count ≤ module.types.length := by
  by_contra hmany
  -- the classes by which the way comes
  have hclass (i : Nat) (hi : i < count) :
      ∃ passed, module.above? i type = some passed ∧ passed < module.types.length := by
    rw [← Nat.add_sub_cancel' (Nat.le_of_lt hi), above?_add] at h
    obtain ⟨passed, hpassed, hrest⟩ := Option.bind_eq_some_iff.mp h
    obtain ⟨rest, hcount⟩ := Nat.exists_eq_add_one_of_ne_zero (Nat.sub_ne_zero_of_lt hi)
    rw [hcount] at hrest
    obtain ⟨base, hbase, -⟩ := Option.bind_eq_some_iff.mp hrest
    obtain ⟨decl, hdecl, -⟩ := Option.bind_eq_some_iff.mp hbase
    exact ⟨passed, hpassed, (List.getElem?_eq_some_iff.mp hdecl).1⟩
  choose! passed hpassed hbound using hclass
  obtain ⟨i, hi, j, hj, hne, hsame⟩ := Finset.exists_ne_map_eq_of_card_lt_of_maps_to
    (s := Finset.range count) (t := Finset.range module.types.length) (f := passed)
    (by simpa using hmany) fun i hi => by simpa using hbound i (by simpa using hi)
  rw [Finset.mem_range] at hi hj
  rcases Nat.lt_or_gt_of_ne hne with hij | hji
  · exact above?_ne h hshortest hij (Nat.le_of_lt hj) (hpassed i hi) (hsame ▸ hpassed j hj)
  · exact above?_ne h hshortest hji (Nat.le_of_lt hi) (hpassed j hj) (hsame ▸ hpassed i hi)

theorem derivesFrom_iff {type other : TypeId} :
    module.derivesFrom type other = true ↔ ∃ count, module.above? count type = some other := by
  classical
  rw [derivesFrom, derivesWithin_iff]
  constructor
  · rintro ⟨count, -, habove⟩
    exact ⟨count, habove⟩
  · intro h
    exact ⟨Nat.find h, above?_le_types (Nat.find_spec h) fun fewer => Nat.find_min h, Nat.find_spec h⟩

/-- The second class is reached from the first one by going to the base, any number
of times. -/
def Derives (module : TargetModule) : TypeId → TypeId → Prop :=
  Relation.ReflTransGen fun type base => module.base? type = some base

theorem derives_of_above? {type other : TypeId} {count : Nat}
    (h : module.above? count type = some other) : module.Derives type other := by
  induction count generalizing type with
  | zero =>
      rw [← Option.some.inj h]
      exact .refl
  | succ count ih =>
      obtain ⟨base, hbase, habove⟩ := Option.bind_eq_some_iff.mp h
      exact .head hbase (ih habove)

theorem derivesFrom_iff_derives {type other : TypeId} :
    module.derivesFrom type other = true ↔ module.Derives type other := by
  rw [derivesFrom_iff]
  constructor
  · rintro ⟨count, habove⟩
    exact derives_of_above? habove
  · intro h
    induction h using Relation.ReflTransGen.head_induction_on with
    | refl => exact ⟨0, rfl⟩
    | head hbase _ ih =>
        obtain ⟨count, habove⟩ := ih
        exact ⟨count + 1, by rw [above?, hbase, Option.bind_some, habove]⟩

theorem derivesFrom_cases {type other : TypeId} :
    module.derivesFrom type other = true ↔
      type = other ∨
        ∃ base, module.base? type = some base ∧ module.derivesFrom base other = true := by
  simp only [derivesFrom_iff_derives]
  exact Relation.ReflTransGen.cases_head_iff

theorem derivesFrom_self (type : TypeId) : module.derivesFrom type type = true :=
  derivesFrom_iff.mpr ⟨0, rfl⟩

theorem derivesFrom_base {type base : TypeId} (h : module.base? type = some base) :
    module.derivesFrom type base = true :=
  derivesFrom_iff.mpr ⟨1, by rw [above?, h]; rfl⟩

theorem derivesFrom_trans {type middle other : TypeId}
    (h : module.derivesFrom type middle = true) (hnext : module.derivesFrom middle other = true) :
    module.derivesFrom type other = true := by
  obtain ⟨first, hfirst⟩ := derivesFrom_iff.mp h
  obtain ⟨second, hsecond⟩ := derivesFrom_iff.mp hnext
  exact derivesFrom_iff.mpr ⟨first + second, by rw [above?_add, hfirst, Option.bind_some, hsecond]⟩

theorem not_derivesFrom {type base other : TypeId} (h : module.base? type = some base)
    (hroot : module.base? base = none) (htype : type ≠ other) (hbase : base ≠ other) :
    module.derivesFrom type other = false := by
  rw [Bool.eq_false_iff, Ne, derivesFrom_iff]
  rintro ⟨_ | _ | count, habove⟩
  · exact htype (Option.some.inj habove)
  · rw [above?, h] at habove
    exact hbase (Option.some.inj habove)
  · rw [above?, h, Option.bind_some, above?, hroot] at habove
    cases habove

theorem derivesFrom_types {after : TargetModule} (h : after.types = module.types) :
    after.derivesFrom = module.derivesFrom := by
  have hwithin (other : TypeId) (steps : Nat) :
      after.derivesWithin other steps = module.derivesWithin other steps := by
    induction steps with
    | zero => rfl
    | succ steps ih =>
        funext type
        simp only [derivesWithin, type?, h, ih]
  funext type other
  rw [derivesFrom, derivesFrom, h, hwithin]

end BytecodeLowering.TargetModule

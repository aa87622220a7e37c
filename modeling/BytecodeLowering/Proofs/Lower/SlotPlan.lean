import BytecodeLowering.Proofs.Lower.Lineage

/-!
# The plan of the method slots

A planned method takes a slot that is filled or the next one, so the plan of a
line goes on from the plan of the super types, and the table of the slots keeps
its fields while later methods replace earlier ones.
-/

namespace BytecodeLowering

def Image.prototypes (image : Image) (chain : List TypeIndex) : List Prototype :=
  chain.flatMap fun index => ((image.object? index).map (·.prototypes)).getD []

theorem Image.Lineage.nodup {image : Image} {index : TypeIndex} {chain : List TypeIndex}
    (h : image.Lineage index chain) : chain.Nodup := by
  induction h with
  | root hobject hsuper => simp
  | derived hobject hsuper hparent ih =>
      rw [List.nodup_append]
      refine ⟨ih, by simp, ?_⟩
      intro upper hupper own hown hsame
      rw [List.mem_singleton.mp hown] at hsame
      exact hparent.not_mem (.derived hobject hsuper hparent) (hsame ▸ hupper)

namespace ObjectLayout

/-! ## Plans -/

def PlannedSlot.place? (planned : PlannedSlot) : Option (TypeIndex × Nat) :=
  planned.newSlot.map (planned.owner, ·)

/-- Each planned method takes a slot that is filled or the next one. -/
inductive Fills : Nat → List PlannedSlot → Nat → Prop
  | nil {filled : Nat} : Fills filled [] filled
  | replace {filled stop : Nat} {planned : PlannedSlot} {rest : List PlannedSlot}
      (hslot : planned.slot < filled) (hnew : planned.newSlot = none)
      (hrest : Fills filled rest stop) : Fills filled (planned :: rest) stop
  | introduce {filled stop position : Nat} {planned : PlannedSlot} {rest : List PlannedSlot}
      (hslot : planned.slot = filled) (hnew : planned.newSlot = some position)
      (hrest : Fills (filled + 1) rest stop) : Fills filled (planned :: rest) stop

theorem Fills.append {filled middle stop : Nat} {first second : List PlannedSlot}
    (h : Fills filled first middle) (hnext : Fills middle second stop) :
    Fills filled (first ++ second) stop := by
  induction h with
  | nil => exact hnext
  | replace hslot hnew _ ih => exact .replace hslot hnew (ih hnext)
  | introduce hslot hnew _ ih => exact .introduce hslot hnew (ih hnext)

theorem Fills.le {filled stop : Nat} {planned : List PlannedSlot} (h : Fills filled planned stop) :
    filled ≤ stop := by
  induction h with
  | nil => exact Nat.le_refl _
  | replace hslot hnew hrest ih => exact ih
  | introduce hslot hnew hrest ih => exact Nat.le_of_succ_le ih

theorem Fills.slot_lt {filled stop : Nat} {planned : List PlannedSlot}
    (h : Fills filled planned stop) : ∀ method ∈ planned, method.slot < stop := by
  induction h with
  | nil => nofun
  | replace hslot hnew hrest ih =>
      exact List.forall_mem_cons.mpr ⟨Nat.lt_of_lt_of_le hslot hrest.le, ih⟩
  | introduce hslot hnew hrest ih =>
      exact List.forall_mem_cons.mpr ⟨hslot ▸ hrest.le, ih⟩

/-- The plan of the methods of one type.  New slots are counted from
`introduced` on. -/
structure OwnPlan (owner : TypeIndex) (filled introduced : Nat) (prototypes : List Prototype)
    (planned : List PlannedSlot) (stop : Nat) : Prop where
  fills : Fills filled planned stop
  owned : ∀ method ∈ planned, method.owner = owner
  taken : ∀ slot : Nat, (planned.filter (·.slot = slot)).map (·.prototype)
    = prototypes.filter (·.slot = (slot : Int))
  places : ∀ place ∈ planned.filterMap (·.place?), place.1 = owner ∧ introduced ≤ place.2
  distinct : (planned.filterMap (·.place?)).Nodup

theorem filter_taken {planned : List PlannedSlot} {prototypes : List Prototype}
    {method : PlannedSlot} (hslot : method.prototype.slot = method.slot)
    (h : ∀ slot : Nat, (planned.filter (·.slot = slot)).map (·.prototype)
      = prototypes.filter (·.slot = (slot : Int))) (slot : Nat) :
    ((method :: planned).filter (·.slot = slot)).map (·.prototype)
      = (method.prototype :: prototypes).filter (·.slot = (slot : Int)) := by
  have hsame : (method.prototype.slot = (slot : Int)) ↔ method.slot = slot := by
    rw [hslot, Int.natCast_inj]
  by_cases htaken : method.slot = slot
  · simp [hsame, htaken, h slot]
  · simp [hsame, htaken, h slot]

theorem planOwner_ok {owner : TypeIndex} {filled introduced stop : Nat}
    {prototypes : List Prototype} {planned : List PlannedSlot}
    (h : planOwner owner filled introduced prototypes = .ok (planned, stop)) :
    OwnPlan owner filled introduced prototypes planned stop := by
  fun_induction planOwner owner filled introduced prototypes generalizing planned stop with
  | case1 filled introduced =>
      cases h
      exact ⟨.nil, nofun, fun _ => rfl, nofun, List.nodup_nil⟩
  | case2 filled introduced prototype prototypes hnone ih =>
      have hplan := ih h
      refine ⟨hplan.fills, hplan.owned, ?_, hplan.places, hplan.distinct⟩
      intro slot
      have hother : prototype.slot ≠ slot := by
        intro hsame
        rw [hsame] at hnone
        cases hnone
      simp [hother, hplan.taken slot]
  | case3 filled introduced prototype prototypes slot hsome hlow ih =>
      obtain ⟨⟨others, last⟩, hothers, h⟩ := ok_of_bind h
      cases h
      have hplan := ih hothers
      exact ⟨.replace hlow rfl hplan.fills, List.forall_mem_cons.mpr ⟨rfl, hplan.owned⟩,
        filter_taken (Int.mem_toNat?.mp hsome) hplan.taken, hplan.places, hplan.distinct⟩
  | case4 introduced prototype prototypes slot hsome hlow ih =>
      obtain ⟨⟨others, last⟩, hothers, h⟩ := ok_of_bind h
      cases h
      have hplan := ih hothers
      refine ⟨.introduce rfl rfl hplan.fills, List.forall_mem_cons.mpr ⟨rfl, hplan.owned⟩,
        filter_taken (Int.mem_toNat?.mp hsome) hplan.taken, ?_, ?_⟩
      · intro place hplace
        rcases List.mem_cons.mp hplace with rfl | hplace
        · exact ⟨rfl, Nat.le_refl _⟩
        · exact ⟨(hplan.places place hplace).1, Nat.le_of_succ_le (hplan.places place hplace).2⟩
      · refine List.nodup_cons.mpr ⟨?_, hplan.distinct⟩
        intro hagain
        exact Nat.not_succ_le_self _ (hplan.places _ hagain).2
  | case5 => cases h

theorem planFrom_append {image : Image} {filled : Nat} {upper lower : List TypeIndex}
    {planned : List PlannedSlot} (h : planFrom image filled (upper ++ lower) = .ok planned) :
    ∃ first middle rest, planFrom image filled upper = .ok first ∧ Fills filled first middle ∧
      planFrom image middle lower = .ok rest ∧ planned = first ++ rest := by
  induction upper generalizing filled planned with
  | nil => exact ⟨[], filled, planned, rfl, .nil, h, rfl⟩
  | cons owner upper ih =>
      obtain ⟨object, hobject, h⟩ := ok_of_bind h
      obtain ⟨⟨own, next⟩, hown, h⟩ := ok_of_bind h
      obtain ⟨others, hothers, h⟩ := ok_of_bind h
      cases h
      obtain ⟨first, middle, rest, hfirst, hfills, hrest, rfl⟩ := ih hothers
      refine ⟨own ++ first, middle, rest, ?_, (planOwner_ok hown).fills.append hfills, hrest,
        (List.append_assoc _ _ _).symm⟩
      rw [planFrom, hobject]
      simp only [bind, Except.bind, hown, hfirst]
      rfl

theorem planFrom_fills {image : Image} {filled : Nat} {chain : List TypeIndex}
    {planned : List PlannedSlot} (h : planFrom image filled chain = .ok planned) :
    ∃ stop, Fills filled planned stop := by
  rw [← List.append_nil chain] at h
  obtain ⟨first, middle, rest, -, hfills, hrest, rfl⟩ := planFrom_append h
  cases hrest
  exact ⟨middle, by rwa [List.append_nil]⟩

/-- The plan of a line: whose methods it takes, and for which slots. -/
structure LinePlan (image : Image) (chain : List TypeIndex) (planned : List PlannedSlot) :
    Prop where
  owned : ∀ method ∈ planned, method.owner ∈ chain
  taken : ∀ slot : Nat, (planned.filter (·.slot = slot)).map (·.prototype)
    = (image.prototypes chain).filter (·.slot = (slot : Int))
  places : ∀ place ∈ planned.filterMap (·.place?), place.1 ∈ chain
  distinct : chain.Nodup → (planned.filterMap (·.place?)).Nodup

theorem planFrom_ok {image : Image} {filled : Nat} {chain : List TypeIndex}
    {planned : List PlannedSlot} (h : planFrom image filled chain = .ok planned) :
    LinePlan image chain planned := by
  induction chain generalizing filled planned with
  | nil =>
      cases h
      exact ⟨nofun, fun _ => rfl, nofun, fun _ => List.nodup_nil⟩
  | cons owner chain ih =>
      obtain ⟨object, hobject, h⟩ := ok_of_bind h
      obtain ⟨⟨own, next⟩, hown, h⟩ := ok_of_bind h
      obtain ⟨others, hothers, h⟩ := ok_of_bind h
      cases h
      have hplan := planOwner_ok hown
      have hrest := ih hothers
      refine ⟨?_, ?_, ?_, ?_⟩
      · intro method hmethod
        rcases List.mem_append.mp hmethod with hmine | hother
        · rw [hplan.owned method hmine]
          exact List.mem_cons_self
        · exact List.mem_cons_of_mem owner (hrest.owned method hother)
      · intro slot
        rw [List.filter_append, List.map_append, hplan.taken, hrest.taken]
        simp [Image.prototypes, sourceObject_ok hobject]
      · intro place hplace
        rw [List.filterMap_append, List.mem_append] at hplace
        rcases hplace with hmine | hother
        · rw [(hplan.places place hmine).1]
          exact List.mem_cons_self
        · exact List.mem_cons_of_mem owner (hrest.places place hother)
      · intro hchain
        obtain ⟨howner, hchain⟩ := List.nodup_cons.mp hchain
        rw [List.filterMap_append, List.nodup_append]
        refine ⟨hplan.distinct, hrest.distinct hchain, ?_⟩
        intro mine hmine other hother hsame
        rw [← (hplan.places mine hmine).1, hsame] at howner
        exact howner (hrest.places other hother)

/-! ## The table of the slots -/

def enter (fieldOf : TypeIndex × Nat → FieldRef) (table : List (FieldRef × Nat))
    (method : PlannedSlot) : List (FieldRef × Nat) :=
  match method.place? with
  | none => table.modify method.slot fun entry => (entry.1, method.prototype.function)
  | some place => table ++ [(fieldOf place, method.prototype.function)]

variable {fieldOf : TypeIndex × Nat → FieldRef} {table : List (FieldRef × Nat)}
  {planned : List PlannedSlot} {filled stop : Nat}

theorem fields_enter (method : PlannedSlot) :
    (enter fieldOf table method).map Prod.fst
      = table.map Prod.fst ++ (method.place?.map fieldOf).toList := by
  unfold enter
  cases hplace : method.place? with
  | none =>
      simp only [Option.map_none, Option.toList_none, List.append_nil]
      exact map_modify_same Prod.fst (by exact fun _ => rfl) _ _
  | some place => simp

theorem fields_table (table : List (FieldRef × Nat)) (planned : List PlannedSlot) :
    (planned.foldl (enter fieldOf) table).map Prod.fst
      = table.map Prod.fst ++ (planned.filterMap (·.place?)).map fieldOf := by
  induction planned generalizing table with
  | nil => simp
  | cons method planned ih =>
      rw [List.foldl_cons, ih, fields_enter]
      cases hplace : method.place? with
      | none => simp [hplace]
      | some place => simp [hplace]

theorem enter_ok (fieldOf : TypeIndex × Nat → FieldRef) {method : PlannedSlot}
    (h : Fills table.length (method :: planned) stop) :
    Fills (enter fieldOf table method).length planned stop ∧
      (∃ field, (enter fieldOf table method)[method.slot]?
        = some (field, method.prototype.function)) ∧
      ∀ slot, slot ≠ method.slot → (enter fieldOf table method)[slot]? = table[slot]? := by
  unfold enter PlannedSlot.place?
  cases h with
  | replace hslot hnew hrest =>
      simp only [hnew, Option.map_none, List.length_modify]
      refine ⟨hrest, ?_, ?_⟩
      · exact ⟨table[method.slot].1, by simp [hslot]⟩
      · intro slot hother
        simp [Ne.symm hother]
  | introduce hslot hnew hrest =>
      simp only [hnew, Option.map_some, List.length_append, List.length_singleton]
      refine ⟨hrest, ?_, ?_⟩
      · rw [hslot, List.getElem?_concat_length]
        exact ⟨_, rfl⟩
      · intro slot hother
        rw [hslot] at hother
        rcases Nat.lt_or_gt_of_ne hother with hlow | hhigh
        · exact List.getElem?_append_left hlow
        · rw [List.getElem?_eq_none (by simp; omega), List.getElem?_eq_none (by omega)]

theorem length_table (fieldOf : TypeIndex × Nat → FieldRef) (h : Fills table.length planned stop) :
    (planned.foldl (enter fieldOf) table).length = stop := by
  induction planned generalizing table with
  | nil =>
      cases h
      rfl
  | cons method planned ih => exact ih (enter_ok fieldOf h).1

/-- The last planned method for a slot is the one that is bound to it. -/
theorem functions_table (fieldOf : TypeIndex × Nat → FieldRef) (table : List (FieldRef × Nat))
    (h : Fills table.length planned stop) (slot : Nat) :
    (planned.foldl (enter fieldOf) table)[slot]?.map Prod.snd
      = ((planned.filter (·.slot = slot)).getLast?.map (·.prototype.function)).or
          (table[slot]?.map Prod.snd) := by
  induction planned generalizing table with
  | nil => simp
  | cons method planned ih =>
      obtain ⟨hrest, ⟨field, hentered⟩, hothers⟩ := enter_ok fieldOf h
      rw [List.foldl_cons, ih _ hrest]
      by_cases hslot : method.slot = slot
      · rw [← hslot, hentered]
        simp [List.getLast?_cons]
      · rw [hothers slot (Ne.symm hslot)]
        simp [hslot]

end ObjectLayout

end BytecodeLowering

import BytecodeLowering.Image.Basic

/-!
# A function index designates its last entry

Functions and natives are entered one after the other into one table, each at
its index, and what was entered last stays.  Whatever order, holes and
repetitions the indices have, an index therefore designates the last native
that has it, or else the last function that has it, and the position that is
found always has an entry.
-/

namespace BytecodeLowering

structure LastAt (indices : List Nat) (index position : Nat) : Prop where
  here : indices[position]? = some index
  last : ∀ later, position < later → indices[later]? ≠ some index

section LastAt

variable {indices : List Nat} {index position : Nat}

theorem LastAt.mem (h : LastAt indices index position) : index ∈ indices :=
  List.mem_of_getElem? h.here

theorem lastAt_cons_zero (first : Nat) :
    LastAt (first :: indices) index 0 ↔ first = index ∧ index ∉ indices := by
  constructor
  · intro h
    refine ⟨Option.some.inj h.here, fun hmem => ?_⟩
    obtain ⟨later, hlater⟩ := List.mem_iff_getElem?.mp hmem
    exact h.last (later + 1) (Nat.succ_pos later) hlater
  · rintro ⟨rfl, hnew⟩
    refine ⟨rfl, fun later hlater hfound => ?_⟩
    obtain ⟨later, rfl⟩ := Nat.exists_eq_succ_of_ne_zero (Nat.ne_of_gt hlater)
    exact hnew (List.mem_of_getElem? hfound)

theorem lastAt_cons_succ (first : Nat) :
    LastAt (first :: indices) index (position + 1) ↔ LastAt indices index position := by
  constructor
  · exact fun h => ⟨h.here, fun later hlater => h.last (later + 1) (Nat.succ_lt_succ hlater)⟩
  · intro h
    refine ⟨h.here, fun later hlater => ?_⟩
    obtain ⟨later, rfl⟩ := Nat.exists_eq_succ_of_ne_zero (Nat.ne_of_gt (Nat.zero_lt_of_lt hlater))
    exact h.last later (Nat.lt_of_succ_lt_succ hlater)

theorem exists_lastAt (h : index ∈ indices) : ∃ position, LastAt indices index position := by
  induction indices with
  | nil => cases h
  | cons first others ih =>
      by_cases hlater : index ∈ others
      · obtain ⟨position, hposition⟩ := ih hlater
        exact ⟨position + 1, (lastAt_cons_succ first).mpr hposition⟩
      · have hfirst : first = index := ((List.mem_cons.mp h).resolve_right hlater).symm
        exact ⟨0, (lastAt_cons_zero first).mpr ⟨hfirst, hlater⟩⟩

end LastAt

namespace FunctionTable

/-! ## Entering positions -/

theorem length_place (positions : List (Option Nat)) (first : Nat) (indices : List Nat) :
    (place positions first indices).length = positions.length := by
  induction indices generalizing positions first with
  | nil => rfl
  | cons index indices ih => rw [place, ih, List.length_set]

theorem getElem?_place_of_not_mem {indices : List Nat} {index : Nat} (h : index ∉ indices)
    (positions : List (Option Nat)) (first : Nat) :
    (place positions first indices)[index]? = positions[index]? := by
  induction indices generalizing positions first with
  | nil => rfl
  | cons entered indices ih =>
      obtain ⟨hother, hlater⟩ := not_or.mp (mt List.mem_cons.mpr h)
      rw [place, ih hlater, List.getElem?_set_ne (Ne.symm hother)]

theorem getElem?_place_of_lastAt {indices : List Nat} {index position : Nat}
    (h : LastAt indices index position) {positions : List (Option Nat)}
    (hroom : index < positions.length) (first : Nat) :
    (place positions first indices)[index]? = some (some (first + position)) := by
  induction indices generalizing positions first position with
  | nil => cases h.mem
  | cons entered indices ih =>
      rw [place]
      cases position with
      | zero =>
          obtain ⟨rfl, hnew⟩ := (lastAt_cons_zero entered).mp h
          rw [getElem?_place_of_not_mem hnew, List.getElem?_set_self hroom]
          rfl
      | succ position =>
          rw [ih ((lastAt_cons_succ entered).mp h) (by rwa [List.length_set]), Nat.add_assoc,
            Nat.add_comm 1]

/-! ## The size of the table -/

theorem indexSpace_cons (first : Nat) (others : List Nat) :
    indexSpace (first :: others) = others.foldl max first + 1 := by
  have hstep (start : Nat) : others.foldl (fun size index => max size (index + 1)) (start + 1)
      = others.foldl max start + 1 := by
    induction others generalizing start with
    | nil => rfl
    | cons index others ih => rw [List.foldl_cons, List.foldl_cons, Nat.succ_max_succ, ih]
  rw [indexSpace, List.foldl_cons, Nat.max_eq_right (Nat.zero_le _), hstep]

theorem indexSpace_eq (indices : List Nat) :
    indexSpace indices = (indices.max?.map (· + 1)).getD 0 := by
  cases indices with
  | nil => rfl
  | cons first others => rw [indexSpace_cons, List.max?_cons', Option.map_some, Option.getD_some]

theorem lt_indexSpace {indices : List Nat} {index : Nat} (h : index ∈ indices) :
    index < indexSpace indices := by
  obtain ⟨largest, hlargest⟩ := Option.isSome_iff_exists.mp (List.isSome_max?_of_mem h)
  rw [indexSpace_eq, hlargest, Option.map_some, Option.getD_some]
  exact Nat.lt_succ_of_le ((List.max?_eq_some_iff.mp hlargest).2 index h)

theorem indexSpace_le {indices : List Nat} {count : Nat} (h : ∀ index ∈ indices, index < count) :
    indexSpace indices ≤ count := by
  rw [indexSpace_eq]
  cases hlargest : indices.max? with
  | none => exact Nat.zero_le count
  | some largest => exact h largest (List.max?_mem hlargest)

section Build

variable {functions natives : List Nat} {index : Nat}

theorem size_build :
    (build functions natives).size = ((functions ++ natives).max?.map (· + 1)).getD 0 := by
  rw [size, build, length_place, length_place, List.length_replicate, indexSpace_eq]

theorem size_build_le {count : Nat} (h : ∀ index ∈ functions ++ natives, index < count) :
    (build functions natives).size ≤ count := by
  rw [size, build, length_place, length_place, List.length_replicate]
  exact indexSpace_le h

/-! ## Resolving an index -/

theorem resolve?_of_native {position : Nat} (h : LastAt natives index position) :
    (build functions natives).resolve? index = some (.native position) := by
  have hroom : index < (place (List.replicate (indexSpace (functions ++ natives)) none) 0
      functions).length := by
    rw [length_place, List.length_replicate]
    exact lt_indexSpace (List.mem_append_right functions h.mem)
  have hposition : (build functions natives).position? index
      = some (functions.length + position) := by
    rw [position?, build, getElem?_place_of_lastAt h hroom]
    rfl
  rw [resolve?, hposition, Option.map_some, classify, build, if_neg (by simp)]
  simp

theorem resolve?_of_function {position : Nat} (h : LastAt functions index position)
    (hnew : index ∉ natives) :
    (build functions natives).resolve? index = some (.function position) := by
  have hroom : index < (List.replicate (indexSpace (functions ++ natives))
      (none : Option Nat)).length := by
    rw [List.length_replicate]
    exact lt_indexSpace (List.mem_append_left natives h.mem)
  have hposition : (build functions natives).position? index = some position := by
    rw [position?, build, getElem?_place_of_not_mem hnew, getElem?_place_of_lastAt h hroom,
      Nat.zero_add]
    rfl
  have hlt : position < functions.length := (List.getElem?_eq_some_iff.mp h.here).1
  rw [resolve?, hposition, Option.map_some, classify, build, if_pos hlt]

theorem resolve?_of_not_mem (hfunctions : index ∉ functions) (hnatives : index ∉ natives) :
    (build functions natives).resolve? index = none := by
  have hposition : (build functions natives).position? index = none := by
    rw [position?, build, getElem?_place_of_not_mem hnatives,
      getElem?_place_of_not_mem hfunctions, List.getElem?_replicate]
    split <;> rfl
  rw [resolve?, hposition, Option.map_none]

theorem resolve?_cases (functions natives : List Nat) (index : Nat) :
    (∃ position, LastAt natives index position ∧
      (build functions natives).resolve? index = some (.native position)) ∨
    (∃ position, LastAt functions index position ∧ index ∉ natives ∧
      (build functions natives).resolve? index = some (.function position)) ∨
    (index ∉ functions ∧ index ∉ natives ∧ (build functions natives).resolve? index = none) := by
  by_cases hnative : index ∈ natives
  · obtain ⟨position, hposition⟩ := exists_lastAt hnative
    exact .inl ⟨position, hposition, resolve?_of_native hposition⟩
  · by_cases hfunction : index ∈ functions
    · obtain ⟨position, hposition⟩ := exists_lastAt hfunction
      exact .inr (.inl ⟨position, hposition, hnative, resolve?_of_function hposition hnative⟩)
    · exact .inr (.inr ⟨hfunction, hnative, resolve?_of_not_mem hfunction hnative⟩)

theorem resolve?_eq_native_iff {position : Nat} :
    (build functions natives).resolve? index = some (.native position) ↔
      LastAt natives index position := by
  refine ⟨fun h => ?_, resolve?_of_native⟩
  rcases resolve?_cases functions natives index with
    ⟨found, hfound, hresolve⟩ | ⟨found, -, -, hresolve⟩ | ⟨-, -, hresolve⟩
  all_goals cases h.symm.trans hresolve
  exact hfound

theorem resolve?_eq_function_iff {position : Nat} :
    (build functions natives).resolve? index = some (.function position) ↔
      LastAt functions index position ∧ index ∉ natives := by
  refine ⟨fun h => ?_, fun h => resolve?_of_function h.1 h.2⟩
  rcases resolve?_cases functions natives index with
    ⟨found, -, hresolve⟩ | ⟨found, hfound, hnew, hresolve⟩ | ⟨-, -, hresolve⟩
  all_goals cases h.symm.trans hresolve
  exact ⟨hfound, hnew⟩

theorem resolve?_eq_none_iff :
    (build functions natives).resolve? index = none ↔ index ∉ functions ∧ index ∉ natives := by
  refine ⟨fun h => ?_, fun h => resolve?_of_not_mem h.1 h.2⟩
  rcases resolve?_cases functions natives index with
    ⟨found, -, hresolve⟩ | ⟨found, -, -, hresolve⟩ | ⟨hfunctions, hnatives, -⟩
  · cases h.symm.trans hresolve
  · cases h.symm.trans hresolve
  · exact ⟨hfunctions, hnatives⟩

end Build

end FunctionTable

/-! ## The functions and natives of an image -/

/-- Every function index designates its last entry: the last native that has it,
or else the last function that has it, or else nothing.  The entry is there,
and the type of the index is its type. -/
structure Image.Resolved (image : Image) : Prop where
  native : ∀ index position, image.callee? index = some (.native position) ↔
    LastAt (image.natives.map (·.index)) index position
  function : ∀ index position, image.callee? index = some (.function position) ↔
    LastAt (image.functions.map (·.index)) index position ∧
      index ∉ image.natives.map (·.index)
  unknown : ∀ index, image.callee? index = none ↔
    index ∉ image.functions.map (·.index) ∧ index ∉ image.natives.map (·.index)
  size : image.functionTable.size =
    ((image.functions.map (·.index) ++ image.natives.map (·.index)).max?.map (· + 1)).getD 0
  native_type : ∀ index position, image.callee? index = some (.native position) →
    ∃ native, image.natives[position]? = some native ∧ native.index = index ∧
      image.calleeType? index = some native.type
  function_type : ∀ index position, image.callee? index = some (.function position) →
    ∃ function, image.functions[position]? = some function ∧ function.index = index ∧
      image.calleeType? index = some function.type
  typed : ∀ index, (image.calleeType? index).isSome ↔ (image.callee? index).isSome

section Types

variable {image : Image} {index position : Nat}

theorem LastAt.entry {α : Type} {items : List α} {key : α → Nat}
    (h : LastAt (items.map key) index position) :
    ∃ item, items[position]? = some item ∧ key item = index := by
  have hhere := h.here
  rw [List.getElem?_map] at hhere
  exact Option.map_eq_some_iff.mp hhere

theorem Image.calleeType?_of_native {native : Native}
    (h : image.callee? index = some (.native position))
    (hfound : image.natives[position]? = some native) :
    image.calleeType? index = some native.type := by
  rw [calleeType?, h]
  exact congrArg (Option.map (·.type)) hfound

theorem Image.calleeType?_of_function {function : FunctionDef}
    (h : image.callee? index = some (.function position))
    (hfound : image.functions[position]? = some function) :
    image.calleeType? index = some function.type := by
  rw [calleeType?, h]
  exact congrArg (Option.map (·.type)) hfound

theorem Image.calleeType?_of_none (h : image.callee? index = none) :
    image.calleeType? index = none := by
  rw [calleeType?, h]

end Types

/-- A table made anew resolves exactly, whatever the indices of the functions and
natives are. -/
theorem Image.rebuildTable_resolved (image : Image) : image.rebuildTable.Resolved := by
  have hnative (index position : Nat)
      (h : image.rebuildTable.callee? index = some (.native position)) :
      ∃ native, image.natives[position]? = some native ∧ native.index = index ∧
        image.rebuildTable.calleeType? index = some native.type := by
    obtain ⟨native, hfound, hindex⟩ := (FunctionTable.resolve?_eq_native_iff.mp h).entry
    exact ⟨native, hfound, hindex, calleeType?_of_native h hfound⟩
  have hfunction (index position : Nat)
      (h : image.rebuildTable.callee? index = some (.function position)) :
      ∃ function, image.functions[position]? = some function ∧ function.index = index ∧
        image.rebuildTable.calleeType? index = some function.type := by
    obtain ⟨function, hfound, hindex⟩ := (FunctionTable.resolve?_eq_function_iff.mp h).1.entry
    exact ⟨function, hfound, hindex, calleeType?_of_function h hfound⟩
  refine ⟨fun _ _ => FunctionTable.resolve?_eq_native_iff,
    fun _ _ => FunctionTable.resolve?_eq_function_iff,
    fun _ => FunctionTable.resolve?_eq_none_iff, FunctionTable.size_build, hnative, hfunction, ?_⟩
  intro index
  cases hcallee : image.rebuildTable.callee? index with
  | none =>
      rw [calleeType?_of_none hcallee]
      exact Iff.rfl
  | some callee =>
      refine iff_of_true ?_ rfl
      cases callee with
      | native position =>
          obtain ⟨native, -, -, htype⟩ := hnative index position hcallee
          exact Option.isSome_iff_exists.mpr ⟨native.type, htype⟩
      | function position =>
          obtain ⟨function, -, -, htype⟩ := hfunction index position hcallee
          exact Option.isSome_iff_exists.mpr ⟨function.type, htype⟩

/-- Holes, interleaved numbers, a repeated function and a native that hides one. -/
example : let table := FunctionTable.build [5, 2, 2, 7] [7, 0]
    (List.range 9).map table.resolve?
      = [some (.native 1), none, some (.function 2), none, none, some (.function 0), none,
        some (.native 0), none] ∧ table.size = 8 := by
  decide

end BytecodeLowering

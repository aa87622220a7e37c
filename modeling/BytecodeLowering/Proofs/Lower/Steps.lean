import BytecodeLowering.Lower.TypeMapping

/-!
# Runs of registry steps

A run that succeeds succeeds step by step, so each step is taken apart once, and
its effect is stated for the registries before and after it.
-/

namespace BytecodeLowering

/-! ## Lists -/

theorem map_modify (part : α → β) {f : α → α} {g : β → β}
    (h : ∀ item, part (f item) = g (part item)) (items : List α) (place : Nat) :
    (items.modify place f).map part = (items.map part).modify place g := by
  induction items generalizing place with
  | nil => simp
  | cons item items ih =>
      cases place with
      | zero => simp [h]
      | succ place => simp [ih]

theorem map_modify_same (part : α → β) {f : α → α} (h : ∀ item, part (f item) = part item)
    (items : List α) (place : Nat) : (items.modify place f).map part = items.map part := by
  rw [map_modify part (g := id) h]
  simp

theorem getElem?_of_begins {first whole : List α} (h : first <+: whole) {place : Nat} {item : α}
    (hitem : first[place]? = some item) : whole[place]? = some item := by
  obtain ⟨rest, rfl⟩ := h
  rw [List.getElem?_append_left (List.getElem?_eq_some_iff.mp hitem).1, hitem]

theorem getElem?_concat_cases {items : List α} {last item : α} {place : Nat}
    (h : (items ++ [last])[place]? = some item) :
    items[place]? = some item ∨ place = items.length ∧ last = item := by
  rw [List.getElem?_append] at h
  split at h
  · exact Or.inl h
  · cases hrest : place - items.length with
    | zero =>
        rw [hrest] at h
        exact Or.inr ⟨by omega, by simpa using h⟩
    | succ rest => simp [hrest] at h

theorem nodup_of_places {part : α → β} {place : Nat → β} (hplace : Function.Injective place)
    {items : List α} (h : ∀ (i : Nat) item, items[i]? = some item → part item = place i) :
    (items.map part).Nodup := by
  refine List.pairwise_iff_getElem.mpr fun i j hi hj hij hsame => ?_
  rw [List.getElem_map, List.getElem_map, h i _ (List.getElem?_eq_getElem _),
    h j _ (List.getElem?_eq_getElem _)] at hsame
  exact Nat.ne_of_lt hij (hplace hsame)

/-! ## Look-ups -/

section Except

variable {ε α β : Type}

theorem ok_of_bind {step : Except ε α} {next : α → Except ε β} {result : β}
    (h : (step >>= next) = .ok result) : ∃ value, step = .ok value ∧ next value = .ok result := by
  cases step with
  | error error => cases h
  | ok value => exact ⟨value, rfl, h⟩

theorem ok_of_map {step : Except ε α} {f : α → β} {result : β}
    (h : f <$> step = .ok result) : ∃ value, step = .ok value ∧ f value = result := by
  cases step with
  | error error => cases h
  | ok value => exact ⟨value, rfl, Except.ok.inj h⟩

theorem ok_of_toOption {result : Except ε α} {value : α} (h : result.toOption = some value) :
    result = .ok value := by
  cases result with
  | error error => cases h
  | ok found => exact congrArg Except.ok (Option.some.inj h)

theorem ok_of_isOk {result : Except ε α} (h : result.isOk = true) :
    ∃ value, result = .ok value := by
  cases result with
  | error error => cases h
  | ok value => exact ⟨value, rfl⟩

theorem ok_of_any {result : Except ε α} {check : α → Bool}
    (h : result.toOption.any check = true) : ∃ value, result = .ok value ∧ check value = true := by
  cases result with
  | error error => cases h
  | ok value => exact ⟨value, rfl, h⟩

theorem ok_of_map_toOption {result : Except ε α} {part : α → β} {value : β}
    (h : result.toOption.map part = some value) :
    ∃ found, result = .ok found ∧ part found = value := by
  obtain ⟨found, hfound, hpart⟩ := Option.map_eq_some_iff.mp h
  exact ⟨found, ok_of_toOption hfound, hpart⟩

theorem ok_of_mapM_cons {item : α} {items : List α} {step : α → Except ε β} {results : List β}
    (h : (item :: items).mapM step = .ok results) :
    ∃ first rest, step item = .ok first ∧ items.mapM step = .ok rest ∧ results = first :: rest := by
  rw [List.mapM_cons] at h
  obtain ⟨first, hfirst, h⟩ := ok_of_bind h
  obtain ⟨rest, hrest, h⟩ := ok_of_bind h
  cases h
  exact ⟨first, rest, hfirst, hrest, rfl⟩

theorem ok_of_mapM {items : List α} {step : α → Except ε β} {results : List β}
    (h : items.mapM step = .ok results) :
    results.length = items.length ∧ ∀ (i : Nat) result, results[i]? = some result →
      ∃ item, items[i]? = some item ∧ step item = .ok result := by
  induction items generalizing results with
  | nil =>
      cases h
      exact ⟨rfl, nofun⟩
  | cons item items ih =>
      obtain ⟨first, rest, hfirst, hrest, rfl⟩ := ok_of_mapM_cons h
      obtain ⟨hlength, hresults⟩ := ih hrest
      refine ⟨by simp [hlength], ?_⟩
      intro i result hresult
      cases i with
      | zero =>
          cases hresult
          exact ⟨item, rfl, hfirst⟩
      | succ i => exact hresults i result hresult

theorem mem_of_mapM {items : List α} {step : α → Except ε β} {results : List β}
    (h : items.mapM step = .ok results) {result : β} (hresult : result ∈ results) :
    ∃ item ∈ items, step item = .ok result := by
  obtain ⟨i, hi⟩ := List.mem_iff_getElem?.mp hresult
  obtain ⟨item, hitem, hstep⟩ := (ok_of_mapM h).2 i result hi
  exact ⟨item, List.mem_of_getElem? hitem, hstep⟩

theorem exists_of_mapM {items : List α} {step : α → Except ε β} {results : List β}
    (h : items.mapM step = .ok results) {item : α} (hitem : item ∈ items) :
    ∃ result ∈ results, step item = .ok result := by
  induction items generalizing results with
  | nil => cases hitem
  | cons head items ih =>
      obtain ⟨first, rest, hfirst, hrest, rfl⟩ := ok_of_mapM_cons h
      rcases List.mem_cons.mp hitem with rfl | hitem
      · exact ⟨first, List.mem_cons_self, hfirst⟩
      · obtain ⟨result, hresult, hstep⟩ := ih hrest hitem
        exact ⟨result, List.mem_cons_of_mem _ hresult, hstep⟩

theorem error_of_bind {step : Except ε α} {next : α → Except ε β} {error : ε}
    (h : (step >>= next) = .error error) :
    step = .error error ∨ ∃ value, step = .ok value ∧ next value = .error error := by
  cases step with
  | error found => exact Or.inl (congrArg _ (Except.error.inj h))
  | ok value => exact Or.inr ⟨value, rfl, h⟩

theorem error_of_map {step : Except ε α} {f : α → β} {error : ε}
    (h : f <$> step = .error error) : step = .error error := by
  cases step with
  | error found => exact congrArg _ (Except.error.inj h)
  | ok value => cases h

theorem error_of_mapM {items : List α} {step : α → Except ε β} {error : ε}
    (h : items.mapM step = .error error) : ∃ item ∈ items, step item = .error error := by
  induction items with
  | nil => cases h
  | cons item items ih =>
      rw [List.mapM_cons] at h
      rcases error_of_bind h with hitem | ⟨first, -, h⟩
      · exact ⟨item, List.mem_cons_self, hitem⟩
      · rcases error_of_bind h with hitems | ⟨rest, -, h⟩
        · obtain ⟨other, hother, herror⟩ := ih hitems
          exact ⟨other, List.mem_cons_of_mem _ hother, herror⟩
        · cases h

end Except

/-! ### Types that cannot be mapped -/

def LoweringError.isBranch : LoweringError → Bool
  | .invalidBranchTarget _ _ => true
  | _ => false

/-- Errors about the order of the passes: something is asked for that no earlier
step has made. -/
def LoweringError.isOrder : LoweringError → Bool
  | .stageOrder _ _ _ | .missingConstructor _ | .unknownOpcode _ _ => true
  | _ => false

def LoweringError.isUsage (error : LoweringError) : Bool := !error.isBranch && !error.isOrder

theorem LoweringError.isOrder_of_isUsage {error : LoweringError} (h : error.isUsage = true) :
    error.isOrder = false := by
  rw [isUsage, Bool.and_eq_true, Bool.not_eq_true', Bool.not_eq_true'] at h
  exact h.2

theorem LoweringError.isOrder_of_isBranch {error : LoweringError} (h : error.isBranch = true) :
    error.isOrder = false := by
  unfold isBranch at h
  split at h
  · rfl
  · cases h

section Unmapped

variable {image : Image} {registry : Registry} {error : LoweringError}

namespace TypeMapping

theorem isUsage_of_declared {index : TypeIndex}
    (h : declared registry index = .error error) : error.isUsage = true := by
  unfold declared at h
  split at h
  · cases h
  · cases h
    rfl

theorem isUsage_of_signatureWith {mapType : TypeIndex → Except LoweringError TargetType}
    (hmap : ∀ index, mapType index = .error error → error.isUsage = true)
    {source : FunctionType} (h : signatureWith mapType source = .error error) :
    error.isUsage = true := by
  rcases error_of_bind h with hparams | ⟨params, -, h⟩
  · obtain ⟨arg, -, harg⟩ := error_of_mapM hparams
    exact hmap arg harg
  · rcases error_of_bind h with hret | ⟨ret, -, h⟩
    · exact hmap _ hret
    · cases h

theorem isUsage_of_mapWithin (levels : Nat) (index : TypeIndex)
    (h : mapWithin image registry levels index = .error error) : error.isUsage = true := by
  -- a function type takes two levels at once
  induction levels using Nat.strongRecOn generalizing index with
  | ind levels ih =>
      cases levels with
      | zero =>
          cases h
          rfl
      | succ levels =>
          unfold mapWithin at h
          cases hsource : image.type? index with
          | none =>
              simp only [hsource] at h
              cases h
              rfl
          | some source =>
              cases source <;> simp only [hsource] at h
              case func signature | method signature =>
                cases levels with
                | zero =>
                    refine isUsage_of_signatureWith ?_ (error_of_map h)
                    intro arg harg
                    cases harg
                    rfl
                | succ levels =>
                    exact isUsage_of_signatureWith (fun arg => ih levels (by omega) arg)
                      (error_of_map h)
              case obj | struct | virtual | enum | abstract =>
                exact isUsage_of_declared (error_of_map h)
              case ref inner | null inner =>
                exact ih levels (Nat.lt_succ_self _) inner (error_of_map h)
              case packed inner => exact ih levels (Nat.lt_succ_self _) inner h
              all_goals cases h

end TypeMapping

theorem Registry.isUsage_of_mapType {index : TypeIndex}
    (h : registry.mapType image index = .error error) : error.isUsage = true :=
  TypeMapping.isUsage_of_mapWithin _ index h

end Unmapped

/-! ## Steps -/

namespace Lowering

variable {before after : Registry}

theorem bind_ok {step : Lowering α} {next : α → Lowering β} {result : β}
    (h : (step >>= next) before = .ok result after) :
    ∃ value middle, step before = .ok value middle ∧ next value middle = .ok result after := by
  change EStateM.bind step next before = _ at h
  unfold EStateM.bind at h
  cases hstep : step before with
  | ok value middle =>
      rw [hstep] at h
      exact ⟨value, middle, rfl, h⟩
  | error error middle =>
      rw [hstep] at h
      cases h

theorem get_ok {found : Registry} (h : (get : Lowering Registry) before = .ok found after) :
    before = found ∧ before = after := by
  cases h
  exact ⟨rfl, rfl⟩

theorem query_ok {look : Registry → Except LoweringError α} {result : α}
    (h : query look before = .ok result after) : look before = .ok result ∧ before = after := by
  obtain ⟨_, _, hget, h⟩ := bind_ok h
  obtain ⟨rfl, rfl⟩ := get_ok hget
  cases hlook : look before with
  | error error =>
      rw [hlook] at h
      cases h
  | ok value =>
      rw [hlook] at h
      cases h
      exact ⟨rfl, rfl⟩

theorem query_bind {look : Registry → Except LoweringError α} {next : α → Lowering β} {result : β}
    (h : (query look >>= next) before = .ok result after) :
    ∃ value, look before = .ok value ∧ next value before = .ok result after := by
  obtain ⟨value, middle, hquery, h⟩ := bind_ok h
  obtain ⟨hlook, rfl⟩ := query_ok hquery
  exact ⟨value, hlook, h⟩

theorem get_bind {next : Registry → Lowering β} {result : β}
    (h : (get >>= next) before = .ok result after) : next before before = .ok result after := h

theorem modifyTarget_bind {f : TargetModule → TargetModule} {next : Unit → Lowering β} {result : β}
    (h : (Registry.modifyTarget f >>= next) before = .ok result after) :
    next () { before with target := f before.target } = .ok result after := h

theorem bind_of_ok {step : Lowering α} {next : α → Lowering β} {value : α}
    (h : step before = .ok value after) : (step >>= next) before = next value after := by
  change EStateM.bind step next before = _
  rw [EStateM.bind, h]

theorem bind_of_error {step : Lowering α} {next : α → Lowering β} {error : LoweringError}
    (h : step before = .error error after) : (step >>= next) before = .error error after := by
  change EStateM.bind step next before = _
  rw [EStateM.bind, h]

theorem query_of_ok {look : Registry → Except LoweringError α} {value : α}
    (h : look before = .ok value) : query look before = .ok value before := by
  change (MonadExcept.ofExcept (look before) : Lowering α) before = _
  rw [h]
  rfl

theorem query_of_error {look : Registry → Except LoweringError α} {error : LoweringError}
    (h : look before = .error error) : query look before = .error error before := by
  change (MonadExcept.ofExcept (look before) : Lowering α) before = _
  rw [h]
  rfl

theorem bind_error {step : Lowering α} {next : α → Lowering β} {error : LoweringError}
    (h : (step >>= next) before = .error error after) :
    step before = .error error after ∨
      ∃ value middle, step before = .ok value middle ∧ next value middle = .error error after := by
  change EStateM.bind step next before = _ at h
  unfold EStateM.bind at h
  cases hstep : step before with
  | ok value middle =>
      rw [hstep] at h
      exact Or.inr ⟨value, middle, rfl, h⟩
  | error found middle =>
      rw [hstep] at h
      cases h
      exact Or.inl rfl

theorem query_error {look : Registry → Except LoweringError α} {error : LoweringError}
    (h : query look before = .error error after) : look before = .error error := by
  cases hlook : look before with
  | error found =>
      rw [query_of_error hlook] at h
      cases h
      rfl
  | ok value =>
      rw [query_of_ok hlook] at h
      cases h

theorem query_bind_error {look : Registry → Except LoweringError α} {next : α → Lowering β}
    {error : LoweringError} (h : (query look >>= next) before = .error error after) :
    look before = .error error ∨
      ∃ value, look before = .ok value ∧ next value before = .error error after := by
  rcases bind_error h with hquery | ⟨value, middle, hquery, h⟩
  · exact Or.inl (query_error hquery)
  · obtain ⟨hlook, rfl⟩ := query_ok hquery
    exact Or.inr ⟨value, hlook, h⟩

theorem get_bind_error {next : Registry → Lowering β} {error : LoweringError}
    (h : (get >>= next) before = .error error after) : next before before = .error error after := h

theorem modifyTarget_bind_error {f : TargetModule → TargetModule} {next : Unit → Lowering β}
    {error : LoweringError} (h : (Registry.modifyTarget f >>= next) before = .error error after) :
    next () { before with target := f before.target } = .error error after := h

/-- What each item carries from the items in front of it to itself, a loop
carries through the list. -/
theorem forM_done (holds : List α → Registry → Prop) {items : List α}
    {step : α → Lowering PUnit}
    (hstep : ∀ first item rest, items = first ++ item :: rest → ∀ before result after,
      holds first before → step item before = .ok result after → holds (first ++ [item]) after)
    {result : PUnit} (hbefore : holds [] before) (h : items.forM step before = .ok result after) :
    holds items after := by
  -- the items behind those that are done
  suffices hloop : ∀ rest first before, items = first ++ rest → holds first before →
      rest.forM step before = .ok result after → holds items after from
    hloop items [] before rfl hbefore h
  intro rest
  induction rest with
  | nil =>
      rintro first before hitems hfirst hnone
      cases hnone
      rwa [hitems, List.append_nil]
  | cons item rest ih =>
      intro first before hitems hfirst hrun
      obtain ⟨_, middle, hitem, hrest⟩ := bind_ok hrun
      have hmiddle := hstep first item rest hitems before _ middle hfirst hitem
      exact ih (first ++ [item]) middle (by rw [hitems, List.append_assoc]; rfl) hmiddle hrest

theorem mapM_done (holds : List α → Registry → Prop) {items : List α} {step : α → Lowering β}
    (hstep : ∀ first item rest, items = first ++ item :: rest → ∀ before result after,
      holds first before → step item before = .ok result after → holds (first ++ [item]) after)
    {results : List β} (hbefore : holds [] before)
    (h : items.mapM step before = .ok results after) : holds items after := by
  suffices hloop : ∀ rest first before results, items = first ++ rest → holds first before →
      rest.mapM step before = .ok results after → holds items after from
    hloop items [] before results rfl hbefore h
  intro rest
  induction rest with
  | nil =>
      rintro first before results hitems hfirst hnone
      cases hnone
      rwa [hitems, List.append_nil]
  | cons item rest ih =>
      intro first before results hitems hfirst hrun
      rw [List.mapM_cons] at hrun
      obtain ⟨_, middle, hitem, hrun⟩ := bind_ok hrun
      obtain ⟨others, last, hrest, hrun⟩ := bind_ok hrun
      cases hrun
      have hmiddle := hstep first item rest hitems before _ middle hfirst hitem
      exact ih (first ++ [item]) middle others (by rw [hitems, List.append_assoc]; rfl) hmiddle hrest

theorem forM_keeps (holds : Registry → Prop) {items : List α} {step : α → Lowering PUnit}
    (hstep : ∀ item ∈ items, ∀ before result after, holds before →
      step item before = .ok result after → holds after)
    {result : PUnit} (hbefore : holds before) (h : items.forM step before = .ok result after) :
    holds after :=
  forM_done (fun _ => holds) (fun first item rest hitems => hstep item (by simp [hitems])) hbefore h

theorem mapM_keeps (holds : Registry → Prop) {items : List α} {step : α → Lowering β}
    (hstep : ∀ item ∈ items, ∀ before result after, holds before →
      step item before = .ok result after → holds after)
    {results : List β} (hbefore : holds before)
    (h : items.mapM step before = .ok results after) : holds after :=
  mapM_done (fun _ => holds) (fun first item rest hitems => hstep item (by simp [hitems])) hbefore h

theorem forM_zipIdx (holds : Nat → Registry → Prop) {items : List α} {first : Nat}
    {step : α × Nat → Lowering PUnit}
    (hstep : ∀ (i : Nat) item, items[i]? = some item → ∀ before result after,
      holds (first + i) before → step (item, first + i) before = .ok result after →
        holds (first + i + 1) after)
    {result : PUnit} (hbefore : holds first before)
    (h : (items.zipIdx first).forM step before = .ok result after) :
    holds (first + items.length) after := by
  induction items generalizing first before with
  | nil =>
      cases h
      exact hbefore
  | cons item items ih =>
      obtain ⟨_, middle, hitem, h⟩ := bind_ok h
      have hmiddle := hstep 0 item rfl before _ middle hbefore hitem
      have hrest : holds (first + 1 + items.length) after := ih ?_ hmiddle h
      · rwa [List.length_cons, Nat.add_comm items.length, ← Nat.add_assoc]
      · intro i other hother
        rw [Nat.add_assoc first, Nat.add_comm 1]
        exact hstep (i + 1) other hother

/-! ### Loops that fail -/

theorem forM_fault (holds : List α → Registry → Prop) {items : List α}
    {step : α → Lowering PUnit}
    (hstep : ∀ first item rest, items = first ++ item :: rest → ∀ before result after,
      holds first before → step item before = .ok result after → holds (first ++ [item]) after)
    {error : LoweringError} (hbefore : holds [] before)
    (h : items.forM step before = .error error after) :
    ∃ first item rest middle, items = first ++ item :: rest ∧ holds first middle ∧
      step item middle = .error error after := by
  suffices hloop : ∀ rest first before, items = first ++ rest → holds first before →
      rest.forM step before = .error error after → _ from hloop items [] before rfl hbefore h
  intro rest
  induction rest with
  | nil =>
      intro first before _ _ hrun
      cases hrun
  | cons item rest ih =>
      intro first before hitems hfirst hrun
      rcases bind_error hrun with hitem | ⟨_, middle, hitem, hrest⟩
      · exact ⟨first, item, rest, before, hitems, hfirst, hitem⟩
      · have hmiddle := hstep first item rest hitems before _ middle hfirst hitem
        exact ih (first ++ [item]) middle (by rw [hitems, List.append_assoc]; rfl) hmiddle hrest

theorem mapM_fault (holds : List α → Registry → Prop) {items : List α} {step : α → Lowering β}
    (hstep : ∀ first item rest, items = first ++ item :: rest → ∀ before result after,
      holds first before → step item before = .ok result after → holds (first ++ [item]) after)
    {error : LoweringError} (hbefore : holds [] before)
    (h : items.mapM step before = .error error after) :
    ∃ first item rest middle, items = first ++ item :: rest ∧ holds first middle ∧
      step item middle = .error error after := by
  suffices hloop : ∀ rest first before, items = first ++ rest → holds first before →
      rest.mapM step before = .error error after → _ from hloop items [] before rfl hbefore h
  intro rest
  induction rest with
  | nil =>
      intro first before _ _ hrun
      cases hrun
  | cons item rest ih =>
      intro first before hitems hfirst hrun
      rw [List.mapM_cons] at hrun
      rcases bind_error hrun with hitem | ⟨_, middle, hitem, hrun⟩
      · exact ⟨first, item, rest, before, hitems, hfirst, hitem⟩
      · have hmiddle := hstep first item rest hitems before _ middle hfirst hitem
        rcases bind_error hrun with hrest | ⟨_, _, -, hdone⟩
        · exact ih (first ++ [item]) middle (by rw [hitems, List.append_assoc]; rfl) hmiddle hrest
        · cases hdone

theorem forM_zipIdx_fault (holds : Nat → Registry → Prop) {items : List α} {first : Nat}
    {step : α × Nat → Lowering PUnit}
    (hstep : ∀ (i : Nat) item, items[i]? = some item → ∀ before result after,
      holds (first + i) before → step (item, first + i) before = .ok result after →
        holds (first + i + 1) after)
    {error : LoweringError} (hbefore : holds first before)
    (h : (items.zipIdx first).forM step before = .error error after) :
    ∃ (i : Nat) (item : α) (middle : Registry), items[i]? = some item ∧
      holds (first + i) middle ∧ step (item, first + i) middle = .error error after := by
  induction items generalizing first before with
  | nil => cases h
  | cons item items ih =>
      rcases bind_error h with hitem | ⟨_, middle, hitem, h⟩
      · exact ⟨0, item, before, rfl, hbefore, hitem⟩
      · have hmiddle := hstep 0 item rfl before _ middle hbefore hitem
        have hbehind (i : Nat) : first + 1 + i = first + (i + 1) := by
          rw [Nat.add_assoc, Nat.add_comm 1]
        obtain ⟨i, other, last, hother, hlast, hfault⟩ := ih (fun i other hother => by
          rw [hbehind]
          exact hstep (i + 1) other hother) hmiddle h
        rw [hbehind] at hlast hfault
        exact ⟨i + 1, other, last, hother, hlast, hfault⟩

end Lowering

end BytecodeLowering

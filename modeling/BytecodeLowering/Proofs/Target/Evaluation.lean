import BytecodeLowering.Target.Instr

/-!
# Running conversions

Running code on an evaluation stack over a host that supplies the values and
the operations of the support library.  Only the instructions of conversions
run; any other is stuck.  An operation that fails ends the run as well, so code
that completes has failed nowhere.
-/

namespace BytecodeLowering

/-- A host: its values and what it does to them.  An operation that fails gives
nothing. -/
structure Runtime where
  Value : Type
  null : Value
  /-- What a conditional branch tests. -/
  isFalse : Value → Bool
  /-- The values of a type. -/
  HasType : TargetType → Value → Prop
  box : TargetType → Value → Value
  unbox : TargetType → Value → Option Value
  cast : TargetType → Value → Option Value
  dynamicNew : Value → Value
  dynamicValue : Value → Option Value
  nullableNew : TargetType → Value → Value
  nullableValue : TargetType → Value → Option Value

/-- What compiled code relies on. -/
structure Runtime.Contract (host : Runtime) : Prop where
  null_isFalse : host.isFalse host.null = true
  isFalse_iff : ∀ type value, type.isReference = true → host.HasType type value →
    (host.isFalse value = true ↔ value = host.null)
  unbox_box : ∀ type value, type.isValue = true → host.HasType type value →
    host.unbox type (host.box type value) = some value
  unbox_other : ∀ type value, (∀ inner, value ≠ host.box type inner) →
    host.unbox type value = none
  dynamicValue_dynamicNew : ∀ value, host.dynamicValue (host.dynamicNew value) = some value
  nullableValue_nullableNew : ∀ type value,
    host.nullableValue type (host.nullableNew type value) = some value
  /-- The empty nullable is the null reference. -/
  nullable_iff : ∀ inner value, host.HasType (.nullable inner) value ↔
    value = host.null ∨ ∃ content, host.HasType inner content ∧ value = host.nullableNew inner content
  cast_null : ∀ type, host.cast type host.null = some host.null
  cast_instance : ∀ type value, type.isReference = true → host.HasType type value →
    host.cast type value = some value
  cast_other : ∀ type value, value ≠ host.null → ¬ host.HasType type value →
    host.cast type value = none

namespace Runtime

variable (host : Runtime)

def effect : Instr → List host.Value → Option (List host.Value)
  | .nop, stack | .markLabel _, stack => some stack
  | .pop, _ :: stack => some stack
  | .dup, value :: stack => some (value :: value :: stack)
  | .ldNull, stack => some (host.null :: stack)
  | .box type, value :: stack => some (host.box type value :: stack)
  | .unboxAny type, value :: stack => (host.unbox type value).map (· :: stack)
  | .castClass type, value :: stack => (host.cast type value).map (· :: stack)
  | .newObj (.runtime .dynamicNew), value :: stack => some (host.dynamicNew value :: stack)
  | .call (.runtime .dynamicValue), value :: stack => (host.dynamicValue value).map (· :: stack)
  | .newObj (.runtime (.nullableNew type)), value :: stack =>
      some (host.nullableNew type value :: stack)
  | .call (.runtime (.nullableValue type)), value :: stack =>
      (host.nullableValue type value).map (· :: stack)
  | _, _ => none

abbrev Config := Nat × List host.Value

def goTo (code : List Instr) (label : Label) (stack : List host.Value) : Option host.Config :=
  (code.idxOf? (.markLabel label)).map (·, stack)

def step (code : List Instr) (config : host.Config) : Option host.Config :=
  match code[config.1]?, config.2 with
  | some (.br label), stack => host.goTo code label stack
  | some (.brFalse label), value :: stack =>
      if host.isFalse value then host.goTo code label stack else some (config.1 + 1, stack)
  | some instr, stack => (host.effect instr stack).map (config.1 + 1, ·)
  | none, _ => none

inductive Reaches (code : List Instr) : host.Config → host.Config → Prop
  | refl (config : host.Config) : Reaches code config config
  | head {config next last : host.Config} (hstep : host.step code config = some next)
      (hrest : Reaches code next last) : Reaches code config last

/-- The code runs from its first instruction to behind its last. -/
def Completes (code : List Instr) (stack result : List host.Value) : Prop :=
  host.Reaches code (0, stack) (code.length, result)

variable {host} {code : List Instr}

/-- A run goes one way only, so it ends in one place. -/
theorem Reaches.unique {first second third : host.Config} (h : host.Reaches code first second)
    (hsecond : host.step code second = none) (hother : host.Reaches code first third)
    (hthird : host.step code third = none) : second = third := by
  induction h with
  | refl =>
      cases hother with
      | refl => rfl
      | head hstep _ => cases hsecond.symm.trans hstep
  | head hstep _ ih =>
      cases hother with
      | refl => cases hthird.symm.trans hstep
      | head hstep' hrest =>
          cases hstep.symm.trans hstep'
          exact ih hsecond hrest

theorem step_end (stack : List host.Value) : host.step code (code.length, stack) = none := by
  simp [step]

theorem not_completes {stack result : List host.Value} {config : host.Config}
    (h : host.Reaches code (0, stack) config) (hhalt : host.step code config = none)
    (hother : config ≠ (code.length, result)) : ¬ host.Completes code stack result :=
  fun hcompletes => hother (h.unique hhalt hcompletes (step_end result))

def effects (host : Runtime) : List Instr → List host.Value → Option (List host.Value)
  | [], stack => some stack
  | instr :: code, stack => (host.effect instr stack).bind (effects host code)

theorem step_of_effect {place : Nat} {instr : Instr} {stack after : List host.Value}
    (hinstr : code[place]? = some instr) (heffect : host.effect instr stack = some after) :
    host.step code (place, stack) = some (place + 1, after) := by
  unfold step
  rw [hinstr]
  cases instr with
  | br | brFalse => simp [effect] at heffect
  | _ => simp only [heffect, Option.map_some]

/-- A stretch of code without branches runs by the effects of its instructions. -/
theorem reaches_of_effects {before middle behind : List Instr} {stack after : List host.Value}
    (hcode : code = before ++ (middle ++ behind)) (h : effects host middle stack = some after) :
    host.Reaches code (before.length, stack) (before.length + middle.length, after) := by
  induction middle generalizing before stack with
  | nil =>
      cases h
      exact .refl _
  | cons instr middle ih =>
      obtain ⟨between, hfirst, hrest⟩ := Option.bind_eq_some_iff.mp h
      have hinstr : code[before.length]? = some instr := by simp [hcode]
      have hlater := @ih (before ++ [instr]) between (by simp [hcode]) hrest
      rw [List.length_append, List.length_singleton] at hlater
      rw [List.length_cons, Nat.add_comm middle.length 1, ← Nat.add_assoc]
      exact .head (step_of_effect hinstr hfirst) hlater

theorem completes_of_effects {stack after : List host.Value}
    (h : effects host code stack = some after) : host.Completes code stack after := by
  have hrun := @reaches_of_effects host code [] code [] stack after (by simp) h
  rwa [List.length_nil, Nat.zero_add] at hrun

end Runtime

/-! ## A host -/

inductive HostValue where
  | null
  | number (type : TargetType) (bits : Nat)
  | boxed (type : TargetType) (content : HostValue)
  | dynamic (content : HostValue)
  | nullable (inner : TargetType) (content : HostValue)
  | object (type : TargetType)
  deriving DecidableEq

namespace HostValue

def isOwn : TargetType → Bool
  | .nullable _ | .dynamic | .any => false
  | type => type.isReference

def HasType (type : TargetType) : HostValue → Prop
  | .null => type.isReference = true
  | .number own _ => type = own ∧ own.isValue = true
  | .boxed _ _ => type = .any
  | .dynamic _ => type = .dynamic ∨ type = .any
  | .nullable inner content => type = .any ∨ type = .nullable inner ∧ HasType inner content
  | .object own => type = .any ∨ type = own ∧ isOwn own = true

instance decidableHasType (type : TargetType) : ∀ value, Decidable (HasType type value)
  | .null => inferInstanceAs (Decidable (_ = _))
  | .number _ _ => inferInstanceAs (Decidable (_ ∧ _))
  | .boxed _ _ => inferInstanceAs (Decidable (_ = _))
  | .dynamic _ => inferInstanceAs (Decidable (_ ∨ _))
  | .nullable inner content =>
      have := decidableHasType inner content
      inferInstanceAs (Decidable (_ ∨ _ ∧ HasType inner content))
  | .object _ => inferInstanceAs (Decidable (_ ∨ _))

def isFalse : HostValue → Bool
  | .null => true
  | .number _ bits => bits == 0
  | _ => false

def unbox (type : TargetType) : HostValue → Option HostValue
  | .boxed own content => if own = type then some content else none
  | _ => none

def cast (type : TargetType) (value : HostValue) : Option HostValue :=
  if value = .null ∨ HasType type value then some value else none

def dynamicValue : HostValue → Option HostValue
  | .dynamic content => some content
  | _ => none

def nullableValue (type : TargetType) : HostValue → Option HostValue
  | .nullable own content => if own = type then some content else none
  | _ => none

end HostValue

def plainHost : Runtime where
  Value := HostValue
  null := .null
  isFalse := HostValue.isFalse
  HasType := HostValue.HasType
  box := .boxed
  unbox := HostValue.unbox
  cast := HostValue.cast
  dynamicNew := .dynamic
  dynamicValue := HostValue.dynamicValue
  nullableNew := .nullable
  nullableValue := HostValue.nullableValue

theorem plainHost_contract : plainHost.Contract where
  null_isFalse := rfl
  isFalse_iff type value hreference htype := by
    cases value with
    | number own bits =>
        obtain ⟨rfl, hvalue⟩ := htype
        simp [TargetType.isReference, hvalue] at hreference
    | null => exact iff_of_true rfl rfl
    | _ => exact iff_of_false nofun nofun
  unbox_box type value _ _ := if_pos rfl
  unbox_other type value hother := by
    cases value with
    | boxed own content =>
        refine if_neg ?_
        rintro rfl
        exact hother content rfl
    | _ => rfl
  dynamicValue_dynamicNew _ := rfl
  nullableValue_nullableNew _ _ := if_pos rfl
  nullable_iff inner value := by
    constructor
    · intro htype
      cases value with
      | null => exact .inl rfl
      | number own bits =>
          obtain ⟨rfl, hvalue⟩ := htype
          cases hvalue
      | boxed own content => cases htype
      | dynamic content => rcases htype with h | h <;> cases h
      | nullable own content =>
          obtain h | ⟨h, hcontent⟩ := htype
          · cases h
          · cases h
            exact .inr ⟨content, hcontent, rfl⟩
      | object own =>
          obtain h | ⟨rfl, hown⟩ := htype
          · cases h
          · cases hown
    · rintro (rfl | ⟨content, hcontent, rfl⟩)
      · rfl
      · exact .inr ⟨rfl, hcontent⟩
  cast_null _ := by simp [plainHost, HostValue.cast]
  cast_instance type value _ htype := if_pos (.inr htype)
  cast_other type value hnull hother := if_neg (by rintro (h | h) <;> contradiction)

end BytecodeLowering

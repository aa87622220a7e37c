import BytecodeLowering.Lower.EnumLayout
import BytecodeLowering.Proofs.Lower.Steps

/-!
# Arguments of constructors

A constructor of an enum counts its arguments in sixteen bits, and the instance
comes first.  Its code is made exactly when the count lasts for all parameters;
otherwise lowering is broken off.
-/

namespace BytecodeLowering.EnumLayout

variable {indexField : FieldRef} {number position start : Nat} {construct : ConstructShape}
  {fields : List FlatField} {body : List Instr}

/-- The code of a constructor whose parameters are the arguments from 1 on. -/
def constructorCode (indexField : FieldRef) (number : Nat) (fields : List FlatField) : List Instr :=
  [Instr.ldArg 0, .ldcI4 (Word.signed32 number), .stFld indexField]
    ++ (fields.mapIdx fun i field => storeArgument (UInt16.ofNat (i + 1)) field).flatten
    ++ [Instr.ret]

theorem argumentNumber_of_lt (h : position < 65535) :
    argumentNumber position = .ok (UInt16.ofNat (position + 1)) := by
  have hcut : UInt16.ofNat position ≠ 0xFFFF := by
    intro hlast
    have hplace : (UInt16.ofNat position).toNat = 65535 := congrArg UInt16.toNat hlast
    rw [UInt16.toNat_ofNat', Nat.mod_eq_of_lt (by omega)] at hplace
    exact absurd hplace (Nat.ne_of_lt h)
  rw [argumentNumber, if_neg hcut, UInt16.ofNat_add]
  rfl

theorem argumentNumber_limit : argumentNumber 65535 = .error .overflow := rfl

theorem storeParams_ok (h : start + fields.length ≤ 65535) :
    (fields.zipIdx start).mapM storeParam
      = .ok (fields.mapIdx fun i field => storeArgument (UInt16.ofNat (start + i + 1)) field) := by
  induction fields generalizing start with
  | nil => rfl
  | cons field fields ih =>
      rw [List.length_cons] at h
      have hrest := @ih (start + 1) (by omega)
      simp only [Nat.add_right_comm start 1] at hrest
      rw [List.zipIdx_cons, List.mapM_cons, hrest, storeParam, argumentNumber_of_lt (by omega),
        List.mapIdx_cons]
      simp only [Nat.add_assoc]
      rfl

theorem storeParams_overflow (hstart : start ≤ 65535) (h : 65535 < start + fields.length) :
    (fields.zipIdx start).mapM storeParam = .error .overflow := by
  induction fields generalizing start with
  | nil => exact absurd hstart (Nat.not_le_of_lt h)
  | cons field fields ih =>
      rw [List.length_cons] at h
      rw [List.zipIdx_cons, List.mapM_cons, storeParam]
      rcases Nat.lt_or_eq_of_le hstart with hlt | rfl
      · rw [argumentNumber_of_lt hlt, @ih (start + 1) hlt (by omega)]
        rfl
      · rw [argumentNumber_limit]
        rfl

theorem constructorBody_ok (h : construct.fields.length ≤ 65535) :
    constructorBody indexField number construct
      = .ok (constructorCode indexField number construct.fields) := by
  have hstores := @storeParams_ok 0 construct.fields (by omega)
  simp only [Nat.zero_add] at hstores
  rw [constructorBody, hstores]
  rfl

theorem constructorBody_overflow (h : 65535 < construct.fields.length) :
    constructorBody indexField number construct = .error .overflow := by
  rw [constructorBody, storeParams_overflow (Nat.zero_le _) (by omega)]
  rfl

theorem constructorBody_eq_ok :
    constructorBody indexField number construct = .ok body
      ↔ construct.fields.length ≤ 65535 ∧
        constructorCode indexField number construct.fields = body := by
  rcases Nat.lt_or_ge 65535 construct.fields.length with hlong | hshort
  · rw [constructorBody_overflow hlong]
    exact ⟨nofun, fun ⟨h, _⟩ => absurd h (Nat.not_le_of_lt hlong)⟩
  · rw [constructorBody_ok hshort, Except.ok.injEq]
    exact (and_iff_right hshort).symm

theorem constructorBody_error {error : LoweringError}
    (h : constructorBody indexField number construct = .error error) :
    65535 < construct.fields.length ∧ error = .overflow := by
  rcases Nat.lt_or_ge 65535 construct.fields.length with hlong | hshort
  · rw [constructorBody_overflow hlong] at h
    exact ⟨hlong, (Except.error.inj h).symm⟩
  · rw [constructorBody_ok hshort] at h
    cases h

theorem compileConstruct_steps {shape : EnumShape} {before after : Registry} {result : Unit}
    (h : compileConstruct shape (construct, number) before = .ok result after) :
    construct.fields.length ≤ 65535 ∧
      construct.constructor < before.target.methods.length ∧
      { before with target := before.target.modifyMethod construct.constructor fun method =>
          { method with body := constructorCode shape.indexField number construct.fields } }
        = after := by
  obtain ⟨body, hbody, h⟩ := Lowering.query_bind h
  obtain ⟨hlength, rfl⟩ := constructorBody_eq_ok.mp hbody
  have h := Lowering.get_bind h
  split at h
  · rename_i hplace
    cases h
    exact ⟨hlength, hplace, rfl⟩
  · cases h

end BytecodeLowering.EnumLayout

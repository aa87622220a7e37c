import BytecodeLowering.Proofs.Lower.InitialValues

/-!
# The module initializer

The initializer runs from an empty stack to its end and leaves every global that
a constant names with the instance that the last such constant describes.  There
is an initializer unless some constant does not fit its global, and then nothing
has changed.
-/

namespace BytecodeLowering

namespace GlobalSlots

variable {image : Image} {settings : Settings} {typed declared before after : Registry}

/-! ## The steps in front of the initializer -/

theorem declareAll_ok {result : Unit} (h : declareAll image before = .ok result after) :
    after.types = before.types ∧ after.target.types = before.target.types ∧
      after.target.methods = before.target.methods ∧
      after.target.globals.length = before.target.globals.length + image.globals.length := by
  let holds (count : Nat) (registry : Registry) : Prop :=
    registry.types = before.types ∧ registry.target.types = before.target.types ∧
      registry.target.methods = before.target.methods ∧
      registry.target.globals.length = before.target.globals.length + count
  have hdone : holds (0 + image.globals.length) after := by
    refine Lowering.forM_zipIdx holds ?_ ⟨rfl, rfl, rfl, rfl⟩ h
    rintro i type - first _ second ⟨htypes, hclasses, hmethods, hglobals⟩ hstep
    obtain ⟨slot, -, -, rfl⟩ := declare_ok hstep
    refine ⟨htypes, hclasses, hmethods, ?_⟩
    rw [← Nat.add_assoc, ← hglobals]
    exact List.length_append
  rwa [Nat.zero_add] at hdone

theorem declared_instantiates (htypes : TypePasses.run image (image.registry settings) = .ok () typed)
    (hglobals : declareAll image typed = .ok () declared) : declared.Instantiates image := by
  obtain ⟨hsame, hclasses, hmethods, hcount⟩ := declareAll_ok hglobals
  have hspares := TypePasses.run_spares (Registry.create_linked _ _ _) htypes
  refine ⟨declareAll_passing (TypePasses.run_passing htypes) hglobals, ?_, ?_⟩
  · intro index object hobject
    obtain ⟨decl, shape, hbuilt⟩ := TypePasses.object_built htypes hobject
    exact ⟨decl, shape, hbuilt.keep hsame hclasses (by rw [hmethods])⟩
  · rw [hcount, hspares.globals]
    exact Nat.zero_add _

theorem lowered_of_codes (h : declared.Instantiates image) {constants : List Constant}
    {codes : List (List Instr)} (hcodes : constants.mapM (constantCode image declared) = .ok codes) :
    List.Forall₂ (fun constant code => ∃ type decl shape fields,
      constant.Lowered image declared type decl shape fields ∧
        code = .newObj (.method shape.constructor) :: fields.flatten ++ [.stSFld constant.global])
      constants codes := by
  induction constants generalizing codes with
  | nil =>
      cases hcodes
      exact .nil
  | cons constant constants ih =>
      obtain ⟨code, rest, hcode, hrest, rfl⟩ := ok_of_mapM_cons hcodes
      refine .cons ?_ (ih hrest)
      rcases constantCode_cases h constant with
        ⟨-, error, herror⟩ | ⟨type, decl, shape, fields, hlowered, hmade⟩
      · cases hcode.symm.trans herror
      · exact ⟨type, decl, shape, fields, hlowered, Except.ok.inj (hcode.symm.trans hmade)⟩

theorem misfit_iff (h : declared.Instantiates image) :
    (∃ error, image.constants.mapM (constantCode image declared) = .error error) ↔
      ∃ constant ∈ image.constants, constant.Misfit image declared := by
  constructor
  · rintro ⟨error, herror⟩
    obtain ⟨constant, hconstant, herror⟩ := error_of_mapM herror
    rcases constantCode_cases h constant with
      ⟨hmisfit, -⟩ | ⟨_, _, _, _, -, hmade⟩
    · exact ⟨constant, hconstant, hmisfit⟩
    · cases hmade.symm.trans herror
  · rintro ⟨constant, hconstant, hmisfit⟩
    cases hcodes : image.constants.mapM (constantCode image declared) with
    | error error => exact ⟨error, rfl⟩
    | ok codes =>
        obtain ⟨i, hi⟩ := List.mem_iff_getElem?.mp hconstant
        obtain ⟨code, -, hcode⟩ := getElem?_of_mapM hcodes hi
        rcases constantCode_cases h constant with
          ⟨-, error, herror⟩ | ⟨_, _, _, _, hlowered, -⟩
        · cases hcode.symm.trans herror
        · exact absurd hmisfit hlowered.not_misfit

theorem initializer_returns (h : declared.Instantiates image) {codes : List (List Instr)}
    (hcodes : image.constants.mapM (constantCode image declared) = .ok codes)
    (hafter : after = { declared with
      target := declared.target.addInitializer (initializer declared.target codes) })
    {α : Type} (host : Host α) (world : World α) :
    ∃ last, host.Returns after.target ((initializer declared.target codes).enter []) world [] last ∧
      Initialized host image after image.constants world last := by
  have hlowered : List.Forall₂ (fun constant code => ∃ type decl shape fields,
      constant.Lowered image after type decl shape fields ∧
        code = .newObj (.method shape.constructor) :: fields.flatten ++ [.stSFld constant.global])
      image.constants codes := by
    refine (lowered_of_codes h hcodes).imp ?_
    rintro constant code ⟨type, decl, shape, fields, hlowered, hcode⟩
    subst hafter
    exact ⟨type, decl, shape, fields, hlowered.keep rfl rfl (List.prefix_append _ _), hcode⟩
  obtain ⟨last, hlast, hrun⟩ := @executes_constants α host image after image.constants codes hlowered
    world ((initializer declared.target codes).enter []).activation 0
  exact ⟨last, Executes.returns rfl hrun rfl, hlast⟩

/-- The initializer of a module gives the globals their values, and the constants
have no initializer exactly when one of them does not fit its global. -/
theorem realizes_of_lowerConstants
    (htypes : TypePasses.run image (image.registry settings) = .ok () typed)
    (hglobals : declareAll image typed = .ok () declared) :
    (∀ id after, lowerConstants image declared = .ok (some id) after →
      after.target.initializer = some id ∧ ∃ method, after.target.method? id = some method ∧
        ∀ {α : Type} (host : Host α) (world : World α), ∃ last,
          host.Returns after.target (method.enter []) world [] last ∧
            Initialized host image after image.constants world last) ∧
    (∀ error after, lowerConstants image declared = .error error after → after = declared) ∧
    ((∃ error after, lowerConstants image declared = .error error after) ↔
      ∃ constant ∈ image.constants, constant.Misfit image declared) := by
  have hready := declared_instantiates htypes hglobals
  rw [← misfit_iff hready]
  rcases lowerConstants_cases image declared with
    ⟨hnone, hrun⟩ | ⟨error, herror, hrun⟩ | ⟨codes, hcodes, hrun⟩ <;> rw [hrun]
  · refine ⟨?_, ?_, ?_, ?_⟩
    · rintro _ _ ⟨⟩
    · rintro _ _ ⟨⟩
    · rintro ⟨_, _, ⟨⟩⟩
    · rintro ⟨error, herror⟩
      rw [hnone] at herror
      cases herror
  · refine ⟨?_, ?_, fun _ => ⟨error, herror⟩, fun _ => ⟨error, declared, rfl⟩⟩
    · rintro _ _ ⟨⟩
    · rintro _ _ ⟨⟩
      rfl
  · refine ⟨?_, ?_, ?_, ?_⟩
    · rintro _ after ⟨⟩
      refine ⟨rfl, initializer declared.target codes, List.getElem?_concat_length, ?_⟩
      exact fun host world => initializer_returns hready hcodes rfl host world
    · rintro _ _ ⟨⟩
    · rintro ⟨_, _, ⟨⟩⟩
    · rintro ⟨error, herror⟩
      cases hcodes.symm.trans herror

end GlobalSlots

def presetImage : Image where
  version := 4
  ints := [7, -1]
  strings := ["a"]
  types := [
    .obj ⟨"Derived", some 2, none, [⟨"flag", 5⟩, ⟨"name", 6⟩], [⟨"f", 1, 0⟩], []⟩,
    .func ⟨[2], 3⟩,
    .obj ⟨"Base", none, none, [⟨"count", 3⟩, ⟨"wide", 4⟩], [⟨"f", 0, 0⟩], []⟩,
    .i32,
    .i64,
    .bool,
    .bytes]
  globals := [3, 0]
  functions := [slotFunction 0, slotFunction 1]
  constants := [⟨1, [1, 0, 0, 0]⟩, ⟨1, [0, 1, 5, 0]⟩]
  functionTable := FunctionTable.build [0, 1] []

def presetSources : Option (List TypeIndex) :=
  match TypePasses.run presetImage (presetImage.registry {}) with
  | .ok _ typed =>
      match GlobalSlots.declareAll presetImage typed with
      | .ok _ declared =>
          match GlobalSlots.lowerConstants presetImage declared with
          | .ok (some _) after => (after.object? 0).map (·.fields.map (·.source))
          | _ => none
      | _ => none
  | _ => none

theorem presetImage_lowers : ∃ typed declared id after shape,
    TypePasses.run presetImage (presetImage.registry {}) = .ok () typed ∧
      GlobalSlots.declareAll presetImage typed = .ok () declared ∧
      GlobalSlots.lowerConstants presetImage declared = .ok (some id) after ∧
      after.object? 0 = some shape ∧ shape.fields.map (·.source) = [3, 4, 5, 6] := by
  have hok : presetSources = some [3, 4, 5, 6] := by decide +kernel
  unfold presetSources at hok
  cases htypes : TypePasses.run presetImage (presetImage.registry {}) with
  | error error typed =>
      rw [htypes] at hok
      cases hok
  | ok result typed =>
      rw [htypes] at hok
      dsimp only at hok
      split at hok
      · split at hok
        · obtain ⟨shape, hshape, hsources⟩ := Option.map_eq_some_iff.mp hok
          exact ⟨typed, _, _, _, shape, rfl, ‹_›, ‹_›, hshape, hsources⟩
        · cases hok
      · cases hok

theorem presetImage_described {host : Host String} {registry : Registry} {type : TypeIndex}
    {shape : ObjectShape} {entry : Instance String}
    (hsources : shape.fields.map (·.source) = [3, 4, 5, 6])
    (h : Constant.Describes host presetImage registry ⟨1, [0, 1, 5, 0]⟩ type shape entry) :
    shape.fields.map (fun field => entry.fields field.field)
      = [.word 7, .long (-1), .word 1, .other (.host (host.bytes "a"))] := by
  match hfields : shape.fields with
  | [count, wide, flag, name] =>
      rw [hfields] at hsources
      simp only [List.map_cons, List.map_nil, List.cons.injEq, and_true] at hsources
      obtain ⟨hcount, hwide, hflag, hname⟩ := hsources
      have hvalues (j : Nat) (field : FlatField) (index : Nat)
          (hfield : [count, wide, flag, name][j]? = some field)
          (hindex : [0, 1, 5, 0][j]? = some index) :=
        h.fields j field index (hfields ▸ hfield) hindex
      have hfirst := hvalues 0 count 0 rfl rfl
      have hsecond := hvalues 1 wide 1 rfl rfl
      have hthird := hvalues 2 flag 5 rfl rfl
      have hfourth := hvalues 3 name 0 rfl rfl
      rw [FlatField.constant?, hcount] at hfirst
      rw [FlatField.constant?, hwide] at hsecond
      rw [FlatField.constant?, hflag] at hthird
      rw [FlatField.constant?, hname] at hfourth
      simp only [List.map_cons, List.map_nil, ← Option.some.inj hfirst, ← Option.some.inj hsecond,
        ← Option.some.inj hthird, ← Option.some.inj hfourth]
      rfl
  | [] | [_] | [_, _] | [_, _, _] | _ :: _ :: _ :: _ :: _ :: _ => simp [hfields] at hsources

theorem realizes_of_lowerConstants_preset :
    ∃ typed declared id after shape method,
      TypePasses.run presetImage (presetImage.registry {}) = .ok () typed ∧
      GlobalSlots.declareAll presetImage typed = .ok () declared ∧
      GlobalSlots.lowerConstants presetImage declared = .ok (some id) after ∧
      after.object? 0 = some shape ∧ after.target.method? id = some method ∧
      ∀ (host : Host String) (world : World String), ∃ last entry,
        host.Returns after.target (method.enter []) world [] last ∧
          last.globals 1 = Value.object (world.heap.length + 1) ∧
          last.heap[world.heap.length + 1]? = some entry ∧
          shape.fields.map (fun field => entry.fields field.field)
            = [.word 7, .long (-1), .word 1, .other (.host (host.bytes "a"))] ∧
          last.globals 0 = world.globals 0 := by
  obtain ⟨typed, declared, id, after, shape, htypes, hglobals, hconstants, hshape, hsources⟩ :=
    presetImage_lowers
  obtain ⟨hrealizes, -, -⟩ := GlobalSlots.realizes_of_lowerConstants htypes hglobals
  obtain ⟨-, method, hmethod, hreturns⟩ := hrealizes id after hconstants
  refine ⟨typed, declared, id, after, shape, method, htypes, hglobals, hconstants, hshape, hmethod, ?_⟩
  intro host world
  obtain ⟨last, hrun, hlast⟩ := hreturns host world
  obtain ⟨i, constant, hconstant, hsame, hlater, hvalue, type, found, entry, hentry, hdescribes⟩ :=
    hlast.named 1 (by decide)
  obtain rfl : i = 1 := by
    match i with
    | 0 => exact absurd rfl (hlater ⟨1, [0, 1, 5, 0]⟩ (by decide))
    | 1 => rfl
    | _ + 2 => cases hconstant
  obtain rfl := Option.some.inj hconstant
  obtain rfl := Option.some.inj hdescribes.global
  obtain rfl := Option.some.inj (hshape.symm.trans hdescribes.object)
  exact ⟨last, entry, hrun, hvalue, hentry, presetImage_described hsources hdescribes,
    hlast.others 0 (by decide)⟩

end BytecodeLowering

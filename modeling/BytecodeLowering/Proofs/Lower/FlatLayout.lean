import BytecodeLowering.Lower.Program
import BytecodeLowering.Proofs.Lower.ClassFields

/-!
# Flattened layouts

Instructions address the fields and the method slots of an object by numbers
that count the inherited ones first.  These numbers mean the same along the
whole line of a type: the layout of a super type begins the layouts of the types
that derive from it, whatever the order of the types in the table, and every
slot is kept in a delegate field of its own name and signature.
-/

namespace BytecodeLowering

/-! ## Layouts by declarations -/

/-- The fields that a type declares, each in the class of the type at its own
position and with the mapped type. -/
def Registry.placedFields (registry : Registry) (image : Image) (owner : TypeIndex) :
    Except LoweringError (List FlatField) := do
  let object ← ObjectLayout.sourceObject image owner
  let decl ← TypeMapping.declared registry owner
  object.fields.zipIdx.mapM fun (field, position) => do
    return {
      name := field.name, field := ⟨decl, position⟩
      type := ← registry.mapType image field.type, source := field.type }

/-- What a slot has in common with the slot that it replaces. -/
def MethodSlot.face (slot : MethodSlot) : String × FieldRef × Signature :=
  (slot.name, slot.field, slot.signature)

def Registry.placedSlot (registry : Registry) (image : Image)
    (planned : ObjectLayout.PlannedSlot) :
    Except LoweringError (List (String × FieldRef × Signature)) :=
  match planned.newSlot with
  | none => .ok []
  | some position => do
      let object ← ObjectLayout.sourceObject image planned.owner
      let decl ← TypeMapping.declared registry planned.owner
      let signature ← ObjectLayout.prototypeSignature image registry planned.prototype
      return [(planned.prototype.name, ⟨decl, object.fields.length + position⟩, signature)]

section Same

variable {image : Image} {before after : Registry} (h : after.decl? = before.decl?)

include h

theorem Registry.placedFields_same : after.placedFields image = before.placedFields image := by
  funext owner
  simp only [placedFields, TypeMapping.declared_same h, mapType_same h]

theorem Registry.placedSlot_same : after.placedSlot image = before.placedSlot image := by
  funext planned
  simp only [placedSlot, TypeMapping.declared_same h, ObjectLayout.prototypeSignature_same h]

end Same

/-! ## One layout -/

section Except

variable {ε α β : Type}

theorem mapM_of_mapM {items : List α} {step other : α → Except ε β} {results : List β}
    (h : items.mapM step = .ok results)
    (hother : ∀ item ∈ items, ∀ result, step item = .ok result → other item = .ok result) :
    items.mapM other = .ok results := by
  induction items generalizing results with
  | nil => exact h
  | cons item items ih =>
      obtain ⟨first, rest, hfirst, hrest, rfl⟩ := ok_of_mapM_cons h
      have hothers := ih hrest fun item hitem => hother item (List.mem_cons_of_mem _ hitem)
      rw [List.mapM_cons, hother item List.mem_cons_self first hfirst, hothers]
      rfl

theorem mapM_append_ok {first second : List α} {step : α → Except ε β} {results : List β}
    (h : (first ++ second).mapM step = .ok results) :
    ∃ upper lower, first.mapM step = .ok upper ∧ second.mapM step = .ok lower ∧
      results = upper ++ lower := by
  rw [List.mapM_append] at h
  obtain ⟨upper, hupper, h⟩ := ok_of_bind h
  obtain ⟨lower, hlower, h⟩ := ok_of_bind h
  cases h
  exact ⟨upper, lower, hupper, hlower, rfl⟩

theorem getElem?_of_mapM {items : List α} {step : α → Except ε β} {results : List β}
    (h : items.mapM step = .ok results) {i : Nat} {item : α} (hitem : items[i]? = some item) :
    ∃ result, results[i]? = some result ∧ step item = .ok result := by
  obtain ⟨hlength, hresults⟩ := ok_of_mapM h
  have hi := (List.getElem?_eq_some_iff.mp hitem).1
  have hresult : results[i]? = some (results[i]) := List.getElem?_eq_getElem (by omega)
  obtain ⟨found, hfound, hstep⟩ := hresults i _ hresult
  obtain rfl : item = found := Option.some.inj (hitem.symm.trans hfound)
  exact ⟨_, hresult, hstep⟩

end Except

namespace ObjectLayout

variable {image : Image} {registry : Registry} {owner : TypeIndex}

theorem sourceObject_eq {object : ObjectType} (h : image.object? owner = some object) :
    sourceObject image owner = .ok object := by
  unfold Image.object? at h
  unfold sourceObject
  rw [h]

theorem contribution_placed {object : ObjectType} {decl : TypeId} {own slots : List FieldDecl}
    {part : Contribution} (hobject : image.object? owner = some object)
    (hclass : registry.HasClass image owner object decl own slots)
    (h : contribution image registry owner = .ok part) :
    part.owner = owner ∧ part.decl = decl ∧ part.fields.length = object.fields.length ∧
      registry.placedFields image owner = .ok part.fields := by
  obtain ⟨found, hfound, h⟩ := ok_of_bind h
  obtain rfl : object = found := Option.some.inj (hobject.symm.trans (sourceObject_ok hfound))
  obtain ⟨⟨declaration, shape⟩, hdeclaration, h⟩ := ok_of_bind h
  have hmade := hclass.made
  rw [Registry.decl?, (requireObject_ok hdeclaration).1] at hmade
  obtain rfl : declaration.decl = decl := Option.some.inj hmade
  obtain ⟨fields, hfields, h⟩ := ok_of_bind h
  cases h
  have hlength := (ok_of_mapM hfields).1
  rw [List.length_zipIdx] at hlength
  refine ⟨rfl, rfl, hlength, ?_⟩
  rw [Registry.placedFields, hfound, TypeMapping.declared_eq_ok.mpr hclass.made]
  refine mapM_of_mapM hfields ?_
  rintro ⟨field, position⟩ hmem flat hflat
  -- the class has the mapped type of the field at the position of the field
  replace hmem : object.fields[position]? = some field := List.mem_zipIdx_iff_getElem?.mp hmem
  obtain ⟨declared, hdeclared, hstep⟩ := getElem?_of_mapM hclass.own_ok hmem
  obtain ⟨type, htype, hstep⟩ := ok_of_bind hstep
  cases hstep
  have hfield : (own ++ slots)[position]? = some ⟨field.name, type⟩ := by
    rw [List.getElem?_append_left (List.getElem?_eq_some_iff.mp hdeclared).1, hdeclared]
  simp only [hclass.fields, Option.getD_some, hfield] at hflat
  cases hflat
  simp only [htype]
  rfl

structure Placed (image : Image) (registry : Registry) (part : Contribution) : Prop where
  made : registry.decl? part.owner = some part.decl
  object : ∃ object, image.object? part.owner = some object ∧
    part.fields.length = object.fields.length

theorem addSlot_placed {parts : List Contribution}
    (hparts : ∀ part ∈ parts, Placed image registry part) {slots found : List MethodSlot}
    {planned : PlannedSlot} (h : addSlot image registry parts slots planned = .ok found) :
    ∃ new, registry.placedSlot image planned = .ok new ∧
      found.map (·.face) = slots.map (·.face) ++ new := by
  unfold addSlot at h
  unfold Registry.placedSlot
  cases hnew : planned.newSlot with
  | none =>
      simp only [hnew] at h
      cases h
      refine ⟨[], rfl, ?_⟩
      rw [List.append_nil]
      exact map_modify_same MethodSlot.face (by exact fun _ => rfl) _ _
  | some position =>
      simp only [hnew] at h
      cases hpart : parts.find? (·.owner == planned.owner) with
      | none =>
          simp only [hpart] at h
          cases h
      | some part =>
          simp only [hpart] at h
          obtain ⟨signature, hsignature, h⟩ := ok_of_bind h
          cases h
          have howner : part.owner = planned.owner := by simpa using List.find?_some hpart
          obtain ⟨hmade, object, hobject, hlength⟩ := hparts part (List.mem_of_find?_eq_some hpart)
          rw [howner] at hmade hobject
          refine ⟨_, ?_, List.map_append⟩
          simp only [sourceObject_eq hobject, TypeMapping.declared_eq_ok.mpr hmade, hsignature,
            hlength, bind, Except.bind]
          rfl

theorem addSlots_placed {parts : List Contribution}
    (hparts : ∀ part ∈ parts, Placed image registry part) {slots found : List MethodSlot}
    {planned : List PlannedSlot}
    (h : planned.foldlM (addSlot image registry parts) slots = .ok found) :
    ∃ new, planned.mapM (registry.placedSlot image) = .ok new ∧
      found.map (·.face) = slots.map (·.face) ++ new.flatten := by
  induction planned generalizing slots with
  | nil =>
      cases h
      exact ⟨[], rfl, by simp⟩
  | cons first planned ih =>
      rw [List.foldlM_cons] at h
      obtain ⟨middle, hmiddle, h⟩ := ok_of_bind h
      obtain ⟨new, hnew, hfirst⟩ := addSlot_placed hparts hmiddle
      obtain ⟨others, hothers, hrest⟩ := ih h
      refine ⟨new :: others, ?_, ?_⟩
      · rw [List.mapM_cons, hnew, hothers]
        rfl
      · rw [hrest, hfirst, List.flatten_cons, List.append_assoc]

end ObjectLayout

/-- The layout of an object type as its line declares it. -/
structure Flattened (image : Image) (registry : Registry) (index : TypeIndex)
    (chain : List TypeIndex) (planned : List ObjectLayout.PlannedSlot) (shape : ObjectShape)
    (parts : List (List FlatField)) (new : List (List (String × FieldRef × Signature))) :
    Prop where
  line : image.Lineage index chain
  plan : ObjectLayout.planSlots image chain = .ok planned
  object : registry.object? index = some shape
  parts_ok : chain.mapM (registry.placedFields image) = .ok parts
  fields : shape.fields = parts.flatten
  new_ok : planned.mapM (registry.placedSlot image) = .ok new
  slots : shape.slots.map (·.face) = new.flatten

def AllClassed (image : Image) (registry : Registry) : Prop :=
  ∀ index object, image.object? index = some object →
    ∃ decl own slots, registry.HasClass image index object decl own slots

section Flattening

variable {image : Image} {index : TypeIndex} {before after : Registry}

theorem AllClassed.keep (h : AllClassed image before) (hdecls : after.decl? = before.decl?)
    (htypes : after.target.types = before.target.types) : AllClassed image after := by
  intro other object hobject
  obtain ⟨decl, own, slots, hclass⟩ := h other object hobject
  refine ⟨decl, own, slots, hclass.keep hdecls ?_⟩
  rw [TargetModule.type?, htypes]
  rfl

theorem Flattened.keep {chain : List TypeIndex} {planned : List ObjectLayout.PlannedSlot}
    {shape : ObjectShape} {parts : List (List FlatField)}
    {new : List (List (String × FieldRef × Signature))}
    (h : Flattened image before index chain planned shape parts new)
    (hdecls : after.decl? = before.decl?)
    (hobject : after.declaration? index = before.declaration? index) :
    Flattened image after index chain planned shape parts new where
  line := h.line
  plan := h.plan
  object := by
    rw [Registry.object?, hobject]
    exact h.object
  parts_ok := by rw [Registry.placedFields_same hdecls, h.parts_ok]
  fields := h.fields
  new_ok := by rw [Registry.placedSlot_same hdecls, h.new_ok]
  slots := h.slots

theorem ObjectLayout.parts_placed {registry : Registry} (hclasses : AllClassed image registry)
    {chain : List TypeIndex} {parts : List Contribution}
    (h : chain.mapM (contribution image registry) = .ok parts) :
    chain.mapM (registry.placedFields image) = .ok (parts.map (·.fields)) ∧
      ∀ part ∈ parts, Placed image registry part := by
  induction chain generalizing parts with
  | nil =>
      cases h
      exact ⟨rfl, nofun⟩
  | cons owner chain ih =>
      obtain ⟨part, rest, hpart, hrest, rfl⟩ := ok_of_mapM_cons h
      obtain ⟨hplaced, hothers⟩ := ih hrest
      obtain ⟨object, hobject, -⟩ := ok_of_bind hpart
      replace hobject := sourceObject_ok hobject
      obtain ⟨decl, own, slots, hclass⟩ := hclasses owner object hobject
      obtain ⟨rfl, rfl, hlength, hfields⟩ := contribution_placed hobject hclass hpart
      refine ⟨?_, List.forall_mem_cons.mpr ⟨⟨hclass.made, object, hobject, hlength⟩, hothers⟩⟩
      rw [List.mapM_cons, hfields, hplaced]
      rfl

theorem ObjectLayout.compile_flattened {object : ObjectType} {result : Unit}
    (hclasses : AllClassed image before)
    (h : compile image index object before = .ok result after) :
    ∃ chain planned shape parts new,
      Flattened image after index chain planned shape parts new := by
  obtain ⟨old, shape, laid, hshape, hlayout, -, hchanges⟩ := compile_ok h
  obtain ⟨chain, parts, planned, _, _, _, hlaid⟩ := layout_ok hlayout
  have hstage := before.decl?_update_stage index .compiled
  have hdecls : after.decl? = _ := hchanges.decl?.trans hstage.symm
  obtain ⟨hparts, hplaced⟩ := parts_placed (hclasses.keep hstage rfl) hlaid.parts_ok
  obtain ⟨new, hnew, hslots⟩ := addSlots_placed hplaced hlaid.slots_ok
  have hobject : after.object? index
      = some { shape with fields := laid.fields, slots := laid.slots } := by
    simp only [Registry.object?, hchanges.changed]
  refine ⟨chain, planned, _, parts.map (·.fields), new, superChain_ok hlaid.chain_ok,
    hlaid.planned_ok, hobject, ?_, ?_, ?_, hslots⟩
  · rw [Registry.placedFields_same hdecls, hparts]
  · rw [← List.flatMap_def, ← hlaid.fields_eq]
  · rw [Registry.placedSlot_same hdecls, hnew]

/-! ## The last pass -/

structure Flattening (image : Image) (count : Nat) (registry : Registry) : Prop where
  classes : AllClassed image registry
  flattened : ∀ index < count, ∀ object, image.object? index = some object →
    ∃ chain planned shape parts new, Flattened image registry index chain planned shape parts new

theorem TypePasses.compileType_flattening {source : SourceType}
    (hsource : image.types[index]? = some source) {result : Unit}
    (hbefore : Flattening image index before)
    (h : compileType image (source, index) before = .ok result after) :
    Flattening image (index + 1) after := by
  obtain ⟨hdecls, htypes, hothers⟩ : after.decl? = before.decl? ∧
      after.target.types = before.target.types ∧
      ∀ other < index, after.declaration? other = before.declaration? other := by
    rcases compileType_ok h with rfl | ⟨old, new, hrecodes, hchanges, -⟩
    · exact ⟨rfl, rfl, fun _ _ => rfl⟩
    · exact ⟨hchanges.decl?, hrecodes.classes,
        fun other hother => hchanges.others other (Nat.ne_of_lt hother)⟩
  refine ⟨hbefore.classes.keep hdecls htypes, ?_⟩
  intro other hother object hobject
  rcases Nat.lt_succ_iff_lt_or_eq.mp hother with hearlier | rfl
  · obtain ⟨chain, planned, shape, parts, new, hflat⟩ :=
      hbefore.flattened other hearlier object hobject
    exact ⟨chain, planned, shape, parts, new, hflat.keep hdecls (hothers other hearlier)⟩
  · rcases Image.source_of_object hsource hobject with rfl | rfl
    · exact ObjectLayout.compile_flattened hbefore.classes h
    · exact ObjectLayout.compile_flattened hbefore.classes h

theorem TypePasses.run_flattening {result : Unit} (hbefore : before.Linked)
    (h : run image before = .ok result after) : Flattening image image.types.length after := by
  obtain ⟨resolved, defined, hresolve, hdefine, hcompile⟩ := run_ok h
  have hdefined := defineAll_classed (resolveAll_linked hbefore hresolve) hdefine
  have hclasses : AllClassed image defined := fun index object hobject =>
    hdefined.classes index (Image.lt_of_object hobject) object hobject
  refine pass_positions (Flattening image) hcompile ?_ ?_ ⟨hclasses, nofun⟩
  · exact fun registry hold => ⟨hold.classes.keep rfl rfl, nofun⟩
  · exact fun index source hsource _ _ _ hbefore hstep =>
      compileType_flattening hsource hbefore hstep

end Flattening

/-! ## Positions of new slots -/

namespace ObjectLayout

theorem planOwner_position {owner : TypeIndex} {filled introduced stop : Nat}
    {prototypes : List Prototype} {planned : List PlannedSlot}
    (h : planOwner owner filled introduced prototypes = .ok (planned, stop))
    {method : PlannedSlot} (hmethod : method ∈ planned) {position : Nat}
    (hnew : method.newSlot = some position) :
    introduced ≤ position ∧
      (planned.filter (·.newSlot.isSome))[position - introduced]? = some method := by
  fun_induction planOwner owner filled introduced prototypes generalizing planned stop with
  | case1 filled introduced =>
      cases h
      cases hmethod
  | case2 filled introduced prototype prototypes hnone ih => exact ih h hmethod
  | case3 filled introduced prototype prototypes slot hsome hlow ih =>
      obtain ⟨⟨others, last⟩, hothers, h⟩ := ok_of_bind h
      cases h
      rcases List.mem_cons.mp hmethod with rfl | hmethod
      · cases hnew
      · simpa using ih hothers hmethod
  | case4 introduced prototype prototypes slot hsome hlow ih =>
      obtain ⟨⟨others, last⟩, hothers, h⟩ := ok_of_bind h
      cases h
      rcases List.mem_cons.mp hmethod with rfl | hmethod
      · cases hnew
        simp
      · obtain ⟨hle, hplace⟩ := ih hothers hmethod
        have hnext : position - introduced = position - (introduced + 1) + 1 := by omega
        refine ⟨by omega, ?_⟩
        rw [hnext]
        simpa using hplace
  | case5 => cases h

theorem planFrom_position {image : Image} {filled : Nat} {chain : List TypeIndex}
    (hchain : chain.Nodup) {planned : List PlannedSlot}
    (h : planFrom image filled chain = .ok planned) {method : PlannedSlot}
    (hmethod : method ∈ planned) {position : Nat} (hnew : method.newSlot = some position) :
    (planned.filter fun other => other.owner = method.owner && other.newSlot.isSome)[position]?
      = some method := by
  induction chain generalizing filled planned with
  | nil =>
      cases h
      cases hmethod
  | cons owner chain ih =>
      obtain ⟨object, -, h⟩ := ok_of_bind h
      obtain ⟨⟨own, next⟩, hown, h⟩ := ok_of_bind h
      obtain ⟨others, hothers, h⟩ := ok_of_bind h
      cases h
      obtain ⟨howner, hchain⟩ := List.nodup_cons.mp hchain
      have howned := (planOwner_ok hown).owned
      rw [List.filter_append]
      rcases List.mem_append.mp hmethod with hmine | hother
      · have hall : (own.filter fun other => other.owner = method.owner && other.newSlot.isSome)
            = own.filter (·.newSlot.isSome) := by
          refine List.filter_congr fun other hother => ?_
          simp [howned other hother, howned method hmine]
        have hplace := (planOwner_position hown hmine hnew).2
        rw [Nat.sub_zero] at hplace
        rw [hall, List.getElem?_append_left (List.getElem?_eq_some_iff.mp hplace).1, hplace]
      · have hnone : (own.filter fun other => other.owner = method.owner && other.newSlot.isSome)
            = [] := by
          refine List.filter_eq_nil_iff.mpr fun other hmine hsame => howner ?_
          have hsame : other.owner = method.owner := by simp_all
          rw [← howned other hmine, hsame]
          exact (planFrom_ok hothers).owned method hother
        rw [hnone, List.nil_append]
        exact ih hchain hothers hother

end ObjectLayout

/-! ## Whole lines -/

def Image.fieldCount (image : Image) (index : TypeIndex) : Nat :=
  ((image.object? index).map (·.fields.length)).getD 0

section Lines

open ObjectLayout

variable {image : Image} {registry : Registry} {index : TypeIndex} {chain : List TypeIndex}
  {planned : List PlannedSlot} {shape : ObjectShape} {parts : List (List FlatField)}
  {new : List (List (String × FieldRef × Signature))}

theorem Registry.length_placedFields (h : chain.mapM (registry.placedFields image) = .ok parts) :
    parts.flatten.length = (chain.map image.fieldCount).foldr (· + ·) 0 := by
  induction chain generalizing parts with
  | nil =>
      cases h
      rfl
  | cons owner chain ih =>
      obtain ⟨first, rest, hfirst, hrest, rfl⟩ := ok_of_mapM_cons h
      obtain ⟨object, hobject, hfirst⟩ := ok_of_bind hfirst
      obtain ⟨decl, -, hfirst⟩ := ok_of_bind hfirst
      have hlength := (ok_of_mapM hfirst).1
      rw [List.length_zipIdx] at hlength
      simp [ih hrest, hlength, Image.fieldCount, sourceObject_ok hobject]

theorem Flattened.begins {parent : TypeIndex} {upper : List TypeIndex}
    {planned' : List PlannedSlot} {shape' : ObjectShape} {parts' : List (List FlatField)}
    {new' : List (List (String × FieldRef × Signature))}
    (h : Flattened image registry index chain planned shape parts new)
    (hparent : Flattened image registry parent upper planned' shape' parts' new')
    (hupper : upper <+: chain) :
    shape'.fields <+: shape.fields ∧ shape'.slots.map (·.face) <+: shape.slots.map (·.face) := by
  obtain ⟨lower, rfl⟩ := hupper
  constructor
  · obtain ⟨above, below, habove, -, rfl⟩ := mapM_append_ok h.parts_ok
    obtain rfl : parts' = above := Except.ok.inj (hparent.parts_ok.symm.trans habove)
    rw [h.fields, hparent.fields, List.flatten_append]
    exact List.prefix_append _ _
  · obtain ⟨first, _, rest, hfirst, -, -, rfl⟩ := planFrom_append h.plan
    obtain rfl : planned' = first := Except.ok.inj (hparent.plan.symm.trans hfirst)
    obtain ⟨above, below, habove, -, rfl⟩ := mapM_append_ok h.new_ok
    obtain rfl : new' = above := Except.ok.inj (hparent.new_ok.symm.trans habove)
    rw [h.slots, hparent.slots, List.flatten_append]
    exact List.prefix_append _ _

theorem Flattened.introduced (h : Flattened image registry index chain planned shape parts new)
    {method : PlannedSlot} (hmethod : method ∈ planned) {upper : List TypeIndex}
    {above : List PlannedSlot} (hupper : image.Lineage method.owner upper)
    (habove : planSlots image upper = .ok above) : method ∈ above := by
  have howner := (planFrom_ok h.plan).owned method hmethod
  obtain ⟨found, hfound, lower, rfl⟩ := h.line.above howner
  obtain rfl : upper = found := hupper.unique hfound
  obtain ⟨first, _, rest, hfirst, -, hrest, rfl⟩ := planFrom_append h.plan
  obtain rfl : above = first := Except.ok.inj (habove.symm.trans hfirst)
  refine (List.mem_append.mp hmethod).resolve_right fun hlower => ?_
  have hself : method.owner ∈ upper := by
    cases hupper with
    | root => simp
    | derived => simp
  exact (List.nodup_append.mp h.line.nodup).2.2 _ hself _
    ((planFrom_ok hrest).owned method hlower) rfl

theorem Flattened.delegate (h : Flattened image registry index chain planned shape parts new)
    (hclasses : AllClassed image registry) {slot : MethodSlot} (hslot : slot ∈ shape.slots) :
    registry.target.field? slot.field
      = some ⟨"$" ++ slot.name, .ofSignature slot.signature⟩ := by
  have hface : slot.face ∈ new.flatten := by
    rw [← h.slots]
    exact List.mem_map_of_mem hslot
  obtain ⟨faces, hfaces, hmem⟩ := List.mem_flatten.mp hface
  obtain ⟨method, hmethod, hplaced⟩ := mem_of_mapM h.new_ok hfaces
  unfold Registry.placedSlot at hplaced
  cases hnew : method.newSlot with
  | none =>
      simp only [hnew] at hplaced
      cases hplaced
      cases hmem
  | some position =>
      simp only [hnew] at hplaced
      obtain ⟨object, hobject, hplaced⟩ := ok_of_bind hplaced
      obtain ⟨decl, hdecl, hplaced⟩ := ok_of_bind hplaced
      obtain ⟨signature, hsignature, hplaced⟩ := ok_of_bind hplaced
      cases hplaced
      replace hobject := sourceObject_ok hobject
      obtain ⟨hname, hfield, hsame⟩ : slot.name = method.prototype.name ∧
          slot.field = ⟨decl, object.fields.length + position⟩ ∧ slot.signature = signature := by
        simpa [MethodSlot.face] using hmem
      -- the class of the owner has the delegate at the position of the slot
      obtain ⟨found, own, slots, hclass⟩ := hclasses method.owner object hobject
      obtain rfl : found = decl := by
        rw [TypeMapping.declared_eq_ok, hclass.made] at hdecl
        exact Option.some.inj hdecl
      obtain ⟨upper, hupper, hslots⟩ := ok_of_bind hclass.slots_ok
      obtain ⟨above, habove, hslots⟩ := ok_of_bind hslots
      replace hupper := superChain_ok hupper
      have hplace := planFrom_position hupper.nodup habove
        (h.introduced hmethod hupper habove) hnew
      obtain ⟨declared, hdeclared, hstep⟩ := getElem?_of_mapM hslots hplace
      rw [hsignature] at hstep
      cases hstep
      have hcount : own.length = object.fields.length := (ok_of_mapM hclass.own_ok).1
      obtain ⟨type, htype, hfields⟩ := Option.map_eq_some_iff.mp hclass.fields
      rw [TargetModule.field?, hfield, htype, Option.bind_some, hfields, ← hcount,
        List.getElem?_append_right (Nat.le_add_right _ _), Nat.add_sub_cancel_left, hdeclared,
        hname, hsame]

end Lines

/-- The layout of a type with the line `chain`. -/
structure FlatLayout (image : Image) (registry : Registry) (chain : List TypeIndex)
    (shape : ObjectShape) : Prop where
  /-- The fields are those that the types of the line declare, base-most first. -/
  fields : ∃ parts, chain.mapM (registry.placedFields image) = .ok parts ∧
    shape.fields = parts.flatten
  length : shape.fields.length = (chain.map image.fieldCount).foldr (· + ·) 0
  /-- The layout of each super type begins the layout; only the functions that
  are bound to the slots may differ. -/
  begins : ∀ parent ∈ chain, ∃ above, registry.object? parent = some above ∧
    above.fields <+: shape.fields ∧ above.slots.map (·.face) <+: shape.slots.map (·.face)
  delegates : ∀ slot ∈ shape.slots, registry.target.field? slot.field
    = some ⟨"$" ++ slot.name, .ofSignature slot.signature⟩

theorem TypePasses.flatLayout_of_run {image : Image} {settings : Settings} {registry : Registry}
    (h : run image (image.registry settings) = .ok () registry) {index : TypeIndex}
    {object : ObjectType} (hobject : image.object? index = some object) :
    ∃ chain shape, image.Lineage index chain ∧ registry.object? index = some shape ∧
      FlatLayout image registry chain shape := by
  have hall := run_flattening (Registry.create_linked _ _ _) h
  have hlayout {index : TypeIndex} {object : ObjectType}
      (hobject : image.object? index = some object) :=
    hall.flattened index (Image.lt_of_object hobject) object hobject
  obtain ⟨chain, planned, shape, parts, new, hflat⟩ := hlayout hobject
  refine ⟨chain, shape, hflat.line, hflat.object, ⟨parts, hflat.parts_ok, hflat.fields⟩, ?_, ?_,
    fun slot hslot => hflat.delegate hall.classes hslot⟩
  · rw [hflat.fields, Registry.length_placedFields hflat.parts_ok]
  · intro parent hparent
    obtain ⟨upper, hline, hupper⟩ := hflat.line.above hparent
    obtain ⟨source, hsource⟩ := hline.object
    obtain ⟨found, _, above, _, _, habove⟩ := hlayout hsource
    obtain rfl : upper = found := hline.unique habove.line
    exact ⟨above, habove.object, hflat.begins habove hupper⟩

def layeredImage : Image where
  version := 4
  types := [
    .obj ⟨"Leaf", some 3, none, [⟨"l", 4⟩], [⟨"f", 1, 0⟩, ⟨"k", 2, -1⟩, ⟨"h", 2, 2⟩], []⟩,
    .func ⟨[2], 4⟩,
    .obj ⟨"Base", none, none, [⟨"x", 4⟩, ⟨"next", 5⟩], [⟨"f", 0, 0⟩], []⟩,
    .struct ⟨"Middle", some 2, none, [⟨"m", 1⟩], [⟨"g", 0, 1⟩], []⟩,
    .i32,
    .null 0]
  functions := (List.range 3).map fun index =>
    { index, type := 1, registers := [], operations := [], lines := none, names := [] }
  functionTable := FunctionTable.build [0, 1, 2] []

theorem flatLayout_of_run_layered :
    ∃ registry chain shape,
      TypePasses.run layeredImage (layeredImage.registry {}) = .ok () registry ∧
      (layeredImage.object? 0).isSome ∧ layeredImage.Lineage 0 chain ∧
      registry.object? 0 = some shape ∧ shape.fields.length = 4 ∧ shape.slots.length = 3 ∧
      FlatLayout layeredImage registry chain shape := by
  have hok : (match TypePasses.run layeredImage (layeredImage.registry {}) with
      | .ok _ registry => (registry.object? 0).any fun shape =>
          shape.fields.length = 4 ∧ shape.slots.length = 3
      | .error _ _ => false) = true := by
    decide +kernel
  cases hrun : TypePasses.run layeredImage (layeredImage.registry {}) with
  | error error registry =>
      rw [hrun] at hok
      cases hok
  | ok result registry =>
      rw [hrun] at hok
      obtain ⟨chain, shape, hline, hshape, hlayout⟩ :=
        TypePasses.flatLayout_of_run hrun (show layeredImage.object? 0 = some _ from rfl)
      dsimp only at hok
      rw [hshape, Option.any_some, decide_eq_true_eq] at hok
      exact ⟨registry, chain, shape, rfl, rfl, hline, hshape, hok.1, hok.2, hlayout⟩

end BytecodeLowering

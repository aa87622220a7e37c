import BytecodeLowering.Lower.EnumLayout
import BytecodeLowering.Lower.ObjectLayout
import BytecodeLowering.Lower.VirtualLayout

/-!
# Passes over the type table

Every declared type gets its identity before any type gets its structure, and
every type its structure before any layout is flattened, so references in any
direction are safe.
-/

namespace BytecodeLowering.TypePasses

def resolveType : SourceType × TypeIndex → Lowering Unit
  | (.obj object, index) | (.struct object, index) => ObjectLayout.resolve index object
  | (.enum variants, index) => EnumLayout.resolve index variants
  | (.virtual _, index) => VirtualLayout.resolve index
  | (.abstract name, index) => AbstractLayout.resolve index name
  | _ => return ()

def defineType (image : Image) : SourceType × TypeIndex → Lowering Unit
  | (.obj object, index) | (.struct object, index) => ObjectLayout.define image index object
  | (.enum variants, index) => EnumLayout.define image index variants
  | (.virtual fields, index) => VirtualLayout.define image index fields
  | (.abstract _, index) => Registry.advance index .defined
  | _ => return ()

def compileType (image : Image) : SourceType × TypeIndex → Lowering Unit
  | (.obj object, index) | (.struct object, index) => ObjectLayout.compile image index object
  | (.enum _, index) => EnumLayout.compile index
  | (.virtual _, index) => VirtualLayout.compile index
  | (.abstract _, index) => Registry.advance index .compiled
  | _ => return ()

def resolveAll (image : Image) : Lowering Unit := do
  Registry.enterPass .resolved
  image.types.zipIdx.forM resolveType

def defineAll (image : Image) : Lowering Unit := do
  Registry.enterPass .defined
  image.types.zipIdx.forM (defineType image)

def compileAll (image : Image) : Lowering Unit := do
  Registry.enterPass .compiled
  image.types.zipIdx.forM (compileType image)

def run (image : Image) : Lowering Unit := do
  resolveAll image
  defineAll image
  compileAll image

end BytecodeLowering.TypePasses

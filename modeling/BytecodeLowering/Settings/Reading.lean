import BytecodeLowering.Settings.Basic
import BytecodeLowering.Toml.Document

/-!
# Reading settings

Settings from the text of a TOML document.  Keys that are missing keep their
defaults and keys that mean nothing here are passed over, but a document that
is not well formed, or a known key with a value of the wrong kind, gives no
settings at all.
-/

namespace BytecodeLowering

open Toml (Entries)

namespace Settings

def safeCastChoices : List (String × SafeCastPolicy) :=
  [("checked", .checked), ("unchecked", .unchecked)]

def gapPolicyChoices : List (String × GapPolicy) :=
  [("strict", .strict), ("best-effort", .bestEffort)]

def isHollow : Toml.Value → Bool
  | .table _ entries => entries.isEmpty
  | .array items => items.isEmpty
  | _ => false

/-- A choice is named by a text, or by the only key of a table, under which
nothing stands. -/
def choice? (choices : List (String × α)) : Toml.Value → Option α
  | .text name => choices.lookup name
  | .table _ [(name, content)] => if isHollow content then choices.lookup name else none
  | _ => none

def text? : Toml.Value → Option String
  | .text content => some content
  | _ => none

def boolean? : Toml.Value → Option Bool
  | .boolean value => some value
  | _ => none

def readKey (entries : Entries) (key : String) (read : Toml.Value → Option α) (default : α) :
    Option α :=
  match entries.lookup key with
  | none => some default
  | some value => read value

def ofEntries? (entries : Entries) : Option Settings := do
  return {
    assemblyName := ← readKey entries "assembly_name" (fun value => some <$> text? value) none
    safeCast := ← readKey entries "safe_cast" (choice? safeCastChoices) .checked
    gapPolicy := ← readKey entries "translation" (choice? gapPolicyChoices) .strict
    emitSequencePoints := ← readKey entries "emit_sequence_points" boolean? true }

def ofToml? (text : String) : Option Settings := do
  ofEntries? (← Entries.ofText? text)

end Settings

end BytecodeLowering

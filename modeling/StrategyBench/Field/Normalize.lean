/-
StrategyBench.Field.Normalize — from a loose declaration to a field.

A declaration is any JSON value. Members have aliases, of which the first that is not null counts;
what cannot be used falls back. Only a declaration without a usable key is refused.
-/

import StrategyBench.Field.Encoding
import StrategyBench.Json.Write
import StrategyBench.Text.Blank

namespace StrategyBench

namespace Declaration

open Text (trim)

/-- The first of some members that is there and not null. -/
def firstPresent (raw : Json) : List String → Option Json
  | [] => none
  | name :: names =>
    match raw.get? name with
    | some .null | none => firstPresent raw names
    | some v => some v

/-- A key may be a text, a number or a truth value. -/
def scalarText : Json → Option String
  | .str s => some s
  | .int i => some (Json.int i).compact
  | .float x => some (Json.float x).compact
  | .bool b => some (Json.bool b).compact
  | _ => none

/-- What a value shows: a text itself, any other value its JSON text, null nothing. -/
def displayText : Json → Option String
  | .null => none
  | .str s => some s
  | v => some v.compact

def nonEmpty (s : String) : Option String := if s.isEmpty then none else some s

def trimmedText (j : Option Json) : Option String := do
  nonEmpty (trim (← (← j).str?))

/-- One entry of a list of options; an entry without anything to show is left out. -/
def choice? (entry : Json) : Option Choice :=
  match entry with
  | .null => none
  | .obj _ => do
    let value := firstPresent entry ["value", "key"]
    let label ← ((entry.get? "label").bind displayText).or (value.bind displayText)
    some ⟨label, value.getD (.str label)⟩
  | v => (displayText v).map (⟨·, v⟩)

def choices (entries : List Json) : List Choice := entries.filterMap choice?

def nonEmptyList {α : Type} : List α → Option (List α)
  | [] => none
  | xs => some xs

/-- The key of a declaration, trimmed; empty where none can be used. -/
def key (raw : Json) : String :=
  trim (((firstPresent raw ["key", "id"]).bind scalarText).getD "")

def label (raw : Json) : String :=
  (((raw.get? "label").bind displayText).bind fun s => nonEmpty (trim s)).getD (key raw)

def kind (raw : Json) (defaultKind : String) : String :=
  (trimmedText (raw.get? "type")).getD defaultKind

/-- The component named, or else that of the kind, or else that of the default kind. -/
def component (raw : Json) (defaultKind : String) : String :=
  (trimmedText (raw.get? "component")).getD <|
    ((componentFor? (kind raw defaultKind)).or (componentFor? defaultKind)).getD fallbackComponent

/-- The field that a declaration describes; `none` if it has no key. -/
def normalize? (raw : Json) (category : Category) (defaultKind : String) : Option Field :=
  if (key raw).isEmpty then none
  else some {
    key := key raw
    label := label raw
    description := (firstPresent raw ["desc", "description"]).bind Json.str?
    kind := kind raw defaultKind
    component := component raw defaultKind
    defaultValue := firstPresent raw ["defaultValue", "default"]
    required := ((raw.get? "required").bind Json.bool?).getD category.requiredByDefault
    choices := do
      nonEmptyList (choices (← (← firstPresent raw ["enumOptions", "options", "choices"]).arr?))
    validator := firstPresent raw ["validator"]
    uiProps := firstPresent raw ["uiProps"] }

end Declaration
end StrategyBench

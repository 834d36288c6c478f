/-
StrategyBench.Field.Encoding — fields and schemas as JSON.

Absent members are left out when writing; when reading, an absent member and `null` are the same.
A structure may also be read from the array of its members in order, where only members that may be
absent can be missing at the end.
-/

import StrategyBench.Field.Basic

namespace StrategyBench

/-! ## Writing -/

def member (name : String) (value : Json) : List (String × Json) := [(name, value)]

def optionalMember (name : String) : Option Json → List (String × Json)
  | some v => [(name, v)]
  | none => []

def Choice.toJson (c : Choice) : Json := .obj [("label", .str c.label), ("value", c.value)]

def Field.toJson (f : Field) : Json :=
  .obj <|
    member "key" (.str f.key) ++ member "label" (.str f.label) ++
    optionalMember "description" (f.description.map .str) ++
    member "type" (.str f.kind) ++ member "component" (.str f.component) ++
    optionalMember "defaultValue" f.defaultValue ++
    member "required" (.bool f.required) ++
    optionalMember "enumOptions" (f.choices.map fun cs => .arr (cs.map Choice.toJson)) ++
    optionalMember "validator" f.validator ++
    optionalMember "uiProps" f.uiProps

def Schema.toJson (s : Schema) : Json :=
  .obj [("parameters", .arr (s.parameters.map Field.toJson)),
        ("factors", .arr (s.factors.map Field.toJson))]

/-! ## Reading -/

def Json.str? : Json → Option String
  | .str s => some s
  | _ => none

def Json.bool? : Json → Option Bool
  | .bool b => some b
  | _ => none

def Json.arr? : Json → Option (List Json)
  | .arr xs => some xs
  | _ => none

/-- What stands for "absent": no member, or `null`. -/
def Json.present? : Option Json → Option Json
  | some .null => none
  | other => other

/-- Reads an optional member: absent, or of the right shape. -/
def readOptional {α : Type} (read : Json → Option α) (j : Option Json) : Option (Option α) :=
  match Json.present? j with
  | none => some none
  | some v => (read v).map some

/-- A list each of whose elements can be read. -/
def readAll {α : Type} (read : Json → Option α) : List Json → Option (List α)
  | [] => some []
  | j :: js => do some ((← read j) :: (← readAll read js))

def readList {α : Type} (read : Json → Option α) (j : Json) : Option (List α) := do
  readAll read (← j.arr?)

/-- The members of a structure, by name from an object or by place from an array; the array must
hold the first `mandatory` and no more than all. -/
def membersOf? (names : List String) (mandatory : Nat) : Json → Option (List (Option Json))
  | .obj ms => some (names.map (List.lookup · ms))
  | .arr xs =>
    if mandatory ≤ xs.length ∧ xs.length ≤ names.length then
      some (xs.map some ++ List.replicate (names.length - xs.length) none)
    else none
  | _ => none

def Choice.ofJson? (j : Json) : Option Choice := do
  match ← membersOf? ["label", "value"] 2 j with
  | [some label, some value] => some ⟨← label.str?, value⟩
  | _ => none

def Field.memberNames : List String :=
  ["key", "label", "description", "type", "component", "defaultValue", "required", "enumOptions",
   "validator", "uiProps"]

def Field.ofJson? (j : Json) : Option Field := do
  match ← membersOf? Field.memberNames 7 j with
  | [some key, some label, description, some kind, some component, defaultValue, some required,
     choices, validator, uiProps] =>
    some {
      key := ← key.str?
      label := ← label.str?
      description := ← readOptional Json.str? description
      kind := ← kind.str?
      component := ← component.str?
      defaultValue := Json.present? defaultValue
      required := ← required.bool?
      choices := ← readOptional (readList Choice.ofJson?) choices
      validator := Json.present? validator
      uiProps := Json.present? uiProps }
  | _ => none

def Schema.ofJson? (j : Json) : Option Schema := do
  match ← membersOf? ["parameters", "factors"] 2 j with
  | [some parameters, some factors] =>
    some ⟨← readList Field.ofJson? parameters, ← readList Field.ofJson? factors⟩
  | _ => none

end StrategyBench

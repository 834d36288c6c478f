/-
StrategyBench.Field.Basic — declared fields (parameters and factors) and the schema they form.
-/

import StrategyBench.Json.Basic

namespace StrategyBench

/-! ## Categories -/

inductive Category
  | parameter
  | factor
  deriving DecidableEq, Repr

/-- The plural under which a category appears in schemas and messages. -/
def Category.plural : Category → String
  | .parameter => "parameters"
  | .factor => "factors"

/-- A parameter is required unless it says otherwise, a factor is not. -/
def Category.requiredByDefault : Category → Bool
  | .parameter => true
  | .factor => false

def Category.ofName? : String → Option Category
  | "parameter" => some .parameter
  | "factor" => some .factor
  | _ => none

/-! ## Fields -/

/-- One choice of an enumerated field. -/
structure Choice where
  label : String
  value : Json
  deriving Inhabited, Repr

structure Field where
  key : String
  label : String
  description : Option String := none
  kind : String
  component : String
  defaultValue : Option Json := none
  required : Bool
  choices : Option (List Choice) := none
  validator : Option Json := none
  uiProps : Option Json := none
  deriving Inhabited, Repr

/-- The component that shows a field of a kind; other kinds have none of their own. -/
def componentFor? : String → Option String
  | "string" => some "input"
  | "number" => some "number"
  | "boolean" => some "switch"
  | "enum" => some "select"
  | _ => none

def fallbackComponent : String := "input"

def sameOption {α : Type} (same : α → α → Bool) : Option α → Option α → Bool
  | none, none => true
  | some a, some b => same a b
  | _, _ => false

def sameList {α : Type} (same : α → α → Bool) : List α → List α → Bool
  | [], [] => true
  | a :: as, b :: bs => same a b && sameList same as bs
  | _, _ => false

def Choice.same (a b : Choice) : Bool := a.label == b.label && a.value.same b.value

/-- Equality of fields; payloads are equal as JSON values. -/
def Field.same (a b : Field) : Bool :=
  a.key == b.key && a.label == b.label && a.description == b.description && a.kind == b.kind &&
  a.component == b.component && sameOption Json.same a.defaultValue b.defaultValue &&
  a.required == b.required && sameOption (sameList Choice.same) a.choices b.choices &&
  sameOption Json.same a.validator b.validator && sameOption Json.same a.uiProps b.uiProps

/-! ## Schemas -/

/-- What one run of a script declares. -/
structure Schema where
  parameters : List Field := []
  factors : List Field := []
  deriving Inhabited, Repr

def Schema.fields (s : Schema) : Category → List Field
  | .parameter => s.parameters
  | .factor => s.factors

/-- The first key that occurs earlier in the list too; `seen` holds the keys passed. -/
def firstRepeat? (seen : List String) : List String → Option String
  | [] => none
  | k :: rest => if seen.contains k then some k else firstRepeat? (k :: seen) rest

/-- A key that stands twice in one of the lists, parameters first. -/
def Schema.repeatedKey? (s : Schema) : Option (Category × String) :=
  match firstRepeat? [] (s.parameters.map Field.key) with
  | some k => some (.parameter, k)
  | none => (firstRepeat? [] (s.factors.map Field.key)).map (Category.factor, ·)

end StrategyBench

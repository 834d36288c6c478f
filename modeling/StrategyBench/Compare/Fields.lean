/-
StrategyBench.Compare.Fields — the difference of two lists of fields, by key.

A list stands for the map from each key to its last field. What is added, changed or unchanged
follows the order of the later list, what is removed that of the earlier one.
-/

import StrategyBench.Field.Encoding

namespace StrategyBench.Compare

structure ChangedField where
  before : Field
  after : Field

structure FieldDiff where
  added : List Field := []
  removed : List Field := []
  changed : List ChangedField := []
  unchanged : List Field := []

def FieldDiff.hasChanges (d : FieldDiff) : Bool :=
  !(d.added.isEmpty && d.removed.isEmpty && d.changed.isEmpty)

/-- The last field of a list with a key. -/
def lastWith? (key : String) : List Field → Option Field
  | [] => none
  | f :: fs => (lastWith? key fs).or (if f.key = key then some f else none)

/-- The fields whose key does not come again, in order. -/
def lastOccurrences : List Field → List Field
  | [] => []
  | f :: fs => if fs.any (·.key = f.key) then lastOccurrences fs else f :: lastOccurrences fs

def hasKey (key : String) (fs : List Field) : Bool := fs.any (·.key = key)

def diffFields (before after : List Field) : FieldDiff :=
  let now := lastOccurrences after
  { added := now.filter fun f => (lastWith? f.key before).isNone
    removed := (lastOccurrences before).filter fun f => !hasKey f.key after
    changed := now.filterMap fun f => do
      let old ← lastWith? f.key before
      if old.same f then none else some ⟨old, f⟩
    unchanged := now.filter fun f =>
      match lastWith? f.key before with
      | some old => old.same f
      | none => false }

/-! ## As JSON -/

def ChangedField.toJson (c : ChangedField) : Json :=
  .obj [("before", c.before.toJson), ("after", c.after.toJson)]

def FieldDiff.toJson (d : FieldDiff) : Json :=
  .obj [("added", .arr (d.added.map Field.toJson)),
        ("removed", .arr (d.removed.map Field.toJson)),
        ("changed", .arr (d.changed.map ChangedField.toJson)),
        ("unchanged", .arr (d.unchanged.map Field.toJson))]

end StrategyBench.Compare

/-
StrategyBench.Json.Basic — JSON values.

Integers and binary64 numbers are different values. The members of an object that was read or
converted stand in increasing key order, so equality of objects does not see their order.
-/

import StrategyBench.Number.Double

namespace StrategyBench

inductive Json
  | null
  | bool (b : Bool)
  | int (i : Int)
  | float (x : Double)
  | str (s : String)
  | arr (elements : List Json)
  | obj (members : List (String × Json))
  deriving Inhabited, Repr

namespace Json

/-! ## Members -/

/-- Puts a member in key order; an equal key is overwritten. -/
def insertMember (key : String) (value : Json) : List (String × Json) → List (String × Json)
  | [] => [(key, value)]
  | (k, v) :: rest =>
    if key = k then (key, value) :: rest
    else if key < k then (key, value) :: (k, v) :: rest
    else (k, v) :: insertMember key value rest

/-- An object of members in any order; the last of equal keys wins. -/
def ofMembers (members : List (String × Json)) : Json :=
  .obj (members.foldl (fun acc m => insertMember m.1 m.2 acc) [])

/-- The member of an object; nothing has no members. -/
def get? (j : Json) (key : String) : Option Json :=
  match j with
  | .obj members => members.lookup key
  | _ => none

/-- A member, or `null` where there is none. -/
def getD (j : Json) (key : String) : Json := (j.get? key).getD .null

def isNull : Json → Bool
  | .null => true
  | _ => false

/-! ## Equality -/

mutual
/-- Equality of values: an integer is no float, the two zeros are equal, arrays are ordered. -/
def same : Json → Json → Bool
  | .null, .null => true
  | .bool a, .bool b => a == b
  | .int a, .int b => a == b
  | .float a, .float b => a == b || (a.isZero && b.isZero)
  | .str a, .str b => a == b
  | .arr a, .arr b => sameElements a b
  | .obj a, .obj b => sameMembers a b
  | _, _ => false

def sameElements : List Json → List Json → Bool
  | [], [] => true
  | a :: as, b :: bs => same a b && sameElements as bs
  | _, _ => false

def sameMembers : List (String × Json) → List (String × Json) → Bool
  | [], [] => true
  | (k, a) :: as, (l, b) :: bs => k == l && same a b && sameMembers as bs
  | _, _ => false
end

instance : BEq Json := ⟨same⟩

end Json
end StrategyBench

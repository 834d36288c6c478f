/-
StrategyBench.Lua.Scope — which variables, labels and jumps are open while a script is read.
-/

import StrategyBench.Lua.Syntax

namespace StrategyBench.Lua

/-! ## Blocks -/

structure BlockScope where
  /-- How many variables, labels and open jumps there were at its start. -/
  activeBefore : Nat
  labels : Nat
  jumps : Nat
  isLoop : Bool
  /-- Something is to be closed at the end of this block or of one around it. -/
  insideClose : Bool
  deriving Inhabited

structure Label where
  id : Nat
  name : ByteArray
  line : Nat
  /-- How many variables are active at it. -/
  active : Nat
  deriving Inhabited

/-- A jump whose label has not been met yet. -/
structure Jump where
  id : Nat
  name : ByteArray
  line : Nat
  active : Nat
  deriving Inhabited

/-! ## Functions -/

structure FunctionScope where
  /-- The line it starts in; `0` is the main function. -/
  line : Nat := 0
  isVararg : Bool := false
  locals : Array LocalVariable := #[]
  /-- The numbers of the active variables, in the order of their declaration. -/
  active : Array Nat := #[]
  upvalues : Array UpvalueInfo := #[]
  blocks : List BlockScope := []
  labels : Array Label := #[]
  jumps : Array Jump := #[]
  /-- The label that each jump goes to. -/
  gotos : Array Nat := #[]
  /-- How many registers are in use at each label. -/
  labelLevels : Array Nat := #[]
  /-- The first register that is not in use. -/
  free : Nat := 0
  deriving Inhabited

namespace FunctionScope

def environmentName : ByteArray := Bytes.ofString "_ENV"

/-- The main function captures its environment. -/
def main : FunctionScope :=
  { isVararg := true, upvalues := #[⟨environmentName, .upvalue 0, .regular⟩] }

def localAt (s : FunctionScope) (id : Nat) : LocalVariable := s.locals.getD id default

/-- How many registers the first `n` active variables take. -/
def registerLevel (s : FunctionScope) (n : Nat) : Nat :=
  (s.active.extract 0 n).foldl
    (fun k id => if (s.localAt id).constant.isSome then k else k + 1) 0

def level (s : FunctionScope) : Nat := s.registerLevel s.active.size

def named? (s : FunctionScope) (name : ByteArray) : Option Nat :=
  s.active.toList.reverse.find? fun id => Bytes.equal (s.localAt id).name name

def upvalueNamed? (s : FunctionScope) (name : ByteArray) : Option Nat :=
  s.upvalues.findIdx? fun u => Bytes.equal u.name name

def capture (s : FunctionScope) (id : Nat) : FunctionScope :=
  { s with locals := s.locals.modify id fun v => { v with captured := true } }

/-- The label of a name among those that can be seen. -/
def labelNamed? (s : FunctionScope) (name : ByteArray) : Option Label :=
  s.labels.toList.find? fun l => Bytes.equal l.name name

end FunctionScope

/-! ## Looking names up -/

inductive Found
  | var (id : Nat)
  | upvalue (i : Nat)
  | constant (v : Value)
  | global

def maxUpvalues : Nat := 255

/-- What a name means in the innermost of some functions; the functions between capture it. A
function that captures too much is given by its line. -/
def lookUp (name : ByteArray) (innermost : Bool) :
    List FunctionScope → Except Nat (Found × List FunctionScope)
  | [] => .ok (.global, [])
  | s :: around =>
    match s.named? name with
    | some id =>
      match (s.localAt id).constant with
      | some v => .ok (.constant v, s :: around)
      | none => .ok (.var id, (if innermost then s else s.capture id) :: around)
    | none =>
      match s.upvalueNamed? name with
      | some i => .ok (.upvalue i, s :: around)
      | none => do
        let (found, around) ← lookUp name false around
        let add := fun (source : Outer) (usage : Usage) =>
          if s.upvalues.size < maxUpvalues then
            .ok (Found.upvalue s.upvalues.size,
              { s with upvalues := s.upvalues.push ⟨name, source, usage⟩ } :: around)
          else .error s.line
        match found, around with
        | .var id, t :: _ => add (.var id) (t.localAt id).usage
        | .upvalue i, t :: _ => add (.upvalue i) (t.upvalues.getD i default).usage
        | found, around => .ok (found, s :: around)

end StrategyBench.Lua

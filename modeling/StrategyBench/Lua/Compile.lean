/-
StrategyBench.Lua.Compile — from a tree to instructions.

Local variables take registers in the order of their declaration and keep them while they are in
scope; what is in the making takes the registers above. A variable that an inner function sees lives
in a cell, and its register refers to the cell.
-/

import StrategyBench.Lua.Syntax
import StrategyBench.Lua.Code

namespace StrategyBench.Lua

namespace Compile

/-! ## State -/

structure Draft where
  code : Array Instr := #[]
  origins : Array Origin := #[]
  /-- More registers than any instruction so far uses. -/
  registers : Nat := 2
  locals : Array LocalVariable := #[]
  /-- The register of each local variable. -/
  places : Array Reg := #[]
  /-- The first register above the active variables. -/
  level : Reg := 0
  /-- Registers of active variables that are to be closed, the last one first. -/
  closing : List Reg := []
  closes : Bool := false
  gotos : Array Nat := #[]
  labelLevels : Array Nat := #[]
  labelPlaces : Array Nat := #[]
  /-- Jumps whose target is the place of a label. -/
  labelJumps : List (Nat × Nat) := []
  deriving Inhabited

structure State where
  functions : Array Proto := #[]
  draft : Draft := {}
  deriving Inhabited

abbrev Gen := StateM State

def draft : Gen Draft := return (← get).draft

def modifyDraft (f : Draft → Draft) : Gen Unit := modify fun s => { s with draft := f s.draft }

/-- Adds an instruction; answers its place. -/
def emit (i : Instr) (o : Origin) : Gen Nat := do
  let d ← draft
  let place := d.code.size
  modifyDraft fun d => { d with code := d.code.push i, origins := d.origins.push o }
  pure place

def emit_ (i : Instr) (line : Nat) (operands : List (Option Naming)) : Gen Unit :=
  discard (emit i ⟨line, operands⟩)

def here : Gen Nat := return (← draft).code.size

def retarget (target : Nat) : Instr → Instr
  | .jump _ => .jump target
  | .test a w _ => .test a w target
  | .compare c a b w _ => .compare c a b w target
  | .forPrepare r _ => .forPrepare r target
  | i => i

def patchTo (target place : Nat) : Gen Unit :=
  modifyDraft fun d => { d with code := d.code.modify place (retarget target) }

def patchAll (target : Nat) (places : List Nat) : Gen Unit := places.forM (patchTo target)

def patchHere (places : List Nat) : Gen Unit := do patchAll (← here) places

/-- Counts a register as used. -/
def use (r : Reg) : Gen Unit :=
  modifyDraft fun d => if d.registers ≤ r then { d with registers := r + 1 } else d

def level : Gen Reg := return (← draft).level

def setLevel (r : Reg) : Gen Unit := do
  modifyDraft fun d => { d with level := r }
  use r

/-! ## Names in messages -/

def textKey? : Expr → Option ByteArray
  | .const (.str s) => some s
  | .named _ (.str s) => some s
  | _ => none

def environmentName : ByteArray := Bytes.ofString "_ENV"

def isEnvironment : Expr → Bool
  | .var _ name | .upvalue _ name => Bytes.equal name environmentName
  | _ => false

/-- What an expression is called in a message. -/
def describe : Expr → Option Naming
  | .var _ name => some ⟨"local", name⟩
  | .upvalue _ name => some ⟨"upvalue", name⟩
  | .const (.str s) => some ⟨"constant", s⟩
  | .named _ (.str s) => some ⟨"constant", s⟩
  | .index o k _ =>
    match k with
    | .const (.str s) => some ⟨if isEnvironment o then "global" else "field", s⟩
    | .named _ (.str s) => some ⟨if isEnvironment o then "global" else "field", s⟩
    | .const (.int i) =>
      some ⟨"field", Bytes.ofString (if 0 ≤ i && i ≤ 255 then "integer index" else "?")⟩
    | _ => some ⟨"field", Bytes.ofString "?"⟩
  | .paren e => describe e
  | _ => none

/-! ## Operands -/

/-- Where the value of an expression already is. -/
def place? (d : Draft) : Expr → Option Operand
  | .const v | .named _ v => some (.const v)
  | .var id _ =>
    let r := d.places.getD id 0
    some (if (d.locals.getD id default).captured then .cell r else .reg r)
  | .upvalue i _ => some (.upvalue i)
  | .paren e => place? d e
  | _ => none

/-- An expression whose evaluation changes no variable. -/
def isInert : Expr → Bool
  | .const _ | .named _ _ | .var _ _ | .upvalue _ _ => true
  | .paren e => isInert e
  | _ => false

def comparison? : BinaryOp → Option (Comparison × Bool × Bool)
  -- the comparison, whether the operands change places, whether it is negated
  | .eq => some (.eq, false, false)
  | .ne => some (.eq, false, true)
  | .lt => some (.lt, false, false)
  | .le => some (.le, false, false)
  | .gt => some (.lt, true, false)
  | .ge => some (.le, true, false)
  | _ => none

def lastConcatLine (line : Nat) : Expr → Nat
  | .binary .concat _ b l => lastConcatLine l b
  | .paren e => lastConcatLine line e
  | _ => line

def positionalCount : List Item → Nat
  | [] => 0
  | [.positional e] => if e.isMulti then 0 else 1
  | .positional _ :: rest => positionalCount rest + 1
  | .keyed .. :: rest => positionalCount rest

def keyedCount : List Item → Nat
  | [] => 0
  | .keyed .. :: rest => keyedCount rest + 1
  | .positional _ :: rest => keyedCount rest

/-- Makes local variables active in registers from the level on; constants take none. -/
def activate : List Nat → Gen Unit
  | [] => pure ()
  | id :: rest => do
    let d ← draft
    let v := d.locals.getD id default
    if v.constant.isNone then
      modifyDraft fun d => { d with places := putAt d.places id d.level }
      if v.captured then emit_ (.newCell d.level) 0 []
      setLevel (d.level + 1)
    activate rest

/-- Puts nil into registers. -/
def fillNil (first : Reg) (line : Nat) : Nat → Gen Unit
  | 0 => pure ()
  | n + 1 => do
    emit_ (.move first (.const .nil)) line []
    use first
    fillNil (first + 1) line n

def markClosing (r : Reg) (value : Operand) (name : ByteArray) (line : Nat) : Gen Unit := do
  emit_ (.markClose r value name) line []
  modifyDraft fun d => { d with closing := r :: d.closing, closes := true }

/-- Ends a scope: closes what is to be closed in it, and lets its registers go. -/
def leaveScope (outerLevel : Reg) (outerClosing : List Reg) : Gen Unit := do
  let d ← draft
  if outerClosing.length < d.closing.length then emit_ (.close outerLevel) 0 []
  modifyDraft fun d => { d with level := outerLevel, closing := outerClosing }

def captureOf (d : Draft) (u : UpvalueInfo) : Capture :=
  match u.source with
  | .var id => .cell (d.places.getD id 0)
  | .upvalue i => .upvalue i

/-- Registers of a list that are not below a level. -/
def closesAbove (closing : List Reg) (level : Reg) : Bool := closing.any (level ≤ ·)

/-! ## Parts of expressions -/

/-- What puts a value into a register; the registers from it on are free. -/
abbrev Maker := Reg → Gen Unit

/-- An operand: where the value is, or the next register. One that may change before it is read is
copied, unless it is read at once; answers the first free register too. -/
def stable (e : Expr) (make : Maker) (atOnce : Bool) (r : Reg) : Gen (Operand × Reg) := do
  match place? (← draft) e with
  | some (.upvalue i) =>
    if atOnce then pure (.upvalue i, r)
    else
      use r
      emit_ (.move r (.upvalue i)) 0 []
      pure (.reg r, r + 1)
  | some o => pure (o, r)
  | none =>
    make r
    pure (.reg r, r + 1)

def Count.plus (more : Nat) : Count → Count
  | .exactly n => .exactly (n + more)
  | .all => .all

/-- A function and its arguments from `r` on, for a call. -/
def callOperands (f : Maker) (args : Reg → Gen Count) (r : Reg) : Gen Count := do
  f r
  use (r + 1)
  args (r + 1)

/-- A method, its object and its arguments from `r` on, for a call. -/
def methodOperands (o : Expr) (make : Maker) (name : ByteArray) (args : Reg → Gen Count)
    (selfLine : Nat) (r : Reg) : Gen Count := do
  let (object, _) ← stable o make true r
  use (r + 1)
  emit_ (.method r object (.str name)) selfLine [describe o]
  let n ← args (r + 2)
  pure (Count.plus 1 n)

/-- A call whose results stand from `r` on. -/
def callAt (f : Expr) (make : Maker) (args : Reg → Gen Count) (line : Nat) (r : Reg)
    (results : Count) : Gen Unit := do
  let n ← callOperands make args r
  emit_ (.call r n results) line [describe f]

def methodAt (o : Expr) (make : Maker) (name : ByteArray) (args : Reg → Gen Count)
    (selfLine line : Nat) (r : Reg) (results : Count) : Gen Unit := do
  let n ← methodOperands o make name args selfLine r
  emit_ (.call r n results) line [some ⟨"method", name⟩]

def varargsAt (r : Reg) (n : Count) : Gen Unit := do
  use r
  match n with
  | .exactly n => use (r + n)
  | .all => pure ()
  emit_ (.varargs r n) 0 []

/-- Two operands, the left one first. -/
def operands (a b : Expr) (makeA makeB : Maker) (r : Reg) : Gen (Operand × Operand) := do
  let (x, free) ← stable a makeA (isInert b) r
  let (y, _) ← stable b makeB true free
  pure (x, y)

/-- A jump if a comparison comes out as `cond`. -/
def compareJump (op : BinaryOp) (x y : Operand) (cond : Bool) (line : Nat) : Gen Nat :=
  let (c, swapped, negated) := (comparison? op).getD (.eq, false, false)
  let (x, y) := if swapped then (y, x) else (x, y)
  emit (.compare c x y (cond != negated) 0) ⟨line, []⟩

/-- The truth of a comparison, as a value. -/
def comparisonAt (op : BinaryOp) (x y : Operand) (line : Nat) (r : Reg) : Gen Unit := do
  let yes ← compareJump op x y true line
  emit_ (.move r (.const (.bool false))) line []
  let done ← emit (.jump 0) {}
  patchHere [yes]
  emit_ (.move r (.const (.bool true))) line []
  patchHere [done]

def unaryAt (op : UnaryOp) (a : Expr) (x : Operand) (line : Nat) (r : Reg) : Gen Unit :=
  match op with
  | .neg => emit_ (.arith .unm r x x) line [describe a]
  | .bnot => emit_ (.arith .bnot r x x) line [describe a]
  | .len => emit_ (.length r x) line [describe a]
  | .not => emit_ (.not r x) line []

/-- How many values of a table stand in registers before they go into it. -/
def itemsPerFlush : Nat := 50

def flushItems (t : Reg) (stored waiting line : Nat) : Gen (Nat × Nat) := do
  if waiting = itemsPerFlush then
    emit_ (.setList t (t + 1) (.exactly waiting) (stored + 1)) line []
    pure (stored + waiting, 0)
  else pure (stored, waiting)

/-- A function from its own draft; the draft of the function around it goes on. -/
def functionAt (parameters : List Nat) (isVararg : Bool) (locals : Array LocalVariable)
    (upvalues : Array UpvalueInfo) (gotos labelLevels : Array Nat) (body : Gen Unit) (endLine : Nat)
    (r : Reg) : Gen Unit := do
  let outer ← draft
  modifyDraft fun _ =>
    { locals := locals
      places := Array.replicate locals.size 0
      gotos := gotos
      labelLevels := labelLevels
      labelPlaces := Array.replicate labelLevels.size 0 }
  activate parameters
  body
  emit_ (.ret 0 (.exactly 0)) endLine []
  let d ← draft
  d.labelJumps.forM fun (jump, label) => patchTo (d.labelPlaces.getD label 0) jump
  let d ← draft
  let proto : Proto :=
    { code := d.code
      origins := d.origins
      captures := upvalues.map (captureOf outer)
      parameters := parameters.length
      isVararg := isVararg
      registers := d.registers + 2
      closes := d.closes }
  let index := (← get).functions.size
  modify fun s => { functions := s.functions.push proto, draft := outer }
  use r
  emit_ (.closure r index) endLine []

/-- Statements in a scope of their own. -/
def inScope (body : Gen Unit) : Gen Unit := do
  let d ← draft
  body
  leaveScope d.level d.closing

/-- Stores a value into a target, whose object and key are at hand. -/
def store (target : Expr) (parts : Option (Operand × Operand)) (value : Operand) (line : Nat) :
    Gen Unit := do
  match target, parts with
  | .index o _ _, some (object, key) => emit_ (.setIndex object key value) line [describe o]
  | .upvalue i _, _ => emit_ (.setUpvalue i value) line []
  | .var id name, _ =>
    match place? (← draft) (.var id name) with
    | some (.cell r) => emit_ (.setCell r value) line []
    | some (.reg r) => emit_ (.move r value) line []
    | _ => pure ()
  | _, _ => pure ()

/-- Stores values from registers, the last one first. -/
def storeAll (r : Reg) (line : Nat) : List Expr → List (Option (Operand × Operand)) → Gen Unit
  | t :: ts, p :: ps => do
    storeAll (r + 1) line ts ps
    store t p (.reg r) line
  | _, _ => pure ()

/-! ## Expressions and statements -/

mutual
/-- The value of an expression into a register; the registers from it on are free. -/
def exprNext (e : Expr) (r : Reg) : Gen Unit := do
  use r
  match e with
  | .const v => emit_ (.move r (.const v)) 0 []
  | .named _ v => emit_ (.move r (.const v)) 0 []
  | .var id name =>
    let d ← draft
    emit_ (.move r ((place? d (.var id name)).getD (.const .nil))) 0 []
  | .upvalue i _ => emit_ (.move r (.upvalue i)) 0 []
  | .varargs => varargsAt r (.exactly 1)
  | .index o k line =>
    let (object, key) ← operands o k (exprNext o) (exprNext k) r
    emit_ (.index r object key) line [describe o]
  | .call f args line => callAt f (exprNext f) (exprsNext args) line r (.exactly 1)
  | .method o name args selfLine line =>
    methodAt o (exprNext o) name (exprsNext args) selfLine line r (.exactly 1)
  | .function (.mk parameters isVararg locals upvalues gotos labelLevels body endLine) =>
    functionAt parameters isVararg locals upvalues gotos labelLevels (stats body) endLine r
  | .binary op a b line =>
    match op with
    | .arith f =>
      let (x, y) ← operands a b (exprNext a) (exprNext b) r
      emit_ (.arith f r x y) line [describe a, describe b]
    | .concat =>
      exprNext a r
      let names ← concatNext b (exprNext b) (r + 1)
      emit_ (.concat r r (names.length + 1)) (lastConcatLine line b) (describe a :: names)
    | .and =>
      exprNext a r
      let skip ← emit (.test (.reg r) false 0) {}
      exprNext b r
      patchHere [skip]
    | .or =>
      exprNext a r
      let skip ← emit (.test (.reg r) true 0) {}
      exprNext b r
      patchHere [skip]
    | op =>
      let (x, y) ← operands a b (exprNext a) (exprNext b) r
      comparisonAt op x y line r
  | .unary op a line =>
    let (x, _) ← stable a (exprNext a) true r
    unaryAt op a x line r
  | .table items line =>
    emit_ (.newTable r (positionalCount items) (keyedCount items)) line []
    itemsNext items r 0 0 line
  | .paren e => exprNext e r

/-- The operands of a chain of `..`, into registers from `r` on; answers their names. -/
def concatNext (e : Expr) (otherwise : Maker) (r : Reg) : Gen (List (Option Naming)) := do
  match e with
  | .binary .concat a b _ =>
    exprNext a r
    return describe a :: (← concatNext b (exprNext b) (r + 1))
  | .paren (.binary .concat a b _) =>
    exprNext a r
    return describe a :: (← concatNext b (exprNext b) (r + 1))
  | e =>
    otherwise r
    return [describe e]

/-- Expressions into registers from `r` on, the last one with all its values if it has any number. -/
def exprsNext (es : List Expr) (r : Reg) : Gen Count := do
  match es with
  | [] => pure (.exactly 0)
  | [.call f args line] =>
    callAt f (exprNext f) (exprsNext args) line r .all
    pure .all
  | [.method o name args selfLine line] =>
    methodAt o (exprNext o) name (exprsNext args) selfLine line r .all
    pure .all
  | [.varargs] =>
    varargsAt r .all
    pure .all
  | e :: rest =>
    exprNext e r
    let n ← exprsNext rest (r + 1)
    pure (Count.plus 1 n)

/-- The items of the table in `t`; `waiting` positional ones stand in the registers after it. -/
def itemsNext (items : List Item) (t : Reg) (stored waiting line : Nat) : Gen Unit := do
  match items with
  | [] =>
    if waiting ≠ 0 then emit_ (.setList t (t + 1) (.exactly waiting) (stored + 1)) line []
  | .keyed key value itemLine :: rest =>
    let (k, v) ← operands key value (exprNext key) (exprNext value) (t + 1 + waiting)
    emit_ (.setIndex (.reg t) k v) itemLine []
    itemsNext rest t stored waiting line
  | [.positional (.call f args l)] =>
    let (stored, waiting) ← flushItems t stored waiting line
    callAt f (exprNext f) (exprsNext args) l (t + 1 + waiting) .all
    emit_ (.setList t (t + 1) .all (stored + 1)) line []
  | [.positional (.method o name args selfLine l)] =>
    let (stored, waiting) ← flushItems t stored waiting line
    methodAt o (exprNext o) name (exprsNext args) selfLine l (t + 1 + waiting) .all
    emit_ (.setList t (t + 1) .all (stored + 1)) line []
  | [.positional .varargs] =>
    let (stored, waiting) ← flushItems t stored waiting line
    varargsAt (t + 1 + waiting) .all
    emit_ (.setList t (t + 1) .all (stored + 1)) line []
  | .positional e :: rest =>
    let (stored, waiting) ← flushItems t stored waiting line
    exprNext e (t + 1 + waiting)
    itemsNext rest t stored (waiting + 1) line

/-- Jumps if the truth of an expression is `cond`; answers the jumps, which have no target yet. -/
def jumpIf (e : Expr) (make : Maker) (cond : Bool) (r : Reg) : Gen (List Nat) := do
  match e with
  | .const v => if v.truthy == cond then return [← emit (.jump 0) {}] else pure []
  | .named _ v => if v.truthy == cond then return [← emit (.jump 0) {}] else pure []
  | .unary .not a _ => jumpIf a (exprNext a) (!cond) r
  | .binary .and a b _ =>
    let left ← jumpIf a (exprNext a) false r
    let right ← jumpIf b (exprNext b) cond r
    if cond then
      patchHere left
      pure right
    else pure (left ++ right)
  | .binary .or a b _ =>
    let left ← jumpIf a (exprNext a) true r
    let right ← jumpIf b (exprNext b) cond r
    if cond then pure (left ++ right)
    else
      patchHere left
      pure right
  | .binary op a b line =>
    if (comparison? op).isSome then
      let (x, y) ← operands a b (exprNext a) (exprNext b) r
      return [← compareJump op x y cond line]
    else
      make r
      return [← emit (.test (.reg r) cond 0) {}]
  | e =>
    let (x, _) ← stable e make true r
    return [← emit (.test x cond 0) {}]

/-- Values for `n` registers from `r` on: no more and no fewer. -/
def adjusted (es : List Expr) (n : Nat) (r : Reg) (line : Nat) : Gen Unit := do
  match es with
  | [] => fillNil r line n
  | [.call f args l] => callAt f (exprNext f) (exprsNext args) l r (.exactly n)
  | [.method o name args selfLine l] =>
    methodAt o (exprNext o) name (exprsNext args) selfLine l r (.exactly n)
  | [.varargs] => varargsAt r (.exactly n)
  | e :: rest =>
    exprNext e r
    adjusted rest (n - 1) (r + 1) line

/-- The object and key of a target, evaluated before the values; with `copied`, variables are read now. -/
def targetParts (e : Expr) (copied : Bool) (r : Reg) : Gen (Option (Operand × Operand) × Reg) := do
  match e with
  | .index o k _ =>
    if copied then
      exprNext o r
      exprNext k (r + 1)
      pure (some (.reg r, .reg (r + 1)), r + 2)
    else
      let (object, r) ← stable o (exprNext o) (textKey? k).isSome r
      let (key, r) ← stable k (exprNext k) false r
      pure (some (object, key), r)
  | _ => pure (none, r)

def targetsParts (es : List Expr) (copied : Bool) (r : Reg) :
    Gen (List (Option (Operand × Operand)) × Reg) := do
  match es with
  | [] => pure ([], r)
  | e :: rest =>
    let (p, r) ← targetParts e copied r
    let (ps, r) ← targetsParts rest copied r
    pure (p :: ps, r)

/-- The last value goes from where it is, the others from registers. -/
def storeDirect (targets : List Expr) (parts : List (Option (Operand × Operand))) (values : List Expr)
    (r : Reg) (line : Nat) : Gen Unit := do
  match values with
  | [] => pure ()
  | [v] =>
    let (value, _) ← stable v (exprNext v) true r
    store (targets.headD .varargs) (parts.headD none) value line
  | v :: vs =>
    exprNext v r
    storeDirect targets.tail parts.tail vs (r + 1) line
    store (targets.headD .varargs) (parts.headD none) (.reg r) line

def stats (ss : List Stat) : Gen Unit := do
  match ss with
  | [] => pure ()
  | s :: rest =>
    stat s
    stats rest

def branchesFrom (bs : List Branch) : Gen (List Nat) := do
  match bs with
  | [] => pure []
  | .mk condition body :: rest =>
    let skip ← jumpIf condition (exprNext condition) false (← level)
    inScope (stats body)
    let done ← emit (.jump 0) {}
    patchHere skip
    return done :: (← branchesFrom rest)

def stat (s : Stat) : Gen Unit := do
  match s with
  | .locals ids values close line =>
    let base ← level
    let d ← draft
    let kept := ids.filter fun id => (d.locals.getD id default).constant.isNone
    adjusted values kept.length base line
    use (base + kept.length)
    activate ids
    match close with
    | some id =>
      let d ← draft
      let r := d.places.getD id 0
      let v := d.locals.getD id default
      markClosing r (if v.captured then .cell r else .reg r) v.name line
    | none => pure ()
  | .assign targets values line =>
    let base ← level
    let (parts, r) ← targetsParts targets (targets.length > 1) base
    if targets.length = values.length then storeDirect targets parts values r line
    else
      adjusted values targets.length r line
      use (r + targets.length)
      storeAll r line targets parts
  | .call (.call f args line) => callAt f (exprNext f) (exprsNext args) line (← level) (.exactly 0)
  | .call (.method o name args selfLine line) =>
    methodAt o (exprNext o) name (exprsNext args) selfLine line (← level) (.exactly 0)
  | .call _ => pure ()
  | .block body => inScope (stats body)
  | .whileLoop condition body =>
    let start ← here
    let exits ← jumpIf condition (exprNext condition) false (← level)
    inScope (stats body)
    emit_ (.jump start) 0 []
    patchHere exits
  | .repeatLoop body condition =>
    let start ← here
    let d ← draft
    stats body
    if d.closing.length < (← draft).closing.length then
      let done ← jumpIf condition (exprNext condition) true (← level)
      emit_ (.close d.level) 0 []
      emit_ (.jump start) 0 []
      patchHere done
    else patchAll start (← jumpIf condition (exprNext condition) false (← level))
    leaveScope d.level d.closing
  | .choice branches otherwise =>
    let done ← branchesFrom branches
    inScope (stats otherwise)
    patchHere done
  | .numericFor id start stop step body doLine line =>
    let base ← level
    exprNext start base
    exprNext stop (base + 1)
    exprNext step (base + 2)
    let prepare ← emit (.forPrepare base 0) ⟨doLine, []⟩
    let d ← draft
    setLevel (base + 3)
    let top ← here
    activate [id]
    stats body
    leaveScope (base + 3) d.closing
    emit_ (.forStep base top) line []
    patchHere [prepare]
    setLevel base
  | .genericFor ids values body doLine line =>
    let base ← level
    adjusted values 4 base line
    use (base + 6)
    let d ← draft
    setLevel (base + 4)
    markClosing (base + 3) (.reg (base + 3)) (Bytes.ofString "(for state)") doLine
    let inner ← draft
    let entry ← emit (.jump 0) {}
    let top ← here
    use (base + 4 + ids.length)
    activate ids
    stats body
    leaveScope (base + 4) inner.closing
    patchHere [entry]
    emit_ (.iterate base ids.length) line []
    emit_ (.iterateStep base top) line []
    leaveScope base d.closing
  | .localFunction id (.mk parameters isVararg locals upvalues gotos labelLevels body endLine) line =>
    let r ← level
    let d ← draft
    if (d.locals.getD id default).captured then
      emit_ (.move r (.const .nil)) line []
      activate [id]
      functionAt parameters isVararg locals upvalues gotos labelLevels (stats body) endLine (r + 1)
      emit_ (.setCell r (.reg (r + 1))) line []
    else
      modifyDraft fun d => { d with places := putAt d.places id r, level := r + 1 }
      functionAt parameters isVararg locals upvalues gotos labelLevels (stats body) endLine r
  | .ret [.call f args l] true _ =>
    let r ← level
    let n ← callOperands (exprNext f) (exprsNext args) r
    emit_ (.tailCall r n) l [describe f]
  | .ret [.method o name args selfLine l] true _ =>
    let r ← level
    let n ← methodOperands o (exprNext o) name (exprsNext args) selfLine r
    emit_ (.tailCall r n) l [some ⟨"method", name⟩]
  | .ret values _ line =>
    let r ← level
    let n ← exprsNext values r
    emit_ (.ret r n) line []
  | .goto id =>
    let d ← draft
    let label := d.gotos.getD id 0
    let level := d.labelLevels.getD label 0
    if closesAbove d.closing level then emit_ (.close level) 0 []
    let jump ← emit (.jump 0) {}
    modifyDraft fun d => { d with labelJumps := (jump, label) :: d.labelJumps }
  | .label id =>
    modifyDraft fun d => { d with labelPlaces := putAt d.labelPlaces id d.code.size }
end

end Compile

/-- The instructions of a script; its main function is the last one. -/
def Chunk.ofFunction (name : ByteArray) (f : Function) : Chunk :=
  let (_, s) := (Compile.exprNext (.function f) 0).run {}
  ⟨name, s.functions⟩

end StrategyBench.Lua

/-
StrategyBench.Lua.Grammar — from tokens to a tree.

Names are resolved on the way, so what is wrong first in the text is reported first. Statements and
operands may nest to a fixed depth; the rules of one depth are built from those of the depth below.
-/

import StrategyBench.Lua.Token
import StrategyBench.Lua.Scope
import StrategyBench.Lua.Operation

namespace StrategyBench.Lua

/-- Why a text is no script. -/
inductive SyntaxFault
  | at (line : Nat) (text : ByteArray)
  /-- It nests too deep. -/
  | tooDeep
  deriving Inhabited

structure ReadState where
  /-- The current token and those after it. -/
  tokens : List Token
  /-- The line of the token before. -/
  lastLine : Nat := 1
  /-- The functions being read, the innermost first. -/
  functions : List FunctionScope
  /-- More than any loop of the grammar has rounds. -/
  rounds : Nat

abbrev Read := StateT ReadState (Except SyntaxFault)

namespace Read

/-! ## Tokens -/

def current : Read Token := do
  match (← get).tokens with
  | t :: _ => pure t
  | [] => pure default

def fault {α : Type} (line : Nat) (parts : List ByteArray) : Read α :=
  throw (.at line (Bytes.join parts))

/-- What is wrong, near the current token; a zero byte is not shown. -/
def wrong {α : Type} (parts : List ByteArray) : Read α := do
  let t ← current
  match t.kind with
  | .stray 0 => fault t.line parts
  | _ => fault t.line (parts ++ [Bytes.ofString " near ", t.shown])

def wrongText {α : Type} (text : String) : Read α := wrong [Bytes.ofString text]

/-- What is wrong with the meaning, without a token. -/
def meaningless {α : Type} (parts : List ByteArray) : Read α := do
  fault (← current).line parts

/-- Goes on to the next token. -/
def advance : Read Unit := do
  let s ← get
  match s.tokens with
  | t :: u :: rest =>
    set { s with tokens := u :: rest, lastLine := t.line }
    match u.kind with
    | .fault text near => fault u.line [Bytes.ofString text, Bytes.ofString " near ", near]
    | _ => pure ()
  | _ => pure ()

def isAt (spelling : String) : Read Bool := return (← current).isSym spelling

/-- Whether the token after the current one has a spelling. -/
def isNext (spelling : String) : Read Bool := do
  match (← get).tokens with
  | _ :: t :: _ => pure (t.isSym spelling)
  | _ => pure false

def accept (spelling : String) : Read Bool := do
  if ← isAt spelling then
    advance
    pure true
  else pure false

def quoted (spelling : String) : ByteArray := Token.quote (Bytes.ofString spelling)

def expect (spelling : String) : Read Unit := do
  if ← isAt spelling then advance else wrong [quoted spelling, Bytes.ofString " expected"]

/-- The end of what was opened in a line. -/
def expectMatch (what opened : String) (line : Nat) : Read Unit := do
  if ← isAt what then advance
  else if line = (← current).line then wrong [quoted what, Bytes.ofString " expected"]
  else
    wrong [quoted what, Bytes.ofString " expected (to close ", quoted opened,
      Bytes.ofString (" at line " ++ toString line ++ ")")]

def expectName : Read ByteArray := do
  let t ← current
  match t.kind with
  | .name =>
    advance
    pure t.raw
  | _ => wrongText "<name> expected"

def lineHere : Read Nat := return (← current).line

def lastLine : Read Nat := return (← get).lastLine

/-- A loop of the grammar; each round reads a token. -/
def loop {σ α : Type} (step : σ → Read (σ ⊕ α)) : Nat → σ → Read α
  | 0, _ => throw .tooDeep
  | n + 1, s => do
    match ← step s with
    | .inl s => loop step n s
    | .inr a => pure a

def repeatFrom {σ α : Type} (s : σ) (step : σ → Read (σ ⊕ α)) : Read α := do
  loop step ((← get).rounds + 1) s

/-! ## The function being read -/

def scope : Read FunctionScope := return (← get).functions.headD default

def modifyScope (f : FunctionScope → FunctionScope) : Read Unit :=
  modify fun s => match s.functions with
    | top :: around => { s with functions := f top :: around }
    | [] => s

def tooMany {α : Type} (what : String) (limit line : Nat) : Read α :=
  let place := if line = 0 then "main function" else "function at line " ++ toString line
  wrongText ("too many " ++ what ++ " (limit is " ++ toString limit ++ ") in " ++ place)

def maxRegisters : Nat := 255

/-- Takes registers into use up to a number, or lets them go. -/
def setFree (n : Nat) : Read Unit := do
  if maxRegisters ≤ n then wrongText "function or expression needs too many registers"
  else modifyScope fun s => { s with free := n }

def free : Read Nat := return (← scope).free

def maxLocals : Nat := 200

/-- A new variable, not active yet; `pending` others are waiting too. -/
def newLocal (name : ByteArray) (pending : Nat) : Read Nat := do
  let s ← scope
  if s.active.size + pending + 1 > maxLocals then tooMany "local variables" maxLocals s.line
  modifyScope fun s => { s with locals := s.locals.push { name := name } }
  pure s.locals.size

def setLocal (id : Nat) (f : LocalVariable → LocalVariable) : Read Unit :=
  modifyScope fun s => { s with locals := s.locals.modify id f }

def activate (ids : List Nat) : Read Unit :=
  modifyScope fun s => { s with active := s.active ++ ids.toArray }

/-- Lets go of what the last statement left in registers. -/
def release : Read Unit := do setFree (← scope).level

/-! ## Jumps and labels -/

def newJump (name : ByteArray) (line : Nat) : Read Nat := do
  let s ← scope
  let id := s.gotos.size
  modifyScope fun s =>
    { s with gotos := s.gotos.push 0, jumps := s.jumps.push ⟨id, name, line, s.active.size⟩ }
  pure id

/-- A jump to a label that has been met. -/
def jumpBack (label : Label) : Read Nat := do
  let id := (← scope).gotos.size
  modifyScope fun s => { s with gotos := s.gotos.push label.id }
  pure id

def breakName : ByteArray := Bytes.ofString "break"

/-- Leads the open jumps of the block to a label; none may come into the scope of a variable. -/
def solveJumps (label : Label) : List Jump → Read (List Jump)
  | [] => pure []
  | j :: rest => do
    if Bytes.equal j.name label.name then
      if j.active < label.active then
        let s ← scope
        let v := s.localAt (s.active.getD j.active 0)
        meaningless [Bytes.ofString "<goto ", Bytes.untilZero j.name,
          Bytes.ofString ("> at line " ++ toString j.line ++ " jumps into the scope of local "),
          Token.quote v.name]
      modifyScope fun s => { s with gotos := putAt s.gotos j.id label.id }
      solveJumps label rest
    else return j :: (← solveJumps label rest)

/-- A label here, where so many variables are active. -/
def newLabel (name : ByteArray) (line active firstJump : Nat) : Read Nat := do
  let s ← scope
  let label : Label := ⟨s.labelLevels.size, name, line, active⟩
  modifyScope fun s =>
    { s with
      labels := s.labels.push label
      labelLevels := s.labelLevels.push (s.registerLevel active) }
  let open_ ← solveJumps label (s.jumps.extract firstJump s.jumps.size).toList
  modifyScope fun s => { s with jumps := s.jumps.extract 0 firstJump ++ open_.toArray }
  pure label.id

/-! ## Blocks -/

def enterBlock (isLoop : Bool) : Read Unit :=
  modifyScope fun s =>
    let inside := (s.blocks.head?.map (·.insideClose)).getD false
    { s with blocks := ⟨s.active.size, s.labels.size, s.jumps.size, isLoop, inside⟩ :: s.blocks }

/-- Something in this block is to be closed. -/
def markClosing : Read Unit :=
  modifyScope fun s => match s.blocks with
    | b :: rest => { s with blocks := { b with insideClose := true } :: rest }
    | [] => s

def unresolved {α : Type} (j : Jump) : Read α :=
  if Bytes.equal j.name breakName then
    meaningless [Bytes.ofString ("break outside loop at line " ++ toString j.line)]
  else
    meaningless [Bytes.ofString "no visible label ", Token.quote j.name,
      Bytes.ofString (" for <goto> at line " ++ toString j.line)]

/-- Ends a block; what comes after a loop's end is where its breaks go. -/
def leaveBlock : Read (List Stat) := do
  let s ← scope
  match s.blocks with
  | [] => pure []
  | b :: around =>
    let level := s.registerLevel b.activeBefore
    modifyScope fun s => { s with active := s.active.extract 0 b.activeBefore }
    let after ← if b.isLoop then do
        let id ← newLabel breakName 0 b.activeBefore b.jumps
        pure [Stat.label id]
      else pure []
    modifyScope fun s =>
      { s with
        free := level
        labels := s.labels.extract 0 b.labels
        blocks := around }
    let s ← scope
    if around.isEmpty then
      match s.jumps[b.jumps]? with
      | some j => unresolved j
      | none => pure ()
    else
      modifyScope fun s =>
        { s with jumps := s.jumps.mapIdx fun i j =>
            if b.jumps ≤ i && b.activeBefore < j.active then { j with active := b.activeBefore } else j }
    pure after

end Read

/-! ## Expressions -/

/-- The rules that may nest, at one depth. -/
structure Rules where
  /-- How much deeper it may go. -/
  depth : Nat
  statement : Read (List Stat)
  /-- An expression of operators that bind more than a limit. -/
  operand : Nat → Read Expr

namespace Grammar

open Read

/-- Writes the line into an index that has just been read for its value. -/
def settled (line : Nat) : Expr → Expr
  | .index o k 0 => .index o k line
  | e => e

def settle (e : Expr) : Read Expr := return settled (← lastLine) e

def settleLast (es : List Expr) : Read (List Expr) := do
  let line ← lastLine
  return match es.reverse with
    | e :: rest => (settled line e :: rest).reverse
    | [] => []

/-- Keys that an index holds without a register. -/
def isInlineKey : Expr → Bool
  | .const (.str s) => s.size ≤ 40
  | .const (.int i) => 0 ≤ i && i ≤ 255
  | _ => false

def isVariable : Expr → Bool
  | .var .. => true
  | .paren (.var ..) => true
  | _ => false

/-- How many registers a value in the making holds. -/
def held : Expr → Nat
  | .call .. | .method .. | .function _ | .table .. => 1
  | .index o k _ =>
    let object := if isVariable o then 0 else match o, k with
      | .upvalue .., .const (.str _) => 0
      | _, _ => 1
    object + (if isInlineKey k || isVariable k then 0 else 1)
  | .binary .concat _ _ _ => 1
  | .binary .and _ b _ | .binary .or _ b _ => held b
  | .paren (.call ..) | .paren (.method ..) | .paren .varargs => 1
  | _ => 0

/-- Takes the registers that an expression holds from a base on. -/
def hold (base : Nat) (e : Expr) : Read Expr := do
  setFree (base + held e)
  pure e

def nameExpr (name : ByteArray) : Read Expr := do
  let s ← get
  match lookUp name true s.functions with
  | .error line => tooMany "upvalues" maxUpvalues line
  | .ok (found, functions) =>
    set { s with functions := functions }
    match found with
    | .var id => pure (.var id name)
    | .upvalue i => pure (.upvalue i name)
    | .constant v => pure (.named name v)
    | .global =>
      let s ← get
      match lookUp FunctionScope.environmentName true s.functions with
      | .error line => tooMany "upvalues" maxUpvalues line
      | .ok (found, functions) =>
        set { s with functions := functions }
        let env : Expr := match found with
          | .var id => .var id FunctionScope.environmentName
          | .upvalue i => .upvalue i FunctionScope.environmentName
          | .constant v => .named FunctionScope.environmentName v
          | .global => .const .nil
        pure (.index env (.const (.str name)) 0)

/-! ### Constants -/

def isNumeral : Expr → Option Value
  | .const (.int i) => some (.int i)
  | .const (.float x) => some (.float x)
  | .named _ (.int i) => some (.int i)
  | .named _ (.float x) => some (.float x)
  | _ => none

/-- A result that may stand for the operation: no zero float and not "not a number". -/
def foldable : Value → Bool
  | .float x => !x.isNaN && !x.isZero
  | _ => true

/-- The result of an operation on two numerals, where it cannot fail. -/
def fold? (op : ArithOp) (a b : Expr) : Option Expr := do
  let x ← isNumeral a
  let y ← isNumeral b
  match Arith.run op x y with
  | .value v => if foldable v && divides op y then some (.const v) else none
  | _ => none
where
  divides (op : ArithOp) (y : Value) : Bool :=
    match op, y with
    | .div, .int i | .idiv, .int i | .mod, .int i => i != 0
    | .div, .float x | .idiv, .float x | .mod, .float x => !x.isZero
    | _, _ => true

/-- What a constant variable may stand for. -/
def constantOf? : Expr → Option Value
  | .const v | .named _ v => some v
  | _ => none

/-! ### Operators -/

/-- A binary operator: how much it binds on its left and on its right. -/
def binaryOp? (t : Token) : Option (BinaryOp × Nat × Nat) :=
  match t.kind with
  | .sym s => match s with
    | "+" => some (.arith .add, 10, 10) | "-" => some (.arith .sub, 10, 10)
    | "*" => some (.arith .mul, 11, 11) | "%" => some (.arith .mod, 11, 11)
    | "^" => some (.arith .pow, 14, 13)
    | "/" => some (.arith .div, 11, 11) | "//" => some (.arith .idiv, 11, 11)
    | "&" => some (.arith .band, 6, 6) | "|" => some (.arith .bor, 4, 4)
    | "~" => some (.arith .bxor, 5, 5)
    | "<<" => some (.arith .shl, 7, 7) | ">>" => some (.arith .shr, 7, 7)
    | ".." => some (.concat, 9, 8)
    | "==" => some (.eq, 3, 3) | "~=" => some (.ne, 3, 3)
    | "<" => some (.lt, 3, 3) | "<=" => some (.le, 3, 3)
    | ">" => some (.gt, 3, 3) | ">=" => some (.ge, 3, 3)
    | "and" => some (.and, 2, 2) | "or" => some (.or, 1, 1)
    | _ => none
  | _ => none

def unaryOp? (t : Token) : Option UnaryOp :=
  match t.kind with
  | .sym s => match s with
    | "not" => some .not | "-" => some .neg | "~" => some .bnot | "#" => some .len
    | _ => none
  | _ => none

def unaryPriority : Nat := 12

def applyUnary (op : UnaryOp) (a : Expr) (line : Nat) : Expr :=
  let folded := match op with
    | .neg => fold? .unm a a
    | .bnot => fold? .bnot a a
    | _ => none
  folded.getD (.unary op a line)

/-- The line of an operation: a comparison has that of its end, others that of the operator. -/
def applyBinary (op : BinaryOp) (a b : Expr) (opLine endLine : Nat) : Expr :=
  match op with
  | .arith f => (fold? f a b).getD (.binary op a b opLine)
  | .concat | .and | .or => .binary op a b opLine
  | _ => .binary op a b endLine

/-- Registers of a left operand while the right one is read. -/
def leftHeld (op : BinaryOp) (e : Expr) : Nat :=
  match op with
  | .concat => 1
  | .and | .or => 0
  | _ => if isVariable e || (isNumeral e).isSome then 0 else 1

/-! ### Rules -/

section
variable (inner : Rules)

def expression : Read Expr := inner.operand 0

def blockFollows (withUntil : Bool) : Read Bool := do
  let t ← current
  match t.kind with
  | .eof => pure true
  | .sym s => pure (s == "else" || s == "elseif" || s == "end" || (withUntil && s == "until"))
  | _ => pure false

def statements : Read (List Stat) :=
  repeatFrom [] fun (acc : List (List Stat)) => do
    if ← blockFollows true then pure (.inr acc.reverse.flatten)
    else if ← isAt "return" then
      let r ← inner.statement
      pure (.inr (r :: acc).reverse.flatten)
    else
      let s ← inner.statement
      pure (.inl (s :: acc))

def block : Read (List Stat) := do
  enterBlock false
  let body ← statements inner
  let after ← leaveBlock
  pure (body ++ after)

/-- Expressions with commas between; the last one is still to be settled. -/
def expressions : Read (List Expr) := do
  let base ← free
  let e ← expression inner
  repeatFrom ([e], base) fun (acc : List Expr × Nat) => do
    match acc with
    | (e :: before, base) =>
      if ← accept "," then
        let e ← settle e
        setFree (base + 1)
        let next ← expression inner
        pure (.inl (next :: e :: before, base + 1))
      else
        setFree (base + held e)
        pure (.inr (e :: before).reverse)
    | ([], _) => pure (.inr [])

def parameterNames : Read (List ByteArray × Bool) := do
  if ← isAt ")" then pure ([], false)
  else
    repeatFrom [] fun (acc : List ByteArray) => do
      let t ← current
      match t.kind with
      | .name =>
        advance
        let _ ← newLocal t.raw acc.length
        if ← accept "," then pure (.inl (t.raw :: acc)) else pure (.inr ((t.raw :: acc).reverse, false))
      | _ =>
        if t.isSym "..." then
          advance
          pure (.inr (acc.reverse, true))
        else wrongText "<name> or '...' expected"

/-- A function from its parameters on, which started in a line. -/
def functionBody (isMethod : Bool) (line : Nat) : Read Function := do
  modify fun s => { s with functions := { line := line } :: s.functions }
  enterBlock false
  expect "("
  if isMethod then
    let self ← newLocal (Bytes.ofString "self") 0
    activate [self]
  let first := (← scope).locals.size
  let (names, isVararg) ← parameterNames
  let ids := List.range' first names.length
  activate ids
  modifyScope fun s => { s with isVararg := isVararg }
  release
  expect ")"
  let body ← statements inner
  expectMatch "end" "function" line
  let endLine ← lastLine
  let _ ← leaveBlock
  let s ← scope
  modify fun st => { st with functions := st.functions.tail }
  let parameters := if isMethod then 0 :: ids else ids
  pure (.mk parameters isVararg s.locals s.upvalues s.gotos s.labelLevels body endLine)

/-- One item of a table, and whether it is positional and still to be settled. -/
def tableItem : Read Item := do
  let base ← free
  let t ← current
  let keyed := fun (key : Expr) => do
    expect "="
    let value ← expression inner
    let value ← settle value
    setFree base
    pure (Item.keyed key value (← lastLine))
  match t.kind with
  | .name =>
    if ← isNext "=" then
      advance
      keyed (.const (.str t.raw))
    else return .positional (← expression inner)
  | _ =>
    if ← accept "[" then
      let key ← settle (← expression inner)
      expect "]"
      setFree (base + (if isInlineKey key || isVariable key then 0 else 1))
      keyed key
    else return .positional (← expression inner)

def settleItem : Item → Read Item
  | .positional e => return .positional (← settle e)
  | item => pure item

/-- How many values are kept in registers before they go into the table. -/
def itemsPerFlush : Nat := 50

def tableExpr : Read Expr := do
  let line ← lineHere
  let base ← free
  expect "\x7b"
  setFree (base + 1)
  -- the items read last first, and how many of them wait in registers
  let items ← repeatFrom (([], 0) : List Item × Nat) fun (acc, waiting) => do
    if ← isAt "\x7d" then pure (.inr acc)
    else
      let acc ← match acc with
        | item :: rest => do pure ((← settleItem item) :: rest)
        | [] => pure []
      setFree (base + 1 + waiting)
      let waiting := if waiting = itemsPerFlush then 0 else waiting
      setFree (base + 1 + waiting)
      let item ← tableItem inner
      let waiting := match item with
        | .positional _ => waiting + 1
        | _ => waiting
      let more ← do
        if ← accept "," then pure true else accept ";"
      if more then pure (.inl (item :: acc, waiting)) else pure (.inr (item :: acc))
  expectMatch "\x7d" "\x7b" line
  let items ← match items with
    | item :: rest => do pure ((← settleItem item) :: rest)
    | [] => pure []
  setFree (base + 1)
  pure (.table items.reverse line)

def arguments : Read (List Expr) := do
  let t ← current
  match t.kind with
  | .string s =>
    advance
    pure [.const (.str s)]
  | _ =>
    if t.isSym "\x7b" then return [← tableExpr inner]
    else if t.isSym "(" then
      advance
      if ← accept ")" then pure []
      else
        let es ← expressions inner
        expectMatch ")" "(" t.line
        settleLast es
    else wrongText "function arguments expected"

def primary : Read Expr := do
  let t ← current
  match t.kind with
  | .name =>
    advance
    nameExpr t.raw
  | _ =>
    if t.isSym "(" then
      advance
      let e ← expression inner
      expectMatch ")" "(" t.line
      return .paren (← settle e)
    else wrongText "unexpected symbol"

/-- A primary expression with its members, indexes and calls. -/
def suffixed : Read Expr := do
  let base ← free
  let e ← hold base (← primary inner)
  repeatFrom e fun e => do
    let t ← current
    match t.kind with
    | .sym "." =>
      let e ← settle e
      advance
      let name ← expectName
      return .inl (← hold base (.index e (.const (.str name)) 0))
    | .sym "[" =>
      let e ← settle e
      setFree (base + (if isVariable e then 0 else 1))
      advance
      let key ← settle (← expression inner)
      expect "]"
      return .inl (← hold base (.index e key 0))
    | .sym ":" =>
      advance
      let name ← expectName
      let e ← settle e
      let selfLine ← lastLine
      setFree (base + 2)
      let line ← lineHere
      let args ← arguments inner
      setFree (base + 1)
      return .inl (.method e name args selfLine line)
    | .sym "(" | .sym "\x7b" => callWith base e t.line
    | .string _ => callWith base e t.line
    | _ => return .inr e
where
  callWith (base : Nat) (e : Expr) (line : Nat) : Read (Expr ⊕ Expr) := do
    let e ← settle e
    setFree (base + 1)
    let args ← arguments inner
    setFree (base + 1)
    return .inl (.call e args line)

def simple : Read Expr := do
  let t ← current
  let constant := fun v => do
    advance
    pure (Expr.const v)
  match t.kind with
  | .int i => constant (.int i)
  | .float x => constant (.float x)
  | .string s => constant (.str s)
  | .sym "nil" => constant .nil
  | .sym "true" => constant (.bool true)
  | .sym "false" => constant (.bool false)
  | .sym "..." =>
    if (← scope).isVararg then
      advance
      pure .varargs
    else wrongText "cannot use '...' outside a vararg function"
  | .sym "\x7b" => tableExpr inner
  | .sym "function" =>
    let base ← free
    advance
    let body ← functionBody inner false t.line
    hold base (.function body)
  | _ => suffixed inner

def operand (limit : Nat) : Read Expr := do
  let base ← free
  let t ← current
  let e ← match unaryOp? t with
    | some op => do
      advance
      let a ← settle (← inner.operand unaryPriority)
      pure (applyUnary op a t.line)
    | none => simple inner
  let e ← hold base e
  repeatFrom e fun e => do
    let t ← current
    match binaryOp? t with
    | some (op, left, right) =>
      if left > limit then
        advance
        let a ← settle e
        setFree (base + leftHeld op a)
        let b ← settle (← inner.operand right)
        let e := applyBinary op a b t.line (← lastLine)
        return .inl (← hold base e)
      else return .inr e
    | none => return .inr e

/-! ## Statements -/

/-- A variable that may be assigned to. -/
def checkAssignable (e : Expr) : Read Unit := do
  let s ← scope
  let readOnly? : Option ByteArray := match e with
    | .named name _ => some name
    | .var id name => if (s.localAt id).usage = .regular then none else some name
    | .upvalue i name => if (s.upvalues.getD i default).usage = .regular then none else some name
    | _ => none
  match readOnly? with
  | some name => meaningless [Bytes.ofString "attempt to assign to const variable ", Token.quote name]
  | none => pure ()

def isTarget : Expr → Bool
  | .named .. | .var .. | .upvalue .. | .index .. => true
  | _ => false

/-- Targets after the first one, up to the `=`. -/
def moreTargets (first : Expr) : Read (List Expr) :=
  repeatFrom ([first], inner.depth) fun (acc : List Expr × Nat) => do
    let (targets, depth) := acc
    match targets with
    | e :: _ =>
      if !isTarget e then wrongText "syntax error"
      checkAssignable e
      if ← accept "," then
        let e ← suffixed inner
        if depth = 0 then throw .tooDeep
        pure (.inl (e :: targets, depth - 1))
      else pure (.inr targets.reverse)
    | [] => pure (.inr [])

def expressionStatement : Read (List Stat) := do
  let e ← suffixed inner
  if (← isAt "=") || (← isAt ",") then
    let targets ← moreTargets inner e
    expect "="
    let values ← settleLast (← expressions inner)
    return [.assign targets values (← lastLine)]
  else
    match e with
    | .call .. | .method .. => return [.call e]
    | _ => wrongText "syntax error"

def localFunction : Read (List Stat) := do
  let name ← expectName
  let id ← newLocal name 0
  activate [id]
  release
  let line ← lineHere
  let body ← functionBody inner false line
  return [.localFunction id body (← lastLine)]

def usageMark : Read Usage := do
  if ← accept "<" then
    let name ← expectName
    expect ">"
    if Bytes.equal name (Bytes.ofString "const") then pure .const
    else if Bytes.equal name (Bytes.ofString "close") then pure .close
    else meaningless [Bytes.ofString "unknown attribute ", Token.quote name]
  else pure .regular

/-- The declared names of a local statement, and which of them is to be closed. -/
def localNames : Read (List Nat × Option Nat) :=
  repeatFrom (([], none) : List Nat × Option Nat) fun (ids, close) => do
    let id ← newLocal (← expectName) ids.length
    let usage ← usageMark
    setLocal id fun v => { v with usage := usage }
    if usage = .close && close.isSome then
      meaningless [Bytes.ofString "multiple to-be-closed variables in local list"]
    let close := if usage = .close then some id else close
    let ids := id :: ids
    if ← accept "," then pure (.inl (ids, close)) else pure (.inr (ids.reverse, close))

def localStatement : Read (List Stat) := do
  let (ids, close) ← localNames
  let values ← if ← accept "=" then expressions inner else pure []
  let s ← scope
  let constant? := do
    let id ← ids.getLast?
    let e ← values.getLast?
    if ids.length = values.length && (s.localAt id).usage = .const then
      (constantOf? e).map (id, ·)
    else none
  let values ← settleLast values
  match constant? with
  | some (id, v) => setLocal id fun x => { x with constant := some v }
  | none => pure ()
  activate ids
  release
  if close.isSome then markClosing
  return [.locals ids values close (← lastLine)]

def breakStatement : Read (List Stat) := do
  let line ← lineHere
  advance
  return [.goto (← newJump breakName line)]

def gotoStatement : Read (List Stat) := do
  let line ← lineHere
  let name ← expectName
  match (← scope).labelNamed? name with
  | some label => return [.goto (← jumpBack label)]
  | none => return [.goto (← newJump name line)]

/-- A label; one at the end of its block is outside the scope of the block's variables. -/
def labelStatement : Read (List Stat) := do
  let line ← lineHere
  let name ← expectName
  expect "::"
  let skipped ← repeatFrom [] fun (acc : List (List Stat)) => do
    if (← isAt ";") || (← isAt "::") then return .inl ((← inner.statement) :: acc)
    else return .inr acc.reverse.flatten
  match (← scope).labelNamed? name with
  | some l =>
    meaningless [Bytes.ofString "label ", Token.quote name,
      Bytes.ofString (" already defined on line " ++ toString l.line)]
  | none => pure ()
  let s ← scope
  let b := s.blocks.headD default
  let active := if ← blockFollows false then b.activeBefore else s.active.size
  let id ← newLabel name line active b.jumps
  return skipped ++ [.label id]

def whileStatement (line : Nat) : Read (List Stat) := do
  advance
  let condition ← settle (← expression inner)
  release
  enterBlock true
  expect "do"
  let body ← block inner
  expectMatch "end" "while" line
  let after ← leaveBlock
  return .whileLoop condition body :: after

def repeatStatement (line : Nat) : Read (List Stat) := do
  advance
  enterBlock true
  enterBlock false
  let body ← statements inner
  expectMatch "until" "repeat" line
  let condition ← settle (← expression inner)
  let _ ← leaveBlock
  let after ← leaveBlock
  return .repeatLoop body condition :: after

/-- The branches of an `if`, each from its keyword on. -/
def branches : Read (List Branch) :=
  repeatFrom [] fun (acc : List Branch) => do
    advance
    let condition ← expression inner
    expect "then"
    let condition ← settle condition
    release
    let body ← block inner
    let acc := .mk condition body :: acc
    if ← isAt "elseif" then pure (.inl acc) else pure (.inr acc.reverse)

def ifStatement (line : Nat) : Read (List Stat) := do
  let bs ← branches inner
  let otherwise ← if ← accept "else" then block inner else pure []
  expectMatch "end" "if" line
  return [.choice bs otherwise]

/-- The body of a loop whose variables become active in it. -/
def loopBody (ids : List Nat) : Read (List Stat × Nat) := do
  expect "do"
  let doLine ← lastLine
  enterBlock false
  activate ids
  release
  let body ← block inner
  let after ← leaveBlock
  pure (body ++ after, doLine)

def stateName : ByteArray := Bytes.ofString "(for state)"

/-- The hidden variables of a loop. -/
def hiddenLocals : Nat → Nat → Read (List Nat)
  | 0, _ => pure []
  | n + 1, pending => do
    let id ← newLocal stateName pending
    return id :: (← hiddenLocals n (pending + 1))

/-- An expression that goes into the next register. -/
def nextExpression : Read Expr := do
  let base ← free
  let e ← settle (← expression inner)
  setFree (base + 1)
  pure e

def numericFor (name : ByteArray) (line : Nat) : Read (List Stat) := do
  let hidden ← hiddenLocals 3 0
  let id ← newLocal name 3
  expect "="
  let start ← nextExpression inner
  expect ","
  let stop ← nextExpression inner
  let step ← if ← accept "," then nextExpression inner else pure (.const (.int 1))
  activate hidden
  release
  let (body, doLine) ← loopBody inner [id]
  return [.numericFor id start stop step body doLine line]

def genericFor (name : ByteArray) : Read (List Stat) := do
  let hidden ← hiddenLocals 4 0
  let first ← newLocal name 4
  let ids ← repeatFrom [first] fun (ids : List Nat) => do
    if ← accept "," then
      let id ← newLocal (← expectName) (4 + ids.length)
      pure (.inl (id :: ids))
    else pure (.inr ids.reverse)
  expect "in"
  let line ← lineHere
  let values ← settleLast (← expressions inner)
  activate hidden
  release
  markClosing
  let (body, doLine) ← loopBody inner ids
  return [.genericFor ids values body doLine line]

def forStatement (line : Nat) : Read (List Stat) := do
  enterBlock true
  advance
  let name ← expectName
  let t ← current
  let loop ← match t.kind with
    | .sym "=" => numericFor inner name line
    | .sym "," | .sym "in" => genericFor inner name
    | _ => wrongText "'=' or 'in' expected"
  expectMatch "end" "for" line
  let after ← leaveBlock
  return loop ++ after

def functionStatement (line : Nat) : Read (List Stat) := do
  advance
  let start ← nameExpr (← expectName)
  let target ← repeatFrom start fun e => do
    if ← isAt "." then
      let e ← settle e
      advance
      let name ← expectName
      return .inl (.index e (.const (.str name)) 0)
    else return .inr e
  let (target, isMethod) ← do
    if ← isAt ":" then
      let e ← settle target
      advance
      let name ← expectName
      pure (Expr.index e (.const (.str name)) 0, true)
    else pure (target, false)
  let body ← functionBody inner isMethod line
  checkAssignable target
  return [.assign [target] [.function body] line]

def returnStatement : Read (List Stat) := do
  advance
  let values ← if (← blockFollows true) || (← isAt ";") then pure []
    else settleLast (← expressions inner)
  let line ← lastLine
  let insideClose := ((← scope).blocks.head?.map (·.insideClose)).getD false
  let tail := !insideClose && match values with
    | [.call ..] | [.method ..] => true
    | _ => false
  let _ ← accept ";"
  return [.ret values tail line]

def statement : Read (List Stat) := do
  let t ← current
  let r ← match t.kind with
    | .sym ";" => do
      advance
      pure []
    | .sym "if" => ifStatement inner t.line
    | .sym "while" => whileStatement inner t.line
    | .sym "do" => do
      advance
      let body ← block inner
      expectMatch "end" "do" t.line
      pure [.block body]
    | .sym "for" => forStatement inner t.line
    | .sym "repeat" => repeatStatement inner t.line
    | .sym "function" => functionStatement inner t.line
    | .sym "local" => do
      advance
      if ← accept "function" then localFunction inner else localStatement inner
    | .sym "::" => do
      advance
      labelStatement inner
    | .sym "return" => returnStatement inner
    | .sym "break" => breakStatement
    | .sym "goto" => do
      advance
      gotoStatement
    | _ => expressionStatement inner
  release
  pure r

end

/-! ## Scripts -/

def rules : Nat → Rules
  | 0 => ⟨0, throw .tooDeep, fun _ => throw .tooDeep⟩
  | n + 1 =>
    let inner := rules n
    ⟨n + 1, statement inner, operand inner⟩

/-- How deep statements and operands may nest. -/
def maxDepth : Nat := 199

def script : Read Function := do
  enterBlock false
  let body ← statements (rules maxDepth)
  let t ← current
  match t.kind with
  | .eof => pure ()
  | _ => wrongText "<eof> expected"
  let endLine ← lastLine
  let _ ← leaveBlock
  let s ← scope
  pure (.mk [] true s.locals s.upvalues s.gotos s.labelLevels body endLine)

end Grammar

/-- The tree of a script. -/
def Function.ofSource (source : ByteArray) : Except SyntaxFault Function :=
  let tokens := Token.ofSource source
  match tokens with
  | ⟨.fault text near, line, _⟩ :: _ =>
    .error (.at line (Bytes.join [Bytes.ofString text, Bytes.ofString " near ", near]))
  | tokens =>
    (Grammar.script.run' { tokens := tokens, functions := [FunctionScope.main], rounds := tokens.length })

end StrategyBench.Lua

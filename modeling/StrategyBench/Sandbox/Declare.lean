/-
StrategyBench.Sandbox.Declare — what a script can do: declare fields and register a strategy.

A declaration that succeeds is emitted as an effect; what has been declared is the fold of the
effects. So a declaration that fails leaves no trace, apart from those that were made, and
succeeded, while it was under way.
-/

import StrategyBench.Sandbox.Exchange
import StrategyBench.Sandbox.Guard
import StrategyBench.Sandbox.Rejection
import StrategyBench.Field.Normalize

namespace StrategyBench.Sandbox

open Lua Program

/-! ## Effects -/

inductive Declared
  | field (c : Category) (f : Field)
  /-- A strategy, and the lists that it brings along. -/
  | strategy (export_ : Value) (parameters factors : Option (List Field))

/-- What has been declared so far. -/
structure Collected where
  parameters : List Field := []
  factors : List Field := []
  registered : Option Value := none

namespace Collected

def add (c : Collected) : Declared → Collected
  | .field .parameter f => { c with parameters := c.parameters ++ [f] }
  | .field .factor f => { c with factors := c.factors ++ [f] }
  | .strategy v parameters factors =>
    { parameters := parameters.getD c.parameters
      factors := factors.getD c.factors
      registered := some v }

/-- What some effects in order add up to. -/
def ofEffects (effects : List Declared) : Collected := effects.foldl add {}

def schema (c : Collected) : Schema := ⟨c.parameters, c.factors⟩

end Collected

def Declared.values : Declared → List Value
  | .field _ _ => []
  | .strategy v _ _ => [v]

abbrev Declaring := Program Declared

/-! ## Capabilities -/

/-- The one module that may be asked for. -/
def sdkModule : String := "strategy_sdk"

inductive Capability
  | builder (c : Category) (kind : String)
  | defineStrategy
  | logger (level : String)
  | print
  | require
  | guard (g : Guard)
  deriving DecidableEq, Repr

/-- Tables that the capabilities refer to. -/
structure Fixtures where
  /-- The metatable of tables that are made from arrays. -/
  arrayMeta : Nat
  sdk : Nat

namespace Capability

def parameterKinds : List String := ["string", "number", "boolean", "enum"]
def factorKinds : List String := ["string", "number", "boolean", "enum", "custom"]
def logLevels : List String := ["debug", "info", "warn", "error", "log"]

def all : List Capability :=
  [guard .find, guard .match_, guard .gmatch, guard .gsub, guard .rep, guard .move,
   guard .setmetatable, defineStrategy, print, require]
  ++ parameterKinds.map (builder .parameter) ++ factorKinds.map (builder .factor)
  ++ logLevels.map logger

def name : Capability → String
  | builder .parameter kind => "parameter." ++ kind
  | builder .factor kind => "factor." ++ kind
  | defineStrategy => "define_strategy"
  | logger level => "logger." ++ level
  | print => "print"
  | require => "require"
  | guard g => match g with
    | .find => "string.find"
    | .match_ => "string.match"
    | .gmatch => "string.gmatch"
    | .gsub => "string.gsub"
    | .rep => "string.rep"
    | .move => "table.move"
    | .setmetatable => "setmetatable"

def named (n : String) : Option Capability := all.find? (·.name = n)

def value (c : Capability) : Value := .native (.host c.name)

/-! ## Builders -/

def asObject : Json → List (String × Json)
  | .obj ms => ms
  | _ => []

/-- The declaration of a builder: its options, with the key argument for the key. -/
def declaration (key : Option Json) (options : Json) : Json :=
  match key with
  | some k => .obj (Json.insertMember "key" k (asObject options))
  | none => .obj (asObject options)

def missingKey {α : Type} : Declaring α := Exchange.refuse "definition missing key"

def normalized (raw : Json) (c : Category) (kind : String) : Declaring Field :=
  match Declaration.normalize? raw c kind with
  | some f => done f
  | none => missingKey

def build (x : Fixtures) (c : Category) (kind : String) (args : List Value) :
    Declaring (List Value) := do
  let options ← match args.getD 1 .nil with
    | .table t => Exchange.read x.arrayMeta (.table t)
    | _ => done .null
  let key ← match args.getD 0 .nil with
    | .nil => done none
    | v => some <$> Exchange.read x.arrayMeta v
  let f ← normalized (declaration key options) c kind
  let shown ← Exchange.ofField x.arrayMeta f
  emitEffect (.field c f)
  return [shown]

/-! ## Strategies -/

def entriesFrom (x : Fixtures) (c : Category) (kind : String) (t : Nat) (acc : List Field)
    (i : Int64) : Nat → Declaring (List Field)
  | 0 => done acc.reverse
  | n + 1 => do
    let v ← rawGet t (.int i)
    if v.isNil then return acc.reverse
    let f ← normalized (← Exchange.read x.arrayMeta v) c kind
    entriesFrom x c kind t (f :: acc) (i + 1) n

/-- The kind of an entry that names none. -/
def entryKind : Category → String
  | .parameter => "string"
  | .factor => "custom"

/-- The list of a category in the table of a strategy, if it has one. -/
def entries (x : Fixtures) (t : Nat) (c : Category) : Declaring (Option (List Field)) := do
  match ← Operation.index (.table t) (.ofString c.plural) with
  | .nil => return none
  | .table entries => return some (← entriesFrom x c (entryKind c) entries [] 1 Exchange.maxElements)
  | v => Exchange.refuse ("error converting Lua " ++ v.hostTypeName ++ " to table")

def define (x : Fixtures) (args : List Value) : Declaring (List Value) := do
  let v := args.getD 0 .nil
  match v with
  | .table t => do
    let parameters ← entries x t .parameter
    let factors ← entries x t .factor
    emitEffect (.strategy v parameters factors)
    return [v]
  | v => do
    emitEffect (.strategy v none none)
    return [v]

/-! ## Modules -/

/-- What is wrong with the first bytes that are no text. -/
def textFault (i : Nat) : Nat → List UInt8 → String
  | 0, _ => ""
  | _, [] => ""
  | n + 1, b :: rest =>
    let (c, after) := Bytes.firstChar b rest
    let taken := rest.length + 1 - after.length
    match c with
    | some _ => textFault (i + taken) n after
    | none =>
      if (Bytes.leadShape b).isSome && after.isEmpty then
        "incomplete utf-8 byte sequence from index " ++ toString i
      else
        "invalid utf-8 sequence of " ++ toString taken ++ " bytes from index " ++ toString i

def wrongName {α : Type} (typeName reason : String) : Declaring α :=
  Exchange.refuse ("bad argument #1: error converting Lua " ++ typeName ++ " to String (" ++ reason ++ ")")

def requireModule (x : Fixtures) (args : List Value) : Declaring (List Value) := do
  let v := args.getD 0 .nil
  match v.text? with
  | none => wrongName v.hostTypeName "expected string or number"
  | some s =>
    match Bytes.text? s with
    | none => wrongName "string" (textFault 0 s.size s.toList)
    | some name =>
      if name = sdkModule then return [.table x.sdk]
      else raise (.host (.refusedModule name))

/-- Runs a capability. -/
def run (x : Fixtures) (c : Capability) (args : List Value) : Declaring (List Value) :=
  match c with
  | builder c kind => build x c kind args
  | defineStrategy => define x args
  | logger _ | print => done []
  | require => requireModule x args
  | guard g => g.call args

end Capability
end StrategyBench.Sandbox

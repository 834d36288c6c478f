/-
StrategyBench.Settings.Load — the configuration of an environment.

The file of the environment gives the values; environment variables `WORKBENCH__SECTION__KEY` go
before it. Values are converted between texts, numbers and truth values where a section asks for
another shape.
-/

import StrategyBench.Settings.Sections
import StrategyBench.Settings.Toml
import StrategyBench.Number.Decimal
import StrategyBench.Text.Split

namespace StrategyBench

/-! ## Environments -/

inductive Environment
  | development
  | production
  deriving DecidableEq, Repr

def Environment.ofName (name : String) : Environment :=
  let name := Text.lower name
  if name = "production" ∨ name = "prod" then .production else .development

def Environment.fileName : Environment → String
  | .development => "development.toml"
  | .production => "production.toml"

/-! ## Conversions -/

namespace Setting

def plainFloat (x : Double) : String := Decimal.plain.write x

/-- Digits after at most one sign; a `-` only where it is allowed. -/
def integerText? (negative : Bool) (s : String) : Option Int :=
  let digits := fun (ds : List Char) =>
    if ds.isEmpty || !ds.all Char.isDigit then none
    else some (ds.foldl (fun (n : Int) c => n * 10 + (c.toNat - 48 : Nat)) 0)
  match s.toList with
  | '+' :: ds => digits ds
  | '-' :: ds => if negative then (digits ds).map (- ·) else none
  | ds => digits ds

/-- The number nearest to a float, a half away from zero; what is not a number is `0`. -/
def rounded (x : Double) : Int :=
  if x.isNaN then 0
  else if x.isInfinite then (if x.isNegative then -(tenTo 400) else tenTo 400)
  else
    let p := x.parts
    let n : Nat := if p.exponent ≥ 0 then p.mantissa * twoTo p.exponent.toNat
      else (2 * p.mantissa + twoTo (-p.exponent).toNat) / (2 * twoTo (-p.exponent).toNat)
    if x.isNegative then -(n : Int) else n

def truthText? (s : String) : Option Bool :=
  let s := Text.lower s
  if s = "true" ∨ s = "on" ∨ s = "yes" then some true
  else if s = "false" ∨ s = "off" ∨ s = "no" then some false
  else none

def text? : Setting → Option String
  | .text s => some s
  | .bool b => some (if b then "true" else "false")
  | .int i => some (toString i)
  | .float x => some (plainFloat x)
  | _ => none

def bool? : Setting → Option Bool
  | .bool b => some b
  | .int i => some (i ≠ 0)
  | .float x => some (!x.isZero)
  | .text s => if s = "1" then some true else if s = "0" then some false else truthText? s
  | _ => none

def nat? (limit : Nat) (s : Setting) : Option Nat :=
  let i? : Option Int := match s with
    | .int i => some i
    | .bool b => some (if b then 1 else 0)
    | .float x => some (min (max (rounded x) 0) Scalars.word64)
    | .text t =>
      match truthText? t with
      | some b => some (if b then 1 else 0)
      | none => integerText? false t
    | _ => none
  i?.bind fun i => if 0 ≤ i ∧ i ≤ limit then some i.toNat else none

def word : Int := twoTo 63

def int? (s : Setting) : Option Int :=
  let i? : Option Int := match s with
    | .int i => some i
    | .bool b => some (if b then 1 else 0)
    | .float x => some (min (max (rounded x) (-word)) (word - 1))
    | .text t =>
      match truthText? t with
      | some b => some (if b then 1 else 0)
      | none => integerText? true t
    | _ => none
  i?.bind fun i => if -word ≤ i ∧ i < word then some i else none

def members? (names : List String) (mandatory : Nat) : Setting → Option (List (Option Setting))
  | .table ms => some (names.map (List.lookup · ms))
  | .list es =>
    if mandatory ≤ es.length then
      some ((es.take names.length).map some ++ List.replicate (names.length - es.length) none)
    else none
  | _ => none

/-- Configuration values are converted where they can be. -/
def scalars : Scalars Setting where
  text? := text?
  nat? := nat?
  bool? := bool?
  isNull := fun s => match s with | .null => true | _ => false
  members? := members?

/-! ## Paths -/

/-- Puts a value under a path of keys; what stands in the way is replaced by a table. -/
def set (s : Setting) (path : List String) (value : Setting) : Setting :=
  match path with
  | [] => value
  | k :: rest =>
    let ms := match s with
      | .table ms => ms
      | _ => []
    let inner := set ((ms.lookup k).getD .null) rest value
    .table (if (ms.lookup k).isSome then ms.map fun m => if m.1 = k then (k, inner) else m
            else ms ++ [(k, inner)])

def isKeyChar (c : Char) : Bool := c.isAlphanum || c = '_' || c = '-'

/-- The keys of a path such as `sandbox.timeout_ms`. -/
def pathOf? (text : String) : Option (List String) :=
  let parts := Text.splitOn '.' text.toList
  if parts.all fun p => !p.isEmpty && p.all isKeyChar then some (parts.map String.ofList) else none

def at? : List String → Setting → Option Setting
  | [], s => some s
  | k :: rest, .table ms => (ms.lookup k).bind (at? rest)
  | _ :: _, _ => none

/-! ## Environment variables -/

def floatText? (s : String) : Option Double :=
  let cs := s.toList
  let (negative, cs) := match cs with
    | '-' :: r => (true, r)
    | '+' :: r => (false, r)
    | r => (false, r)
  let sign := fun x : Double => if negative then x.neg else x
  let word := (String.ofList cs).toLower
  if word = "inf" ∨ word = "infinity" then some (sign Double.infinity)
  else if word = "nan" then some (sign Double.invalid.neg)
  else
    let (mantissa, tail) := cs.span fun c => c ≠ 'e' ∧ c ≠ 'E'
    let (whole, rest) := mantissa.span (· ≠ '.')
    let fraction := rest.drop 1
    let digits := whole ++ fraction
    if digits.isEmpty ∨ !digits.all Char.isDigit then none
    else
      let n := digits.foldl (fun n c => n * 10 + (c.toNat - 48)) 0
      let exponent? : Option Int := match tail with
        | [] => some 0
        | _ :: e => integerText? true (String.ofList e)
      exponent?.map fun e => Double.ofDecimal negative n (e - fraction.length)

/-- The value of a variable: a truth value, an integer or a float if it reads as one. -/
def ofVariable (s : String) : Setting :=
  let low := Text.lower s
  if low = "true" then .bool true
  else if low = "false" then .bool false
  else
    match (integerText? true s).filter fun i => -word ≤ i ∧ i < word with
    | some i => .int i
    | none =>
      match floatText? s with
      | some x => .float x
      | none => .text s

/-- Two underscores part the sections of a name. -/
def underscoresToDots : List Char → List Char
  | '_' :: '_' :: rest => '.' :: underscoresToDots rest
  | c :: rest => c :: underscoresToDots rest
  | [] => []

def variablePrefix : String := "workbench__"

/-- The path that a variable sets, if it is one of ours. -/
def variablePath? (name : String) : Option (List String) :=
  let name := (Text.lower name).toList
  let lead := variablePrefix.toList
  if lead.isPrefixOf name then
    let key := String.ofList (underscoresToDots (name.drop lead.length))
    some ((pathOf? key).getD [key])
  else none

def withVariables (vars : List (String × String)) (s : Setting) : Setting :=
  vars.foldl (fun s v =>
    match variablePath? v.1 with
    | some path => s.set path (ofVariable v.2)
    | none => s) s

end Setting

/-! ## Loading -/

inductive LoadError
  | fileNotFound (path : String)
  | malformed
  | missingField (path : String)
  | badShape
  | sandboxLimits (reason : SettingError)
  deriving DecidableEq, Repr

def LoadError.message : LoadError → String
  | .fileNotFound path => "configuration file \"" ++ path ++ "\" not found"
  | .malformed => "TOML parse error"
  | .missingField path => "missing configuration field \"" ++ path ++ "\""
  | .badShape => "invalid type"
  | .sandboxLimits reason => reason.message

/-- The keys of the sections. -/
def sectionKeys : List (String × List String) :=
  [("database", ["host", "port", "username", "password", "database", "max_connections",
      "min_connections", "max_lifetime_secs", "acquire_timeout_secs", "idle_timeout_secs"]),
   ("log", ["level", "format", "directory"]),
   ("sandbox", ["timeout_ms", "grace_ms", "memory_limit_mb", "hook_instruction_interval",
      "max_concurrent_executions"]),
   ("metrics", ["enabled", "listen_address"])]

/-- The sections that have to be there, with the keys that have to be in them. -/
def mandatory : List (String × List String) :=
  (sectionKeys.take 2).map fun s => (s.1, s.2.filter (· ≠ "directory"))

/-- The first key that has to be there and is not; what sections lack comes before a lacking section. -/
def missing? (s : Setting) : Option String :=
  let keys := mandatory.flatMap fun m =>
    match s.at? [m.1] with
    | some (.table ms) => (m.2.filter fun k => (ms.lookup k).isNone).map (m.1 ++ "." ++ ·)
    | _ => []
  let sections := (mandatory.map Prod.fst).filter fun n => (s.at? [n]).isNone
  (keys ++ sections).head?

/-- The files and variables that a configuration comes from. -/
structure ConfigSource where
  /-- The text of the file at a path. -/
  file? : String → Option String
  vars : List (String × String)

def ConfigSource.lookup? (src : ConfigSource) (name : String) : Option String := src.vars.lookup name

def ConfigSource.environment (src : ConfigSource) : Environment :=
  Environment.ofName ((src.lookup? "WORKBENCH_ENV").getD "development")

def ConfigSource.directory (src : ConfigSource) : String :=
  (src.lookup? "CONFIG_DIR").getD "config"

/-- The path of a name in a directory. -/
def joinPath (directory name : String) : String :=
  if directory.isEmpty then name
  else if directory.endsWith "/" then directory ++ name
  else directory ++ "/" ++ name

/-- The variables that a configuration goes by. -/
def ConfigSource.variableNames : List String :=
  "WORKBENCH_ENV" :: "CONFIG_DIR" :: sectionKeys.flatMap fun s =>
    s.2.map fun k => ("workbench__" ++ s.1 ++ "__" ++ k).toUpper

/-- Where the configuration of the current environment stands. -/
def ConfigSource.currentPath (src : ConfigSource) : String :=
  joinPath src.directory src.environment.fileName

/-- All values for an environment, the file's and the variables'. -/
def ConfigSource.values (src : ConfigSource) (env : Environment) (directory : String) :
    Except LoadError Setting := do
  let path := joinPath directory env.fileName
  match src.file? path with
  | none => .error (.fileNotFound path)
  | some text =>
    match Toml.read? text with
    | none => .error .malformed
    | some s => .ok (s.withVariables src.vars)

/-- Loads a configuration. Limits of the sandbox out of range are refused; what else is wrong is left
for `AppSettings.check`. -/
def ConfigSource.load (src : ConfigSource) (env : Environment) (directory : String) :
    Except LoadError AppSettings := do
  let values ← src.values env directory
  match Setting.scalars.app? values with
  | none => .error ((missing? values).elim .badShape .missingField)
  | some settings =>
    match settings.sandbox.check with
    | .error e => .error (.sandboxLimits e)
    | .ok () => .ok settings

/-- The configuration of the current environment. -/
def ConfigSource.loadCurrent (src : ConfigSource) : Except LoadError AppSettings :=
  src.load src.environment src.directory

/-- Loads the current configuration unless one is held already; a held one stays. -/
def ConfigSource.loadOnce (src : ConfigSource) (held : Option AppSettings) :
    Option AppSettings × Except LoadError AppSettings :=
  match held with
  | some settings => (some settings, .ok settings)
  | none =>
    match src.loadCurrent with
    | .ok settings => (some settings, .ok settings)
    | .error e => (none, .error e)

/-! ## Log levels -/

/-- The level that a name means; an unknown one means `INFO`. -/
def logLevel (name : String) : String :=
  match Text.lower name with
  | "trace" => "TRACE"
  | "debug" => "DEBUG"
  | "warn" => "WARN"
  | "error" => "ERROR"
  | _ => "INFO"

end StrategyBench

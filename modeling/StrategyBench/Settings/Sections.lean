/-
StrategyBench.Settings.Sections — the sections of the configuration, their defaults and their checks.

A section is read from any source of values through `Scalars`, which says how the source gives a
text, a number or a truth value: a strict one refuses other shapes, a lenient one converts.
-/

import StrategyBench.Settings.Check
import StrategyBench.Field.Encoding

namespace StrategyBench

/-! ## Sections -/

structure DatabaseSettings where
  host : String
  port : Nat
  username : String
  password : String
  database : String
  maxConnections : Nat
  minConnections : Nat
  maxLifetimeSecs : Nat
  acquireTimeoutSecs : Nat
  idleTimeoutSecs : Nat
  deriving DecidableEq, Repr

structure LogSettings where
  level : String := "info"
  format : String := "pretty"
  /-- Where log files go; without it the log goes to the console. -/
  directory : Option String := none
  deriving DecidableEq, Repr

/-- The limits of one run of a script. -/
structure SandboxSettings where
  timeoutMs : Nat := 3000
  /-- How much longer than the time budget the caller waits. -/
  graceMs : Nat := 500
  /-- `0` is no limit. -/
  memoryLimitMb : Nat := 64
  /-- How many instructions pass between two looks at the clock. -/
  checkInterval : Nat := 1000
  /-- `0` is as many as there are processors. -/
  maxConcurrent : Nat := 0
  deriving DecidableEq, Repr

structure MetricsSettings where
  enabled : Bool := false
  listenAddress : String := "0.0.0.0:9464"
  deriving DecidableEq, Repr

structure AppSettings where
  database : DatabaseSettings
  log : LogSettings
  sandbox : SandboxSettings := {}
  metrics : MetricsSettings := {}
  deriving DecidableEq, Repr

namespace SandboxSettings

def word : Nat := twoTo 64 - 1

def memoryLimitBytes (s : SandboxSettings) : Nat := min (s.memoryLimitMb * 1024 * 1024) word

/-- The clock is looked at after every instruction at least. -/
def interval (s : SandboxSettings) : Nat := max s.checkInterval 1

/-- How many runs may go on at a time, unless that is left to the machine. -/
def concurrency? (s : SandboxSettings) : Option Nat :=
  if s.maxConcurrent = 0 then none else some s.maxConcurrent

end SandboxSettings

/-! ## Checks -/

open Settings

def DatabaseSettings.check (s : DatabaseSettings) : Checked := do
  notEmpty s.host "database.host"
  notEmpty s.username "database.username"
  notEmpty s.database "database.database"
  natInRange s.port 1 65535 "database.port"
  natInRange s.maxConnections s.minConnections 1000 "database.max_connections"

def LogSettings.check (s : LogSettings) : Checked := do
  oneOf s.level ["trace", "debug", "info", "warn", "error"] "log.level"
  oneOf s.format ["pretty", "json"] "log.format"
  match s.directory with
  | some d => notEmpty d "log.directory"
  | none => pure ()

def SandboxSettings.check (s : SandboxSettings) : Checked := do
  natInRange s.timeoutMs 10 60000 "sandbox.timeout_ms"
  natInRange s.graceMs 0 10000 "sandbox.grace_ms"
  natInRange s.memoryLimitMb 1 1024 "sandbox.memory_limit_mb"
  natInRange s.checkInterval 1 1000000 "sandbox.hook_instruction_interval"
  natInRange s.maxConcurrent 0 256 "sandbox.max_concurrent_executions"

def MetricsSettings.check (s : MetricsSettings) : Checked := do
  checkDependency s.enabled (!Text.blank s.listenAddress) "metrics.enabled" "metrics.listen_address"
  if s.enabled then discard (socketAddress s.listenAddress "metrics.listen_address")

def AppSettings.check (s : AppSettings) : Checked := do
  s.database.check
  s.log.check
  s.sandbox.check
  s.metrics.check

/-! ## Reading -/

/-- How a source gives values. -/
structure Scalars (α : Type) where
  text? : α → Option String
  /-- A natural number up to a limit. -/
  nat? : Nat → α → Option Nat
  bool? : α → Option Bool
  /-- Stands for "not given" where a value may be left out. -/
  isNull : α → Bool
  /-- The members of a section, by name or by place, of which the first so many must be there. -/
  members? : List String → Nat → α → Option (List (Option α))

namespace Scalars

variable {α : Type} (src : Scalars α)

def textOr (d : String) : Option α → Option String
  | some v => src.text? v
  | none => some d

def natOr (limit d : Nat) : Option α → Option Nat
  | some v => src.nat? limit v
  | none => some d

def boolOr (d : Bool) : Option α → Option Bool
  | some v => src.bool? v
  | none => some d

def optionalText : Option α → Option (Option String)
  | some v => if src.isNull v then some none else (src.text? v).map some
  | none => some none

def word16 : Nat := twoTo 16 - 1
def word32 : Nat := twoTo 32 - 1
def word64 : Nat := twoTo 64 - 1

def database? (v : α) : Option DatabaseSettings := do
  match ← src.members? ["host", "port", "username", "password", "database", "max_connections",
      "min_connections", "max_lifetime_secs", "acquire_timeout_secs", "idle_timeout_secs"] 10 v with
  | [host, port, username, password, database, maxC, minC, life, acquire, idle] =>
    some {
      host := ← src.text? (← host)
      port := ← src.nat? word16 (← port)
      username := ← src.text? (← username)
      password := ← src.text? (← password)
      database := ← src.text? (← database)
      maxConnections := ← src.nat? word32 (← maxC)
      minConnections := ← src.nat? word32 (← minC)
      maxLifetimeSecs := ← src.nat? word64 (← life)
      acquireTimeoutSecs := ← src.nat? word64 (← acquire)
      idleTimeoutSecs := ← src.nat? word64 (← idle) }
  | _ => none

def log? (v : α) : Option LogSettings := do
  match ← src.members? ["level", "format", "directory"] 2 v with
  | [level, format, directory] =>
    some ⟨← src.text? (← level), ← src.text? (← format), ← src.optionalText directory⟩
  | _ => none

def sandbox? (v : α) : Option SandboxSettings := do
  match ← src.members? ["timeout_ms", "grace_ms", "memory_limit_mb", "hook_instruction_interval",
      "max_concurrent_executions"] 0 v with
  | [timeout, grace, memory, interval, concurrent] =>
    let d : SandboxSettings := {}
    some {
      timeoutMs := ← src.natOr word64 d.timeoutMs timeout
      graceMs := ← src.natOr word64 d.graceMs grace
      memoryLimitMb := ← src.natOr word64 d.memoryLimitMb memory
      checkInterval := ← src.natOr word32 d.checkInterval interval
      maxConcurrent := ← src.natOr word64 d.maxConcurrent concurrent }
  | _ => none

def metrics? (v : α) : Option MetricsSettings := do
  match ← src.members? ["enabled", "listen_address"] 0 v with
  | [enabled, address] =>
    let d : MetricsSettings := {}
    some ⟨← src.boolOr d.enabled enabled, ← src.textOr d.listenAddress address⟩
  | _ => none

def app? (v : α) : Option AppSettings := do
  match ← src.members? ["database", "log", "sandbox", "metrics"] 2 v with
  | [database, log, sandbox, metrics] =>
    some {
      database := ← src.database? (← database)
      log := ← src.log? (← log)
      sandbox := ← match sandbox with | some v => src.sandbox? v | none => some {}
      metrics := ← match metrics with | some v => src.metrics? v | none => some {} }
  | _ => none

end Scalars

def Json.nat? (limit : Nat) : Json → Option Nat
  | .int i => if 0 ≤ i ∧ i ≤ limit then some i.toNat else none
  | _ => none

/-- JSON gives a value only in its own shape. -/
def Json.scalars : Scalars Json where
  text? := Json.str?
  nat? := Json.nat?
  bool? := Json.bool?
  isNull := Json.isNull
  members? := membersOf?

/-! ## Writing -/

def DatabaseSettings.toJson (s : DatabaseSettings) : Json :=
  .obj [("host", .str s.host), ("port", .int s.port), ("username", .str s.username),
        ("password", .str s.password), ("database", .str s.database),
        ("max_connections", .int s.maxConnections), ("min_connections", .int s.minConnections),
        ("max_lifetime_secs", .int s.maxLifetimeSecs),
        ("acquire_timeout_secs", .int s.acquireTimeoutSecs),
        ("idle_timeout_secs", .int s.idleTimeoutSecs)]

def LogSettings.toJson (s : LogSettings) : Json :=
  .obj [("level", .str s.level), ("format", .str s.format),
        ("directory", match s.directory with | some d => .str d | none => .null)]

def SandboxSettings.toJson (s : SandboxSettings) : Json :=
  .obj [("timeout_ms", .int s.timeoutMs), ("grace_ms", .int s.graceMs),
        ("memory_limit_mb", .int s.memoryLimitMb),
        ("hook_instruction_interval", .int s.checkInterval),
        ("max_concurrent_executions", .int s.maxConcurrent)]

def MetricsSettings.toJson (s : MetricsSettings) : Json :=
  .obj [("enabled", .bool s.enabled), ("listen_address", .str s.listenAddress)]

def AppSettings.toJson (s : AppSettings) : Json :=
  .obj [("database", s.database.toJson), ("log", s.log.toJson), ("sandbox", s.sandbox.toJson),
        ("metrics", s.metrics.toJson)]

end StrategyBench

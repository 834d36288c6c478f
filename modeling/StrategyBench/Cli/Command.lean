/-
StrategyBench.Cli.Command — the tools of the workbench.

`workbench` runs scripts from files and prints what they declare, or how two of them differ. Without
a configuration it goes by the defaults. `migrate` needs a configuration, and a database beyond it.
-/

import StrategyBench.Cli.Arguments
import StrategyBench.Cli.Files
import StrategyBench.Sandbox.Execute
import StrategyBench.Settings.Load
import StrategyBench.Service.Encoding

namespace StrategyBench.Cli

/-! ## Commands -/

inductive Command
  | check (file : String)
  | diff (base compare : String)
  deriving DecidableEq, Repr

inductive Migration
  | run
  | status
  deriving DecidableEq, Repr

def workbench : Tool Command where
  name := "workbench"
  about := "策略腳本工作台"
  verbs :=
    [{ name := "check"
       about := "在沙箱中執行腳本並輸出宣告的參數與因子"
       places := [("FILE", "腳本檔案")]
       command := fun
         | [file] => some (.check file)
         | _ => none },
     { name := "diff"
       about := "執行兩個腳本並輸出程式碼與欄位差異"
       places := [("BASE", "基準版本"), ("COMPARE", "比較版本")]
       command := fun
         | [base, compare] => some (.diff base compare)
         | _ => none }]

def migrate : Tool Migration where
  name := "migrate"
  about := "strategy-workbench 數據庫遷移工具"
  verbs :=
    [{ name := "run", about := "運行所有未應用的遷移", command := fun _ => some .run },
     { name := "status", about := "檢查遷移狀態", command := fun _ => some .status }]

/-! ## Endings -/

/-- How a tool ends. -/
structure Ending where
  exit : Nat := 0
  output : String := ""
  errors : String := ""
  deriving DecidableEq, Repr

namespace Ending

def printed (text : String) : Ending := { output := text }

def failed (message : String) : Ending := { exit := 1, errors := "Error: " ++ message ++ "\n" }

def indented (text : String) : String :=
  "\n".intercalate ((Text.splitOn '\n' text.toList).map fun line => "    " ++ String.ofList line)

/-- A failure with what has caused it. -/
def failedBecause (message cause : String) : Ending :=
  failed (message ++ "\n\nCaused by:\n" ++ indented cause)

/-- The words are not understood. -/
def misused (help : String) : Ending := { exit := 2, errors := help }

end Ending

variable {m : Type → Type} [Monad m]

/-- Steps of which one may end the tool. -/
abbrev Steps (m : Type → Type) := ExceptT Ending m

def Steps.ending (s : Steps m Ending) : m Ending := do
  match ← s.run with
  | .ok e => return e
  | .error e => return e

def onDisk {α : Type} (s : m α) : Steps m α := ExceptT.lift s

/-! ## Starting -/

/-- The configuration of the current environment. -/
def configuration (disk : Disk m) (vars : List (String × String)) :
    m (Except LoadError AppSettings) := do
  let bare : ConfigSource := ⟨fun _ => none, vars⟩
  let text ← disk.read bare.currentPath
  let src := { bare with file? := fun path => if path = bare.currentPath then text.toOption else none }
  return src.loadCurrent

/-- Makes a place for the log. -/
def startLog (disk : Disk m) (s : LogSettings) : Steps m Unit :=
  match s.directory with
  | none => pure ()
  | some directory => do
    match ← onDisk (disk.makeDirectory directory) with
    | .ok () => pure ()
    | .error e => throw (.failed ("日誌錯誤: 無法創建日誌目錄 " ++ directory ++ ": " ++ e.message))

/-- Refuses an address that is none, if there is to be one. -/
def startMetrics (s : MetricsSettings) : Steps m Unit :=
  if s.enabled then
    match Settings.socketAddress s.listenAddress "metrics.listen_address" with
    | .ok _ => pure ()
    | .error e => throw (.failed ("指標錯誤: " ++ e.message))
  else pure ()

/-! ## Running -/

def readScript (disk : Disk m) (path : String) : Steps m String := do
  match ← onDisk (disk.read path) with
  | .ok source => return source
  | .error e => throw (.failedBecause ("無法讀取腳本 " ++ path) e.message)

/-- The schema of a script; a refusal names the file. -/
def schemaOf (s : SandboxSettings) (path source : String) : Steps m Schema :=
  match Sandbox.execute s source with
  | .ok schema => return schema
  | .error r => throw (.failed (path ++ ": " ++ r.message))

def printJson (j : Json) : Ending := .printed (j.pretty 0 ++ "\n")

/-- How two scripts and what they declare differ. -/
def differences (source₁ source₂ : String) (schema₁ schema₂ : Schema) : Json :=
  .obj [("code", .arr ((Compare.diffLines source₁ source₂).map Compare.Segment.toJson)),
        ("parameters", (Compare.diffFields schema₁.parameters schema₂.parameters).toJson),
        ("factors", (Compare.diffFields schema₁.factors schema₂.factors).toJson)]

def Command.run (disk : Disk m) (s : SandboxSettings) : Command → Steps m Ending
  | .check file => do
    let source ← readScript disk file
    return printJson (← schemaOf s file source).toJson
  | .diff base compare => do
    let source₁ ← readScript disk base
    let source₂ ← readScript disk compare
    let schema₁ ← schemaOf s base source₁
    let schema₂ ← schemaOf s compare source₂
    return printJson (differences source₁ source₂ schema₁ schema₂)

/-- Runs `workbench` on a disk, with variables and the words of a command line. -/
def runWorkbench (disk : Disk m) (vars : List (String × String)) (words : List String) : m Ending := do
  match workbench.read words with
  | .help text => return .printed text
  | .misused => return .misused workbench.help
  | .command c =>
    let loaded ← configuration disk vars
    let (log, sandbox, metrics) := match loaded with
      | .ok s => (s.log, s.sandbox, s.metrics)
      | .error _ => ({}, {}, {})
    Steps.ending do
      startLog disk log
      startMetrics metrics
      c.run disk sandbox

/-- Runs `migrate` up to where it needs the database, which is not there. -/
def runMigrate (disk : Disk m) (vars : List (String × String)) (words : List String) : m Ending := do
  match migrate.read words with
  | .help text => return .printed text
  | .misused => return .misused migrate.help
  | .command _ =>
    match ← configuration disk vars with
    | .error e => return .failedBecause "無法加載配置" e.message
    | .ok _ => return .failed "無法初始化資料庫連接池"

end StrategyBench.Cli

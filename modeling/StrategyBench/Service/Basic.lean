/-
StrategyBench.Service.Basic — the requests of the workbench.

A request runs on a store, with what a sandbox answers for a source (`execute`), the moment and the
date given. It answers a value or an error, and the store after it in either case.
-/

import StrategyBench.Store.Lifecycle
import StrategyBench.Sandbox.Rejection
import StrategyBench.Compare.Lines
import StrategyBench.Compare.Fields
import StrategyBench.Text.Blank

namespace StrategyBench

inductive ServiceError
  | rejected (reason : Rejection)
  | version (reason : StoreError)
  | invalidRequest (text : String)
  deriving DecidableEq, Repr

namespace ServiceError

def message : ServiceError → String
  | .rejected r => "腳本被拒絕: " ++ r.message
  | .version e => e.message
  | .invalidRequest text => "無效的請求: " ++ text

def kind : ServiceError → String
  | .rejected r => "rejected." ++ r.kind
  | .version e => "version." ++ e.kind
  | .invalidRequest _ => "invalid_request"

/-- The caller is at fault, and the same request will not succeed. -/
def isClientError : ServiceError → Bool
  | .version (.database _) => false
  | _ => true

end ServiceError

/-- What a request sees besides the store. -/
structure Surroundings where
  execute : String → Except Rejection Schema
  /-- The moment of all writes of the request. The clock is read anew at each of them, so the flag of a
  version that is saved as a master may be some moments later than the version: here they are one. -/
  now : Instant
  today : Date

namespace Service

/-- A request: an outcome, and the store after it. -/
abbrev Request := ExceptT ServiceError (StateM Store)

def store : Request Store := (get : StateM Store Store)

def fail {α : Type} (e : ServiceError) : Request α := throw e

def ofStore {α : Type} : Except StoreError α → Request α
  | .ok a => pure a
  | .error e => fail (.version e)

/-- A write that answers a row. -/
def write {α : Type} (op : Store → Except StoreError (α × Store)) : Request α := do
  let (a, s) ← ofStore (op (← store))
  set s
  pure a

def requireStrategy (id : Int) : Request Strategy := do
  match (← store).strategy? id with
  | some t => pure t
  | none => fail (.version (.strategyNotFound id))

def requireVersion (id : Int) : Request Version := do
  match (← store).version? id with
  | some v => pure v
  | none => fail (.version (.versionNotFound id))

/-- A version of the strategy; one of another strategy is not found. -/
def requireOwned (strategy id : Int) : Request Version := do
  let v ← requireVersion id
  if v.strategy = strategy then pure v else fail (.version (.versionNotFound id))

/-- A code that was asked for, trimmed; a blank one is refused. -/
def requestedCode : Option String → Request (Option String)
  | none => pure none
  | some code =>
    let code := Text.trim code
    if code.isEmpty then fail (.invalidRequest "版本代碼不能為空白") else pure (some code)

def runScript (env : Surroundings) (source : String) : Request Schema :=
  match env.execute source with
  | .ok schema => pure schema
  | .error r => fail (.rejected r)

/-! ## Requests -/

def createStrategy (env : Surroundings) (name : String) (description : Option String) :
    Request Strategy := do
  let name := Text.trim name
  if name.isEmpty then fail (.invalidRequest "策略名稱不能為空")
  else
    let (t, s) := (← store).createStrategy env.now name description
    set s
    pure t

structure Submission where
  strategy : Int
  source : String
  code : Option String
  remark : Option String
  isMaster : Bool

def setMaster (env : Surroundings) (strategy version : Int) : Request Unit :=
  write fun s => (s.setMaster env.now strategy version).map ((), ·)

/-- The code of a submission: the one asked for, if it is free, or else the next one of today. -/
def chooseCode (env : Surroundings) (strategy : Int) : Option String → Request String
  | some code => do
    ofStore ((← store).ensureCodeAvailable strategy code none)
    pure code
  | none => do ofStore ((← store).nextCode strategy env.today)

/-- Runs a script and saves it as a version, under the code asked for or the next free one of today. -/
def submit (env : Surroundings) (r : Submission) : Request Version := do
  let _ ← requireStrategy r.strategy
  let requested ← requestedCode r.code
  let schema ← runScript env r.source
  let code ← chooseCode env r.strategy requested
  let saved ← write (·.saveVersion env.now r.strategy
    ⟨code, r.source, schema.parameters, schema.factors, r.remark⟩)
  if r.isMaster then
    setMaster env r.strategy saved.id
    requireVersion saved.id
  else pure saved

structure Revision where
  version : Int
  source : Option String
  code : Option String
  remark : Option String

/-- A new source with its schema, if a source is given. -/
def rerun (env : Surroundings) : Option String → Request (Option (String × Schema))
  | some source => do pure (some (source, ← runScript env source))
  | none => pure none

/-- A version may keep its code; any other has to be free. -/
def checkCode (v : Version) : Option String → Request Unit
  | some code => do
    if code = v.content.code then pure ()
    else ofStore ((← store).ensureCodeAvailable v.strategy code (some v.id))
  | none => pure ()

/-- The content with the parts that are given in place. -/
def replaced (c : Content) (code : Option String) (rerun : Option (String × Schema))
    (remark : Option String) : Content :=
  { code := code.getD c.code
    source := (rerun.map (·.1)).getD c.source
    parameters := (rerun.map (·.2.parameters)).getD c.parameters
    factors := (rerun.map (·.2.factors)).getD c.factors
    remark := remark.or c.remark }

/-- Replaces the parts of a version that are given; a new source is run again. -/
def update (env : Surroundings) (r : Revision) : Request Version := do
  let _ ← requireVersion r.version
  let requested ← requestedCode r.code
  let rerun ← rerun env r.source
  let existing ← requireVersion r.version
  checkCode existing requested
  write (·.updateVersion env.now r.version (replaced existing.content requested rerun r.remark))

def listVersions (strategy : Int) : Request (List Version) := do
  let _ ← requireStrategy strategy
  pure ((← store).versionsOf strategy)

def getSchema (version : Int) : Request Schema := do
  pure (← requireVersion version).schema

structure VersionDiff where
  base : Version
  compare : Version
  code : List Compare.Segment
  parameters : Compare.FieldDiff
  factors : Compare.FieldDiff

def diffOf (base compare : Version) : VersionDiff :=
  { base := base
    compare := compare
    code := Compare.diffLines base.content.source compare.content.source
    parameters := Compare.diffFields base.content.parameters compare.content.parameters
    factors := Compare.diffFields base.content.factors compare.content.factors }

def diff (strategy base compare : Int) : Request VersionDiff := do
  let base ← requireOwned strategy base
  let compare ← requireOwned strategy compare
  pure (diffOf base compare)

def nextCode (strategy : Int) (date : Date) : Request String := do
  ofStore ((← store).nextCode strategy date)

end Service
end StrategyBench

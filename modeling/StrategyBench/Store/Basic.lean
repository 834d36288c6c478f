/-
StrategyBench.Store.Basic — strategies, their versions, and the four writes on them.

Ids are handed out from one on, and a row is put under the id that it is given. A write looks rows
up by the key they are under and goes by the ids inside them where it passes over all of them. It either
fails and leaves the store alone, or answers the row it wrote.
-/

import StrategyBench.Field.Basic
import StrategyBench.Store.Rows

namespace StrategyBench

/-- A moment; only the order of moments matters. -/
abbrev Instant := Nat

structure Strategy where
  id : Int
  name : String
  description : Option String
  master : Option Int := none
  createdAt : Instant
  updatedAt : Instant
  deriving Inhabited

/-- What of a version can be replaced. -/
structure Content where
  code : String
  source : String
  parameters : List Field
  factors : List Field
  remark : Option String
  deriving Inhabited

structure Version where
  id : Int
  strategy : Int
  content : Content
  isMaster : Bool := false
  createdAt : Instant
  updatedAt : Instant
  deriving Inhabited

def Version.schema (v : Version) : Schema := ⟨v.content.parameters, v.content.factors⟩

inductive StoreError
  | versionConflict (code : String)
  | strategyNotFound (id : Int)
  | versionNotFound (id : Int)
  | database (text : String)
  deriving DecidableEq, Repr

def StoreError.message : StoreError → String
  | .versionConflict code => "版本代碼已存在: " ++ code
  | .strategyNotFound id => "策略不存在: ID " ++ toString id
  | .versionNotFound id => "版本不存在: ID " ++ toString id
  | .database text => "資料庫錯誤: " ++ text

def StoreError.kind : StoreError → String
  | .versionConflict _ => "version_conflict"
  | .strategyNotFound _ => "strategy_not_found"
  | .versionNotFound _ => "version_not_found"
  | .database _ => "database"

structure Store where
  strategyRows : Rows Strategy := ∅
  versionRows : Rows Version := ∅
  lastStrategy : Int := 0
  lastVersion : Int := 0
  deriving Inhabited

namespace Store

/-! ## Reading -/

def strategies (s : Store) : List Strategy := s.strategyRows.values

def versions (s : Store) : List Version := s.versionRows.values

def strategy? (s : Store) (id : Int) : Option Strategy := s.strategyRows.get? id

def version? (s : Store) (id : Int) : Option Version := s.versionRows.get? id

/-- `a` comes before `b` in a listing: later created, or as late and of a greater id. -/
def listedBefore (a b : Version) : Bool :=
  decide (b.createdAt < a.createdAt) || (a.createdAt == b.createdAt && decide (b.id ≤ a.id))

/-- The versions of a strategy, newest first. -/
def versionsOf (s : Store) (strategy : Int) : List Version :=
  (s.versions.filter (·.strategy = strategy)).mergeSort listedBefore

/-- A version of the strategy, other than `except`, has the code. -/
def codeTaken (s : Store) (strategy : Int) (code : String) (except : Option Int) : Bool :=
  s.versions.any fun v => v.strategy = strategy && v.content.code = code && some v.id ≠ except

/-! ## Writing -/

def createStrategy (s : Store) (now : Instant) (name : String) (description : Option String) :
    Strategy × Store :=
  let id := s.lastStrategy + 1
  let row : Strategy := ⟨id, name, description, none, now, now⟩
  (row, { s with strategyRows := s.strategyRows.insert row.id row, lastStrategy := id })

def saveVersion (s : Store) (now : Instant) (strategy : Int) (content : Content) :
    Except StoreError (Version × Store) :=
  if (s.strategy? strategy).isNone then .error (.strategyNotFound strategy)
  else if s.codeTaken strategy content.code none then .error (.versionConflict content.code)
  else
    let id := s.lastVersion + 1
    let row : Version := ⟨id, strategy, content, false, now, now⟩
    .ok (row, { s with versionRows := s.versionRows.insert row.id row, lastVersion := id })

/-- Replaces the content of a version. -/
def updateVersion (s : Store) (now : Instant) (id : Int) (content : Content) :
    Except StoreError (Version × Store) :=
  match s.version? id with
  | none => .error (.versionNotFound id)
  | some v =>
    if s.codeTaken v.strategy content.code (some id) then .error (.versionConflict content.code)
    else
      let rewrite := fun w : Version => { w with content := content, updatedAt := now }
      .ok (rewrite v, { s with versionRows := s.versionRows.modify id rewrite })

/-- Flags exactly one version of a strategy and points the strategy to it. -/
def setMaster (s : Store) (now : Instant) (strategy version : Int) : Except StoreError Store :=
  if (s.strategy? strategy).isNone then .error (.strategyNotFound strategy)
  else if (s.version? version).all (·.strategy ≠ strategy) then .error (.versionNotFound version)
  else
    let flag := fun v : Version =>
      if v.strategy = strategy ∧ v.isMaster ≠ decide (v.id = version) then
        { v with isMaster := decide (v.id = version), updatedAt := now }
      else v
    let point := fun t : Strategy => { t with master := some version, updatedAt := now }
    .ok { s with versionRows := s.versionRows.map flag, strategyRows := s.strategyRows.modify strategy point }

/-! ## Writes as data -/

/-- One write, with its moment. -/
inductive Write
  | createStrategy (name : String) (description : Option String)
  | saveVersion (strategy : Int) (content : Content)
  | updateVersion (id : Int) (content : Content)
  | setMaster (strategy version : Int)

/-- The store after a write; a write that fails changes nothing. -/
def apply (s : Store) (now : Instant) : Write → Store
  | .createStrategy name description => (s.createStrategy now name description).2
  | .saveVersion strategy content => ((s.saveVersion now strategy content).map Prod.snd).toOption.getD s
  | .updateVersion id content => ((s.updateVersion now id content).map Prod.snd).toOption.getD s
  | .setMaster strategy version => (s.setMaster now strategy version).toOption.getD s

/-- The store after a sequence of writes. -/
def run (s : Store) (writes : List (Instant × Write)) : Store :=
  writes.foldl (fun s w => s.apply w.1 w.2) s

end Store
end StrategyBench

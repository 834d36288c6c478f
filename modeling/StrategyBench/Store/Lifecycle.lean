/-
StrategyBench.Store.Lifecycle — free codes, and the table of strategies that are locked for writing.
-/

import StrategyBench.Store.Basic
import StrategyBench.Version.Code

namespace StrategyBench

namespace Store

/-- Refuses a code that a version of the strategy, other than `except`, has. -/
def ensureCodeAvailable (s : Store) (strategy : Int) (code : String) (except : Option Int) :
    Except StoreError Unit :=
  if (s.versionsOf strategy).any fun v => v.content.code = code && some v.id ≠ except then
    .error (.versionConflict code)
  else .ok ()

/-- The next generated code of a strategy for a date. -/
def nextCode (s : Store) (strategy : Int) (date : Date) : Except StoreError String :=
  if (s.strategy? strategy).isNone then .error (.strategyNotFound strategy)
  else .ok (VersionCode.generate ((s.versionsOf strategy).map (·.content.code)) date)

end Store

/-- The strategies whose write lock is held; a lock that is let go leaves the table. -/
structure Locks where
  held : List Int := []

namespace Locks

/-- Takes the lock of a strategy; `none` would have to wait. -/
def acquire? (l : Locks) (strategy : Int) : Option Locks :=
  if l.held.contains strategy then none else some ⟨strategy :: l.held⟩

/-- Lets a lock go; answers whether it was held. -/
def release (l : Locks) (strategy : Int) : Bool × Locks :=
  (l.held.contains strategy, ⟨l.held.filter (· ≠ strategy)⟩)

def tracked (l : Locks) : Nat := l.held.length

end Locks
end StrategyBench

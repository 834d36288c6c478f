/-
StrategyBench.Sandbox.Rejection — why a script is refused.
-/

namespace StrategyBench

inductive Rejection
  | compile (text : String)
  | disallowedModule (name : String)
  | runtime (text : String)
  | timeout (milliseconds : Nat)
  | contractViolation (reason : String)
  | duplicateKey (category key : String)
  deriving DecidableEq, Repr

namespace Rejection

def message : Rejection → String
  | .compile text => "腳本編譯失敗: " ++ text
  | .disallowedModule name => "不允許引入模組: " ++ name
  | .runtime text => "腳本執行錯誤: " ++ text
  | .timeout ms => "腳本執行逾時 (" ++ toString ms ++ " ms)"
  | .contractViolation reason => "腳本匯出不符合契約: " ++ reason
  | .duplicateKey category key => category ++ " 中存在重複的鍵: " ++ key

/-- The label of the kind of refusal. -/
def kind : Rejection → String
  | .compile _ => "compile"
  | .disallowedModule _ => "disallowed_module"
  | .runtime _ => "runtime"
  | .timeout _ => "timeout"
  | .contractViolation _ => "contract_violation"
  | .duplicateKey _ _ => "duplicate_key"

/-- Sending the same source again is refused again, whatever the kind. -/
def permanent (_ : Rejection) : Bool := true

/-- A declaration that names no key. -/
def missingKey : Rejection := .runtime "definition missing key"

end Rejection
end StrategyBench

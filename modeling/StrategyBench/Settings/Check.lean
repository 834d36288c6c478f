/-
StrategyBench.Settings.Check — what can be wrong with a setting, and the checks that find it.
-/

import StrategyBench.Text.Blank
import StrategyBench.Text.Lowercase
import StrategyBench.Text.Quoted
import StrategyBench.Settings.Address

namespace StrategyBench

inductive SettingError
  | missingField (field : String)
  | invalidValue (text : String)
  | range (field value low high : String)
  | dependency (dependent needed : String)
  deriving DecidableEq, Repr

namespace SettingError

def message : SettingError → String
  | .missingField field => "缺少必要配置項: " ++ field
  | .invalidValue text => "無效的配置值: " ++ text
  | .range field value low high =>
    "配置範圍錯誤: " ++ field ++ " 的值 " ++ value ++ " 不在範圍 " ++ low ++ ".." ++ high ++ " 內"
  | .dependency dependent needed => "依賴錯誤: " ++ dependent ++ " 依賴於 " ++ needed ++ " 的配置"

def kind : SettingError → String
  | .missingField _ => "missing_field"
  | .invalidValue _ => "invalid_value"
  | .range _ _ _ _ => "range"
  | .dependency _ _ => "dependency"

end SettingError

namespace Settings

abbrev Checked := Except SettingError Unit

/-- Refuses a value below the low or above the high end, in any order of values. -/
def inRange {α : Type} (less : α → α → Bool) (text : α → String) (value low high : α)
    (field : String) : Checked :=
  if less value low || less high value then .error (.range field (text value) (text low) (text high))
  else .ok ()

def natInRange (value low high : Nat) (field : String) : Checked :=
  inRange (fun a b : Nat => decide (a < b)) toString value low high field

/-- Refuses a value whose lower-case form is none of the options. -/
def oneOf (value : String) (options : List String) (field : String) : Checked :=
  if options.contains (Text.lower value) then .ok ()
  else .error (.invalidValue (field ++ " 的值 " ++ value ++ " 不是有效選項: " ++ Text.quotedList options))

def notEmpty (value field : String) : Checked :=
  if Text.blank value then .error (.missingField field) else .ok ()

/-- The address that a text names. -/
def socketAddress (value field : String) : Except SettingError SocketAddress :=
  match SocketAddress.read? value with
  | some a => .ok a
  | none => .error (.invalidValue (field ++ " 不是有效的位址: " ++ value))

def checkDependency (hasDependent hasDependency : Bool) (dependent dependency : String) : Checked :=
  if hasDependent && !hasDependency then .error (.dependency dependent dependency) else .ok ()

end Settings
end StrategyBench

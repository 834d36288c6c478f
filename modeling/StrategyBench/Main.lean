/-
StrategyBench.Main — the tools on the disk of the host.

The program that is called `migrate` is that tool; by any other name it is `workbench`.
-/

import StrategyBench.Cli.Command

namespace StrategyBench.Cli

/-! ## The host -/

/-- The numbers that the host gives to errors. -/
def fileError : IO.Error → FileError
  | .noFileOrDirectory .. => .notFound
  | .alreadyExists .. => .alreadyThere
  | .inappropriateType _ 21 _ => .isDirectory
  | .inappropriateType .. => .notDirectory
  | _ => .notText

def hostDisk : Disk IO where
  read path := do
    match ← (IO.FS.readFile path).toBaseIO with
    | .ok text => return .ok text
    | .error e => return .error (fileError e)
  makeDirectory path := do
    if path.isEmpty then return .ok ()
    match ← (IO.FS.createDirAll path).toBaseIO with
    | .ok () => return .ok ()
    | .error e => return .error (fileError e)

/-- The variables of the host that a configuration goes by. -/
def hostVariables : IO (List (String × String)) :=
  ConfigSource.variableNames.filterMapM fun name => do
    return (← IO.getEnv name).map (name, ·)

end StrategyBench.Cli

open StrategyBench.Cli in
def main (words : List String) : IO UInt32 := do
  let vars ← hostVariables
  let name := (← IO.appPath).fileName
  let ending ← if name = some "migrate" then runMigrate hostDisk vars words
    else runWorkbench hostDisk vars words
  (← IO.getStdout).putStr ending.output
  (← IO.getStderr).putStr ending.errors
  return UInt32.ofNat ending.exit

/-
StrategyBench.Cli.Arguments — the words of a command line.

A tool has verbs, and a verb takes a fixed number of values. `-h` asks for help wherever an option
may stand; after `--` every word is a value. A value is never empty.
-/

namespace StrategyBench.Cli

structure Verb (α : Type) where
  name : String
  about : String
  /-- The values that it takes, with what they are. -/
  places : List (String × String) := []
  command : List String → Option α

structure Tool (α : Type) where
  name : String
  about : String
  verbs : List (Verb α)

/-- What a command line asks for. -/
inductive Asked (α : Type)
  | command (c : α)
  | help (text : String)
  /-- It is not understood. -/
  | misused
  deriving Inhabited

/-! ## Help -/

namespace Help

def padTo (n : Nat) (s : String) : String := s ++ String.ofList (List.replicate (n - s.length) ' ')

/-- Lines of two columns, under a title. -/
def columns (title : String) (rows : List (String × String)) : String :=
  let width := rows.foldl (fun n r => max n r.1.length) 0
  title ++ ":\n" ++ String.join (rows.map fun r => "  " ++ padTo width r.1 ++ "  " ++ r.2 ++ "\n")

def options : String := columns "Options" [("-h, --help", "Print help")]

def helpAbout : String := "Print this message or the given subcommand(s)"

def page (about usage : String) (sections : List String) : String :=
  "\n".intercalate ([about ++ "\n", "Usage: " ++ usage ++ "\n"] ++ sections)

end Help

variable {α : Type}

def Verb.help (v : Verb α) (tool : String) : String :=
  let places := v.places.map fun p => ("<" ++ p.1 ++ ">", p.2)
  let usage := " ".intercalate ([tool, v.name] ++ places.map Prod.fst)
  Help.page v.about usage
    ((if places.isEmpty then [] else [Help.columns "Arguments" places]) ++ [Help.options])

namespace Tool

def help (t : Tool α) : String :=
  Help.page t.about (t.name ++ " <COMMAND>")
    [Help.columns "Commands" (t.verbs.map (fun v => (v.name, v.about)) ++ [("help", Help.helpAbout)]),
     Help.options]

/-- The help of the verb `help` itself. -/
def helpHelp (t : Tool α) : String :=
  Help.page Help.helpAbout (t.name ++ " help [COMMAND]...")
    [Help.columns "Arguments" [("[COMMAND]...", "Print help for the subcommand(s)")]]

def verb? (t : Tool α) (name : String) : Option (Verb α) := t.verbs.find? (·.name = name)

/-! ## Reading -/

def asksHelp (word : String) : Bool := word = "--help" || word.startsWith "-h"

def isOption (word : String) : Bool := word.startsWith "-" && word ≠ "-"

/-- Reads the values of a verb; those that have been read are given last first. -/
def readValues (t : Tool α) (v : Verb α) (literal : Bool) (values : List String) :
    List String → Asked α
  | [] =>
    if values.contains "" then .misused
    else
      match v.command values.reverse with
      | some c => .command c
      | none => .misused
  | word :: rest =>
    if !literal && word = "--" then readValues t v true values rest
    else if !literal && asksHelp word then
      if values.contains "" then .misused else .help (v.help t.name)
    else if !literal && isOption word then .misused
    else if values.length = v.places.length then .misused
    else readValues t v literal (word :: values) rest

def readHelp (t : Tool α) : List String → Asked α
  | [] => .help t.help
  | [name] =>
    if name = "help" then .help t.helpHelp
    else
      match t.verb? name with
      | some v => .help (v.help t.name)
      | none => .misused
  | _ => .misused

def read (t : Tool α) : List String → Asked α
  | [] => .misused
  | word :: rest =>
    if asksHelp word then .help t.help
    else if word = "help" then t.readHelp rest
    else
      match t.verb? word with
      | some v => t.readValues v false [] rest
      | none => .misused

end Tool
end StrategyBench.Cli

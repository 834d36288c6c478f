/-
StrategyBench.Service.Encoding — rows and differences as JSON; moments are left out.
-/

import StrategyBench.Service.Basic

namespace StrategyBench

def Json.ofOption {α : Type} (f : α → Json) : Option α → Json
  | some a => f a
  | none => .null

def Strategy.toJson (t : Strategy) : Json :=
  .obj [("strategy_id", .int t.id), ("name", .str t.name),
        ("description", Json.ofOption .str t.description),
        ("master_version_id", Json.ofOption .int t.master)]

def Version.toJson (v : Version) : Json :=
  .obj [("version_id", .int v.id), ("strategy_id", .int v.strategy),
        ("version_code", .str v.content.code), ("is_master", .bool v.isMaster),
        ("source_code", .str v.content.source),
        ("parameter_schema", .arr (v.content.parameters.map Field.toJson)),
        ("factor_schema", .arr (v.content.factors.map Field.toJson)),
        ("remark", Json.ofOption .str v.content.remark)]

def Version.summary (v : Version) : Json :=
  .obj [("version_id", .int v.id), ("version_code", .str v.content.code),
        ("is_master", .bool v.isMaster), ("remark", Json.ofOption .str v.content.remark)]

namespace Compare

def SegmentKind.name : SegmentKind → String
  | .equal => "equal"
  | .added => "added"
  | .removed => "removed"

def Segment.toJson (s : Segment) : Json := .obj [("type", .str s.kind.name), ("value", .str s.value)]

end Compare

def Service.VersionDiff.toJson (d : Service.VersionDiff) : Json :=
  .obj [("base", d.base.summary), ("compare", d.compare.summary),
        ("code", .arr (d.code.map Compare.Segment.toJson)),
        ("parameters", d.parameters.toJson), ("factors", d.factors.toJson)]

end StrategyBench

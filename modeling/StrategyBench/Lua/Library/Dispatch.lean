/-
StrategyBench.Lua.Library.Dispatch — what each built-in function does, and the tables they are in.
-/

import StrategyBench.Lua.Library.Basic
import StrategyBench.Lua.Library.Mathematics
import StrategyBench.Lua.Library.Text
import StrategyBench.Lua.Library.Matching
import StrategyBench.Lua.Library.Tables
import StrategyBench.Lua.Library.Utf8

namespace StrategyBench.Lua

namespace Builtin

open Library

/-- Runs a function of the libraries. -/
def run (f : Builtin) (args : List Value) : Body :=
  match f with
  | assert => Basic.assert args
  | error => Basic.raiseValue args
  | ipairs => Basic.ipairs args
  | next => Basic.next args
  | pairs => Basic.pairs args
  | rawequal => Basic.rawequal args
  | rawget => Basic.rawget args
  | rawlen => Basic.rawlen args
  | rawset => Basic.rawset args
  | select => Basic.select args
  | getmetatable => Basic.getmetatable args
  | setmetatable => Basic.setmetatable args
  | tonumber => Basic.tonumber args
  | tostring => Basic.tostring args
  | type => Basic.type args
  | abs => Mathematics.abs args
  | acos => Mathematics.apply (Mathematics.hardware Float.acos) args
  | asin => Mathematics.apply (Mathematics.hardware Float.asin) args
  | atan | atan2 => Mathematics.atan args
  | ceil => Mathematics.round Double.ceil args
  | cos => Mathematics.apply (Mathematics.hardware Float.cos) args
  | cosh => Mathematics.apply (Mathematics.hardware Float.cosh) args
  | deg => Mathematics.apply Mathematics.degrees args
  | exp => Mathematics.apply (Mathematics.hardware Float.exp) args
  | floor => Mathematics.round Double.floor args
  | fmod => Mathematics.fmod args
  | frexp => Mathematics.frexp args
  | ldexp => Mathematics.ldexp args
  | log => Mathematics.log args
  | log10 => Mathematics.apply (Mathematics.hardware Float.log10) args
  | max => Mathematics.max args
  | min => Mathematics.min args
  | modf => Mathematics.modf args
  | pow => Mathematics.pow args
  | rad => Mathematics.apply Mathematics.radians args
  | random => Mathematics.random args
  | randomseed => Mathematics.randomseed args
  | sin => Mathematics.apply (Mathematics.hardware Float.sin) args
  | sinh => Mathematics.apply (Mathematics.hardware Float.sinh) args
  | sqrt => Mathematics.apply Double.sqrt args
  | tan => Mathematics.apply (Mathematics.hardware Float.tan) args
  | tanh => Mathematics.apply (Mathematics.hardware Float.tanh) args
  | tointeger => Mathematics.tointeger args
  | mathType => Mathematics.mathType args
  | ult => Mathematics.ult args
  | byte => Text.byte args
  | char => Text.char args
  | dump => Text.dump args
  | find => Matching.find args
  | format => Text.format args
  | gmatch => Matching.gmatch args
  | gsub => Matching.gsub args
  | len => Text.len args
  | lower => Text.mapBytes Pattern.Ascii.toLower args
  | match_ => Matching.match_ args
  | pack => Text.pack args
  | packsize => Text.packsize args
  | rep => Text.rep args
  | reverse => Text.reverse args
  | sub => Text.sub args
  | unpack => Text.unpack args
  | upper => Text.mapBytes Pattern.Ascii.toUpper args
  | tableConcat => Tables.concat args
  | insert => Tables.insert args
  | move => Tables.move args
  | tablePack => Tables.pack args
  | remove => Tables.remove args
  | sort => Tables.sort args
  | tableUnpack => Tables.unpack args
  | utf8Char => Utf8.char args
  | codepoint => Utf8.codepoint args
  | codes => Utf8.codes args
  | utf8Len => Utf8.len args
  | offset => Utf8.offset args

end Builtin

namespace Library

/-! ## Names -/

def named (members : List (String × Builtin)) : List (String × Value) :=
  members.map fun (name, f) => (name, .native (.builtin f))

def basicFunctions : List (String × Value) := named
  [("assert", .assert), ("error", .error), ("ipairs", .ipairs), ("next", .next),
   ("pairs", .pairs), ("rawequal", .rawequal), ("rawget", .rawget), ("rawlen", .rawlen),
   ("rawset", .rawset), ("select", .select), ("getmetatable", .getmetatable),
   ("tonumber", .tonumber), ("tostring", .tostring), ("type", .type)]

def mathMembers : List (String × Value) := named
  [("abs", .abs), ("acos", .acos), ("asin", .asin), ("atan", .atan), ("atan2", .atan2),
   ("ceil", .ceil), ("cos", .cos), ("cosh", .cosh), ("deg", .deg), ("exp", .exp),
   ("floor", .floor), ("fmod", .fmod), ("frexp", .frexp), ("ldexp", .ldexp), ("log", .log),
   ("log10", .log10), ("max", .max), ("min", .min), ("modf", .modf), ("pow", .pow),
   ("rad", .rad), ("random", .random), ("randomseed", .randomseed), ("sin", .sin),
   ("sinh", .sinh), ("sqrt", .sqrt), ("tan", .tan), ("tanh", .tanh),
   ("tointeger", .tointeger), ("type", .mathType), ("ult", .ult)]
  ++ [("pi", .float Mathematics.pi), ("huge", .float Double.infinity),
      ("maxinteger", .int (Int64.ofInt Numeral.maxInt)),
      ("mininteger", .int (Int64.ofInt Numeral.minInt))]

def stringMembers : List (String × Value) := named
  [("byte", .byte), ("char", .char), ("dump", .dump), ("find", .find), ("format", .format),
   ("gmatch", .gmatch), ("gsub", .gsub), ("len", .len), ("lower", .lower), ("match", .match_),
   ("pack", .pack), ("packsize", .packsize), ("rep", .rep), ("reverse", .reverse),
   ("sub", .sub), ("unpack", .unpack), ("upper", .upper)]

def tableMembers : List (String × Value) := named
  [("concat", .tableConcat), ("insert", .insert), ("move", .move), ("pack", .tablePack),
   ("remove", .remove), ("sort", .sort), ("unpack", .tableUnpack)]

def utf8Members : List (String × Value) := named
  [("char", .utf8Char), ("codepoint", .codepoint), ("codes", .codes), ("len", .utf8Len),
   ("offset", .offset)] ++ [("charpattern", .str Utf8.charPattern)]

/-- The metamethods of strings, but for `__index`. -/
def stringMetamethods : List (String × Value) :=
  [ArithOp.add, .sub, .mul, .mod, .pow, .div, .idiv, .unm].map fun op =>
    ("__" ++ op.event, .native (.stringArith op))

/-- Runs a function that is not one of the host. -/
def runNative (f : Native) (args : List Value) : Body :=
  match f with
  | .builtin f => f.run args
  | .stringArith op => Text.arith op args
  | .ipairsStep => Basic.ipairsStep args
  | .codesStep lax => Utf8.codesStep lax args
  | .gmatchStep s p place last => Matching.gmatchStep s p place last
  | .host _ => .done []

end Library
end StrategyBench.Lua

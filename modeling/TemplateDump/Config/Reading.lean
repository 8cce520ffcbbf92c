import TemplateDump.Setup

/-!
# Reading a configuration

A configuration is read from the file at a path. What a readable file holds is given by a function;
a file that cannot be read is an error.
-/

namespace TemplateDump

/-- Why a configuration cannot be read. -/
inductive ConfigError where
  | unreadable (path : String)
deriving DecidableEq

/-- The wording of an error. -/
def ConfigError.message : ConfigError → String
  | .unreadable path => "无法读取转储配置文件: " ++ path

/-- Reads the configuration at a path. The function gives what a readable file holds. -/
def DumpConfig.read (contents : String → Option DumpConfig) (path : String) :
    Except ConfigError DumpConfig :=
  match contents path with
  | some config => .ok config
  | none => .error (.unreadable path)

end TemplateDump

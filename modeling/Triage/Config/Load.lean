import Triage.Config.Reading
import Triage.Config.Validation
import Triage.Files.Tree

/-!
# Loading configurations

Which file a configuration is read from, and what that file has to be like.
-/

namespace Triage

/-- The most bytes that a configuration file may have. -/
def maxConfigBytes : Nat := 1024 * 1024

namespace Config

/-- The file that is read when none is named. -/
def defaultName : String := "issue-workflow.toml"

/-- The path to read: one that the caller gives, one from the environment, or the default. -/
def resolvePath (given environment : Option String) : Except ConfigError Path :=
  match given, environment with
  | some path, _ => .ok ⟨path⟩
  | none, some path =>
    if (Path.mk path).isOverlong then refuse "config path exceeds max length" else .ok ⟨path⟩
  | none, none => .ok ⟨defaultName⟩

/-- Checks the path to read. -/
def checkConfigPath (p : Path) : Except ConfigError Unit :=
  if p.isOverlong then refuse "config path exceeds max length"
  else if p.hasOverlongName then refuse "config path component too long"
  else .ok ()

/-- The configuration that the bytes of a file hold. -/
def ofBytes (bytes : ByteArray) : Except ConfigError Config := do
  if maxConfigBytes < bytes.size then refuse "config file exceeds size limit"
  match String.fromUTF8? bytes with
  | none => refuse "config file must be utf-8"
  | some text =>
    match parse? text with
    | none => throw (.parse "document cannot be read")
    | some c =>
      c.validate
      return c

/-- Reads and checks a configuration. -/
def load (f : Files) (given environment : Option String) : Except ConfigError Config := do
  let p ← resolvePath given environment
  checkConfigPath p
  match f.read? p with
  | none => throw (.io "file cannot be read")
  | some bytes => ofBytes bytes

end Config

end Triage

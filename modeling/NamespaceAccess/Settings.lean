import NamespaceAccess.Engine
import NamespaceAccess.FilePath
import NamespaceAccess.Text

/-!
The settings of a deployment, and the first rule that settings break.
-/
namespace NamespaceAccess

inductive SinkKind where
  | none | stderr | file
  deriving DecidableEq, Repr

namespace SinkKind

def label : SinkKind → String
  | none => "none"
  | stderr => "stderr"
  | file => "file"

def ofLabel? : String → Option SinkKind
  | "none" => some none
  | "stderr" => some stderr
  | "file" => some file
  | _ => Option.none

@[simp] theorem ofLabel?_label (k : SinkKind) : ofLabel? k.label = some k := by cases k <;> rfl

end SinkKind

structure SecuritySettings where
  adminGroup : String
  enforceVerbs : Bool
  deriving DecidableEq, Repr

structure AuditSettings where
  sink : SinkKind
  path : Option String
  deriving DecidableEq, Repr

structure Settings where
  security : SecuritySettings
  audit : AuditSettings
  deriving DecidableEq, Repr

inductive PathSetting where
  | settingsFile | auditLog
  deriving DecidableEq, Repr

def PathSetting.label : PathSetting → String
  | settingsFile => "nsgate config path"
  | auditLog => "audit.path"

inductive SettingsFault where
  | pathTooLong (setting : PathSetting)
  | componentTooLong (setting : PathSetting)
  | fileTooLarge
  | fileNotUtf8
  | adminGroupMissing
  | adminGroupTooLong
  | adminGroupIllFormed
  | auditPathMissing
  | auditPathUnused
  deriving DecidableEq, Repr

namespace SettingsFault

def detail : SettingsFault → String
  | pathTooLong s => s.label ++ " longer than " ++ FilePath.maxTotalLength.repr ++ " bytes"
  | componentTooLong s =>
    s.label ++ " has a component longer than " ++ FilePath.maxComponentLength.repr ++ " bytes"
  | fileTooLarge => "config file exceeds size limit"
  | fileNotUtf8 => "config file must be utf-8"
  | adminGroupMissing => "security.admin_group must be set"
  | adminGroupTooLong => "security.admin_group too long"
  | adminGroupIllFormed =>
    "security.admin_group must not contain whitespace or control characters"
  | auditPathMissing => "audit.path is required for the file sink"
  | auditPathUnused => "audit.path is only valid for the file sink"

def message (f : SettingsFault) : String := "invalid config: " ++ f.detail

end SettingsFault

/-- Paths are text. One that is not UTF-8 cannot be given here. -/
def PathSetting.fault? (setting : PathSetting) (path : String) : Option SettingsFault :=
  if path.utf8ByteSize > FilePath.maxTotalLength then some (.pathTooLong setting)
  else if (FilePath.components path).any (·.utf8ByteSize > FilePath.maxComponentLength) then
    some (.componentTooLong setting)
  else none

namespace SecuritySettings

/-- In bytes of UTF-8. -/
def maxAdminGroupLength : Nat := 256

def fault? (s : SecuritySettings) : Option SettingsFault :=
  if s.adminGroup.isEmpty then some .adminGroupMissing
  else if s.adminGroup.utf8ByteSize > maxAdminGroupLength then some .adminGroupTooLong
  else if s.adminGroup.toList.any fun c => isWhiteSpace c || isControl c then
    some .adminGroupIllFormed
  else none

end SecuritySettings

/-- A path is required of the file sink and refused to the others. -/
def AuditSettings.fault? (s : AuditSettings) : Option SettingsFault :=
  match s.sink, s.path with
  | .file, none => some .auditPathMissing
  | .file, some path => PathSetting.fault? .auditLog path
  | _, some _ => some .auditPathUnused
  | _, none => none

namespace Settings

/-- The security section is checked before the audit section. -/
def fault? (s : Settings) : Option SettingsFault := s.security.fault? <|> s.audit.fault?

def engineConfig (s : Settings) : EngineConfig where
  adminGroup := s.security.adminGroup
  enforceVerbs := s.security.enforceVerbs

end Settings

end NamespaceAccess

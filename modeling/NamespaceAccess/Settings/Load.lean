import NamespaceAccess.FileTree
import NamespaceAccess.Settings.Toml

/-!
Settings loaded from a file, and the audit sink they call for. Whatever is missing or wrong stops the
load.
-/
namespace NamespaceAccess

inductive SettingsError where
  | io (error : FileError)
  | parse
  | invalid (fault : SettingsFault)
  deriving DecidableEq, Repr

namespace Settings

/-- Settings are returned only once they break no rule. -/
def validated (s : Settings) : Except SettingsError Settings :=
  match s.fault? with
  | some fault => .error (.invalid fault)
  | none => .ok s

def ofToml (document : String) : Except SettingsError Settings :=
  match parse? document with
  | none => .error .parse
  | some s => s.validated

def defaultFile : String := "nsgate.toml"

/-- An argument wins over the environment, and both over the default. -/
def chosenFile (argument environment : Option String) : String :=
  (argument <|> environment).getD defaultFile

/-- In bytes. -/
def maxFileSize : Nat := 1048576

def ofBytes (bytes : ByteArray) : Except SettingsError Settings :=
  if bytes.size > maxFileSize then .error (.invalid .fileTooLarge)
  else
    match String.fromUTF8? bytes with
    | none => .error (.invalid .fileNotUtf8)
    | some document => ofToml document

/-- The path is checked before any file is read. It is text, whether it comes from an argument or from
the environment, and so are the paths that `readFile` knows. -/
def load (readFile : String → Except FileError ByteArray) (argument environment : Option String) :
    Except SettingsError Settings :=
  let path := chosenFile argument environment
  match PathSetting.settingsFile.fault? path with
  | some fault => .error (.invalid fault)
  | none =>
    match readFile path with
    | .error e => .error (.io e)
    | .ok bytes => ofBytes bytes

end Settings

inductive AuditSink where
  | discard
  | stderr
  | file (path : String)
  deriving DecidableEq, Repr

inductive SinkError where
  | pathRequired
  | cannotOpen (error : FileError)
  deriving DecidableEq, Repr

def SinkError.message : SinkError → String
  | pathRequired => "audit.path is required for the file sink"
  | cannotOpen _ => "audit log cannot be opened"

/-- The log file is opened at once, so that a path that leads nowhere is noticed. -/
def AuditSettings.openSink (s : AuditSettings) (t : FileTree) :
    Except SinkError (AuditSink × FileTree) :=
  match s.sink, s.path with
  | .none, _ => .ok (.discard, t)
  | .stderr, _ => .ok (.stderr, t)
  | .file, none => .error .pathRequired
  | .file, some path =>
    match t.openToAppend path with
    | .error e => .error (.cannotOpen e)
    | .ok t => .ok (.file path, t)

end NamespaceAccess

import HttpDns.Config.Toml

/-!
# Loading configurations

A configuration comes from a file, or is the default one where no file is named; values given
besides it are applied last. A file has to be text and a configuration document.
-/

namespace HttpDns

/-- The bytes at a path, however they are come by. -/
abbrev FileSource := String → Except ReadFault ByteArray

namespace Config

/-- The configuration in a file. -/
def ofFile (source : FileSource) (path : String) : Except ConfigError Config :=
  match source path with
  | .error f => .error (.fileRead path f)
  | .ok bytes =>
    match String.fromUTF8? bytes with
    | none => .error (.fileRead path .notUtf8)
    | some text => ofToml text

/-- The configuration in a file, or the default one, with overrides applied. -/
def load (source : FileSource) (path : Option String) (o : Overrides) :
    Except ConfigError Config :=
  match path with
  | none => .ok (Config.override {} o)
  | some path => (ofFile source path).map (·.override o)

/-- The same, for a configuration without fault. -/
def loadValid (source : FileSource) (path : Option String) (o : Overrides) :
    Except ConfigError Config :=
  match load source path o with
  | .error e => .error e
  | .ok c =>
    match c.fault? with
    | some f => .error (.validation f)
    | none => .ok c

end Config

end HttpDns

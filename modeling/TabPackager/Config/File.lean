import TabPackager.Fault
import TabPackager.FileSystem.Operations
import TabPackager.Json.Document
import TabPackager.Text.Lowercase
import TabPackager.Toml.Document
import TabPackager.Yaml.Document

/-!
# Configuration files

The notation of a configuration file follows from its suffix in lower case. What cannot be read,
is not text or breaks the notation is a refusal of the configuration; only a scalar that its
conversion rejects, or a key with too many digits to be named in a refusal, is not expected.
-/

namespace TabPackager.Config

def Markup.ofSuffix? (s : String) : Option Markup :=
  if s = ".toml" then some .toml
  else if s = ".json" then some .json
  else if s = ".yaml" ∨ s = ".yml" then some .yaml
  else none

def Markup.read (m : Markup) (cs : List Char) : Reading Value :=
  match m with
  | .toml => Toml.read cs
  | .json => Json.read cs
  | .yaml => Yaml.read cs

/-- The bytes of a file as text. A file that holds an archive is none. -/
def textOf? : Content → Option String
  | .bytes data => String.fromUTF8? data
  | _ => none

def readFault (path : Path) (m : Markup) : ReadFault → Fault
  | .malformed => .config (.malformed path m)
  | .rejected why => .escape (.rejected why)

/-- The mapping at the root of a configuration file; an empty document is an empty mapping. -/
def loadFile (fs : FileSystem) (cwd : Location) (path : Path) : Except Fault Entries := do
  let suffix := Text.lowercase path.suffix
  let some markup := Markup.ofSuffix? suffix
    | .error (.config (.unsupportedSuffix suffix))
  let (content, _) ← match fs.contentOf cwd path.text with
    | .ok found => .ok found
    | .error why =>
      match why.describe? with
      | some (_, reason) => .error (.config (.unreadable path reason))
      | none => .error (.escape .nulByte)
  let some text := textOf? content
    | .error (.config (.notUtf8 path))
  match markup.read text.toList with
  | .error f => .error (readFault path markup f)
  | .ok .null => .ok []
  | .ok (.map es) => .ok es
  | .ok _ => .error (.config (.notMapping path))

def ofEntries (es : Entries) : Except Fault Packaging :=
  match packaging es with
  | .ok p => .ok p
  | .error e => if e.isShowable then .error (.config e) else .error .unshowable

def packagingOfFile (fs : FileSystem) (cwd : Location) (path : Path) : Except Fault Packaging :=
  loadFile fs cwd path >>= ofEntries

end TabPackager.Config

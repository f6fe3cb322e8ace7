import TabPackager.Config.Value
import TabPackager.Path
import TabPackager.Text.Blank

/-!
# Packaging configuration

The commands with which the tools are called, read from the two tables of a configuration
mapping. The checks come in a fixed order and the first that fails is reported, so that the
order of keys in the document never shows.
-/

namespace TabPackager

structure Packaging where
  cargo : List String := ["cargo"]
  elf2tab : List String := ["elf2tab"]
  cargoArgs : List String := []
  deriving DecidableEq, Repr, Inhabited

namespace Config

inductive Markup where
  | toml
  | json
  | yaml
  deriving DecidableEq, Repr

inductive Error where
  | unsupportedSuffix (suffix : String)
  | unreadable (path : Path) (reason : String)
  | notUtf8 (path : Path)
  | malformed (path : Path) (markup : Markup)
  | notMapping (path : Path)
  | unknownTables (keys : List Value)
  | notTable (table : String)
  | unknownKeys (table : String) (keys : List Value)
  | notStrings (field : String)
  | notStringList (field : String)
  | emptyCommand (field : String)

def sortedKeys (keys : List Value) : List String :=
  (keys.map Value.keyText).mergeSort fun a b => decide (a ≤ b)

def Markup.complaint : Markup → String
  | .toml => "not a TOML document"
  | .json => "not a JSON document"
  | .yaml => "not a YAML document"

def encodingComplaint : String := "not UTF-8 text"

namespace Error

def message : Error → String
  | unsupportedSuffix s =>
    "Unsupported configuration file extension: " ++ (if s = "" then "<none>" else s) ++
      ". Supported: .json, .toml, .yaml, .yml"
  | unreadable p reason => s!"Cannot read configuration file '{p}': {reason}"
  | notUtf8 p => s!"Cannot parse configuration file '{p}': {encodingComplaint}"
  | malformed p m => s!"Cannot parse configuration file '{p}': {m.complaint}"
  | notMapping p => s!"Configuration file '{p}' must contain a mapping at the root"
  | unknownTables keys =>
    "Unknown configuration table(s): " ++ ", ".intercalate (sortedKeys keys)
  | notTable t => s!"[{t}] must be a table"
  | unknownKeys t keys => s!"Unknown key(s) in [{t}]: " ++ ", ".intercalate (sortedKeys keys)
  | notStrings f => f ++ " entries must be strings"
  | notStringList f => f ++ " must be a string or sequence of strings"
  | emptyCommand f => f ++ " must not be empty"

/-- Whether the refusal can be put into words: the keys that it names can be shown. -/
def isShowable : Error → Bool
  | unknownTables keys => Value.areShowable keys
  | unknownKeys _ keys => Value.areShowable keys
  | _ => true

end Error

def trimmedItems? : List Value → Option (List String)
  | [] => some []
  | .text s :: items =>
    let t := Text.trim s
    (trimmedItems? items).map fun rest => if t = "" then rest else t :: rest
  | _ :: _ => none

/-- The list of texts that a value stands for: none for null, one for a text, the items of a
sequence; trimmed, without the blank ones. Bytes are a sequence of numbers. -/
def stringList (field : String) (v : Value) : Except Error (List String) :=
  let ofItems (items : List Value) : Except Error (List String) :=
    match trimmedItems? items with
    | some ss => .ok ss
    | none => .error (.notStrings field)
  match v with
  | .null => .ok []
  | .text s => let t := Text.trim s; .ok (if t = "" then [] else [t])
  | .list items => ofItems items
  | .tuple items => ofItems items
  | .bytes data => if data.isEmpty then .ok [] else .error (.notStrings field)
  | _ => .error (.notStringList field)

def unknownKeys (known : List String) (es : Entries) : List Value :=
  (es.map Prod.fst).filter fun
    | .text s => !known.contains s
    | _ => true

def table (es : Entries) (name : String) (known : List String) : Except Error Entries :=
  match Entries.get? es name with
  | none => .ok []
  | some (.map t) =>
    let unknown := unknownKeys known t
    if unknown.isEmpty then .ok t else .error (.unknownKeys name unknown)
  | some _ => .error (.notTable name)

/-- The command of a tool; the default stands when the key is absent, and an empty command is
refused. -/
def toolCommand (tools : Entries) (key : String) (default : List String) :
    Except Error (List String) :=
  match Entries.get? tools key with
  | none => .ok default
  | some v => do
    let command ← stringList ("tools." ++ key) v
    if command.isEmpty then .error (.emptyCommand ("tools." ++ key)) else .ok command

def packaging (es : Entries) : Except Error Packaging := do
  let unknown := unknownKeys ["tools", "build"] es
  unless unknown.isEmpty do
    throw (.unknownTables unknown)
  let tools ← table es "tools" ["cargo", "elf2tab"]
  let build ← table es "build" ["extra_args"]
  let cargo ← toolCommand tools "cargo" ["cargo"]
  let elf2tab ← toolCommand tools "elf2tab" ["elf2tab"]
  let cargoArgs ← stringList "build.extra_args" ((Entries.get? build "extra_args").getD .null)
  return { cargo, elf2tab, cargoArgs }

end Config

end TabPackager

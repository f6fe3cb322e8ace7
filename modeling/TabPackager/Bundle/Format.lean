import TabPackager.Path
import TabPackager.Text.Lowercase

/-!
# Bundle formats

The format of a bundle follows from the end of its file name in lower case. The longest suffixes
are tried first; no suffix of the table is the end of another, so a name has at most one format.
-/

namespace TabPackager.Bundle

inductive Format where
  | zstd
  | gzip
  | tar
  | zip
  deriving DecidableEq, Repr

def Format.name : Format → String
  | .zstd => "zst"
  | .gzip => "gztar"
  | .tar => "tar"
  | .zip => "zip"

def suffixTable : List (String × Format) :=
  [(".tar.zst", .zstd), (".tzst", .zstd), (".tar.gz", .gzip), (".tgz", .gzip), (".tar", .tar),
    (".zip", .zip)]

inductive Error where
  | unknownFormat (name : String)
  | missingMember (path : Path)
  | compression (target : Path) (reason : String)
  deriving DecidableEq, Repr

namespace Error

def message : Error → String
  | unknownFormat name =>
    s!"Unable to determine bundle format from '{name}'. Supported suffixes: " ++
      ", ".intercalate (suffixTable.map Prod.fst)
  | missingMember p => s!"Bundle member '{p}' does not exist"
  | compression target reason => s!"Cannot compress bundle '{target}': {reason}"

end Error

/-- The format of the first suffix of a table in which the name ends. -/
def formatIn (table : List (String × Format)) (name : String) : Option Format :=
  let lower := (Text.lowercase name).toList
  (table.find? fun e => e.1.toList.isSuffixOf lower).map Prod.snd

/-- The suffixes as they are tried: the longest first, and those of one length as in the table. -/
def triedSuffixes : List (String × Format) :=
  (suffixTable.toArray.insertionSort fun a b => decide (b.1.length < a.1.length)).toList

def formatOfName? (name : String) : Option Format := formatIn triedSuffixes name

def formatOf (target : Path) : Except Error Format :=
  match formatOfName? target.name with
  | some f => .ok f
  | none => .error (.unknownFormat target.name)

end TabPackager.Bundle

import TabPackager.Yaml.Meaning

/-!
# YAML documents

The value of a text in YAML: null if it holds no document, and the value of the root node of its
only document otherwise.
-/

namespace TabPackager.Yaml

open Config

def pieceLength : Nat := 4096

/-- The pieces of a text before the one with the first character that no document may hold. The
first two pieces are taken in at once. -/
def piecesBeforeForbidden (cs : List Char) : List Char :=
  let pieces := (cs.takeWhile isAllowed).length / pieceLength
  if pieces < 2 then [] else cs.take (pieces * pieceLength)

/-- The value of a YAML text. The text is taken in piece by piece, so that a character which no
document may hold is met after a rejection in the pieces before. -/
def read (cs : List Char) : Reading Value := do
  let cs := unifyLineEnds cs
  if !cs.all isAllowed then
    match Node.compose (Token.scan (piecesBeforeForbidden cs)) with
    | .error (.rejected why) => .error (.rejected why)
    | _ => malformed
  let (root, named) ← Node.compose (Token.scan cs)
  match root with
  | none => return .null
  | some root =>
    let meanings := Meaning.ofNamed named
    let m := Meaning.ofNode (fun s => (meanings.lookup s).getD .folded) root
    match m.result.fault with
    | some (_, f) => .error f
    | none => return m.value

end TabPackager.Yaml

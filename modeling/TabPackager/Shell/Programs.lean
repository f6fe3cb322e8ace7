import TabPackager.Archive.Tar
import TabPackager.Calendar
import TabPackager.FileSystem.Listing
import TabPackager.Shell.Machine
import TabPackager.Text.Digit
import TabPackager.Text.Split

/-!
# Everyday programs

Programs that print their arguments, and that show, make, stamp, take away and search files. Each
does what it can for every operand and says what it could not do.
-/

namespace TabPackager.Shell

def escapedChar? (c : Char) : Option Char :=
  if c = 'n' then some '\n' else if c = 't' then some '\t' else if c = 'r' then some '\r'
  else if c = '\\' then some '\\' else none

def unescape : List Char → List Char
  | '\\' :: c :: cs =>
    match escapedChar? c with
    | some d => d :: unescape cs
    | none => '\\' :: c :: unescape cs
  | c :: cs => c :: unescape cs
  | [] => []

def echoWith (escapes : Bool) : Program := fun s arguments => do
  let text := (" ".intercalate arguments).toList
  printBytes s (String.ofList ((if escapes then unescape text else text) ++ ['\n'])).toUTF8
  return 0

/-- One use of a format, and the arguments that are left. -/
def useFormat : List Char → List String → List Char × List String
  | '%' :: '%' :: cs, arguments =>
    let (text, left) := useFormat cs arguments
    ('%' :: text, left)
  | '%' :: 's' :: cs, arguments =>
    let (text, left) := useFormat cs arguments.tail
    ((arguments.headD "").toList ++ text, left)
  | c :: cs, arguments =>
    let (text, left) := useFormat cs arguments
    (c :: text, left)
  | [], arguments => ([], arguments)

def useFormatAgain (format : List Char) : Nat → List String → List Char
  | 0, _ => []
  | n + 1, arguments =>
    let (text, left) := useFormat format arguments
    if left.isEmpty || left.length == arguments.length then text
    else text ++ useFormatAgain format n left

def printf : Program := fun s arguments => do
  let format := unescape (arguments.headD "").toList
  let text := useFormatAgain format arguments.length arguments.tail
  printBytes s (String.ofList text).toUTF8
  return 0

def pwd : Program := fun s _ => do
  printBytes s ("/" ++ "/".intercalate s.cwd ++ "\n").toUTF8
  return 0

def saying (text : String) : Except Refusal Unit → Except String Unit
  | .ok () => .ok ()
  | .error why => .error (text ++ ": " ++ reasonText why)

def cat : Program := fun s arguments => do
  if arguments.isEmpty then printBytes s s.input
  forEach s (fun name => do
    match ← look fun fs => fs.contentOf s.cwd name with
    | .ok (.bytes data, _) =>
      printBytes s data
      return .ok ()
    | .ok _ => return .ok ()
    | .error why => return saying name (.error why)) arguments

def stampTime? (stamp : String) : Option Int := do
  let (minutes, seconds) ← match Text.cutAt '.' stamp.toList with
    | (m, none) => some (m, 0)
    | (m, some s) => (Text.natOfChars? 10 s).map (m, ·)
  let number (start count : Nat) := Text.natOfChars? 10 ((minutes.drop start).take count)
  let date : Date := ⟨← number 0 4, ← number 4 2, ← number 6 2⟩
  let time : Time := ⟨← number 8 2, ← number 10 2, seconds, 0⟩
  if minutes.length = 12 ∧ date.Valid ∧ time.Valid then
    some ((date.dayNumber * 86400 + time.hour * 3600 + time.minute * 60 + time.second) * 1000000000)
  else none

def stampFile (fs : FileSystem) (cwd : Location) (name : String) (time : Int) :
    Except Refusal FileSystem :=
  match fs.stat cwd name with
  | .ok (_, .file i content _) => .ok (fs.replaceContent i content time)
  | .ok _ => .ok fs
  | .error _ => fs.writeFile cwd name (.bytes ByteArray.empty) time

def touch : Program := fun s arguments => do
  let (stamp, names) := match arguments with
    | "-t" :: stamp :: names => (some stamp, names)
    | names => (none, names)
  match stamp.elim (some (← get).now) stampTime? with
  | none =>
    complain s ("invalid date format ‘" ++ stamp.getD "" ++ "’")
    return 1
  | some time =>
    forEach s (fun name =>
      return saying ("cannot touch '" ++ name ++ "'")
        (← change fun fs => stampFile fs s.cwd name time)) names

def mkdir : Program := fun s arguments =>
  let (options, names) := splitOptions arguments
  forEach s (fun name => do
    let told (place : String) (r : Except Refusal Unit) :=
      saying ("cannot create directory ‘" ++ place ++ "’") r
    if options.contains 'p' then
      let m ← get
      let (files, refused) := m.files.place s.cwd (Path.parse name) .directory m.now
      set { m with files }
      return refused.elim (.ok ()) fun (why, place) => told place (.error why)
    return told name (← change fun fs => fs.makeDirectory s.cwd (Path.parse name).text)) names

def eraseTree (fs : FileSystem) (loc : Location) : FileSystem :=
  ⟨fs.entries.filter fun e => !loc.isPrefixOf e.1⟩

def rm : Program := fun s arguments =>
  let (options, names) := splitOptions arguments
  let remove (name : String) (fs : FileSystem) : Except Refusal FileSystem := do
    match ← fs.lstat s.cwd name with
    | (loc, .directory) =>
      if options.contains 'r' then .ok (eraseTree fs loc) else .error .isDirectory
    | (loc, _) => .ok (fs.erase loc)
  forEach s (fun name => do
    match ← change (remove name) with
    | .error .noEntry =>
      if options.contains 'f' then return .ok ()
      return saying ("cannot remove '" ++ name ++ "'") (.error .noEntry)
    | r => return saying ("cannot remove '" ++ name ++ "'") r) names

/-- What can be read in a content without unpacking it: of an archive, the names of members, the
label of a stream, and the bytes of members of a tar archive. -/
def plainParts : Content → List (List UInt8)
  | .bytes data => [data.toList]
  | .archive (.zip entries) => entries.map fun e => e.name.toUTF8.toList
  | .archive (.tar entries) => entries.flatMap fun e =>
    match e.body with
    | .file _ (.bytes data) => [e.name.toUTF8.toList, data.toList]
    | _ => [e.name.toUTF8.toList, e.linkTarget.toUTF8.toList]
  | .archive (.gzip label ..) => [label.toUTF8.toList]
  | _ => []

def occursIn (pattern : List UInt8) : List UInt8 → Bool
  | [] => pattern.isEmpty
  | b :: bs => pattern.isPrefixOf (b :: bs) || occursIn pattern bs

/-- Looks for a text in files and prints nothing; the status tells whether one has it. -/
def grep : Program := fun s arguments => do
  let operands := (splitOptions arguments).2
  let pattern := (operands.headD "").toUTF8.toList
  let found ← look fun fs => operands.tail.any fun name =>
    match fs.contentOf s.cwd name with
    | .ok (content, _) => (plainParts content).any (occursIn pattern)
    | .error _ => false
  return if found then 0 else 1

def programs : List (String × Program) :=
  [("true", fun _ _ => return 0), ("false", fun _ _ => return 1), ("echo", echoWith false),
    ("printf", printf), ("pwd", pwd), ("cat", cat), ("touch", touch), ("mkdir", mkdir), ("rm", rm),
    ("grep", grep)]

end TabPackager.Shell

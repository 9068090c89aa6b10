import ElvishOutline.CommandLine
import ElvishOutline.Timestamp
import Std.Time.DateTime.Timestamp

/-!
# The program

The part of the file system that a request is about is read first. The request is then answered from
what was read, and the reply is written.
-/

namespace ElvishOutline.Program

/-- The real place of a path from the root, if there is something. -/
def realPlace? (text : String) : IO (Option (List String)) := do
  try
    let real ← IO.FS.realPath text
    return some ((Path.ofString real.toString).segments.filter (!Path.isSilent ·))
  catch _ => return none

/-- The text of the path to a place. -/
def pathText (place : List String) : String := (FileSystem.absolutePath place).toString

/-- Something that is there but cannot be read: a link to itself. -/
def unreadable (name : String) : Node := .link ⟨[name]⟩

/-- The file at a path. Only scripts and ignore files are read. -/
def loadFile (place : List String) : IO Node := do
  let name := place.getLastD ""
  if (Path.ofString name).isScript || name = ".gitignore" then
    try return .file (← IO.FS.readBinFile (pathText place)) catch _ => return unreadable name
  else return .file .empty

/-- The file or directory at a real place. The places of scripts that links lead to are added to
`linked`. -/
partial def load (linked : IO.Ref (List (List String))) (place : List String) : IO Node := do
  let real ← IO.FS.realPath (pathText place)
  if ← real.isDir then
    let mut entries := []
    for entry in ← real.readDir do
      let here := place ++ [entry.fileName]
      let kind := (← entry.path.symlinkMetadata).type
      if kind == .symlink then
        match ← realPlace? (pathText here) with
        | some target =>
          if (Path.ofString entry.fileName).isScript then linked.modify (target :: ·)
          entries := (entry.fileName, .link (FileSystem.absolutePath target)) :: entries
        | none => entries := (entry.fileName, unreadable entry.fileName) :: entries
      else if kind == .dir then
        let node ← try load linked here catch _ => pure (.directory [])
        entries := (entry.fileName, node) :: entries
      else entries := (entry.fileName, ← loadFile here) :: entries
    return .directory entries
  else loadFile place

/-- Reads a file whatever its name. -/
def loadContent (fs : FileSystem) (place : List String) : IO FileSystem := do
  let real ← IO.FS.realPath (pathText place)
  if ← real.isDir then return fs
  else
    try return fs.insert place (.file (← IO.FS.readBinFile real)) catch _ => return fs

/-- Records that there is something at a place. -/
def touch (fs : FileSystem) (place : List String) : IO FileSystem := do
  if (fs.node? place).isSome then return fs
  else
    let real ← IO.FS.realPath (pathText place)
    return fs.insert place (if ← real.isDir then .directory [] else .file .empty)

/-- Records what is on the way of a path and finds the place it leads to. -/
def route (fs : FileSystem) (here : List String) :
    List String → IO (FileSystem × Option (List String))
  | [] => return (fs, some here)
  | segment :: rest => do
    if Path.isSilent segment then route fs here rest
    else if segment = ".." then route fs here.dropLast rest
    else
      let next := here ++ [segment]
      match ← realPlace? (pathText next) with
      | none => return (fs, none)
      | some place =>
        let link := Node.link (FileSystem.absolutePath place)
        let fs := if place = next then fs else fs.insert next link
        route (← touch fs place) place rest

/-- Records the way of a path. -/
def routeOf (fs : FileSystem) (path : Path) : IO (FileSystem × Option (List String)) :=
  route fs (if path.isAbsolute then [] else fs.current) path.segments

/-- The part of the file system that a request is about. -/
def snapshot (i : CommandLine.Invocation) : IO FileSystem := do
  let current := (← realPlace? ".").getD []
  let linked ← IO.mkRef []
  let (fs, place) ← routeOf (.empty current) i.request.path
  let mut fs := fs
  if let some place := place then
    fs := fs.insert place (← load linked place)
  -- A link named like a script can lead to a file that is not named like one.
  for place in ← linked.get do
    fs ← loadContent fs place
  if let some path := i.settings.ignoreFile then
    let (routed, place) ← routeOf fs path
    fs := routed
    if let some place := place then
      fs ← loadContent fs place
  if let some path := i.output then
    let (routed, _) ← routeOf fs path
    fs := routed
  return fs

/-- An answer with the time that it took since the given moment. -/
def stamped (start : Nat) :
    Except CommandLine.Failure CommandLine.Answer →
      IO (Except CommandLine.Failure CommandLine.Answer)
  | .ok (.survey s) => do
    let elapsed := (← IO.monoNanosNow) - start
    let now ← Std.Time.Timestamp.now
    let speed :=
      if elapsed = 0 then Binary64.ofRatio false s.files.length 1
      else Binary64.ofRatio false (s.files.length * Nat.pow 10 9) elapsed
    let metadata :=
      { s.metadata with
        durationMs := elapsed / Nat.pow 10 6
        filesPerSecond := speed
        timestamp := Timestamp.text now.toNanosecondsSinceUnixEpoch.val.toNat }
    return .ok (.survey { s with metadata })
  | other => return other

/-- Writes a reply and gives the exit code. -/
def finish (reply : CommandLine.Reply) : IO UInt32 := do
  if let some (path, text) := reply.written then
    IO.FS.writeFile path.toString text
  IO.print reply.stdout
  IO.eprint reply.stderr
  return reply.exitCode.toUInt32

/-- Answers the request of the arguments. -/
def run (arguments : List String) : IO UInt32 := do
  match CommandLine.parse arguments with
  | .error stop => finish stop.reply
  | .ok i =>
    let start ← IO.monoNanosNow
    let fs ← snapshot i
    let answer ← stamped start (i.answer fs)
    finish (i.reply fs answer)

end ElvishOutline.Program

/-- The entry point. -/
def main (arguments : List String) : IO UInt32 := ElvishOutline.Program.run arguments

import ElvishOutline.Path
import ElvishOutline.Text.Utf8

/-!
# File systems

A file system is a tree of files, links and directories with a current directory. A place in it is
the list of names that lead there from the root. A path is followed to a place by its segments; a
link puts its target in front of the segments that are left, and no more than forty links are
followed.
-/

namespace ElvishOutline

/-- What a directory can hold. -/
inductive Node where
  | file (content : ByteArray)
  | link (target : Path)
  | directory (entries : List (String × Node))

/-- A tree of files with a current directory. -/
structure FileSystem where
  entries : List (String × Node)
  current : List String

/-- Why a file cannot be used. -/
inductive FileError where
  | missing | notDirectory | isDirectory | tooManyLinks | notText
  deriving DecidableEq, Repr

/-- The text of the error. -/
def FileError.message : FileError → String
  | .missing => "No such file or directory (os error 2)"
  | .notDirectory => "Not a directory (os error 20)"
  | .isDirectory => "Is a directory (os error 21)"
  | .tooManyLinks => "Too many levels of symbolic links (os error 40)"
  | .notText => "stream did not contain valid UTF-8"

namespace Node

/-- The entry of a directory with the given name. -/
def entry? (name : String) : Node → Option Node
  | directory entries => entries.lookup name
  | _ => none

/-- The node at the end of a list of names. -/
def descend? (node : Node) : List String → Option Node
  | [] => some node
  | name :: rest => (node.entry? name).bind (descend? · rest)

/-- A list of names can be followed in two parts. -/
theorem descend?_append (node : Node) (first second : List String) :
    node.descend? (first ++ second) = (node.descend? first).bind (descend? · second) := by
  induction first generalizing node with
  | nil => rfl
  | cons name rest ih =>
    cases h : node.entry? name with
    | none => simp [descend?, h]
    | some child => simp [descend?, h, ih]

/-- The entries of a directory, and none of anything else. -/
def children : Node → List (String × Node)
  | directory entries => entries
  | _ => []

/-- A list of entries with one entry put in the place of its name, or at the end. -/
def put (entries : List (String × Node)) (name : String) (node : Node) : List (String × Node) :=
  match entries with
  | [] => [(name, node)]
  | (other, old) :: rest =>
    if other = name then (name, node) :: rest else (other, old) :: put rest name node

/-- A node with another one put at the end of a list of names, and the directories on the way. -/
def insert (node : Node) (value : Node) : List String → Node
  | [] => value
  | name :: rest =>
    let child := (node.entry? name).getD (.directory [])
    .directory (put node.children name (insert child value rest))

end Node

namespace FileSystem

/-- A file system with nothing but the given current directory. -/
def empty (current : List String) : FileSystem :=
  ⟨(Node.insert (.directory []) (.directory []) current).children, current⟩

/-- The root directory. -/
def root (fs : FileSystem) : Node := .directory fs.entries

/-- The node at a place. -/
def node? (fs : FileSystem) (place : List String) : Option Node := fs.root.descend? place

/-- What is done with the last name of a path. -/
inductive LastName where
  /-- It has to exist, and a link is followed. -/
  | followed
  /-- It has to exist, and a link is the answer. -/
  | kept
  /-- It can be missing, and a link is followed. -/
  | created
  deriving DecidableEq, Repr

/-- The place that segments lead to from a directory, if no more links than `links` are followed. -/
def follow (fs : FileSystem) (mode : LastName) (links : Nat) (here : List String) :
    List String → Except FileError (List String)
  | [] => .ok here
  | segment :: rest =>
    if Path.isSilent segment then follow fs mode links here rest
    else if segment = ".." then follow fs mode links here.dropLast rest
    else
      let next := here ++ [segment]
      match fs.node? next with
      | none => if rest = [] ∧ mode = .created then .ok next else .error .missing
      | some (.directory _) => follow fs mode links next rest
      | some (.file _) => if rest = [] then .ok next else .error .notDirectory
      | some (.link target) =>
        if rest = [] ∧ mode = .kept then .ok next
        else
          match links with
          | 0 => .error .tooManyLinks
          | fewer + 1 =>
            -- A relative target starts from the directory that holds the link.
            follow fs mode fewer (if target.isAbsolute then [] else here) (target.segments ++ rest)
termination_by segments => (links, segments.length)

/-- The place of a path. The empty path leads nowhere. -/
def place (fs : FileSystem) (mode : LastName) (path : Path) : Except FileError (List String) :=
  if path.toString = "" then .error .missing
  else fs.follow mode 40 (if path.isAbsolute then [] else fs.current) path.segments

/-- The node of a path, after all links. -/
def find (fs : FileSystem) (path : Path) : Except FileError Node :=
  match fs.place .followed path with
  | .error e => .error e
  | .ok place =>
    match fs.node? place with
    | some node => .ok node
    | none => .error .missing

/-- Whether a path leads to something. -/
def contains (fs : FileSystem) (path : Path) : Bool := (fs.find path).isOk

/-- Whether a path leads to a file. -/
def isFile (fs : FileSystem) (path : Path) : Bool :=
  match fs.find path with
  | .ok (.file _) => true
  | _ => false

/-- Whether a path leads to a directory. -/
def isDirectory (fs : FileSystem) (path : Path) : Bool :=
  match fs.find path with
  | .ok (.directory _) => true
  | _ => false

/-- The bytes of a file. -/
def read (fs : FileSystem) (path : Path) : Except FileError ByteArray :=
  match fs.find path with
  | .error e => .error e
  | .ok (.file content) => .ok content
  | .ok _ => .error .isDirectory

/-- The text of a file. -/
def readText (fs : FileSystem) (path : Path) : Except FileError String :=
  match fs.read path with
  | .error e => .error e
  | .ok content =>
    match String.fromUTF8? content with
    | some text => .ok text
    | none => .error .notText

/-- The path of a place from the root. -/
def absolutePath (place : List String) : Path :=
  Path.build (some .root) place

/-- The path from the root that leads to the same place without links. -/
def canonical? (fs : FileSystem) (path : Path) : Option Path :=
  (fs.place .followed path).toOption.map absolutePath

/-- The file system with a node put at a place. -/
def insert (fs : FileSystem) (place : List String) (node : Node) : FileSystem :=
  { fs with entries := (fs.root.insert node place).children }

/-- The file system with a node put at a path below the current directory. Directories on the way
are made, and a directory that is there already stays. -/
def add (fs : FileSystem) (path : Path) (node : Node) : FileSystem :=
  let place := fs.current ++ path.segments.filter (!Path.isSilent ·)
  match fs.node? place, node with
  | some (.directory _), .directory [] => fs
  | _, _ => fs.insert place node

/-- The file system after writing a file. Its directory has to exist, and a path that ends in a
slash names a directory. -/
def write (fs : FileSystem) (path : Path) (content : ByteArray) : Except FileError FileSystem := do
  let named := (path.segments.reverse.dropWhile (· = "")).reverse
  if path.segments.getLast? = some "" && !named.isEmpty then
    let _ ← fs.follow .followed 40 (if path.isAbsolute then [] else fs.current) named.dropLast
    throw .isDirectory
  else
    let place ← fs.place .created path
    match fs.node? place with
    | some (.directory _) => throw .isDirectory
    | _ => return fs.insert place (.file content)

end FileSystem

end ElvishOutline

/-!
# Paths

A path is kept as it is written, as the texts between its slashes, because patterns are matched with
the written text. What a path means is its list of components: empty segments and single dots say
nothing, except for a dot that comes first. Two paths are the same when their components are.
-/

namespace ElvishOutline

/-- A path as it is written: the texts between its slashes. -/
structure Path where
  segments : List String
  deriving DecidableEq, Repr

namespace Path

/-- The texts between slashes. -/
def splitSlashes : List Char → List (List Char)
  | [] => [[]]
  | c :: cs =>
    if c = '/' then [] :: splitSlashes cs
    else
      match splitSlashes cs with
      | [] => [[c]]
      | segment :: rest => (c :: segment) :: rest

/-- The path that a text writes. -/
def ofString (text : String) : Path := ⟨(splitSlashes text.toList).map String.ofList⟩

/-- The text of a path. -/
def toString (p : Path) : String := "/".intercalate p.segments

/-- What one step of a path means. -/
inductive Component where
  | root | current | parent
  | name (text : String)
  deriving DecidableEq, Repr

/-- Segments that say nothing inside a path. -/
def isSilent (segment : String) : Bool := segment = "" || segment = "."

/-- The component that comes with the start of a path, and the segments after it. -/
def start (p : Path) : Option Component × List String :=
  match p.segments with
  | "" :: next :: rest => (some .root, next :: rest)
  | "." :: rest => (some .current, rest)
  | segments => (none, segments)

/-- The component that a segment stands for. -/
def component (segment : String) : Component :=
  if segment = ".." then .parent else .name segment

/-- The components of a path. -/
def components (p : Path) : List Component :=
  p.start.1.toList ++ (p.start.2.filter (!isSilent ·)).map component

/-- Whether two paths have the same components. -/
def same (p q : Path) : Bool := p.components = q.components

/-- Whether a path starts at the root of the file system. -/
def isAbsolute (p : Path) : Bool := p.start.1 = some .root

/-- Segments without the silent ones at the end. -/
def trimEnd (segments : List String) : List String :=
  (segments.reverse.dropWhile isSilent).reverse

/-- The path with the given start and the given segments after it. -/
def build (start : Option Component) (segments : List String) : Path :=
  match start, segments with
  | some .root, [] => ⟨["", ""]⟩
  | some .root, rest => ⟨"" :: rest⟩
  | some .current, rest => ⟨"." :: rest⟩
  | _, [] => ⟨[""]⟩
  | _, rest => ⟨rest⟩

/-- The last component, if it is a name. -/
def fileName? (p : Path) : Option String :=
  match p.components.getLast? with
  | some (.name text) => some text
  | _ => none

/-- The part of a name after its last dot. A dot that comes first and is the only one does not
count. -/
def extensionOf? (name : String) : Option String :=
  let reversed := name.toList.reverse
  match reversed.dropWhile (· ≠ '.') with
  | [] => none
  | [_] => none
  | _ => some (String.ofList (reversed.takeWhile (· ≠ '.')).reverse)

/-- The extension of the last component. -/
def extension? (p : Path) : Option String := p.fileName?.bind extensionOf?

/-- The path of an entry of a directory. -/
def join (p : Path) (name : String) : Path :=
  match p.segments.getLast? with
  | some "" => ⟨p.segments.dropLast ++ [name]⟩
  | _ => ⟨p.segments ++ [name]⟩

/-- What is left of segments after the given components. -/
def dropComponents (segments : List String) : List Component → Option (List String)
  | [] => some segments
  | c :: cs =>
    match segments.dropWhile isSilent with
    | [] => none
    | s :: rest => if component s = c then dropComponents rest cs else none

/-- The path as seen from a directory that it lies in. -/
def relativeTo? (p base : Path) : Option Path :=
  match base.components, p.start with
  | [], (start, rest) => some (build start (trimEnd rest))
  | first :: others, (some c, rest) =>
    if c = first then
      (dropComponents rest others).map fun left => build none (trimEnd (left.dropWhile isSilent))
    else none
  | cs, (none, rest) =>
    (dropComponents rest cs).map fun left => build none (trimEnd (left.dropWhile isSilent))

/-- The segments of the directories around a path, from its segments in reverse. -/
def ancestorSegments : List String → List (List String)
  | [] => []
  | s :: before =>
    if isSilent s then ancestorSegments before
    else before.dropWhile isSilent :: ancestorSegments before

/-- The directories around a relative path, the innermost first, down to the empty path. -/
def ancestors (p : Path) : List Path :=
  let (start, rest) := p.start
  (ancestorSegments rest.reverse).map (fun segments => build start segments.reverse) ++
    if start = some .current then [⟨[""]⟩] else []

end Path

end ElvishOutline

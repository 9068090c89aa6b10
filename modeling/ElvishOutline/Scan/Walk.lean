import ElvishOutline.FileSystem.Tree
import ElvishOutline.Scan.Filter

/-!
# Finding scripts

The walk of a directory tree, in the order of names, that does not enter the directories that the
filter passes over.
-/

namespace ElvishOutline

/-- Whether a walk gives a leaf: a script that is not passed over and not too large. -/
def PathFilter.selects (filter : PathFilter) (maxFileSize : Nat) (path : Path) (size : Nat) :
    Bool :=
  path.isScript && !filter.ignores path false && size ≤ maxFileSize

namespace Tree

mutual
/-- The scripts of a tree at a path. -/
def scripts (filter : PathFilter) (maxFileSize : Nat) (path : Path) : Tree → List Path
  | .leaf size => if filter.selects maxFileSize path size then [path] else []
  | .directory entries =>
    if filter.ignores path true then [] else entryScripts filter maxFileSize path entries

/-- The scripts among the entries of a directory. -/
def entryScripts (filter : PathFilter) (maxFileSize : Nat) (path : Path) :
    List (String × Tree) → List Path
  | [] => []
  | (name, tree) :: rest =>
    scripts filter maxFileSize (path.join name) tree ++ entryScripts filter maxFileSize path rest
end

end Tree

/-- The paths of the scripts of a scan. -/
def findScripts (fs : FileSystem) (settings : ScanSettings) (filter : PathFilter) : List Path :=
  let start := fs.walkStart settings.followLinks settings.root
  let here := start.leaf?.filter fun size => filter.selects settings.maxFileSize settings.root size
  here.toList.map (fun _ => settings.root) ++
    Tree.entryScripts filter settings.maxFileSize settings.root start.entries

end ElvishOutline

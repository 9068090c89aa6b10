import ElvishOutline.FileSystem

/-!
# Directory trees as they are walked

A walk sees directories and leaves. It either takes links as leaves or sees what they lead to. In
the second case a link that leads nowhere, or to a directory that the walk is in, is not seen, so
that every tree is finite. The entries of a directory are in the order of their names.
-/

namespace ElvishOutline

/-- What a walk sees: leaves with their size in bytes, and directories. -/
inductive Tree where
  | leaf (size : Nat)
  | directory (entries : List (String × Tree))

/-- Entries in the order of their names. -/
def Tree.sorted (entries : List (String × Tree)) : List (String × Tree) :=
  entries.mergeSort fun a b => a.1 ≤ b.1

/-- The size of a link is that of its text. -/
def Path.size (target : Path) : Nat := target.toString.utf8ByteSize

namespace Node

mutual
/-- What a walk sees that takes links as leaves. -/
def tree : Node → Tree
  | .file content => .leaf content.size
  | .link target => .leaf target.size
  | .directory entries => .directory (Tree.sorted (trees entries))

/-- What such a walk sees of the entries of a directory. -/
def trees : List (String × Node) → List (String × Tree)
  | [] => []
  | (name, node) :: rest => (name, node.tree) :: trees rest
end

mutual
/-- The places of all directories of a node at a place. -/
def directories (here : List String) : Node → List (List String)
  | .directory entries => here :: entryDirectories here entries
  | _ => []

/-- The places of all directories among the entries of a directory. -/
def entryDirectories (here : List String) : List (String × Node) → List (List String)
  | [] => []
  | (name, node) :: rest => directories (here ++ [name]) node ++ entryDirectories here rest
end

end Node

namespace FileSystem

mutual
/-- What a walk sees that follows links. `outside` holds the places of the directories that it is
not in. -/
def followedTree? (fs : FileSystem) (outside : List (List String)) (here : List String) :
    Node → Option Tree
  | .file content => some (.leaf content.size)
  | .directory entries =>
    some (.directory (Tree.sorted (followedTrees fs (outside.erase here) here entries)))
  | .link target =>
    let start := if target.isAbsolute then [] else here.dropLast
    match fs.follow .followed 39 start target.segments with
    | .error _ => none
    | .ok place =>
      match fs.node? place with
      | some (.file content) => some (.leaf content.size)
      | some (.directory entries) =>
        if _inside : place ∈ outside then
          some (.directory (Tree.sorted (followedTrees fs (outside.erase place) place entries)))
        else none
      | _ => none
termination_by node => (outside.length, sizeOf node)
decreasing_by
  · exact Prod.Lex.right' _ List.length_erase_le (by simp)
  · refine Prod.Lex.left _ _ ?_
    rw [List.length_erase_of_mem _inside]
    have := List.length_pos_of_mem _inside
    omega

/-- What such a walk sees of the entries of a directory. -/
def followedTrees (fs : FileSystem) (outside : List (List String)) (here : List String) :
    List (String × Node) → List (String × Tree)
  | [] => []
  | (name, node) :: rest =>
    match followedTree? fs outside (here ++ [name]) node with
    | some tree => (name, tree) :: followedTrees fs outside here rest
    | none => followedTrees fs outside here rest
termination_by entries => (outside.length, sizeOf entries)
decreasing_by
  all_goals
    refine Prod.Lex.right _ ?_
    simp only [List.cons.sizeOf_spec, Prod.mk.sizeOf_spec]
    omega
end

/-- Where a walk starts: as a leaf, if it does not start in a directory, and the entries below. A
link to a directory that is not followed counts as both. -/
structure WalkStart where
  leaf? : Option Nat
  entries : List (String × Tree)

/-- What a walk sees of the entries of the directory at a place. -/
def walkEntries (fs : FileSystem) (followLinks : Bool) (place : List String)
    (entries : List (String × Node)) : List (String × Tree) :=
  if followLinks then
    Tree.sorted (fs.followedTrees ((fs.root.directories []).erase place) place entries)
  else Tree.sorted (Node.trees entries)

/-- Where the walk of a path starts. -/
def walkStart (fs : FileSystem) (followLinks : Bool) (path : Path) : WalkStart :=
  match (fs.place .kept path).toOption.bind fs.node?, fs.place .followed path with
  | some (.file content), _ => ⟨some content.size, []⟩
  | some (.directory entries), .ok place => ⟨none, fs.walkEntries followLinks place entries⟩
  | some (.link target), .ok place =>
    match fs.node? place with
    | some (.file content) => ⟨some (if followLinks then content.size else target.size), []⟩
    | some (.directory entries) =>
      ⟨if followLinks then none else some target.size, fs.walkEntries followLinks place entries⟩
    | _ => ⟨none, []⟩
  | _, _ => ⟨none, []⟩

end FileSystem

end ElvishOutline

import DialogueEngine.Files.Tree

/-! # Working folders

A tree of files together with the folder in which the work is done. A path starts there, or at
the root of the tree if its first character is a slash; each part of it is looked up where the
parts before it lead.
-/

namespace DialogueEngine

/-- A tree of files, and the names that lead from its root to the folder where the work is done. -/
structure WorkingFolder where
  root : FileTree
  here : List String

namespace WorkingFolder

def ofFiles (here : List String) (files : List (String × List UInt8)) : WorkingFolder :=
  let put := fun (t : FileTree) (file : String × List UInt8) =>
    t.put file.2 ((FileTree.parts file.1).filter fun part => part ≠ "" ∧ part ≠ ".")
  ⟨(files.foldl put .empty).under here, here⟩

/-- One part of a path, from a folder on: a point alone stands for the folder itself, and two
    points for the folder around it, which for the root is the root. -/
def enter? (root : FileTree) (place : List String) (part : String) : Option (List String) :=
  if ((root.at? place).map (·.isFolder)).getD false then
    if part = "" ∨ part = "." then some place
    else if part = ".." then some place.dropLast
    else (root.at? (place ++ [part])).map fun _ => place ++ [part]
  else none

def start (w : WorkingFolder) (path : String) : List String :=
  if path.startsWith "/" then [] else w.here

/-- The names under which the end of a path stands. Neither the empty path nor one beyond the
    limits leads anywhere. -/
def resolve? (w : WorkingFolder) (path : String) : Option (List String) :=
  if path.isEmpty || !FileTree.isUsable path then none
  else (FileTree.parts path).foldlM (enter? w.root) (w.start path)

def lookup? (w : WorkingFolder) (path : String) : Option FileTree :=
  (w.resolve? path).bind w.root.at?

def read? (w : WorkingFolder) (path : String) : Option (List UInt8) :=
  (w.lookup? path).bind (·.bytes?)

/-- The paths of all files that a path leads to, folder by folder in the order of the names; or
    the path of the first folder on the way that is too long. -/
def walk? (w : WorkingFolder) (path : String) : Option (Except String (List String)) :=
  (w.lookup? path).map (FileTree.walk path)

/-- Writes a file, in a folder that is there already. -/
def save? (w : WorkingFolder) (path : String) (bytes : List UInt8) : Option WorkingFolder :=
  match (FileTree.parts path).reverse with
  | [] => none
  -- the last part names the file, those before it lead to its folder
  | name :: outer =>
    if !FileTree.isUsable path ∨ name = "" ∨ name = "." ∨ name = ".." then none
    else
      match outer.reverse.foldlM (enter? w.root) (w.start path) with
      | none => none
      | some place =>
        if ((w.root.at? place).map (·.isFolder)).getD false then
          match w.root.at? (place ++ [name]) with
          | some (.folder _) => none
          | _ => some { w with root := w.root.put bytes (place ++ [name]) }
        else none

end WorkingFolder

end DialogueEngine

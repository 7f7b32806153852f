import DialogueEngine.Dict

/-! # File trees

A folder of files as a value, and the texts that are paths. Paths are cut at slashes. Paths and
names have a greatest length, and no path holds the character with the number zero. The entries
of a folder are in the order of their names.
-/

namespace DialogueEngine

inductive FileTree where
  | file (bytes : List UInt8)
  | folder (entries : List (String × FileTree))

namespace FileTree

def empty : FileTree := .folder []

instance : Inhabited FileTree := ⟨empty⟩

def isFolder : FileTree → Bool
  | .file _ => false
  | .folder _ => true

def bytes? : FileTree → Option (List UInt8)
  | .file bytes => some bytes
  | .folder _ => none

def child? (name : String) : FileTree → Option FileTree
  | .file _ => none
  | .folder entries => Entries.find? name entries

def at? (t : FileTree) : List String → Option FileTree
  | [] => some t
  | name :: names => (t.child? name).bind (·.at? names)

/-- Puts a file under a list of names, with the folders that it takes. -/
def put (bytes : List UInt8) (t : FileTree) : List String → FileTree
  | [] => .file bytes
  | name :: names =>
    match t with
    | .file _ => .folder [(name, put bytes empty names)]
    | .folder entries =>
      let old := (Entries.find? name entries).getD empty
      .folder (Entries.insert name (put bytes old names) entries)

def under (t : FileTree) : List String → FileTree
  | [] => t
  | name :: names => .folder [(name, t.under names)]

/-! ## Paths -/

def parts (path : String) : List String := path.splitOn "/"

def pathLimit : Nat := 4095

def nameLimit : Nat := 255

def tooLong : String := "File name too long (os error 36)"

/-- Whether a path can lead anywhere at all. -/
def isUsable (path : String) : Bool :=
  path.utf8ByteSize ≤ pathLimit && path.toList.all (· != '\x00') &&
    (parts path).all (·.utf8ByteSize ≤ nameLimit)

def entryPath (folder name : String) : String :=
  if folder.endsWith "/" then folder ++ name else folder ++ "/" ++ name

mutual

/-- The paths of all files of a tree that stands under a path, or the path of the first folder
    that is too long. -/
def walk (path : String) : FileTree → Except String (List String)
  | .file _ => .ok [path]
  | .folder entries => if isUsable path then walkEntries path entries else .error path

def walkEntries (path : String) : List (String × FileTree) → Except String (List String)
  | [] => .ok []
  | (name, t) :: rest => do
    let files ← walk (entryPath path name) t
    return files ++ (← walkEntries path rest)

end

end FileTree

end DialogueEngine

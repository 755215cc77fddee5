/-!
# File trees

A file tree is a finite picture of a file system: the folders and the files
below a root. Reading a path in it fails as it does on a file system, for a
missing file, for a folder, and for a path that goes on after a file.
-/

namespace ExprLang

/-- Why a file cannot be read as text. -/
inductive ReadFailure where
  | missing
  | notFolder
  | isFolder
  | nameTooLong
  | notText
  deriving DecidableEq, Repr

def ReadFailure.message : ReadFailure → String
  | .missing => "No such file or directory (os error 2)"
  | .notFolder => "Not a directory (os error 20)"
  | .isFolder => "Is a directory (os error 21)"
  | .nameTooLong => "File name too long (os error 36)"
  | .notText => "stream did not contain valid UTF-8"

/-- Folders and files by their paths from the root; the folders on the way are there as well. -/
structure FileTree where
  folders : List (List String)
  files : List (List String × ByteArray)

namespace FileTree

/-- What a path leads to. -/
inductive Entry where
  | folder
  | file (content : ByteArray)

/-- The folders of a usual root, and the device that holds nothing. -/
def standard : FileTree where
  folders :=
    [["bin"], ["boot"], ["dev"], ["etc"], ["home"], ["lib"], ["media"], ["mnt"], ["opt"],
      ["proc"], ["root"], ["run"], ["sbin"], ["srv"], ["sys"], ["tmp"], ["usr"], ["var"]]
  files := [(["dev", "null"], .empty)]

/-! ## Paths -/

/-- The parts of a path between its slashes, of which some may be empty. -/
def partsOf (path : String) : List String :=
  path.splitOn "/"

/-- Where one part of a path leads from a folder, if every name is a folder. -/
def descend (folder : List String) (part : String) : List String :=
  if part = "" || part = "." then folder
  else if part = ".." then folder.dropLast
  else folder ++ [part]

def addFolder (tree : FileTree) (path : List String) : FileTree :=
  { tree with folders := path :: tree.folders }

/-- The tree with one more file, whose path starts in a folder. -/
def addFile (tree : FileTree) (folder : List String) (path : String) (content : ByteArray) :
    FileTree :=
  { tree with files := ((partsOf path).foldl descend folder, content) :: tree.files }

/-! ## Reading -/

/-- What stands at a path that has no dots in it. -/
def entry? (tree : FileTree) (path : List String) : Option Entry :=
  match tree.files.find? fun file => file.1 == path with
  | some file => some (.file file.2)
  | none =>
      if path.isEmpty || tree.folders.any path.isPrefixOf ||
          tree.files.any fun file => path.isPrefixOf file.1 then
        some .folder
      else none

/-- Follows the parts of a path one by one, each of them from a folder that is there. -/
def follow (tree : FileTree) (place : List String) : List String → Except ReadFailure Entry
  | [] =>
      match tree.entry? place with
      | none => .error .missing
      | some entry => .ok entry
  | part :: rest =>
      match tree.entry? place with
      | none => .error .missing
      | some (.file _) => .error .notFolder
      | some .folder =>
          if 255 < part.utf8ByteSize then .error .nameTooLong
          else tree.follow (descend place part) rest

/-- The text of a file. A path starts at the root if a slash is in front, and else in a folder. -/
def readText (tree : FileTree) (folder : List String) (path : String) :
    Except ReadFailure String :=
  if path = "" then .error .missing
  else if 4096 ≤ path.utf8ByteSize then .error .nameTooLong
  else
    match tree.follow (if path.startsWith "/" then [] else folder) (partsOf path) with
    | .error failure => .error failure
    | .ok .folder => .error .isFolder
    | .ok (.file content) =>
        match String.fromUTF8? content with
        | none => .error .notText
        | some text => .ok text

end FileTree

end ExprLang

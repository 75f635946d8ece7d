import DocGraph.Fault

/-! What the program asks of files, and files held in memory that answer it. -/
namespace DocGraph.Path

/-- A path taken from another one: an absolute path stays as it is. -/
def join (base path : String) : String :=
  if path.startsWith "/" then path
  else if base.isEmpty || base.endsWith "/" then base ++ path
  else base ++ "/" ++ path

/-- The first part of a path and the parts after it. -/
def split : List Char → List Char × List String
  | [] => ([], [])
  | c :: rest =>
    let (part, parts) := split rest
    if c = '/' then ([], String.ofList part :: parts) else (c :: part, parts)

def parts (path : String) : List String :=
  let (part, parts) := split path.toList
  String.ofList part :: parts

end DocGraph.Path

namespace DocGraph

/-- How to look at files, with effects in `m`. -/
structure FileAccess (m : Type → Type) where
  isFile : String → m Bool
  /-- The content of a file, or why it cannot be read. -/
  read : String → m (Except String Bytes)

/-- Files and directories under one directory, by their paths relative to it. -/
structure FileTree where
  /-- The absolute path of the directory. -/
  base : String
  files : List (List String × Bytes)
  directories : List (List String)

namespace FileTree

/-- Every file is in a directory. -/
def isDirectory (tree : FileTree) (place : List String) : Bool :=
  place.isEmpty || tree.directories.any (place.isPrefixOf ·)
    || tree.files.any fun (path, _) => place.isPrefixOf path && place != path

/-- Where a path leads from a place, as far as it goes through directories. -/
def follow (tree : FileTree) (place : List String) : List String → Option (List String)
  | [] => some place
  | part :: rest =>
    if !tree.isDirectory place then none
    else if part = "" || part = "." then tree.follow place rest
    else if part = ".." then if place.isEmpty then none else tree.follow place.dropLast rest
    else tree.follow (place ++ [part]) rest

/-- Absolute paths are known below the base directory only. -/
def locate (tree : FileTree) (path : String) : Option (List String) :=
  let parts := Path.parts path
  let base := Path.parts tree.base
  if !path.startsWith "/" then tree.follow [] parts
  else if base.isPrefixOf parts then tree.follow [] (parts.drop base.length)
  else none

def content? (tree : FileTree) (path : String) : Option Bytes :=
  (tree.locate path).bind (List.lookup · tree.files)

def access (tree : FileTree) : FileAccess Id where
  isFile path := (tree.content? path).isSome
  read path :=
    match tree.content? path with
    | some bytes => .ok bytes
    | none => .error "no such file"

end FileTree

end DocGraph

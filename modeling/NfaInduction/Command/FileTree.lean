import NfaInduction.Command.Path
import NfaInduction.Failure

/-! A file tree holds files in directories, and a directory exists where a file lies below it. -/

namespace NfaInduction

/--
A place in or around a file tree.

It is named by the way to it from the tree, or from a directory some levels above the tree.
-/
structure FileTree.Place where
  /-- Levels to climb from the tree. -/
  above : Nat
  /-- Names that lead down from there. -/
  names : List String
deriving DecidableEq

/-- A file and where it lies. -/
structure FileTree.File where
  /-- The place of the file. -/
  place : FileTree.Place
  /-- Content of the file. -/
  content : ByteArray

/-- Files in directories. -/
structure FileTree where
  /-- The files. -/
  files : List FileTree.File

namespace FileTree

/-- Bytes that a name may take. -/
def maxNameBytes : Nat := 255

/-- Bytes that a path must stay below. -/
def pathLimit : Nat := 4096

namespace Place

/-- The place of the tree itself. -/
def top : Place := ⟨0, []⟩

/-- The place above all others, which no path is long enough to climb to step by step. -/
def root : Place := ⟨pathLimit, []⟩

/-- The directory of a place, which the root is itself. -/
def up (place : Place) : Place :=
  match place.names with
  | [] => ⟨min (place.above + 1) pathLimit, []⟩
  | names => ⟨place.above, names.dropLast⟩

/-- The place of a name in a directory. -/
def down (place : Place) (name : String) : Place := ⟨place.above, place.names ++ [name]⟩

/-- Whether a place lies properly below another. -/
def isBelow (place directory : Place) : Bool :=
  place.above == directory.above && directory.names.isPrefixOf place.names &&
    place.names != directory.names

end Place

/-- The content of a file. -/
def find? (tree : FileTree) (place : Place) : Option ByteArray :=
  (tree.files.find? (·.place = place)).map (·.content)

/-- Whether a directory exists, which the tree and those above it always do. -/
def isDirectory (tree : FileTree) (place : Place) : Bool :=
  place.names.isEmpty || tree.files.any (·.place.isBelow place)

/-- The tree with the content of a file set. -/
def put (tree : FileTree) (place : Place) (content : ByteArray) : FileTree :=
  if tree.files.any (·.place = place) then
    ⟨tree.files.map fun file => if file.place = place then ⟨place, content⟩ else file⟩
  else ⟨tree.files ++ [⟨place, content⟩]⟩

/-- Insists on a directory. -/
def enter (tree : FileTree) (place : Place) : Except FileFailure Unit :=
  if tree.isDirectory place then .ok ()
  else if (tree.find? place).isSome then .error .notADirectory
  else .error .notFound

/-- Follows the parts of a path from a place, which has to be a directory for each part. -/
def follow (tree : FileTree) : Place → List String → Except FileFailure Place
  | place, [] => .ok place
  | place, part :: rest => do
    tree.enter place
    -- Neighboring separators and single dots stay where they are.
    if part = "" || part = "." then tree.follow place rest
    else if part = ".." then tree.follow place.up rest
    else if part.utf8ByteSize > maxNameBytes then .error .nameTooLong
    else tree.follow (place.down part) rest

/-- Where a path starts, and its parts. -/
def route (path : String) : Except FileFailure (Place × List String) :=
  if path.toList.contains '\x00' then .error .nameWithNul
  else if path.isEmpty then .error .notFound
  else if path.utf8ByteSize ≥ pathLimit then .error .nameTooLong
  else
    let absolute := path.toList.head? == some Path.separator
    .ok (if absolute then .root else .top, (Path.parts path.toList).map String.ofList)

/-- The place of an existing file or directory. -/
def locate (tree : FileTree) (path : String) : Except FileFailure Place := do
  let (start, parts) ← route path
  let place ← tree.follow start parts
  if tree.isDirectory place || (tree.find? place).isSome then return place
  .error .notFound

/-- The place where a file of this path is or can be created. -/
def placeFor (tree : FileTree) (path : String) : Except FileFailure Place := do
  let (start, parts) ← route path
  let named := (parts.reverse.dropWhile (· = "")).reverse
  let directory ← tree.follow start named.dropLast
  tree.enter directory
  -- A separator behind the name asks for a directory, which is not created.
  if named.length < parts.length then .error .isADirectory
  let place ← tree.follow directory named.getLast?.toList
  if tree.isDirectory place then .error .isADirectory
  return place

/-- Bytes with others written over them from an offset on. -/
def overlay (content : ByteArray) (offset : Nat) (written : ByteArray) : ByteArray :=
  let gap := (List.replicate (offset - content.size) (0 : UInt8)).toByteArray
  content.extract 0 offset ++ gap ++ written ++
    content.extract (offset + written.size) content.size

/-- Files of a tree, by their names, that another tree does not hold with the same content. -/
def changesSince (tree before : FileTree) : List (List String × ByteArray) :=
  -- What lies above the tree is no part of it.
  let inside := tree.files.filter (·.place.above == 0)
  let changed := inside.filter fun file => before.find? file.place != some file.content
  changed.map fun file => (file.place.names, file.content)

/-- The tree that holds some files by their names. -/
def ofFiles (files : List (List String × ByteArray)) : FileTree :=
  ⟨files.map fun (names, content) => ⟨⟨0, names⟩, content⟩⟩

end FileTree

end NfaInduction

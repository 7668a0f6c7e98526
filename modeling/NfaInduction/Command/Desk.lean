import NfaInduction.Command.FileTree
import NfaInduction.Command.Run

/-! A desk is a host of its own, with a file tree instead of a file system. -/

namespace NfaInduction

/-- What a command finds and leaves behind. -/
structure Desk where
  /-- The files. -/
  tree : FileTree
  /-- Text that was shown. -/
  shown : String

namespace Desk

/-- A file that is being written and how far. -/
structure Pen where
  /-- Where the file lies. -/
  place : FileTree.Place
  /-- Number of bytes written so far. -/
  offset : Nat

/-- The lines of a file, where the first read of a directory fails. -/
def linesOf (tree : FileTree) (path : String) : Except FileFailure (List Line) := do
  let place ← tree.locate path
  match tree.find? place with
  | some content => return Text.lines content
  | none => return [.error (.file .isADirectory)]

/-- Empties a file, which is created if there is none. -/
def create (path : String) (desk : Desk) : Except FileFailure Pen × Desk :=
  match desk.tree.placeFor path with
  | .error failure => (.error failure, desk)
  | .ok place => (.ok ⟨place, 0⟩, { desk with tree := desk.tree.put place .empty })

/-- Writes text where the pen is, whatever was written there in the meantime. -/
def write (pen : Pen) (text : String) (desk : Desk) : Pen × Desk :=
  let written := text.toUTF8
  let content := (desk.tree.find? pen.place).getD .empty
  let tree := desk.tree.put pen.place (FileTree.overlay content pen.offset written)
  (⟨pen.place, pen.offset + written.size⟩, { desk with tree })

/-- Commands run on a desk without color, without surprise and without telling. -/
instance : Host (StateM Desk) Pen where
  readLines path := do return linesOf (← get).tree path
  create path := modifyGet (create path)
  write pen text := modifyGet (write pen text)
  entropy := return 0
  admitsColor := return false
  announce _ := return ()
  tell _ := return ()
  display text := modify fun desk => { desk with shown := desk.shown ++ text }

/-- Runs a command on some files. -/
def run (tree : FileTree) (arguments : List String) : Command.Outcome × Desk :=
  (@Command.run (StateM Desk) Pen _ _ arguments).run ⟨tree, ""⟩

end Desk

end NfaInduction

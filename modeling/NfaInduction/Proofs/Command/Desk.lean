import NfaInduction.Command.Desk
import NfaInduction.Proofs.Command.FileTree

/-! What commands do on a desk: they change some files, and leave all others and all directories alone. -/

namespace NfaInduction

namespace FileTree

/-- One tree comes from another by changes of files in directories that were there. -/
structure Changes (tree : FileTree) (changed : Place → Prop) (later : FileTree) : Prop where
  /-- No directories are made. -/
  directories : tree.SameDirectories later
  /-- The other files stay as they are. -/
  others : ∀ place, ¬changed place → later.find? place = tree.find? place

variable {tree middle later : FileTree} {changed : Place → Prop}

/-- Nothing has to be changed. -/
theorem Changes.refl (tree : FileTree) (changed : Place → Prop) : tree.Changes changed tree :=
  ⟨fun _ => rfl, fun _ _ => rfl⟩

/-- Changes follow upon changes. -/
theorem Changes.trans (first : tree.Changes changed middle) (second : middle.Changes changed later) :
    tree.Changes changed later where
  directories := first.directories.trans second.directories
  others place kept := (second.others place kept).trans (first.others place kept)

/-- More may change than does. -/
theorem Changes.mono {more : Place → Prop} (changes : tree.Changes changed later)
    (covered : ∀ place, changed place → more place) : tree.Changes more later where
  directories := changes.directories
  others place kept := changes.others place fun may => kept (covered place may)

/-- Setting the content of one file changes no other one. -/
theorem Changes.put {place : Place} {content : ByteArray}
    (same : tree.SameDirectories (tree.put place content)) :
    tree.Changes (· = place) (tree.put place content) where
  directories := same
  others other kept := by rw [find?_put, if_neg kept]

/-- The bytes written behind all others follow them. -/
theorem overlay_size (content written : ByteArray) :
    overlay content content.size written = content ++ written := by
  -- There is no gap to fill, and nothing is left behind what is written.
  have gap : (List.replicate (content.size - content.size) (0 : UInt8)).toByteArray = .empty := by
    rw [Nat.sub_self]
    rfl
  have rest : content.extract (content.size + written.size) content.size = .empty :=
    ByteArray.extract_eq_empty_iff.2 (by omega)
  rw [overlay, gap, rest, ByteArray.extract_zero_size, ByteArray.append_empty,
    ByteArray.append_empty]

end FileTree

namespace Desk

variable {desk other : Desk} {pen : Pen} {text : String}

/-- A pen stands at the end of a file with some text. -/
structure Holds (desk : Desk) (pen : Pen) (text : String) : Prop where
  /-- The file has the text and nothing else. -/
  content : desk.tree.find? pen.place = some text.toUTF8
  /-- The pen is behind the text. -/
  offset : pen.offset = text.toUTF8.size

/-- A file is empty when it has been created. -/
theorem exists_create {path : String} {place : FileTree.Place}
    (placed : desk.tree.placeFor path = .ok place) : ∃ later,
      create path desk = (.ok ⟨place, 0⟩, later) ∧ later.Holds ⟨place, 0⟩ "" ∧
        desk.tree.Changes (· = place) later.tree := by
  -- The file is emptied whether or not it was there.
  obtain ⟨directory, name, aims, rfl⟩ := FileTree.exists_aims placed
  refine ⟨{ desk with tree := desk.tree.put (directory.down name) .empty }, ?_, ⟨?_, rfl⟩, ?_⟩
  · simp only [create, placed]
  · rw [FileTree.find?_put, if_pos rfl]
    rfl
  · exact .put (FileTree.sameDirectories_put aims.directory name _)

/-- What is written with a pen stands behind the text before it. -/
theorem Holds.write (holds : desk.Holds pen text) (more : String) : ∃ moved later,
    write pen more desk = (moved, later) ∧ moved.place = pen.place ∧
      later.Holds moved (text ++ more) ∧ desk.tree.Changes (· = pen.place) later.tree := by
  -- The pen is at the end of the file, so what is written there follows the text.
  have longer : (text ++ more).toUTF8 = text.toUTF8 ++ more.toUTF8 := by
    simp only [String.toUTF8_eq_toByteArray, String.toByteArray_append]
  have content : FileTree.overlay ((desk.tree.find? pen.place).getD .empty) pen.offset more.toUTF8 =
      (text ++ more).toUTF8 := by
    rw [holds.content, holds.offset, Option.getD_some, FileTree.overlay_size, longer]
  refine ⟨_, _, rfl, rfl, ⟨?_, ?_⟩, .put (FileTree.sameDirectories_put_of_find? holds.content _)⟩
  · rw [FileTree.find?_put, if_pos rfl, content]
  · change pen.offset + more.toUTF8.size = _
    rw [holds.offset, longer, ByteArray.size_append]

/-- A draft of some text, part of which is in its file already. -/
def Drafts (desk : Desk) (draft : Draft Pen) (text : String) : Prop :=
  ∃ written, desk.Holds draft.file written ∧ written ++ draft.pending = text

variable {draft : Draft Pen}

/-- A draft stays as it is as long as its file does. -/
theorem Drafts.of_find? (drafts : desk.Drafts draft text)
    (kept : other.tree.find? draft.file.place = desk.tree.find? draft.file.place) :
    other.Drafts draft text := by
  obtain ⟨written, holds, whole⟩ := drafts
  exact ⟨written, ⟨kept.trans holds.content, holds.offset⟩, whole⟩

/-- A piece of text is added at the end of a draft. -/
theorem Drafts.add (drafts : desk.Drafts draft text) (piece : String) : ∃ longer later,
    (draft.add piece : StateM Desk (Draft Pen)).run desk = (longer, later) ∧
      longer.file.place = draft.file.place ∧ later.Drafts longer (text ++ piece) ∧
      desk.tree.Changes (· = draft.file.place) later.tree := by
  obtain ⟨written, holds, rfl⟩ := drafts
  rw [Draft.add]
  split
  · -- All of it is kept back.
    exact ⟨_, desk, rfl, rfl, ⟨written, holds, String.append_assoc.symm⟩, .refl _ _⟩
  · obtain ⟨moved, later, wrote, same, holds, changes⟩ := holds.write draft.pending
    refine ⟨⟨moved, piece⟩, later, ?_, same, ⟨_, holds, rfl⟩, changes⟩
    rw [StateT.run_bind]
    change (Prod.map (fun file => (⟨file, piece⟩ : Draft Pen)) id)
      (write draft.file draft.pending desk) = _
    rw [wrote]
    rfl

/-- A line is added at the end of a draft. -/
theorem Drafts.addLine (drafts : desk.Drafts draft text) (line : String) : ∃ longer later,
    (draft.addLine line : StateM Desk (Draft Pen)).run desk = (longer, later) ∧
      longer.file.place = draft.file.place ∧ later.Drafts longer (text ++ (line ++ "\n")) ∧
      desk.tree.Changes (· = draft.file.place) later.tree := by
  -- The line and its end are two pieces.
  obtain ⟨longer, middle, added, place, drafts, first⟩ := drafts.add line
  obtain ⟨ended, later, again, same, drafts, second⟩ := drafts.add "\n"
  refine ⟨ended, later, ?_, same.trans place, String.append_assoc ▸ drafts,
    first.trans (place ▸ second)⟩
  rw [Draft.addLine, StateT.run_bind, added]
  exact again

/-- A draft that is finished is in its file from beginning to end. -/
theorem Drafts.finish (drafts : desk.Drafts draft text) : ∃ later,
    (draft.finish : StateM Desk Unit).run desk = ((), later) ∧
      later.tree.find? draft.file.place = some text.toUTF8 ∧
      desk.tree.Changes (· = draft.file.place) later.tree := by
  -- What was kept back is written behind what is in the file.
  obtain ⟨written, holds, rfl⟩ := drafts
  obtain ⟨moved, later, wrote, same, holds, changes⟩ := holds.write draft.pending
  refine ⟨later, ?_, same ▸ holds.content, changes⟩
  rw [Draft.finish, discard, map_const, Function.comp_apply, StateT.run_map]
  change (Prod.map (fun _ => ()) id) (write draft.file draft.pending desk) = _
  rw [wrote]
  rfl

end Desk

namespace Command

variable {α β : Type}

/-- What an activity comes to on a desk, and what it leaves there. -/
def carryOut (activity : Attempt (StateM Desk) α) (desk : Desk) : Except Failure α × Desk :=
  activity.run.run desk

/-- An activity goes on where another one ends well. -/
theorem carryOut_bind (activity : Attempt (StateM Desk) α) (next : α → Attempt (StateM Desk) β)
    (desk : Desk) : carryOut (activity >>= next) desk =
      match carryOut activity desk with
      | (.ok value, later) => carryOut (next value) later
      | (.error failure, later) => (.error failure, later) := by
  -- The first activity leaves the desk to the second one, even if it failed.
  rw [carryOut, ExceptT.run_bind, StateT.run_bind, carryOut]
  generalize activity.run.run desk = result
  obtain ⟨outcome, later⟩ := result
  cases outcome <;> rfl

/-- An activity is carried out as well if its result is of no use. -/
theorem carryOut_discard (activity : Attempt (StateM Desk) α) (desk : Desk) :
    carryOut (discard activity) desk =
      ((carryOut activity desk).1.map fun _ => (), (carryOut activity desk).2) := by
  rw [carryOut, discard, map_const, Function.comp_apply, ExceptT.run_map, StateT.run_map]
  rfl

/-- What does not need the desk leaves it as it is. -/
theorem carryOut_attempt {ε : Type} (name : ε → Failure) (result : Except ε α) (desk : Desk) :
    carryOut (attempt name result) desk = (result.mapError name, desk) := by
  cases result <;> rfl

/-- What cannot fail ends well. -/
theorem carryOut_onHost (activity : StateM Desk α) (desk : Desk) :
    carryOut (onHost activity) desk = (.ok (activity.run desk).1, (activity.run desk).2) := rfl

/-- A file is used or refused. -/
theorem carryOut_onFile (activity : StateM Desk (Except FileFailure α)) (desk : Desk) :
    carryOut (onFile activity) desk =
      ((activity.run desk).1.mapError Failure.file, (activity.run desk).2) := by
  rw [onFile, carryOut_bind, carryOut_onHost]
  exact carryOut_attempt _ _ _

/-- What is announced changes nothing yet. -/
theorem run_announce (threshold : Level) (notice : Notice) (desk : Desk) :
    (announce threshold notice : StateM Desk Unit).run desk = ((), desk) := by
  -- On a desk it makes no difference whether it is told.
  rw [announce]
  split <;> rfl

/-- An activity that is announced is carried out. -/
theorem carryOut_announce (threshold : Level) (notice : Notice)
    (next : Unit → Attempt (StateM Desk) α) (desk : Desk) :
    carryOut (onHost (announce threshold notice) >>= next) desk = carryOut (next ()) desk := by
  rw [carryOut_bind, carryOut_onHost, run_announce]

/-- The files that are told about are not changed by it. -/
theorem run_tellAll (threshold : Level) (events : List Event) (desk : Desk) :
    (tellAll threshold events : StateM Desk Unit).run desk = ((), desk) := by
  -- The induction goes along the events, none of which a desk cares about.
  rw [tellAll]
  induction events.filter fun event => isTold threshold event.level with
  | nil => rfl
  | cons event rest ih => exact ih

/-- The lines of a file are read, and the desk stays as it is. -/
theorem carryOut_readLines {desk : Desk} {path : String} {lines : List Line}
    (read : Desk.linesOf desk.tree path = .ok lines) :
    carryOut (onFile (Host.readLines path)) desk = (.ok lines, desk) := by
  -- To read is to look at the tree of the desk.
  rw [carryOut_onFile]
  change ((Desk.linesOf desk.tree path).mapError Failure.file, desk) = _
  rw [read]
  rfl

/-- No file is created where none can be. -/
theorem carryOut_create_of_error {desk : Desk} {path : String} {failure : FileFailure}
    (failed : desk.tree.placeFor path = .error failure) :
    carryOut (onFile (Host.create path)) desk = (.error (.file failure), desk) := by
  -- Without a place for the file the desk stays as it is.
  rw [carryOut_onFile]
  change ((Desk.create path desk).1.mapError Failure.file, (Desk.create path desk).2) = _
  simp only [Desk.create, failed]
  rfl

/-- A file is created where one can be. -/
theorem carryOut_create {desk : Desk} {path : String} {place : FileTree.Place}
    (placed : desk.tree.placeFor path = .ok place) : ∃ later,
      carryOut (onFile (Host.create path)) desk = (.ok ⟨place, 0⟩, later) ∧
        later.Holds ⟨place, 0⟩ "" ∧ desk.tree.Changes (· = place) later.tree := by
  -- The pen for the file stands where the file is placed.
  obtain ⟨later, created, holds, changes⟩ := Desk.exists_create placed
  refine ⟨later, ?_, holds, changes⟩
  rw [carryOut_onFile]
  change ((Desk.create path desk).1.mapError Failure.file, (Desk.create path desk).2) = _
  rw [created]
  rfl

/-- No file is written where none can be created. -/
theorem carryOut_writeFile_of_error {desk : Desk} {path : String} {failure : FileFailure}
    (failed : desk.tree.placeFor path = .error failure) (lines : List String) :
    carryOut (writeFile path lines) desk = (.error (.file failure), desk) := by
  rw [writeFile, carryOut_bind, carryOut_create_of_error failed]

/-- A file that is written holds the lines, and nothing else changes. -/
theorem carryOut_writeFile {desk : Desk} {path : String} {place : FileTree.Place}
    (placed : desk.tree.placeFor path = .ok place) (lines : List String) :
    ∃ later, carryOut (writeFile path lines) desk = (.ok (), later) ∧
      later.tree.find? place = some (Text.ofLines lines).toUTF8 ∧
      desk.tree.Changes (· = place) later.tree := by
  -- All lines are written at once behind the beginning of an empty file.
  obtain ⟨middle, created, holds, first⟩ := carryOut_create placed
  obtain ⟨moved, later, wrote, same, holds, second⟩ := holds.write (Text.ofLines lines)
  refine ⟨later, ?_, ?_, first.trans second⟩
  · rw [writeFile, carryOut_bind, created]
    simp only
    rw [carryOut_discard, carryOut_onHost]
    change (Except.ok (), (Desk.write _ (Text.ofLines lines) middle).2) = _
    rw [wrote]
  · have content := holds.content
    rwa [same, String.empty_append] at content

end Command

end NfaInduction

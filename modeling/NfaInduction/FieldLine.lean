import NfaInduction.Error
import NfaInduction.Text.Blank
import NfaInduction.Text.Line

/-! Sample files and model texts are read as numbered lines of fields. -/

namespace NfaInduction

/-- The fields of a line and where the line stands. -/
structure FieldLine where
  /-- Position of the line in its file, counted from one. -/
  number : Nat
  /-- The fields of the line. -/
  fields : List String
deriving DecidableEq

namespace FieldLine

/-- The fields of a numbered line, or the failure to read it. -/
def ofLine : Line × Nat → Except Error FieldLine
  | (.ok text, number) => .ok ⟨number, Text.fields text⟩
  | (.error failure, _) => .error (.input failure)

/-- The fields of all lines, with each failure in its place. -/
def ofLines (lines : List Line) : List (Except Error FieldLine) := (lines.zipIdx 1).map ofLine

/-- Whether a line has no field. -/
def isBlank (line : FieldLine) : Bool := line.fields.isEmpty

/-- Whether a line starts with the comment mark. -/
def isComment (line : FieldLine) : Bool :=
  (line.fields.head?.bind (·.toList.head?)) == some '#'

/-- Whether an entry lies outside a class of lines, as every failure does. -/
def outside (belongs : FieldLine → Bool) : Except Error FieldLine → Bool
  | .ok line => !belongs line
  | .error _ => true

/-- An error at this line. -/
def refuse {α : Type} (line : FieldLine) (defect : Defect) : Except Error α :=
  .error (.invalidFormat line.number defect)

/-- The value of a field, if it has one. -/
def value {α : Type} (line : FieldLine) (kind : FieldKind) (parse : String → Option α)
    (field : String) : Except Error α :=
  match parse field with
  | some value => .ok value
  | none => line.refuse (.invalidField kind field)

/-- The number on a line of one field. -/
def single (line : FieldLine) (kind : FieldKind) : Except Error Nat :=
  match line.fields with
  | [field] => line.value kind Text.size? field
  | _ => line.refuse .notSingleValue

end FieldLine

end NfaInduction

import NfaInduction.Proofs.Command.FileTree
import NfaInduction.Proofs.Text.Field
import NfaInduction.Proofs.Text.Line
import NfaInduction.Command.Run

/-! Manifests are read as they are written, and the names in them belong to different files. -/

namespace NfaInduction

namespace Text

/-- A line is added at the end of a text. -/
theorem ofLines_concat (lines : List String) (line : String) :
    ofLines (lines ++ [line]) = ofLines lines ++ (line ++ "\n") := by
  simp [ofLines]

end Text

namespace Command

/-- The characters of the name of a model. -/
theorem toList_modelName (index : Nat) : (modelName index).toList =
    "automata-".toList ++ (Text.numeral index).toList ++ ".auto".toList := by
  simp only [modelName, toString, String.toList_append]

/-- The name of a model has a given character only if that is fixed or a digit. -/
theorem mem_modelName {index : Nat} {c : Char} (member : c ∈ (modelName index).toList) :
    c ∈ "automata-.auto".toList ∨ c.isDigit := by
  -- A name is its fixed front, a numeral and its fixed back.
  rw [toList_modelName, List.mem_append, List.mem_append] at member
  rcases member with (front | digit) | back
  · exact .inl (List.mem_append_left ".auto".toList front)
  · exact .inr (Text.isDigit_of_mem_numeral digit)
  · exact .inl (List.mem_append_right "automata-".toList back)

/-- Names of models hold only what names of files can hold. -/
theorem isFileName_modelName (index : Nat) : FileTree.IsFileName (modelName index) := by
  -- Any other name would be shorter.
  have long : ∀ text : String, modelName index = text → 14 ≤ text.toList.length := by
    rintro _ rfl
    rw [toList_modelName, List.length_append, List.length_append]
    exact Nat.add_le_add_right (Nat.le_add_right 9 _) 5
  refine ⟨⟨?filled, ?whole⟩, ?ne_here, ?ne_up, ?noNul⟩
  case filled => exact fun same => absurd (long _ same) (by decide)
  case ne_here => exact fun same => absurd (long _ same) (by decide)
  case ne_up => exact fun same => absurd (long _ same) (by decide)
  case whole => exact fun member => absurd (mem_modelName member) (by decide)
  case noNul => exact fun member => absurd (mem_modelName member) (by decide)

/-- The ending of drawings can be added to the name of a file. -/
theorem isFileName_drawing : FileTree.IsFileName ".dot" where
  -- A closed text: each of the five conditions evaluates.
  filled := by decide
  whole := by decide
  ne_here := by decide
  ne_up := by decide
  noNul := by decide

/-- Different models have different names. -/
theorem modelName_inj {index other : Nat} : modelName index = modelName other ↔ index = other := by
  refine ⟨fun same => ?_, congrArg modelName⟩
  have chars := congrArg String.toList same
  rw [toList_modelName, toList_modelName] at chars
  -- The digits between the fixed parts name the index.
  have digits := List.append_cancel_left (List.append_cancel_right chars)
  exact Text.numeral_injective (String.toList_inj.1 digits)

/-- No model has the name of a drawing. -/
theorem modelName_ne_drawing (index : Nat) (name : String) : modelName index ≠ name ++ ".dot" := by
  -- The two texts end in different letters.
  intro same
  have last := congrArg (fun text => text.toList.getLast?) same
  rw [toList_modelName, String.toList_append, List.getLast?_append_of_ne_nil _ (by decide),
    List.getLast?_append_of_ne_nil _ (by decide)] at last
  exact absurd last (by decide)

/-- Drawings of different models have different names. -/
theorem drawingName_inj {index other : Nat} :
    modelName index ++ ".dot" = modelName other ++ ".dot" ↔ index = other := by
  rw [← modelName_inj, ← String.toList_inj, String.toList_append, String.toList_append,
    List.append_cancel_right_eq, String.toList_inj]

/-- The line of a model is the entry that it was written for. -/
theorem manifestEntry?_modelName (index : Nat) :
    manifestEntry? (modelName index) = some (modelName index) := by
  -- No blank and no leading comment sign: the entry is read back as it is.
  have fixed : ("automata-.auto".toList.any Text.isBlank) = false := by decide
  have solid : ∀ c ∈ (modelName index).toList, Text.isBlank c = false := by
    intro c member
    rcases mem_modelName member with held | digit
    · exact Bool.eq_false_iff.2 (List.any_eq_false.1 fixed c held)
    · exact Text.isBlank_of_isDigit digit
  have first : (modelName index).toList.head? = some 'a' := by
    rw [toList_modelName]
    rfl
  have filled : (modelName index).isEmpty = false := by
    simpa using (isFileName_modelName index).filled
  unfold manifestEntry?
  simp [Text.trim_of_solid solid, filled, first]

/-- The lines of a manifest that lists the first models. -/
def manifestLines (count : Nat) : List String :=
  manifestHeader ++ (List.range count).map modelName

/-- The models that a manifest lists are read back in their order, and nothing else. -/
theorem manifestEntries_manifestLines (count : Nat) :
    manifestEntries (Text.lines (Text.ofLines (manifestLines count)).toUTF8) =
      .ok ((List.range count).map modelName) := by
  have headed : ∀ line ∈ manifestHeader, '\n' ∉ line.toList := by decide
  have whole : ∀ line ∈ manifestLines count, '\n' ∉ line.toList := by
    intro line member
    rw [manifestLines, List.mem_append] at member
    rcases member with header | listed
    · exact headed line header
    · obtain ⟨index, _, rfl⟩ := List.mem_map.1 listed
      exact fun ended => absurd (mem_modelName ended) (by decide)
  have read : ((manifestLines count).map Except.ok).mapM id =
      (.ok (manifestLines count) : Except InputFailure (List String)) := by
    rw [mapM_eq_ok, List.forall₂_map_left_iff]
    exact List.forall₂_same.2 fun _ _ => rfl
  -- Nothing but the header is left out.
  have header : manifestHeader.filterMap manifestEntry? = [] := by decide
  have kept : (manifestLines count).filterMap manifestEntry? = (List.range count).map modelName := by
    rw [manifestLines, List.filterMap_append, header, List.nil_append]
    simp only [List.filterMap_map, Function.comp_def, manifestEntry?_modelName, List.filterMap_eq_map']
  rw [Text.lines_ofLines whole, manifestEntries, bind_of_ok read]
  exact congrArg Except.ok kept

end Command

end NfaInduction

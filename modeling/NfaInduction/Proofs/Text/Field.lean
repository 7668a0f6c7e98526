import Mathlib.Data.List.DropRight
import NfaInduction.Text.Blank
import NfaInduction.Text.Numeral

/-! The fields of a line start where its trimmed text starts, and words between blanks are its fields. -/

namespace NfaInduction

namespace Text

/-- The longest runs of other characters than blanks, in order. -/
def words (chars : List Char) : List (List Char) :=
  (chars.splitOnP isBlank).filter (!·.isEmpty)

/-- The fields of a text are its words. -/
theorem fields_eq (text : String) : fields text = (words text.toList).map String.ofList := rfl

/-- Words end at a blank, and others start behind it. -/
theorem words_append_cons {c : Char} (blank : isBlank c) (left right : List Char) :
    words (left ++ c :: right) = words left ++ words right := by
  rw [words, List.splitOnP_append_cons left right blank, List.filter_append]
  rfl

/-- A blank in front belongs to no word. -/
theorem words_cons_of_blank {c : Char} (blank : isBlank c) (rest : List Char) :
    words (c :: rest) = words rest := by
  simpa [words] using words_append_cons blank [] rest

/-- A character that is no blank starts the first word. -/
theorem exists_words_cons {c : Char} (solid : isBlank c = false) (rest : List Char) :
    ∃ word later, words (c :: rest) = (c :: word) :: later := by
  -- The first piece behind the character is the rest of its word.
  obtain ⟨first, others, pieces⟩ := List.exists_cons_of_ne_nil (List.splitOnP_ne_nil isBlank rest)
  refine ⟨first, others.filter (!·.isEmpty), ?_⟩
  simp [words, List.splitOnP_cons_eq_if_modifyHead, solid, pieces]

/-- Characters of which none is a blank are one word. -/
theorem words_of_forall {word : List Char} (filled : word ≠ [])
    (solid : ∀ c ∈ word, isBlank c = false) : words word = [word] := by
  rw [words, List.splitOnP_eq_singleton solid]
  simp [filled]

/-- The first character of the first word is the first that is no blank. -/
theorem head?_words (chars : List Char) :
    (words chars).head?.bind List.head? = (chars.dropWhile isBlank).head? := by
  -- The induction goes along the blank characters in front.
  induction chars with
  | nil => rfl
  | cons c rest ih =>
    cases blank : isBlank c with
    | true => rw [words_cons_of_blank blank, ih, List.dropWhile_cons_of_pos blank]
    | false =>
      obtain ⟨word, later, split⟩ := exists_words_cons blank rest
      rw [split, List.dropWhile_cons_of_neg (by simp [blank])]
      rfl

/-- Dropping blanks at the end keeps a first character that is no blank. -/
theorem head?_rdropWhile {chars : List Char} (solid : ∀ c ∈ chars.head?, isBlank c = false) :
    (chars.rdropWhile isBlank).head? = chars.head? := by
  -- What is dropped at the end does not reach a solid first character.
  cases chars with
  | nil => rfl
  | cons c rest =>
    have kept : (c :: rest).rdropWhile isBlank ≠ [] := by
      intro none
      have blank := List.rdropWhile_eq_nil_iff.1 none c List.mem_cons_self
      rw [solid c rfl] at blank
      cases blank
    obtain ⟨first, others, shape⟩ := List.exists_cons_of_ne_nil kept
    have start := List.rdropWhile_prefix isBlank (c :: rest)
    rw [shape, List.cons_prefix_cons] at start
    rw [shape, start.1]
    rfl

/-- The first field starts with the first character of the trimmed text. -/
theorem head?_fields (text : String) :
    (fields text).head?.bind (·.toList.head?) = (trim text).toList.head? := by
  -- Trimming drops the blank characters in front, which no field has.
  have trimmed : (trim text).toList = (text.toList.dropWhile isBlank).rdropWhile isBlank := by
    simp [trim, List.rdropWhile]
  have solid : ∀ c ∈ (text.toList.dropWhile isBlank).head?, isBlank c = false := by
    intro c first
    have stopped := List.head?_dropWhile_not isBlank text.toList
    rw [Option.mem_def.1 first] at stopped
    exact stopped
  rw [trimmed, head?_rdropWhile solid, ← head?_words, fields_eq]
  cases words text.toList with
  | nil => rfl
  | cons word rest => simp

/-- A line has no fields exactly if nothing is left of it when it is trimmed. -/
theorem fields_eq_nil_iff (text : String) : fields text = [] ↔ trim text = "" := by
  have start := head?_fields text
  constructor
  · intro none
    rw [none] at start
    exact String.toList_eq_nil_iff.1 (List.head?_eq_none_iff.1 start.symm)
  · intro none
    rw [none] at start
    rw [fields_eq] at start ⊢
    cases split : words text.toList with
    | nil => rfl
    | cons word rest =>
      -- No word is empty, so that the first of them would have a first character.
      have member : word ∈ words text.toList := by
        rw [split]
        exact List.mem_cons_self
      have filled := (List.mem_filter.1 member).2
      rw [split] at start
      cases word with
      | nil => cases filled
      | cons c others => simp at start

/-- A text without blanks stays as it is when it is trimmed. -/
theorem trim_of_solid {text : String} (solid : ∀ c ∈ text.toList, isBlank c = false) :
    trim text = text := by
  -- There is nothing to drop, neither from the front nor from the back.
  have kept : ∀ chars : List Char, (∀ c ∈ chars, isBlank c = false) →
      chars.dropWhile isBlank = chars := by
    intro chars plain
    refine List.dropWhile_eq_self_iff.2 fun _ => ?_
    simp [plain _ (List.getElem_mem _)]
  have backwards : ∀ c ∈ text.toList.reverse, isBlank c = false :=
    fun c member => solid c (List.mem_reverse.1 member)
  simp only [trim, kept _ solid, kept _ backwards, List.reverse_reverse, String.ofList_toList]

/-- Words without blanks are the fields of the line that separates them by a space. -/
theorem fields_intercalate {names : List String}
    (solid : ∀ name ∈ names, name ≠ "" ∧ ∀ c ∈ name.toList, isBlank c = false) :
    fields (" ".intercalate names) = names := by
  -- The induction goes along the names, between which there is one space.
  rw [fields_eq, String.toList_intercalate]
  induction names with
  | nil => rfl
  | cons name rest ih =>
    obtain ⟨⟨filled, plain⟩, others⟩ := List.forall_mem_cons.1 solid
    have one : words name.toList = [name.toList] :=
      words_of_forall (fun none => filled (String.toList_eq_nil_iff.1 none)) plain
    cases rest with
    | nil => simp [one]
    | cons next later =>
      have tail := ih others
      rw [List.map_cons, List.map_cons, List.intercalate_cons_cons, ← List.map_cons]
      have spaced : " ".toList = [' '] := rfl
      rw [spaced, List.append_assoc, List.singleton_append, words_append_cons (by decide), one,
        List.map_append, ← spaced, tail]
      simp

/-- A digit is no blank. -/
theorem isBlank_of_isDigit {c : Char} (digit : c.isDigit) : isBlank c = false := by
  -- Digits are in a range of their own.
  have range : 48 ≤ c.toNat ∧ c.toNat ≤ 57 := by
    simp only [Char.isDigit, Bool.and_eq_true, decide_eq_true_eq, UInt32.le_iff_toNat_le] at digit
    exact digit
  rw [Bool.eq_false_iff]
  intro blank
  simp only [isBlank, Bool.or_eq_true, Bool.and_eq_true, decide_eq_true_eq, beq_iff_eq] at blank
  omega

/-- Numerals are written in digits. -/
theorem isDigit_of_mem_numeral {number : Nat} {c : Char} (member : c ∈ (numeral number).toList) :
    c.isDigit := by
  rw [numeral, String.toList_ofList] at member
  exact Nat.isDigit_of_mem_toDigits (by decide) (by decide) member

/-- Numerals are words. -/
theorem numeral_solid (number : Nat) :
    numeral number ≠ "" ∧ ∀ c ∈ (numeral number).toList, isBlank c = false :=
  ⟨by simp [numeral, String.ofList_eq_empty_iff],
    fun _ member => isBlank_of_isDigit (isDigit_of_mem_numeral member)⟩

/-- Different numbers have different numerals. -/
theorem numeral_injective : Function.Injective numeral := by
  -- A numeral has the value that it was written for.
  intro left right same
  have values := congrArg (fun text : String => digitsValue? text.toList) same
  simpa [numeral, digitsValue?_toDigits] using values

/-- The digits of a number end where something else begins. -/
theorem span_numeral (number : Nat) (rest : List Char)
    (ends : ∀ c ∈ rest.head?, c.isDigit = false) :
    ((numeral number).toList ++ rest).takeWhile Char.isDigit = (numeral number).toList ∧
      ((numeral number).toList ++ rest).dropWhile Char.isDigit = rest := by
  -- The digits end where the rest begins with another character.
  have digits : ∀ c ∈ (numeral number).toList, c.isDigit := fun _ => isDigit_of_mem_numeral
  rw [List.takeWhile_append_of_pos digits, List.dropWhile_append_of_pos digits]
  cases rest with
  | nil => exact ⟨List.append_nil _, rfl⟩
  | cons c rest =>
    have other := ends c rfl
    rw [List.takeWhile_cons_of_neg (by simp [other]), List.dropWhile_cons_of_neg (by simp [other])]
    exact ⟨List.append_nil _, rfl⟩

/-- A field names a number if its digits do and the number keeps to the bound. -/
theorem natural?_eq_some {bound number : Nat} {field : String} :
    natural? bound field = some number ↔
      digitsValue? (withoutPlus field.toList) = some number ∧ number < bound := by
  rw [natural?, Option.filter_eq_some_iff, decide_eq_true_eq]

/-- A number that exceeds the bound is not read from its digits. -/
theorem natural?_numeral_of_le {bound number : Nat} (large : bound ≤ number) :
    natural? bound (numeral number) = none := by
  -- The value of the numeral is compared with the bound.
  have plain : withoutPlus (numeral number).toList = Nat.toDigits 10 number := by
    rw [withoutPlus_of_isDigit fun _ => isDigit_of_mem_numeral, numeral, String.toList_ofList]
  simp [natural?, plain, digitsValue?_toDigits, Option.filter, Nat.not_lt_of_le large]

/-- A field is a symbol exactly if it is a number with room in a word, and then of that number. -/
theorem symbol?_eq_some {field : String} {symbol : UInt32} :
    symbol? field = some symbol ↔ size? field = some symbol.toNat := by
  -- Both bounds are compared with one value.
  rw [symbol?, size?, Option.map_eq_some_iff]
  have room : symbol.toNat < UInt32.size := symbol.toNat_lt
  have wider : UInt32.size ≤ UInt64.size := by decide
  constructor
  · intro named
    obtain ⟨number, parsed, rfl⟩ := named
    obtain ⟨digits, below⟩ := natural?_eq_some.1 parsed
    rw [UInt32.toNat_ofNat_of_lt' below]
    exact natural?_eq_some.2 ⟨digits, by omega⟩
  · intro parsed
    have digits := (natural?_eq_some.1 parsed).1
    exact ⟨symbol.toNat, natural?_eq_some.2 ⟨digits, room⟩, UInt32.ofNat_toNat⟩

end Text

end NfaInduction

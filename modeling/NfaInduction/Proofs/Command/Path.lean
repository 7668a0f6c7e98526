import Mathlib.Data.List.Basic
import NfaInduction.Command.Path

/-! A name that is joined to the directory of a path takes the place of the name that the path ends with. -/

namespace NfaInduction

namespace Path

/-- No part has a separator in it. -/
theorem separator_notMem {text part : List Char} (member : part ∈ parts text) : separator ∉ part := by
  induction text generalizing part with
  | nil =>
    obtain rfl := List.mem_singleton.1 member
    exact List.not_mem_nil
  | cons c rest ih =>
    obtain ⟨first, others, split⟩ :=
      List.exists_cons_of_ne_nil (List.splitOnP_ne_nil (· == separator) rest)
    rw [parts] at ih member
    rw [List.splitOnP_cons_eq_if_modifyHead, split] at member
    rw [split] at ih
    by_cases separates : c = separator
    · rw [if_pos (beq_iff_eq.2 separates)] at member
      rcases List.mem_cons.1 member with rfl | later
      · exact List.not_mem_nil
      · exact ih later
    · rw [if_neg (mt beq_iff_eq.1 separates), List.modifyHead_cons] at member
      rcases List.mem_cons.1 member with rfl | later
      · -- The first part goes on from the character before it.
        simpa [Ne.symm separates] using ih List.mem_cons_self
      · exact ih (List.mem_cons_of_mem _ later)

/-- The parts of a path are those that it was put together from. -/
theorem parts_intercalate {named : List (List Char)} (whole : ∀ part ∈ named, separator ∉ part)
    (some : named ≠ []) : parts ([separator].intercalate named) = named :=
  List.splitOn_intercalate separator whole some

/-- A first part is set off by a separator. -/
theorem intercalate_cons {others : List (List Char)} (some : others ≠ []) (first : List Char) :
    [separator].intercalate (first :: others) =
      first ++ separator :: [separator].intercalate others := by
  obtain ⟨second, rest, rfl⟩ := List.exists_cons_of_ne_nil some
  simp [List.intercalate_cons_cons]

/-- A last part is set off by a separator. -/
theorem intercalate_concat {front : List (List Char)} (some : front ≠ []) (last : List Char) :
    [separator].intercalate (front ++ [last]) =
      [separator].intercalate front ++ separator :: last := by
  -- The induction goes along the parts in front, and the last of them is a case of its own.
  induction front with
  | nil => exact absurd rfl some
  | cons first rest ih =>
    cases rest with
    | nil => simp [List.intercalate_cons_cons, List.intercalate_singleton]
    | cons second others =>
      rw [List.cons_append, intercalate_cons (by simp), ih (List.cons_ne_nil _ _),
        intercalate_cons (List.cons_ne_nil _ _)]
      simp

/-- A path has the characters of its parts. -/
theorem mem_intercalate {c : Char} (other : c ≠ separator) (named : List (List Char)) :
    c ∈ [separator].intercalate named ↔ ∃ part ∈ named, c ∈ part := by
  -- The induction goes along the parts, between which there are only separators.
  induction named with
  | nil => simp [List.intercalate_nil]
  | cons first rest ih =>
    cases rest with
    | nil => simp [List.intercalate_singleton]
    | cons second others =>
      rw [intercalate_cons (List.cons_ne_nil _ _), List.mem_append, List.mem_cons, ih]
      simp [other]

/-- A path is put together from its parts. -/
theorem intercalate_parts (text : List Char) : [separator].intercalate (parts text) = text :=
  List.intercalate_splitOn separator

/-- The characters of a part are those of its path. -/
theorem mem_of_mem_parts {c : Char} {text part : List Char} (listed : part ∈ parts text)
    (member : c ∈ part) : c ∈ text := by
  -- The text is what the parts make with separators between them.
  have other : c ≠ separator := fun same => separator_notMem listed (same ▸ member)
  rw [← intercalate_parts text, mem_intercalate other]
  exact ⟨part, listed, member⟩

/-- A path starts from the root exactly if there is nothing before its first separator. -/
theorem head?_intercalate {first : List Char} {others : List (List Char)} (some : others ≠ [])
    (whole : separator ∉ first) :
    ([separator].intercalate (first :: others)).head? = .some separator ↔ first = [] := by
  -- A separator leads only if there is nothing before it.
  rw [intercalate_cons some]
  cases first with
  | nil => simp
  | cons c rest =>
    have apart : c ≠ separator := fun same => whole (same ▸ List.mem_cons_self)
    simp [apart]

/-- What is cut off behind the last part that leads somewhere leads nowhere. -/
theorem exists_idle (named : List (List Char)) :
    ∃ idle, named = upToLast named ++ idle ∧ ∀ part ∈ idle, isIdle part := by
  -- The idle parts are those that a search from the end passes.
  refine ⟨(named.reverse.takeWhile isIdle).reverse, ?_, ?_⟩
  · rw [upToLast, ← List.reverse_append, List.takeWhile_append_dropWhile, List.reverse_reverse]
  · intro part member
    exact List.all_eq_true.1 List.all_takeWhile part (List.mem_reverse.1 member)

/-- The parts that are left were there before. -/
theorem mem_of_mem_upToLast {named : List (List Char)} {part : List Char}
    (left : part ∈ upToLast named) : part ∈ named := by
  -- What is left is the front of the list.
  obtain ⟨idle, cut, _⟩ := exists_idle named
  rw [cut]
  exact List.mem_append_left idle left

/-- Nothing is cut off behind a part that leads somewhere. -/
theorem upToLast_concat {last : List Char} (solid : isIdle last = false)
    (front : List (List Char)) : upToLast (front ++ [last]) = front ++ [last] := by
  simp [upToLast, solid]

/-- If parts are left, the last of them is not empty. -/
theorem getLast_upToLast {named : List (List Char)} {last : List Char}
    (ends : (upToLast named).getLast? = some last) : last ≠ [] := by
  -- The search from the end stops only at a part that is not idle.
  rintro rfl
  rw [upToLast, List.getLast?_reverse] at ends
  have leads := List.head?_dropWhile_not isIdle named.reverse
  rw [ends] at leads
  cases leads

/-- An idle part in front is cut off with all the others, or with none of them. -/
theorem upToLast_cons {first : List Char} (idle : isIdle first) (rest : List (List Char)) :
    upToLast (first :: rest) = if upToLast rest = [] then [] else first :: upToLast rest := by
  -- An idle part stays only in front of one that is not idle.
  simp only [upToLast, List.reverse_cons, List.dropWhile_append, List.reverse_eq_nil_iff,
    List.isEmpty_iff]
  split
  · simp [idle]
  · simp

/-- The name of an entry of a directory. -/
structure IsName (name : String) : Prop where
  /-- It is not empty. -/
  filled : name ≠ ""
  /-- It has no separator in it. -/
  whole : separator ∉ name.toList

/-- A name does not start from the root. -/
theorem IsName.relative {name : String} (isName : IsName name) :
    name.toList.head? ≠ some separator := by
  intro head
  exact isName.whole (List.mem_of_mem_head? head)

/-- A directory has some parts, the last of which is not empty. -/
structure NamedBy (directory : String) (named : List (List Char)) : Prop where
  /-- The directory is put together from the parts. -/
  text : directory.toList = [separator].intercalate named
  /-- No part has a separator in it. -/
  whole : ∀ part ∈ named, separator ∉ part
  /-- The directory does not end with a separator. -/
  filled : ∀ last, named.getLast? = some last → last ≠ []

/-- A name that is joined to a directory comes behind its parts. -/
theorem NamedBy.join {directory name : String} {named : List (List Char)}
    (namedBy : NamedBy directory named) (isName : IsName name) :
    (join directory name).toList = [separator].intercalate (named ++ [name.toList]) := by
  rcases List.eq_nil_or_concat' named with rfl | ⟨front, last, rfl⟩
  · -- Nothing is put before the name.
    have here : directory = "" := String.toList_inj.1 namedBy.text
    simp [here, Path.join, List.intercalate_singleton]
  · have filled := namedBy.filled last List.getLast?_concat
    have whole := namedBy.whole last (by simp)
    -- The directory ends with the end of its last part.
    have ends : directory.toList.getLast? = some (last.getLast filled) := by
      rw [namedBy.text]
      cases front with
      | nil => simp [List.intercalate_singleton, List.getLast?_eq_some_getLast filled]
      | cons first rest =>
        rw [intercalate_concat (List.cons_ne_nil _ _), List.getLast?_append_of_ne_nil _ (by simp),
          List.getLast?_cons, List.getLast?_eq_some_getLast filled]
        rfl
    have apart : last.getLast filled ≠ separator := fun same =>
      whole (same ▸ List.getLast_mem filled)
    have nonempty : directory.isEmpty = false := by
      rw [Bool.eq_false_iff]
      intro empty
      rw [String.isEmpty_iff.1 empty] at ends
      cases ends
    have relative : (name.toList.head? == some separator) = false :=
      beq_eq_false_iff_ne.2 isName.relative
    -- So a separator is put between the directory and the name.
    have noMark : (directory.toList.getLast? == some separator) = false := by
      rw [ends]
      exact beq_eq_false_iff_ne.2 fun same => apart (Option.some.inj same)
    rw [Path.join, nonempty, relative, noMark, intercalate_concat (by simp), ← namedBy.text]
    simp [separator]

/-- The ways in which a path can start. -/
theorem anchored_cases (text : List Char) :
    (∃ rest, text = separator :: rest ∧ anchored text = ([separator], rest)) ∨
      text = ['.'] ∨
      (∃ rest, text = '.' :: separator :: rest ∧ anchored text = (['.'], separator :: rest)) ∨
      (text.head? ≠ some separator ∧ anchored text = ([], text)) := by
  -- The text begins with an anchor in some way, or with none.
  unfold anchored
  split
  · exact .inl ⟨_, rfl, rfl⟩
  · exact .inr (.inl rfl)
  · exact .inr (.inr (.inl ⟨_, rfl, rfl⟩))
  · rename_i absolute _ _
    refine .inr (.inr (.inr ⟨fun head => ?_, rfl⟩))
    cases text with
    | nil => cases head
    | cons c rest => exact absolute rest (by rw [Option.some.inj head]; rfl)

/-- The directory of a path is named by its parts but the last, up to where they lead. -/
theorem toList_parent {path : String} {anchor body : List Char}
    (starts : anchored path.toList = (anchor, body)) {front : List (List Char)} {last : List Char}
    (split : parts body = front ++ [last]) (solid : isIdle last = false) :
    (parent path).toList = anchor ++ [separator].intercalate (upToLast front) := by
  -- The last part is cut off, and with it the idle ones before it.
  simp only [parent, starts, split, upToLast_concat solid]
  split
  · rename_i none
    exact absurd none (by simp)
  · rw [List.dropLast_concat, String.toList_ofList]

/-- The first part of a path ends with the first separator. -/
theorem parts_append {first : List Char} (whole : separator ∉ first) (rest : List Char) :
    parts (first ++ separator :: rest) = first :: parts rest := by
  -- The first separator ends the first part.
  refine List.splitOnP_append_cons_of_forall_mem (fun c member => ?_) separator (by simp) rest
  rw [beq_eq_false_iff_ne]
  rintro rfl
  exact whole member

/-- The parts behind the first one end as all parts do, if the first one leads nowhere. -/
theorem exists_of_cons {first last : List Char} {rest : List Char} {front : List (List Char)}
    (split : first :: parts rest = front ++ [last]) :
    ∃ others, front = first :: others ∧ parts rest = others ++ [last] := by
  -- Behind a separator there is a part at least, so that the first part is not the last one.
  cases front with
  | nil => exact absurd (List.cons.inj split).2 (List.splitOnP_ne_nil _ rest)
  | cons other others =>
    obtain ⟨rfl, same⟩ := List.cons.inj split
    exact ⟨others, rfl, same⟩

/-- A name that is joined to a directory next to the root starts from there as well. -/
theorem toList_join_root {directory name : String} (top : directory.toList = [separator])
    (isName : IsName name) :
    (join directory name).toList = [separator].intercalate [[], name.toList] := by
  -- Behind the root no further separator is needed.
  have root : directory = "/" := String.toList_inj.1 top
  have relative : name.toList.head? ≠ some '/' := isName.relative
  simp [root, join, relative, List.intercalate_cons_cons, List.intercalate_singleton, separator]

/-- The parts that are left behind a first one name a directory together with it. -/
theorem namedBy_cons_upToLast {directory : String} {first : List Char} {others : List (List Char)}
    (text : directory.toList = [separator].intercalate (first :: upToLast others))
    (whole : ∀ part ∈ first :: others, separator ∉ part)
    (filled : upToLast others = [] → first ≠ []) : NamedBy directory (first :: upToLast others) := by
  -- If nothing is left of the others, the first part is the last one.
  obtain ⟨start, behind⟩ := List.forall_mem_cons.1 whole
  refine ⟨text, List.forall_mem_cons.2 ⟨start, fun part left => behind part (mem_of_mem_upToLast left)⟩,
    fun last ends => ?_⟩
  by_cases none : upToLast others = []
  · rw [none] at ends
    obtain rfl := Option.some.inj ends
    exact filled none
  · rw [List.getLast?_cons_of_ne_nil none] at ends
    exact getLast_upToLast ends

/-- The name that a path ends with is exchanged for another one in the directory of the path. -/
theorem exists_trimmed {path : String} {front : List (List Char)} {last : List Char}
    (split : parts path.toList = front ++ [last]) (solid : isIdle last = false) :
    ∃ trimmed idle, front = trimmed ++ idle ∧ (∀ part ∈ idle, isIdle part) ∧
      (trimmed = [] → path.toList.head? ≠ some separator) ∧
      ∀ name, IsName name →
        (join (parent path) name).toList = [separator].intercalate (trimmed ++ [name.toList]) := by
  -- The parent of a path depends on how the path starts, so each start is a case.
  have unbroken : ∀ part ∈ front, separator ∉ part := fun part member =>
    separator_notMem (split ▸ List.mem_append_left _ member)
  have root : ∀ rest, parts (separator :: rest) = [] :: parts rest := parts_append List.not_mem_nil
  rcases anchored_cases path.toList with ⟨rest, text, starts⟩ | dot | ⟨rest, text, starts⟩ |
    ⟨relative, starts⟩
  · -- The path starts from the root.
    rw [text, root] at split
    obtain ⟨others, rfl, behind⟩ := exists_of_cons split
    obtain ⟨idle, cut, nowhere⟩ := exists_idle others
    have directory := toList_parent starts behind solid
    refine ⟨[] :: upToLast others, idle, congrArg _ cut, nowhere, by simp, fun name isName => ?_⟩
    by_cases none : upToLast others = []
    · rw [none] at directory ⊢
      exact toList_join_root directory isName
    · refine (namedBy_cons_upToLast ?_ unbroken fun same => absurd same none).join isName
      exact directory.trans (intercalate_cons none []).symm
  · -- Nothing but the name of the place itself is no name of a file.
    rw [dot] at split
    have same : some ['.'] = (front ++ [last]).getLast? := congrArg List.getLast? split
    rw [List.getLast?_concat] at same
    rw [← Option.some.inj same] at solid
    cases solid
  · -- The path starts from the place itself.
    have first : parts path.toList = ['.'] :: parts rest := by
      rw [text]
      exact parts_append (show separator ∉ ['.'] by decide) rest
    rw [first] at split
    obtain ⟨others, rfl, behind⟩ := exists_of_cons split
    obtain ⟨idle, cut, nowhere⟩ := exists_idle others
    have body : parts (separator :: rest) = [] :: others ++ [last] := by
      rw [root, behind]
      rfl
    have directory := toList_parent starts body solid
    rw [upToLast_cons rfl] at directory
    refine ⟨['.'] :: upToLast others, idle, congrArg _ cut, nowhere, by simp, fun name isName => ?_⟩
    refine (namedBy_cons_upToLast ?_ unbroken fun _ => List.cons_ne_nil _ _).join isName
    by_cases none : upToLast others = []
    · rw [if_pos none] at directory
      rw [none]
      exact directory
    · rw [if_neg none] at directory
      rw [directory, intercalate_cons none []]
      exact (intercalate_cons none ['.']).symm
  · -- The path starts with the name of an entry.
    obtain ⟨idle, cut, nowhere⟩ := exists_idle front
    have namedBy : NamedBy (parent path) (upToLast front) :=
      ⟨toList_parent starts split solid, fun part left => unbroken part (mem_of_mem_upToLast left),
        fun _ => getLast_upToLast⟩
    exact ⟨upToLast front, idle, cut, nowhere, fun _ => relative, fun _ => namedBy.join⟩

/-- A name joined to the directory of a path is looked up where the path is, in its place. -/
theorem exists_join {path : String} {front : List (List Char)} {last : List Char}
    (split : parts path.toList = front ++ [last]) (solid : isIdle last = false) :
    ∃ trimmed idle, front = trimmed ++ idle ∧ (∀ part ∈ idle, isIdle part) ∧
      ∀ name, IsName name → parts (join (parent path) name).toList = trimmed ++ [name.toList] ∧
        ((join (parent path) name).toList.head? = some separator ↔
          path.toList.head? = some separator) ∧
        ∀ c ∈ (join (parent path) name).toList, c ≠ separator → c ∈ path.toList ∨ c ∈ name.toList := by
  -- The parts of the joined path are found from its text, in which they are kept whole.
  obtain ⟨trimmed, idle, cut, nowhere, relative, joined⟩ := exists_trimmed split solid
  have listed : ∀ part ∈ trimmed, part ∈ parts path.toList := by
    intro part member
    rw [split, cut]
    simp [member]
  refine ⟨trimmed, idle, cut, nowhere, fun name isName => ⟨?_, ?_, fun c member other => ?_⟩⟩
  · -- The name is one part behind those of the directory.
    rw [joined name isName]
    refine parts_intercalate (fun part member => ?_) (by simp)
    rcases List.mem_append.1 member with before | here
    · exact separator_notMem (listed part before)
    · rw [List.mem_singleton.1 here]
      exact isName.whole
  · rw [joined name isName]
    cases trimmed with
    | nil =>
      rw [List.nil_append, List.intercalate_singleton]
      exact iff_of_false isName.relative (relative rfl)
    | cons first rest =>
      have whole := separator_notMem (listed first List.mem_cons_self)
      rw [← intercalate_parts path.toList, split, cut, List.cons_append,
        head?_intercalate (by simp) whole]
      exact (head?_intercalate (by simp) whole).symm
  · rw [joined name isName, mem_intercalate other] at member
    obtain ⟨part, held, inside⟩ := member
    rcases List.mem_append.1 held with before | here
    · exact .inl (mem_of_mem_parts (listed part before) inside)
    · rw [List.mem_singleton.1 here] at inside
      exact .inr inside

/-- What is added at the end of a path is added to its last part. -/
theorem parts_append_ending {text ending last : List Char} {front : List (List Char)}
    (split : parts text = front ++ [last]) (whole : separator ∉ ending) :
    parts (text ++ ending) = front ++ [last ++ ending] := by
  -- The ending has no separator, so that it belongs to the last part.
  have listed : ∀ part ∈ front ++ [last], separator ∉ part := fun part member =>
    separator_notMem (split ▸ member)
  have text : text ++ ending = [separator].intercalate (front ++ [last ++ ending]) := by
    rw [← intercalate_parts text, split]
    cases front with
    | nil => simp [List.intercalate_singleton]
    | cons first rest =>
      rw [intercalate_concat (List.cons_ne_nil _ _), intercalate_concat (List.cons_ne_nil _ _)]
      simp
  rw [text]
  refine parts_intercalate (fun part member => ?_) (by simp)
  rcases List.mem_append.1 member with before | here
  · exact listed part (List.mem_append_left _ before)
  · rw [List.mem_singleton.1 here, List.mem_append]
    exact fun either => either.elim (listed last (by simp)) whole

end Path

end NfaInduction

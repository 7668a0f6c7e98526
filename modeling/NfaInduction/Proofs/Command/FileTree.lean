import NfaInduction.Command.FileTree
import NfaInduction.Proofs.Command.Path
import NfaInduction.Proofs.Except

/-! A path leads to the same place as long as the directories of a tree stay the same. -/

namespace NfaInduction

namespace FileTree

variable {tree later : FileTree}

/-- Setting the content of a file keeps all places. -/
theorem place_set (place : Place) (content : ByteArray) (file : File) :
    (if file.place = place then ⟨place, content⟩ else file : File).place = file.place := by
  -- Only the content is set, and only for the same place.
  split
  · rename_i same
    exact same.symm
  · rfl

/-- What was put somewhere is found there, and what is elsewhere stays. -/
theorem find?_put (tree : FileTree) (place other : Place) (content : ByteArray) :
    (tree.put place content).find? other = if other = place then some content else tree.find? other := by
  simp only [put, find?]
  split
  · rename_i present
    -- The first file of a place is the first one before as well.
    have searched : ((fun file : File => decide (file.place = other)) ∘
        fun file => if file.place = place then ⟨place, content⟩ else file) =
          fun file => decide (file.place = other) :=
      funext fun file => by rw [Function.comp_apply, place_set]
    simp only [List.find?_map, searched]
    cases found : tree.files.find? (·.place = other) with
    | none =>
      have elsewhere : other ≠ place := by
        rintro rfl
        obtain ⟨file, member, there⟩ := List.any_eq_true.1 present
        exact List.find?_eq_none.1 found file member there
      simp [elsewhere]
    | some file =>
      have there : file.place = other := by simpa using List.find?_some found
      subst there
      simp only [Option.map_some]
      split <;> rfl
  · -- A place without a file gets one behind all others.
    rename_i absent
    simp only [List.find?_append, List.find?_singleton]
    by_cases here : other = place
    · subst here
      have none : tree.files.find? (·.place = other) = none :=
        List.find?_eq_none.2 fun file member there => absent (List.any_eq_true.2 ⟨file, member, there⟩)
      simp [none]
    · simp [here, Ne.symm here]

/-- A file below a directory makes it one. -/
theorem isDirectory_put (tree : FileTree) (place other : Place) (content : ByteArray) :
    (tree.put place content).isDirectory other = (tree.isDirectory other || place.isBelow other) := by
  -- The file is new or replaces the one of the same place, and is below the same directories.
  have below : (tree.put place content).files.any (·.place.isBelow other) =
      (tree.files.any (·.place.isBelow other) || place.isBelow other) := by
    rw [put]
    split
    · rename_i present
      obtain ⟨file, member, there⟩ := List.any_eq_true.1 present
      obtain rfl := of_decide_eq_true there
      rw [List.any_map]
      have same : ((fun file : File => file.place.isBelow other) ∘
          fun other => if other.place = file.place then ⟨file.place, content⟩ else other) =
            fun file => file.place.isBelow other :=
        funext fun file => by rw [Function.comp_apply, place_set]
      rw [same]
      cases covered : file.place.isBelow other with
      | false => rw [Bool.or_false]
      | true => rw [Bool.or_true, List.any_eq_true.2 ⟨file, member, covered⟩]
    · simp
  simp only [isDirectory, below, Bool.or_assoc]

/-- Different names lead to different places in a directory. -/
theorem Place.down_inj {directory : Place} {name other : String} :
    directory.down name = directory.down other ↔ name = other := by
  rw [down, down, Place.mk.injEq]
  simp

/-- What lies below a place lies below the places above it as well. -/
theorem Place.isBelow_iff (place directory : Place) : place.isBelow directory ↔
    place.above = directory.above ∧ directory.names <+: place.names ∧
      place.names ≠ directory.names := by
  simp [isBelow, and_assoc]

/-- The directory of a directory is one. -/
theorem isDirectory_up {place : Place} (directory : tree.isDirectory place) :
    tree.isDirectory place.up := by
  -- A file below the directory is below the one above as well.
  obtain ⟨above, names⟩ := place
  cases names with
  | nil => rfl
  | cons first rest =>
    simp only [isDirectory, Place.up, List.isEmpty_cons, Bool.false_or, Bool.or_eq_true] at directory ⊢
    obtain ⟨file, member, below⟩ := List.any_eq_true.1 directory
    obtain ⟨level, under, _⟩ := (Place.isBelow_iff _ _).1 below
    refine .inr (List.any_eq_true.2 ⟨file, member, (Place.isBelow_iff _ _).2 ⟨level, ?_, ?_⟩⟩)
    · exact (List.dropLast_prefix _).trans under
    · intro same
      have lengths := under.length_le
      rw [same] at lengths
      exact absurd lengths (by simp)

/-- Two trees have the same directories. -/
def SameDirectories (tree later : FileTree) : Prop :=
  ∀ place, later.isDirectory place = tree.isDirectory place

/-- The same directories stay the same from step to step. -/
theorem SameDirectories.trans {middle : FileTree} (first : tree.SameDirectories middle)
    (second : middle.SameDirectories later) : tree.SameDirectories later :=
  fun place => (second place).trans (first place)

/-- A file in a directory makes no new directories. -/
theorem sameDirectories_put {directory : Place} (present : tree.isDirectory directory)
    (name : String) (content : ByteArray) :
    tree.SameDirectories (tree.put (directory.down name) content) := by
  intro place
  rw [isDirectory_put]
  cases below : (directory.down name).isBelow place with
  | false => rw [Bool.or_false]
  | true =>
    obtain ⟨level, under, apart⟩ := (Place.isBelow_iff _ _).1 below
    have names : place.names <+: directory.names :=
      (List.prefix_concat_iff.1 under).resolve_left (Ne.symm apart)
    rw [Bool.or_true, eq_comm]
    -- The place is the directory itself or lies above it.
    by_cases same : place.names = directory.names
    · have here : place = directory := by
        obtain ⟨_, _⟩ := place
        exact congr (congrArg Place.mk level.symm) same
      rw [here]
      exact present
    · rw [isDirectory, Bool.or_eq_true] at present ⊢
      rcases present with empty | covered
      · rw [List.isEmpty_iff.1 empty] at names same
        exact absurd (List.prefix_nil.1 names) same
      · obtain ⟨file, member, deeper⟩ := List.any_eq_true.1 covered
        obtain ⟨again, further, other⟩ := (Place.isBelow_iff _ _).1 deeper
        refine .inr (List.any_eq_true.2 ⟨file, member, (Place.isBelow_iff _ _).2
          ⟨again.trans level, names.trans further, fun equal => ?_⟩⟩)
        exact same (names.eq_of_length_le (equal ▸ further.length_le))

/-- A file that is there already makes no new directories. -/
theorem sameDirectories_put_of_find? {place : Place} {before : ByteArray}
    (there : tree.find? place = some before) (content : ByteArray) :
    tree.SameDirectories (tree.put place content) := by
  -- The directories above the file were there because of it.
  intro other
  rw [isDirectory_put]
  cases below : place.isBelow other with
  | false => rw [Bool.or_false]
  | true =>
    obtain ⟨file, found, _⟩ := Option.map_eq_some_iff.1 there
    have here : file.place = place := by simpa using List.find?_some found
    have covered : tree.files.any (·.place.isBelow other) :=
      List.any_eq_true.2 ⟨file, List.mem_of_find?_eq_some found, here ▸ below⟩
    rw [Bool.or_true, isDirectory, covered, Bool.or_true]

/-- Parts are followed one behind the other. -/
theorem follow_append (tree : FileTree) (start : Place) (front rest : List String) :
    tree.follow start (front ++ rest) = (do tree.follow (← tree.follow start front) rest) := by
  -- The induction goes along the first parts, with one case for each kind of part.
  induction front generalizing start with
  | nil => rfl
  | cons part others ih =>
    rw [List.cons_append, follow, follow]
    cases tree.enter start with
    | error failure => rfl
    | ok _ =>
      simp only [Bind.bind, Except.bind, ih]
      split
      · rfl
      · split
        · rfl
        · split <;> rfl

/-- A directory can be entered, and nothing else. -/
theorem enter_eq_ok {place : Place} : tree.enter place = .ok () ↔ tree.isDirectory place := by
  -- Each of the failures is for a place that is no directory.
  rw [enter]
  split
  · simp [*]
  · split <;> simp [*]

/-- Parts that could be followed can be followed as long as the directories stay the same. -/
theorem SameDirectories.follow (same : tree.SameDirectories later) {start place : Place}
    {parts : List String} (followed : tree.follow start parts = .ok place) :
    later.follow start parts = .ok place := by
  -- At each part the same directory is entered, which the induction carries on.
  induction parts generalizing start with
  | nil => exact followed
  | cons part rest ih =>
    rw [FileTree.follow] at followed ⊢
    obtain ⟨_, entered, followed⟩ := bind_eq_ok.1 followed
    rw [bind_of_ok (enter_eq_ok.2 ((same start).trans (enter_eq_ok.1 entered)))]
    split at followed
    · rename_i idle
      rw [if_pos idle]
      exact ih followed
    · rename_i solid
      rw [if_neg solid]
      split at followed
      · rename_i up
        rw [if_pos up]
        exact ih followed
      · rename_i down
        rw [if_neg down]
        split at followed
        · cases followed
        · rename_i short
          rw [if_neg short]
          exact ih followed

/-- Idle parts lead nowhere. -/
theorem follow_idle {start place : Place} {parts : List (List Char)}
    (idle : ∀ part ∈ parts, Path.isIdle part)
    (followed : tree.follow start (parts.map String.ofList) = .ok place) : place = start := by
  -- Each of the parts leads nowhere, and the induction goes along them.
  induction parts with
  | nil =>
    cases followed
    rfl
  | cons part rest ih =>
    obtain ⟨first, others⟩ := List.forall_mem_cons.1 idle
    rw [List.map_cons, FileTree.follow] at followed
    obtain ⟨_, _, followed⟩ := bind_eq_ok.1 followed
    have nowhere : String.ofList part = "" ∨ String.ofList part = "." := by
      rw [Path.isIdle, Bool.or_eq_true, beq_iff_eq, beq_iff_eq] at first
      exact first.imp (congrArg String.ofList) (congrArg String.ofList)
    rw [if_pos (by simpa using nowhere)] at followed
    exact ih others followed

/-- A name that a file can have, unless it is too long. -/
structure IsFileName (name : String) : Prop extends Path.IsName name where
  /-- It is not the name of the directory itself. -/
  ne_here : name ≠ "."
  /-- It is not the name of the directory above. -/
  ne_up : name ≠ ".."
  /-- It does not end before its end. -/
  noNul : '\x00' ∉ name.toList

/-- A name stays one if another one is added at its end. -/
theorem IsFileName.append {name ending : String} (isName : IsFileName name)
    (isEnding : IsFileName ending) : IsFileName (name ++ ending) := by
  have filled : ending.toList ≠ [] := by simpa using isEnding.filled
  have first : name.toList ≠ [] := by simpa using isName.filled
  have long : ∀ text : String, name ++ ending = text → 2 ≤ text.toList.length := by
    rintro _ rfl
    have left := List.length_pos_iff.2 first
    have right := List.length_pos_iff.2 filled
    rw [String.toList_append, List.length_append]
    omega
  refine ⟨⟨?filled, ?whole⟩, ?ne_here, ?ne_up, ?noNul⟩
  case filled => exact fun same => absurd (long _ same) (by decide)
  case ne_here => exact fun same => absurd (long _ same) (by decide)
  case ne_up =>
    intro same
    -- Two dots are only made of one dot and another one.
    have chars : name.toList ++ ending.toList = ['.', '.'] := by
      rw [← String.toList_append, same]
      rfl
    obtain ⟨c, rest, before⟩ := List.exists_cons_of_ne_nil first
    rw [before, List.cons_append, List.cons.injEq] at chars
    cases rest with
    | nil => exact isName.ne_here (String.toList_inj.1 (by rw [before, chars.1]; rfl))
    | cons d others =>
      rw [List.cons_append, List.cons.injEq] at chars
      exact filled (List.append_eq_nil_iff.1 chars.2.2).2
  case whole =>
    rw [String.toList_append, List.mem_append]
    exact fun either => either.elim isName.whole isEnding.whole
  case noNul =>
    rw [String.toList_append, List.mem_append]
    exact fun either => either.elim isName.noNul isEnding.noNul

/-- The name of a file leads down from its directory, unless it is too long. -/
theorem follow_name {directory : Place} (present : tree.isDirectory directory) {name : String}
    (isName : IsFileName name) : tree.follow directory [name] =
      if name.utf8ByteSize > maxNameBytes then .error .nameTooLong else .ok (directory.down name) := by
  -- A name of a file is none of the parts that lead nowhere or up.
  have solid : ¬(decide (name = "") || decide (name = ".")) = true := by
    simp [isName.filled, isName.ne_here]
  rw [FileTree.follow, bind_of_ok (enter_eq_ok.2 present), if_neg solid, if_neg isName.ne_up]
  rfl

variable {path : String} {start : Place} {parts : List String}

/-- The way of a path starts at the root or at the tree, and is made of the parts of the path. -/
theorem route_eq_ok : route path = .ok (start, parts) ↔ '\x00' ∉ path.toList ∧ path ≠ "" ∧
    path.utf8ByteSize < pathLimit ∧
    start = (if path.toList.head? = some Path.separator then .root else .top) ∧
    parts = (Path.parts path.toList).map String.ofList := by
  -- The checks are made one after the other, and each of them excludes one kind of path.
  rw [route]
  split
  · rename_i nul
    simp [List.contains_iff_mem.1 nul]
  · rename_i noNul
    split
    · rename_i empty
      simp [String.isEmpty_iff.1 empty]
    · rename_i filled
      split
      · rename_i long
        simp [Nat.not_lt_of_ge long]
      · rename_i short
        rw [String.isEmpty_iff] at filled
        rw [List.contains_iff_mem] at noNul
        simp only [beq_iff_eq, Except.ok.injEq, Prod.mk.injEq]
        constructor
        · rintro ⟨rfl, rfl⟩
          exact ⟨noNul, filled, Nat.lt_of_not_ge short, rfl, rfl⟩
        · rintro ⟨_, _, _, rfl, rfl⟩
          exact ⟨rfl, rfl⟩

variable {front : List (List Char)} {last : List Char}

/-- A file is placed in the directory of its path, behind whatever leads there. -/
theorem placeFor_eq (routed : route path = .ok (start, parts))
    (split : Path.parts path.toList = front ++ [last]) (filled : last ≠ []) :
    tree.placeFor path = (do
      let directory ← tree.follow start (front.map String.ofList)
      tree.enter directory
      let place ← tree.follow directory [String.ofList last]
      if tree.isDirectory place then .error .isADirectory else .ok place) := by
  -- The last part is filled, so that no part is dropped at the end.
  obtain ⟨_, _, _, _, listed⟩ := route_eq_ok.1 routed
  rw [split, List.map_append, List.map_singleton] at listed
  have named : (parts.reverse.dropWhile (· = "")).reverse = parts := by
    rw [listed]
    simp [filled]
  rw [placeFor, bind_of_ok routed]
  simp only [named, Nat.lt_irrefl, if_false]
  rw [listed, List.dropLast_concat, List.getLast?_concat]
  refine bind_congr fun directory => bind_congr fun _ => bind_congr fun place => ?_
  split <;> rfl

/-- No file is created for a path with a separator at its end. -/
theorem placeFor_of_separator (routed : route path = .ok (start, parts))
    (split : Path.parts path.toList = front ++ [[]]) (place : Place) :
    tree.placeFor path ≠ .ok place := by
  -- Behind the last separator there is nothing, which is dropped and found missing.
  obtain ⟨_, _, _, _, listed⟩ := route_eq_ok.1 routed
  rw [split, List.map_append, List.map_singleton] at listed
  have fewer : ((parts.reverse.dropWhile (· = "")).reverse).length < parts.length := by
    have shorter := ((front.map String.ofList).reverse.dropWhile_suffix (· = "")).length_le
    simp only [List.length_reverse, List.length_map] at shorter
    simp only [listed, List.reverse_append, List.reverse_singleton, List.singleton_append,
      String.ofList_nil, decide_true, List.dropWhile_cons_of_pos, List.length_reverse,
      List.length_append, List.length_map, List.length_singleton]
    omega
  rw [placeFor, bind_of_ok routed]
  intro placed
  obtain ⟨directory, _, placed⟩ := bind_eq_ok.1 placed
  obtain ⟨_, _, placed⟩ := bind_eq_ok.1 placed
  rw [if_pos fewer] at placed
  cases placed

/-- A path leads to a directory that exists and names a file in it, whether there is one or not. -/
structure Aims (tree : FileTree) (path : String) (directory : Place) (name : String) : Prop where
  /-- The path ends with the name, and what is before it leads to the directory. -/
  route : ∃ start parts front, FileTree.route path = .ok (start, parts) ∧
    Path.parts path.toList = front ++ [name.toList] ∧
    tree.follow start (front.map String.ofList) = .ok directory
  /-- The directory exists. -/
  directory : tree.isDirectory directory
  /-- The name can be one of a file. -/
  isName : IsFileName name

variable {directory : Place} {name : String}

/-- The place that a path aims at, unless a directory is there. -/
theorem Aims.placeFor (aims : tree.Aims path directory name) : tree.placeFor path =
    if name.utf8ByteSize > maxNameBytes then .error .nameTooLong
    else if tree.isDirectory (directory.down name) then .error .isADirectory
    else .ok (directory.down name) := by
  -- The directory is there, so that all depends on the name and what it stands for.
  obtain ⟨start, parts, front, routed, split, followed⟩ := aims.route
  have filled : name.toList ≠ [] := by simpa using aims.isName.filled
  rw [placeFor_eq routed split filled, bind_of_ok followed,
    bind_of_ok (enter_eq_ok.2 aims.directory), String.ofList_toList,
    follow_name aims.directory aims.isName]
  split <;> rfl

/-- A part that leads from a directory to something other than a directory is the name of a file. -/
theorem isFileName_of_follow {directory place : Place} {part : List Char}
    (present : tree.isDirectory directory) (filled : part ≠ []) (whole : Path.separator ∉ part)
    (noNul : '\x00' ∉ part) (followed : tree.follow directory [String.ofList part] = .ok place)
    (absent : tree.isDirectory place = false) : IsFileName (String.ofList part) := by
  -- Any other part leads to a directory, which the place is not.
  rw [FileTree.follow, bind_of_ok (enter_eq_ok.2 present)] at followed
  refine ⟨⟨?filled, ?whole⟩, ?ne_here, ?ne_up, ?noNul⟩
  case filled => simpa using filled
  case whole => simpa using whole
  case noNul => simpa using noNul
  case ne_here =>
    intro here
    rw [here, if_pos (by decide)] at followed
    cases followed
    rw [present] at absent
    cases absent
  case ne_up =>
    intro up
    rw [up, if_neg (by decide), if_pos rfl] at followed
    cases followed
    rw [isDirectory_up present] at absent
    cases absent

/-- What a file can be created for aims at its place. -/
theorem exists_aims {place : Place} (placed : tree.placeFor path = .ok place) :
    ∃ directory name, tree.Aims path directory name ∧ place = directory.down name := by
  -- The last part is the name, and what is followed before it is the directory.
  obtain ⟨⟨start, parts⟩, routed⟩ : ∃ found, FileTree.route path = .ok found := by
    rw [FileTree.placeFor] at placed
    obtain ⟨found, routed, _⟩ := bind_eq_ok.1 placed
    exact ⟨found, routed⟩
  obtain ⟨noNul, _⟩ := route_eq_ok.1 routed
  obtain ⟨front, last, split⟩ :=
    (List.eq_nil_or_concat' (Path.parts path.toList)).resolve_left (List.splitOnP_ne_nil _ _)
  -- A path that ends with a separator has no place for a file.
  by_cases filled : last = []
  · rw [filled] at split
    exact absurd placed (placeFor_of_separator routed split place)
  · rw [placeFor_eq routed split filled] at placed
    obtain ⟨directory, followed, placed⟩ := bind_eq_ok.1 placed
    obtain ⟨_, entered, placed⟩ := bind_eq_ok.1 placed
    obtain ⟨found, named, placed⟩ := bind_eq_ok.1 placed
    have present := enter_eq_ok.1 entered
    split at placed
    · cases placed
    · rename_i noDirectory
      cases placed
      have listed : last ∈ Path.parts path.toList := by
        rw [split]
        exact List.mem_append_right _ List.mem_cons_self
      have isName := isFileName_of_follow present filled (Path.separator_notMem listed)
        (fun nul => noNul (Path.mem_of_mem_parts listed nul)) named (by simpa using noDirectory)
      refine ⟨directory, String.ofList last,
        ⟨⟨start, parts, front, routed, ?_, followed⟩, present, isName⟩, ?_⟩
      · rw [String.toList_ofList]
        exact split
      · rw [follow_name present isName] at named
        split at named
        · cases named
        · cases named
          rfl

/-- Paths aim at the same as long as the directories stay the same. -/
theorem Aims.of_same (aims : tree.Aims path directory name) (same : tree.SameDirectories later) :
    later.Aims path directory name where
  -- The way to the directory leads through directories only.
  route := by
    obtain ⟨start, parts, front, routed, split, followed⟩ := aims.route
    exact ⟨start, parts, front, routed, split, same.follow followed⟩
  directory := (same directory).trans aims.directory
  isName := aims.isName

/-- The only place for a path is the one that it aims at. -/
theorem Aims.placeFor_eq_ok (aims : tree.Aims path directory name) {place : Place} :
    tree.placeFor path = .ok place ↔ name.utf8ByteSize ≤ maxNameBytes ∧
      tree.isDirectory (directory.down name) = false ∧ directory.down name = place := by
  -- The name has to be short enough, and no directory may have it.
  rw [aims.placeFor]
  split
  · rename_i long
    simp [Nat.not_le_of_gt long]
  · rename_i short
    split
    · rename_i present
      simp [present]
    · rename_i absent
      simp [Nat.le_of_not_lt short, absent]

/-- Where a file can be created depends on the directories and not on the files that are there. -/
theorem SameDirectories.placeFor_eq_ok (same : tree.SameDirectories later) {place : Place} :
    later.placeFor path = .ok place ↔ tree.placeFor path = .ok place := by
  -- Where a file is placed depends on the directories only.
  have keeps : ∀ {tree later : FileTree}, tree.SameDirectories later →
      tree.placeFor path = .ok place → later.placeFor path = .ok place := by
    intro tree later same placed
    obtain ⟨directory, name, aims, rfl⟩ := exists_aims placed
    obtain ⟨short, absent, _⟩ := aims.placeFor_eq_ok.1 placed
    exact (aims.of_same same).placeFor_eq_ok.2 ⟨short, (same _).trans absent, rfl⟩
  exact ⟨keeps fun place => (same place).symm, keeps same⟩

/-- A name joined to the directory of a path aims at a file beside that of the path. -/
theorem Aims.join (aims : tree.Aims path directory name) {entry : String}
    (isEntry : IsFileName entry)
    (short : (Path.join (Path.parent path) entry).utf8ByteSize < pathLimit) :
    tree.Aims (Path.join (Path.parent path) entry) directory entry := by
  obtain ⟨start, parts, front, routed, split, followed⟩ := aims.route
  obtain ⟨noNul, _, _, starts, _⟩ := route_eq_ok.1 routed
  have solid : Path.isIdle name.toList = false := by
    rw [Path.isIdle, Bool.or_eq_false_iff, beq_eq_false_iff_ne, beq_eq_false_iff_ne]
    exact ⟨by simpa using aims.isName.filled, fun dot => aims.isName.ne_here (String.toList_inj.1 dot)⟩
  obtain ⟨trimmed, idle, rfl, nowhere, joined⟩ := Path.exists_join split solid
  obtain ⟨listed, heads, chars⟩ := joined entry isEntry.toIsName
  refine ⟨⟨start, _, trimmed, route_eq_ok.2 ⟨fun nul => ?_, fun empty => ?_, short, ?_, rfl⟩, listed, ?_⟩,
    aims.directory, isEntry⟩
  · exact (chars _ nul (by decide)).elim noNul isEntry.noNul
  · -- The last part of an empty path would be empty.
    rw [empty] at listed
    have last := congrArg List.getLast? listed
    rw [List.getLast?_concat] at last
    exact isEntry.filled (String.toList_inj.1 (Option.some.inj last).symm)
  · rw [starts]
    exact if_congr heads.symm rfl rfl
  · rw [List.map_append, follow_append] at followed
    obtain ⟨place, followed, idled⟩ := bind_eq_ok.1 followed
    rw [follow_idle nowhere idled]
    exact followed

/-- A path with something added at its end aims at a file with that at the end of its name. -/
theorem Aims.append (aims : tree.Aims path directory name) {ending : String}
    (isEnding : IsFileName ending) (short : (path ++ ending).utf8ByteSize < pathLimit) :
    tree.Aims (path ++ ending) directory (name ++ ending) := by
  -- The ending becomes a part of the name, which is the last part.
  obtain ⟨start, parts, front, routed, split, followed⟩ := aims.route
  obtain ⟨noNul, filled, _, starts, _⟩ := route_eq_ok.1 routed
  refine ⟨⟨start, _, front, route_eq_ok.2 ⟨?_, ?_, short, ?_, rfl⟩, ?_, followed⟩,
    aims.directory, aims.isName.append isEnding⟩
  · rw [String.toList_append, List.mem_append]
    exact fun either => either.elim noNul isEnding.noNul
  · intro empty
    exact filled (String.append_eq_empty_iff.1 empty).1
  · have first : path.toList ≠ [] := by simpa using filled
    rw [starts, String.toList_append, List.head?_append_of_ne_nil _ first]
  · rw [String.toList_append, String.toList_append]
    exact Path.parts_append_ending split isEnding.whole

/-- The content of the file that a path leads to. -/
def contentOf? (tree : FileTree) (path : String) : Option ByteArray :=
  (tree.locate path).toOption.bind tree.find?

/-- An existing file is located where it would be created. -/
theorem locate_of_placeFor {place : Place} {content : ByteArray}
    (placed : tree.placeFor path = .ok place) (there : tree.find? place = some content) :
    tree.locate path = .ok place := by
  -- The way to the place is followed to its end, where the file is.
  obtain ⟨directory, name, aims, rfl⟩ := exists_aims placed
  obtain ⟨short, _, _⟩ := aims.placeFor_eq_ok.1 placed
  obtain ⟨start, parts, front, routed, split, followed⟩ := aims.route
  obtain ⟨_, _, _, _, listed⟩ := route_eq_ok.1 routed
  have found : tree.follow start parts = .ok (directory.down name) := by
    rw [listed, split, List.map_append, follow_append, bind_of_ok followed, List.map_singleton,
      String.ofList_toList, follow_name aims.directory aims.isName, if_neg (Nat.not_lt_of_le short)]
  rw [FileTree.locate, bind_of_ok routed]
  refine (bind_of_ok found).trans (if_pos ?_)
  rw [there]
  exact Bool.or_true _

/-- The content of a file is read where it would be created. -/
theorem contentOf?_of_placeFor {place : Place} {content : ByteArray}
    (placed : tree.placeFor path = .ok place) (there : tree.find? place = some content) :
    tree.contentOf? path = some content := by
  rw [contentOf?, locate_of_placeFor placed there]
  exact there

/-- A file has a place only if its path is not too long. -/
theorem short_of_placeFor {place : Place} (placed : tree.placeFor path = .ok place) :
    path.utf8ByteSize < pathLimit := by
  -- A path that is too long has no route.
  obtain ⟨_, _, aims, _⟩ := exists_aims placed
  obtain ⟨_, _, _, routed, _⟩ := aims.route
  exact (route_eq_ok.1 routed).2.2.1

end FileTree

end NfaInduction

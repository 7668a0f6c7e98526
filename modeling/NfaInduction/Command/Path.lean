/-! Paths name files by the parts that lead to them. -/

namespace NfaInduction

namespace Path

/-- The mark between the parts of a path. -/
def separator : Char := '/'

/-- What stands between the separators of some text, where neighboring separators enclose nothing. -/
def parts (text : List Char) : List (List Char) := text.splitOnP (· == separator)

/-- Whether a part leads nowhere, as an empty one and the name of the place itself do. -/
def isIdle (part : List Char) : Bool := part == [] || part == ['.']

/-- The parts up to the last that leads somewhere. -/
def upToLast (parts : List (List Char)) : List (List Char) :=
  (parts.reverse.dropWhile isIdle).reverse

/-- The mark that tells where a path starts, if there is one, and what follows it. -/
def anchored (path : List Char) : List Char × List Char :=
  match path with
  | '/' :: rest => (['/'], rest)
  | ['.'] => (['.'], [])
  | '.' :: '/' :: rest => (['.'], '/' :: rest)
  | body => ([], body)

/-- The path of the directory in which a path ends, and nothing if no part of it leads anywhere. -/
def parent (path : String) : String :=
  let (anchor, body) := anchored path.toList
  match upToLast (parts body) with
  | [] => ""
  | named => String.ofList (anchor ++ [separator].intercalate (upToLast named.dropLast))

/-- A path that is looked up from a directory, unless it starts from the root itself. -/
def join (directory path : String) : String :=
  if directory.isEmpty || path.toList.head? == some separator then path
  else if directory.toList.getLast? == some separator then directory ++ path
  else directory ++ "/" ++ path

end Path

end NfaInduction

import JsonShape.Text.CodePoint

/-! Files as the program sees them.

A tree knows the files and directories that matter and the directory the program runs in. Locations are
lists of names from the root. A written path is looked up step by step, so that every step but the last
must lead to a directory; resolving a path only goes by its names. Names and paths with more bytes than
the machine admits cannot be looked up, and nothing is found at a path that holds the null character.
-/

set_option autoImplicit false

namespace JsonShape.Cli

abbrev Location := List Text

inductive Entry where
  | file (bytes : List UInt8)
  | directory

def maxNameSize : Nat := 255

def maxPathSize : Nat := 4095

inductive PathFault where
  | absent
  | tooLong
  deriving DecidableEq

inductive Obstacle where
  | file
  | tooLong
  deriving DecidableEq

structure FileTree where
  home : Location
  files : List (Location × List UInt8)
  /-- Directories besides those that files show to exist. -/
  directories : List Location := []

def names : Text → List Text
  | [] => [[]]
  | c :: rest =>
    if c = '/' then [] :: names rest
    else
      match names rest with
      | [] => [[c]]
      | first :: others => (c :: first) :: others

def Location.path (l : Location) : Text :=
  if l.isEmpty then "/" else l.flatMap fun name => CodePoint.ofChar '/' :: name

/-- Whether a path holds the null character, which ends a path for the machine. -/
def holdsNull (path : Text) : Bool := path.any fun c => c.val = 0

namespace FileTree

def file? (tree : FileTree) (l : Location) : Option (List UInt8) := tree.files.lookup l

def isDirectory (tree : FileTree) (l : Location) : Bool :=
  (tree.file? l).isNone &&
    (l.isPrefixOf tree.home || tree.directories.any (l.isPrefixOf ·) ||
      tree.files.any (l.isPrefixOf ·.1))

def entry? (tree : FileTree) (l : Location) : Option Entry :=
  match tree.file? l with
  | some bytes => some (.file bytes)
  | none => if tree.isDirectory l then some .directory else none

def base (tree : FileTree) (path : Text) : Location :=
  if path.head? = some (CodePoint.ofChar '/') then [] else tree.home

def follow (tree : FileTree) (here : Location) : List Text → Except PathFault Location
  | [] => .ok here
  | name :: rest =>
    if !tree.isDirectory here then .error .absent
    else if name.isEmpty || name = "." then tree.follow here rest
    else if name = ".." then tree.follow here.dropLast rest
    else if maxNameSize < name.utf8Size then .error .tooLong
    else tree.follow (here ++ [name]) rest

def lookUp (tree : FileTree) (path : Text) (steps : List Text) : Except PathFault Entry :=
  if holdsNull path then .error .absent
  else if maxPathSize < path.utf8Size then .error .tooLong
  else
    match tree.follow (tree.base path) steps with
    | .error fault => .error fault
    | .ok l =>
      match tree.entry? l with
      | some entry => .ok entry
      | none => .error .absent

def find? (tree : FileTree) (path : Text) : Option Entry :=
  if path.isEmpty then none else (tree.lookUp path (names path)).toOption

/-- The location that a path means by its names alone. -/
def resolve (tree : FileTree) (path : Text) : Location :=
  (names path).foldl (fun (here : Location) (name : Text) =>
    if name.isEmpty || name = "." then here
    else if name = ".." then here.dropLast
    else here ++ [name]) (tree.base path)

/-- Names of a path that lead somewhere else; a path of others means its start. -/
def significant (path : Text) : List Text :=
  (names path).filter fun name => !(name.isEmpty || name = ".")

def trimmed (path : Text) : Text :=
  let root : Text := if path.head? = some (CodePoint.ofChar '/') then "/" else []
  root ++ Text.joined "/" (significant path)

def mention (tree : FileTree) (path : Text) : Except PathFault Entry :=
  tree.lookUp (trimmed path) (significant path)

/-- A path to something that exists is shown by its last name, and any other text as it is. -/
def shown (tree : FileTree) (path : Text) : Text :=
  match tree.mention path with
  | .ok _ => (significant path).getLast?.getD []
  | .error _ => path

def isTooLong (tree : FileTree) (path : Text) : Bool :=
  match tree.mention path with
  | .error .tooLong => true
  | _ => false

def obstacle? (tree : FileTree) (l : Location) : Option Obstacle :=
  if maxPathSize < l.path.utf8Size then some .tooLong
  else
    (List.range (l.length + 1)).findSome? fun n =>
      if (tree.file? (l.take n)).isSome then some .file
      else if (l.take n).getLast?.any (maxNameSize < Text.utf8Size ·) then some .tooLong
      else none

end FileTree

end JsonShape.Cli

import SchemaBindings.CommandLine.Run

namespace SchemaBindings.CommandLine

/-- Files with the names that lead to them, from the working folder or from the root, which has the
empty name. A folder is there as long as a file is in it. -/
abbrev FileTree := List (List String × String)

namespace FileTree

def names (path : String) : List String :=
  (Text.splitAt (· == '/') path.toList).map String.ofList

/-- The names that lead on from a folder; an empty name and a dot stay in it. -/
def steps (path : String) : List String :=
  (names path).filter fun name => name != "" && name != "."

/-- Whether a path ends by naming the folder that it has led to. -/
def endsInDot (path : String) : Bool :=
  ((names path).filter (· != "")).getLast? == some "."

def start (path : String) : List String :=
  if path.toList.head? = some '/' then [""] else []

def isAround (place : List String) : Bool :=
  place.all (· == "..")

/-- The place that a name leads to. Nothing is around the root. -/
def enter (place : List String) (name : String) : List String :=
  if name = "" ∨ name = "." then place
  else if name = ".." then
    if isAround place then place ++ [".."] else if place = [""] then place else place.dropLast
  else place ++ [name]

def route (place : List String) : List String → List (List String)
  | [] => [place]
  | name :: names => place :: route (enter place name) names

def placeOf (path : String) : List String :=
  (steps path).foldl enter (start path)

def onTheWay (path : String) : List (List String) :=
  route (start path) (steps path).dropLast

/-- Whether a path can be one of a file: no null character is in it, and neither it nor one of its
names has too many bytes. -/
def isUsable (path : String) : Bool :=
  !path.toList.contains (Char.ofNat 0) && decide (Text.byteLength path.toList < 4096) &&
    (names path).all fun name => decide (Text.byteLength name.toList < 256)

def put : FileTree → List String → String → FileTree
  | [], place, text => [(place, text)]
  | (p, t) :: files, place, text =>
    if p = place then (p, text) :: files else (p, t) :: put files place text

/-- The tree of files with their paths. The null device is an empty file besides them. -/
def ofFiles (files : List (String × String)) : FileTree :=
  files.foldl (fun tree file => put tree (placeOf file.1) file.2) [(["", "dev", "null"], "")]

variable (tree : FileTree)

def hasFile (place : List String) : Bool :=
  tree.any (·.1 == place)

def hasFolder (place : List String) : Bool :=
  isAround place || place == [""] ||
    tree.any fun file => place.isPrefixOf file.1 && file.1 != place

def follow? (place : List String) : List String → Option String
  | [] => none
  | [name] => tree.lookup (place ++ [name])
  | name :: names =>
    if tree.hasFolder (enter place name) then follow? (enter place name) names else none

def read? (path : String) : Option String :=
  if isUsable path then tree.follow? (start path) (names path) else none

/-- Whether the folder of a path can be made, with those on the way to it, if it is missing. No file
may be in the way; and a path that ends in a dot makes nothing of its own, so its folder must be
there or on the way. -/
def canMake (path : String) : Bool :=
  !(placeOf path :: onTheWay path).any tree.hasFile &&
    (!endsInDot path || tree.hasFolder (placeOf path) || (onTheWay path).contains (placeOf path))

def write? (folder name text : String) : Option FileTree :=
  let file := placeOf folder ++ [name]
  if isUsable (joinPath folder name) && tree.canMake folder && !tree.hasFolder file &&
      !(onTheWay folder).contains file then
    some (tree.put file text)
  else none

/-- The files of the working folder that are not in an earlier tree, with their paths, in the order
of these. -/
def added (earlier later : FileTree) : List (String × String) :=
  let new := later.filter fun file =>
    !earlier.hasFile file.1 && file.1.head? != some ".." && file.1.head? != some ""
  KeyedList.sorted (new.map fun file => ("/".intercalate file.1, file.2))

end FileTree

def Disk.inMemory : Disk (StateM FileTree) where
  read? path := do return (← get).read? path
  write folder name text := do
    match (← get).write? folder name text with
    | some tree => set tree; return true
    | none => return false

def runOn (r : Request) (tree : FileTree) : Option Report × FileTree :=
  (run .inMemory r).run tree

end SchemaBindings.CommandLine

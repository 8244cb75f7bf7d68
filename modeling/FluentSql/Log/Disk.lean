import FluentSql.Failure

/-!
# The disk

The directories and files that a program which writes logs comes across.  A
way is a text of names between slashes; it starts at the root or in the
working directory.

* `Place` is where a way ends, and `waySteps` are the names on it.
* `Disk` knows the directories and the files that are there.
* `Disk.walk` goes along a way, `Disk.makeDirectory` makes a directory with
  all that are missing before it, and `Disk.openFile` opens a file.
-/

namespace FluentSql

/-! ## Places -/

/-- A place on the disk. -/
structure Place where
  /-- Whether it is reached from the root and not from the working directory. -/
  absolute : Bool := false
  /-- The number of steps up from the working directory. -/
  above : Nat := 0
  /-- The names on the way down. -/
  parts : List String := []
deriving DecidableEq

namespace Place

/-- The place one step up.  The root has none above it. -/
def parent (place : Place) : Place :=
  if !place.parts.isEmpty then { place with parts := place.parts.dropLast }
  else if place.absolute then place
  else { place with above := place.above + 1 }

/-- The place of a name in a directory. -/
def child (place : Place) (name : String) : Place :=
  { place with parts := place.parts ++ [name] }

/-- Goes one step along a way. -/
def step (place : Place) (name : String) : Place :=
  if name = ".." then place.parent else place.child name

/-- Whether a place lies in the working directory or below it. -/
def isLocal (place : Place) : Bool :=
  !place.absolute && place.above == 0

/-- The names on the way to a place. -/
def display (place : Place) : String :=
  joinWith "/" place.parts

end Place

/-- Where a way starts, as seen from a place. -/
def wayStart (place : Place) (way : String) : Place :=
  if ['/'].isPrefixOf way.toList then { absolute := true } else place

/-- The steps of a way; empty ones and those in place count for nothing. -/
def waySteps (way : String) : List String :=
  ((way.toList.splitOn '/').map String.ofList).filter fun name => name != "" && name != "."

/-! ## What is there -/

/-- Directories that are there on every system. -/
def standardDirectories : List (List String) :=
  (["bin", "dev", "etc", "home", "lib", "mnt", "opt", "proc", "root", "run", "sbin", "srv", "sys",
    "tmp", "usr", "var"].map fun name => [name]) ++
    [["dev", "shm"], ["usr", "bin"], ["usr", "lib"], ["usr", "local"], ["var", "log"],
      ["var", "tmp"]]

/-- Files that are there on every system. -/
def standardFiles : List (List String) :=
  ["full", "null", "random", "urandom", "zero"].map fun name => ["dev", name]

/-- The directories and files that were made. -/
structure Disk where
  /-- The directories. -/
  directories : List Place := []
  /-- The files. -/
  files : List Place := []

namespace Disk

/-- Whether a place is a directory.  The working directory is one, and so are those above it. -/
def isDirectory (disk : Disk) (place : Place) : Bool :=
  place.parts.isEmpty || place ∈ disk.directories ||
    (place.absolute && place.parts ∈ standardDirectories)

/-- Whether a place is a file. -/
def isFile (disk : Disk) (place : Place) : Bool :=
  place ∈ disk.files || (place.absolute && place.parts ∈ standardFiles)

/-- The most bytes that a name may have. -/
def nameLimit : Nat := 255

/-- The number of bytes that a way must stay below. -/
def wayLimit : Nat := 4096

/-- Makes sure that a name is not too long. -/
def checkName (name : String) : Except Failure Unit :=
  if nameLimit < name.utf8ByteSize then .error (.value .nameTooLong) else .ok ()

/-- Makes sure that a way is not too long and has no zero character. -/
def checkWay (steps : List String) : Except Failure Unit :=
  if steps.any fun name => name.toList.contains '\x00' then .error .badValue
  else if wayLimit ≤ (joinWith "/" steps).utf8ByteSize then .error (.value .nameTooLong)
  else .ok ()

/-- Goes into a directory of a directory. -/
def enter (disk : Disk) (place : Place) (name : String) : Except Failure Place := do
  checkName name
  let next := place.child name
  if disk.isDirectory next then return next
  else if disk.isFile next then throw (.value .notDirectory)
  else throw (.value .missingDirectory)

/-- Goes along a way, through directories that are there. -/
def walk (disk : Disk) : Place → List String → Except Failure Place
  | place, [] => .ok place
  | place, name :: rest => do
    let next ← if name = ".." then .ok place.parent else disk.enter place name
    disk.walk next rest

/-! ## New directories and files -/

/-- Makes one directory, in a directory that is there. -/
def makeOne (disk : Disk) (start : Place) (steps : List String) : Except Failure Disk := do
  checkWay steps
  match steps.getLast? with
  | none => throw (.value .fileExists)
  | some name =>
    let place ← disk.walk start steps.dropLast
    if name = ".." then throw (.value .fileExists)
    checkName name
    let next := place.child name
    if disk.isDirectory next || disk.isFile next then throw (.value .fileExists)
    else return { disk with directories := disk.directories ++ [next] }

/-- Makes one directory, unless it is there. -/
def makeOneOrKeep (disk : Disk) (start : Place) (steps : List String) : Except Failure Disk :=
  match disk.makeOne start steps with
  | .ok disk => .ok disk
  | .error failure =>
    match disk.walk start steps with
    | .ok _ => .ok disk
    | .error _ => .error failure

/-- Makes a directory, given the steps to it in reverse.  If one before it is missing, that one is
made first. -/
def makeReversed (disk : Disk) (start : Place) : List String → Except Failure Disk
  | [] => .ok disk
  | name :: before =>
    let steps := (name :: before).reverse
    match disk.makeOne start steps with
    | .error (.value .missingDirectory) => do
      let disk ← disk.makeReversed start before
      disk.makeOneOrKeep start steps
    | _ => disk.makeOneOrKeep start steps

/-- Makes a directory with all that are missing before it.  One that is there is kept. -/
def makeDirectory (disk : Disk) (way : String) : Except Failure Disk :=
  disk.makeReversed (wayStart {} way) (waySteps way).reverse

/-- Opens a file, which makes it if it is not there.  The way to it is shortened before anyone goes
along it: a step up takes back the step before it. -/
def openFile (disk : Disk) (place : Place) : Except Failure Disk := do
  checkWay place.parts
  match place.parts.getLast? with
  | none => throw (.value .isDirectory)
  | some name =>
    let _ ← disk.walk { place with parts := [] } place.parts.dropLast
    checkName name
    if disk.isDirectory place then throw (.value .isDirectory)
    else if disk.isFile place then return disk
    else return { disk with files := disk.files ++ [place] }

end Disk

end FluentSql

import LogSieve.FileFault
import LogSieve.Text.Segments
/-!
# Files

A tree of directories, of files as bytes, and of the device `/dev/full`, which has no
room. A path is followed name by name, from the root or from the working directory;
every name but the last has to be that of a directory.
-/
namespace LogSieve

abbrev Bytes := List UInt8

/-- What a name can stand for. -/
inductive Entry where
  | file (content : Bytes)
  | directory
  /-- A device without room, which nothing can be written to. Reading it has no end, so there is no
      answer to ask for; here it reads as nothing. -/
  | fullDevice
deriving DecidableEq, Repr

/-- A place in the tree: the names on the way to it from the root. -/
abbrev Location := List String

/-- What stands at which place. -/
structure Files where
  entries : List (Location × Entry)
deriving DecidableEq, Repr

/-- The directory that paths start from which do not start with a slash. -/
def workingDirectory : Location := ["tmp", "work"]

structure Ending where
  /-- The directory that the path leads through last. -/
  directory : Location
  /-- The name in it that the path ends with; none if the path ends with the directory itself. -/
  name : Option String
  /-- The path goes on with a slash. -/
  slash : Bool
deriving DecidableEq, Repr

namespace Files

/-- The tree around a working directory that holds these entries. -/
def ofWorkingDirectory (inside : List (Location × Entry)) : Files :=
  ⟨[(["dev"], .directory), (["dev", "full"], .fullDevice), (["tmp"], .directory),
    (workingDirectory, .directory)] ++ inside.map (fun entry => (workingDirectory ++ entry.1, entry.2))⟩

def longestName : Nat := 255

def longestPath : Nat := 4095

def entry? (files : Files) (place : Location) : Option Entry :=
  if place = [] then some .directory else files.entries.lookup place

def store (files : Files) (place : Location) (content : Bytes) : Files :=
  ⟨(place, .file content) :: files.entries.filter (fun entry => entry.1 ≠ place)⟩

/-! ## Following paths -/

def look (files : Files) (directory : Location) (name : String) : Except FileFault (Option Entry) :=
  if longestName < name.utf8ByteSize then .error .nameTooLong else .ok (files.entry? (directory ++ [name]))

/-- Follows a name from a directory to another. There is nothing above the root. -/
def enter (files : Files) (here : Location) (name : String) : Except FileFault Location :=
  if name = "." then .ok here
  else if name = ".." then .ok here.dropLast
  else do
    match ← files.look here name with
    | none => .error .notFound
    | some .directory => .ok (here ++ [name])
    | some _ => .error .notADirectory

/-- Follows a path up to its last name. -/
def follow (files : Files) (path : String) : Except FileFault Ending :=
  if path.toList.any (·.toNat = 0) then .error .nulInName
  else if path = "" then .error .notFound
  else if longestPath < path.utf8ByteSize then .error .nameTooLong
  else do
    let names := ((Text.segments '/' path.toList).map String.ofList).filter (· ≠ "")
    let start := if path.toList.head? = some '/' then [] else workingDirectory
    let here ← names.dropLast.foldlM files.enter start
    match names.getLast? with
    | none | some "." => .ok ⟨here, none, false⟩
    | some ".." => .ok ⟨here.dropLast, none, false⟩
    | some name => .ok ⟨here, some name, path.toList.getLast? = some '/'⟩

def openInput (files : Files) (path : String) : Except FileFault Location := do
  let ending ← files.follow path
  match ending.name with
  | none => .ok ending.directory
  | some name =>
    match ← files.look ending.directory name with
    | none => .error .notFound
    | some .directory => .ok (ending.directory ++ [name])
    | some _ => if ending.slash then .error .notADirectory else .ok (ending.directory ++ [name])

/-- Finds or creates what is to be written. What a slash follows can only be a directory, which is not
    created and not written. -/
def openSink (files : Files) (path : String) : Except FileFault (Location × Files) := do
  let ending ← files.follow path
  match ending.name with
  | none => .error .isADirectory
  | some name =>
    if ending.slash then .error .isADirectory
    else
      let place := ending.directory ++ [name]
      match ← files.look ending.directory name with
      | none => .ok (place, files.store place [])
      | some .directory => .error .isADirectory
      | some _ => .ok (place, files)

/-! ## Writing -/

def emptied (files : Files) (place : Location) : Files :=
  match files.entry? place with
  | some (.file _) => files.store place []
  | _ => files

def openEmptied (files : Files) (path : String) : Except FileFault (Location × Files) := do
  let (place, files) ← files.openSink path
  .ok (place, files.emptied place)

def revise (files : Files) (place : Location) (revised : Bytes → Bytes) : Except FileFault Files :=
  match files.entry? place with
  | some (.file content) => .ok (files.store place (revised content))
  | some .fullDevice => .error .noSpace
  | some .directory => .error .isADirectory
  | none => .error .notFound

def append (files : Files) (place : Location) (bytes : Bytes) : Except FileFault Files :=
  if bytes = [] then .ok files else files.revise place (· ++ bytes)

/-- Writes bytes over those of the file at a place from an offset on. -/
def writeAt (files : Files) (place : Location) (offset : Nat) (bytes : Bytes) : Except FileFault Files :=
  if bytes = [] then .ok files
  else files.revise place fun content => content.take offset ++ bytes ++ content.drop (offset + bytes.length)

/-! ## Reading -/

/-- The bytes at a place. A directory can be found but not read. -/
def read (files : Files) (place : Location) : Except FileFault Bytes :=
  match files.entry? place with
  | some (.file content) => .ok content
  | some .fullDevice => .ok []
  | some .directory => .error .isADirectory
  | none => .error .notFound

def decode (bytes : Bytes) : Except FileFault String :=
  match String.fromUTF8? ⟨bytes.toArray⟩ with
  | some text => .ok text
  | none => .error .notUtf8

def encode (text : String) : Bytes := text.toUTF8.toList

/-- The text in the file that a path leads to. -/
def readText (files : Files) (path : String) : Except FileFault String := do
  decode (← files.read (← files.openInput path))

end Files
end LogSieve

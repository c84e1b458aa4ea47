import EntitySchema.Program.Surroundings

/-! # Paths in a file system

A file system given by the files of the working folder; beside it there are only the folders that
every system has and the null device. A path is followed part by part: empty parts and single dots
mean nothing, and two dots lead back to the folder above. A folder is there when it is the start of
the path of a file. -/

namespace EntitySchema

/-- The working folder, as the relative paths of its files with their bytes, in the order in which
they were written: of two files with the same path the later one is there. -/
structure Folder where
  /-- The files. -/
  files : List (String × ByteArray)

namespace Folder

/-- The parts of a path, without those that mean nothing. -/
def parts (path : String) : List String :=
  ((path.toList.splitOn '/').map String.ofList).filter fun part => part != "" && part != "."

/-- Whether a path that names a file would have to name a folder. -/
def endsInFolder (path : String) : Bool :=
  match (path.toList.splitOn '/').getLast? with
  | some [] | some ['.'] => true
  | _ => false

/-- The greatest number of bytes of a part of a path. -/
def maxPartSize : Nat := 255

/-- The greatest number of bytes of a path. -/
def maxPathSize : Nat := 4095

/-- Where the working folder is. -/
def location : List String := ["tmp", "working folder"]

/-- The folders at the top of every system. -/
def systemFolders : List String :=
  ["bin", "boot", "dev", "etc", "home", "lib", "media", "mnt", "opt", "proc", "root", "run", "sbin",
    "srv", "sys", "tmp", "usr", "var"]

/-- The null device, which is read as an empty file. -/
def nullDevice : List String := ["dev", "null"]

/-- The place of a path, seen from the working folder. -/
def place (path : String) : List String := location ++ parts path

/-- The bytes of the file at a place. -/
def fileAt? (folder : Folder) (spot : List String) : Option ByteArray :=
  if spot = nullDevice then some ByteArray.empty
  else (folder.files.reverse.find? fun file => place file.1 == spot).map (·.2)

/-- Whether there is a folder at a place. -/
def hasFolder (folder : Folder) (spot : List String) : Bool :=
  match spot with
  | [] => true
  | [name] => systemFolders.contains name
  | spot => spot = location || folder.files.any fun file =>
      spot.isPrefixOf (place file.1) && spot.length < (place file.1).length

/-- Follows the parts of a path from a place; above the top there is the top again. -/
def follow (folder : Folder) (spot : List String) : List String → Except Entry (List String)
  | [] => .ok spot
  | part :: rest =>
    if !folder.hasFolder spot then
      .error (if (folder.fileAt? spot).isSome then .behindFile else .missing)
    else if part = ".." then follow folder spot.dropLast rest
    else if maxPartSize < part.utf8ByteSize then .error .nameTooLong
    else follow folder (spot ++ [part]) rest

/-- What stands at a path. -/
def entry (folder : Folder) (path : String) : Entry :=
  if path.isEmpty then .missing
  else if maxPathSize < path.utf8ByteSize then .nameTooLong
  else
    let start := if path.toList.head? = some '/' then [] else location
    match folder.follow start (parts path) with
    | .error entry => entry
    | .ok spot =>
      if folder.hasFolder spot then .folder
      else match folder.fileAt? spot with
        | some bytes => if endsInFolder path then .behindFile else .file bytes
        | none => .missing

end Folder

end EntitySchema

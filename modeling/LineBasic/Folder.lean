import LineBasic.Source
import LineBasic.Text.Split

/-!
# Folders

The part of a file system a command works in: files and folders by path. A
path is read part by part; empty parts and single dots do not count, and every
part before the last must be a folder.
-/
namespace LineBasic

/-- A path as its parts, with the slashes it starts with: none, one or two. -/
structure Path where
  slashes : Nat
  parts : List Text

inductive Entry where
  | file (bytes : Source.Bytes)
  | folder

/-- Entries by the parts of their path. -/
structure Folder where
  entries : List (List Text × Entry)

namespace Path

/-- A path starts with two slashes only if it has exactly two there. -/
def ofText (text : Text) : Path where
  slashes :=
    let leading := (text.takeWhile (· == '/')).length
    if leading ≤ 2 then leading else 1
  parts := (text.split '/').filter fun piece => !piece.isEmpty && piece != ['.']

def text (p : Path) : Text :=
  if p.slashes = 0 && p.parts.isEmpty then ['.']
  else List.replicate p.slashes '/' ++ ['/'].intercalate p.parts

end Path

namespace Folder

/-- Why a path cannot be read. Folders given by their entries deny nothing. -/
inductive Fault where
  | missing | denied | notFolder | isFolder | nameTooLong | nul
  deriving DecidableEq

/-- The system's number and wording of a fault. -/
def Fault.message : Fault → String
  | missing => "[Errno 2] No such file or directory"
  | denied => "[Errno 13] Permission denied"
  | notFolder => "[Errno 20] Not a directory"
  | isFolder => "[Errno 21] Is a directory"
  | nameTooLong => "[Errno 36] File name too long"
  | nul => "embedded null byte"

def empty : Folder := ⟨[]⟩

/-- The entry at a path. A path that others start with is a folder. -/
def find? (f : Folder) (parts : List Text) : Option Entry :=
  if parts.isEmpty then some .folder
  else match f.entries.lookup parts with
    | some entry => some entry
    | none => if f.entries.any fun entry => parts.isPrefixOf entry.1 then some .folder else none

/-- The most bytes in a part of a path. -/
def longestName : Nat := 255

/-- Follow a path from a place in the folder to an entry and its place. -/
def follow (f : Folder) (here : List Text) : List Text → Except Fault (List Text × Entry)
  | [] =>
      match f.find? here with
      | some entry => .ok (here, entry)
      | none => .error .missing
  | part :: rest =>
      match f.find? here with
      | none => .error .missing
      | some (.file _) => .error .notFolder
      | some .folder =>
          if part = ['.', '.'] then
            if here.isEmpty then .error .missing else f.follow here.dropLast rest
          else if longestName < (Source.encode part).length then .error .nameTooLong
          else f.follow (here ++ [part]) rest

def read (f : Folder) (path : Path) : Except Fault Source.Bytes :=
  if path.parts.any fun part => part.contains (Char.ofNat 0) then .error .nul
  else if path.slashes ≠ 0 then .error (if path.parts.isEmpty then .isFolder else .missing)
  else match f.follow [] path.parts with
    | .ok (_, .file bytes) => .ok bytes
    | .ok (_, .folder) => .error .isFolder
    | .error fault => .error fault

def put (f : Folder) (place : List Text) (bytes : Source.Bytes) : Folder :=
  ⟨(place, .file bytes) :: f.entries.filter fun entry => entry.1 != place⟩

/-- The folder with an empty file at a path, in place of the file that was there. -/
def create (f : Folder) (path : Path) : Except Fault Folder :=
  if path.parts.any fun part => part.contains (Char.ofNat 0) then .error .nul
  else if path.slashes ≠ 0 then .error .missing
  else match path.parts.reverse with
    | [] => .error .isFolder
    | name :: before =>
        match f.follow [] before.reverse with
        | .error fault => .error fault
        | .ok (_, .file _) => .error .notFolder
        | .ok (here, .folder) =>
            match f.find? (here ++ [name]) with
            | some .folder => .error .isFolder
            | _ => .ok (f.put (here ++ [name]) [])

/-- The folder with bytes added to the file at a path, if there is one. -/
def append (f : Folder) (path : Path) (bytes : Source.Bytes) : Folder :=
  match f.follow [] path.parts with
  | .ok (here, .file before) => f.put here (before ++ bytes)
  | _ => f

end Folder

end LineBasic

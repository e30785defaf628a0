/-!
Where paths lead. A path is followed from place to place, from the root or from where the reader is;
each name but the last must lead to a directory. What cannot be read is refused with a reason.
-/

namespace Negotiation.Files

/-- Why a path leads to no text. -/
inductive Refusal where
  | missing
  | denied
  | notDirectory
  | directory
  | nameTooLong
  | nullCharacter
  | notUtf8
  | other (reason : String)
  deriving DecidableEq

/-- The wording of a reason. -/
def Refusal.message : Refusal → String
  | .missing => "No such file or directory (os error 2)"
  | .denied => "Permission denied (os error 13)"
  | .notDirectory => "Not a directory (os error 20)"
  | .directory => "Is a directory (os error 21)"
  | .nameTooLong => "File name too long (os error 36)"
  | .nullCharacter => "file name contained an unexpected NUL byte"
  | .notUtf8 => "stream did not contain valid UTF-8"
  | .other reason => reason

/-- The names on the way from the root to a place. -/
abbrev Place := List String

/-- What stands at a place. -/
inductive Entry where
  | directory
  | file (bytes : ByteArray)

/-- The greatest number of bytes in a name. -/
def nameLimit : Nat := 255

/-- The number of bytes from which on a path is too long. -/
def pathLimit : Nat := 4096

/-- Follows names from a place on. A point stays, two points lead back. -/
def follow (entries : Place → Option Entry) (place : Place) : List String → Except Refusal Entry
  | [] =>
    match entries place with
    | none => .error .missing
    | some e => .ok e
  | name :: names =>
    match entries place with
    | none => .error .missing
    | some (.file _) => .error .notDirectory
    | some .directory =>
      if name = "." then follow entries place names
      else if name = ".." then follow entries place.dropLast names
      else if nameLimit < name.utf8ByteSize then .error .nameTooLong
      else follow entries (place ++ [name]) names

/-- The bytes that a path leads to for a reader at `home`. A slash at the end asks for a directory. -/
def find (entries : Place → Option Entry) (home : Place) (path : String) : Except Refusal ByteArray :=
  if path.contains '\x00' then .error .nullCharacter
  else if pathLimit ≤ path.utf8ByteSize then .error .nameTooLong
  else if path = "" then .error .missing
  else do
    let names := (path.splitOn "/").filter (· ≠ "")
    match ← follow entries (if path.startsWith "/" then [] else home) names with
    | .directory => .error .directory
    | .file bytes => if path.endsWith "/" then .error .notDirectory else .ok bytes

/-- The text of what was found. -/
def text : Except Refusal ByteArray → Except Refusal String
  | .error e => .error e
  | .ok bytes =>
    match String.fromUTF8? bytes with
    | some text => .ok text
    | none => .error .notUtf8

/-- The directories of a bare machine. -/
def bareDirectories : List Place :=
  [[], ["bin"], ["boot"], ["dev"], ["dev", "fd"], ["dev", "pts"], ["dev", "shm"], ["etc"], ["home"],
    ["home", "user"], ["lib"], ["lib64"], ["media"], ["mnt"], ["opt"], ["proc"], ["proc", "self"],
    ["root"], ["run"], ["sbin"], ["srv"], ["sys"], ["tmp"], ["usr"], ["usr", "bin"], ["usr", "lib"],
    ["usr", "local"], ["usr", "sbin"], ["usr", "share"], ["var"], ["var", "cache"], ["var", "lib"],
    ["var", "log"], ["var", "tmp"]]

/-- The entries of a machine without files of its own: the usual directories, the empty device and
the lists of users and groups. -/
def bare (place : Place) : Option Entry :=
  if bareDirectories.contains place then some .directory
  else if place = ["dev", "null"] then some (.file .empty)
  else if place = ["etc", "passwd"] then some (.file "root:x:0:0:root:/root:/bin/sh\n".toUTF8)
  else if place = ["etc", "group"] then some (.file "root:x:0:\n".toUTF8)
  else none

end Negotiation.Files

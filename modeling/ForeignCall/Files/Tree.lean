import ForeignCall.Files.Error
import ForeignCall.Text.Blank
import ForeignCall.Text.Octet

/-!
# ForeignCall.Files.Tree

Paths and what they lead to. A path is followed component by component: every component but the last
has to be a directory, two dots go up, and one dot and nothing stay.

* `Files.node` — what a path leads to;
* `Files.program` — the program of a path;
* `Files.names` — the names in a directory;
* `findProgram` — the program of a name in a list of directories.

The tree is that of a small system with a shell. Directories and programs are fixed; files can be
written.
-/

namespace ForeignCall

open Text (Octets octets)

/-- What a path leads to. -/
inductive Node where
  | directory
  /-- A file that holds text. -/
  | plain (path : Octets)
  | program (name : String)
  /-- A device that holds nothing and takes all. -/
  | null
  /-- A device that has no room. -/
  | full
  /-- The device of a terminal, which is not there. -/
  | terminal
  /-- What a descriptor of the process stands for. -/
  | descriptor (number : Nat)
  /-- A free name in a directory. -/
  | absent (path : Octets)
deriving DecidableEq

/-- What a file holds: a text, and behind it parts that have been added, the last one first. -/
structure Contents where
  text : Octets
  added : List Octets := []
  /-- How long it is. -/
  size : Nat

/-- All that a file holds. -/
def Contents.all (x : Contents) : Octets :=
  if x.added.isEmpty then x.text else x.text ++ x.added.reverse.flatten

/-- Files that have been written, under their paths. -/
abbrev Files := List (Octets × Contents)

/-! ## The fixed tree -/

/-- The directories, the root apart. -/
def directories : List String :=
  ["/boot", "/dev", "/dev/fd", "/dev/pts", "/dev/shm", "/etc", "/home", "/media", "/mnt", "/opt",
   "/proc", "/proc/self", "/proc/self/fd", "/root", "/root/work", "/run", "/srv", "/sys", "/tmp",
   "/usr", "/usr/bin", "/usr/include", "/usr/lib", "/usr/lib64", "/usr/local", "/usr/local/bin",
   "/usr/local/include", "/usr/local/lib", "/usr/local/sbin", "/usr/local/share", "/usr/sbin",
   "/usr/share", "/usr/src", "/var", "/var/cache", "/var/lib", "/var/log", "/var/tmp"]

/-- Other names of directories. -/
def links : List (String × String) :=
  [("/bin", "/usr/bin"), ("/sbin", "/usr/sbin"), ("/lib", "/usr/lib"), ("/lib64", "/usr/lib64")]

/-- The programs. -/
def programs : List (String × String) :=
  [("/usr/bin/sh", "sh"), ("/usr/bin/dash", "sh"), ("/usr/bin/cat", "cat"),
   ("/usr/bin/true", "true"), ("/usr/bin/false", "false")]

/-- The files that are no programs. -/
def plainFiles : List String :=
  ["/etc/fstab", "/etc/group", "/etc/hostname", "/etc/hosts", "/etc/issue", "/etc/os-release",
   "/etc/passwd", "/etc/profile", "/etc/resolv.conf", "/etc/shadow", "/etc/shells",
   "/proc/cpuinfo", "/proc/meminfo", "/proc/version"]

/-- The devices. -/
def devices : List (String × Node) :=
  [("/dev/null", .null), ("/dev/zero", .null), ("/dev/random", .null), ("/dev/urandom", .null),
   ("/dev/full", .full), ("/dev/tty", .terminal)]

/-- The names of what the first descriptors stand for. -/
def standardNames : List (String × Nat) :=
  [("/dev/stdin", 0), ("/dev/stdout", 1), ("/dev/stderr", 2)]

/-- The directory in which processes start. -/
def startDirectory : Octets := octets "/root/work"

/-- Where names of programs are looked up first. -/
def searchPath : Octets :=
  octets "/usr/local/sbin:/usr/local/bin:/usr/sbin:/usr/bin:/sbin:/bin"

/-- The longest component of a path. -/
def maxComponent : Nat := 255

/-- The longest argument of a program. -/
def maxArgument : Nat := 131071

/-- The longest path. -/
def maxPath : Nat := 4095

/-! ## Paths -/

/-- The path of components, which are given from the last to the first. -/
def joined (components : List Octets) : Octets :=
  components.reverse.flatMap fun c => '/' :: c

/-- The path of a directory. -/
def pathOf (components : List Octets) : Octets :=
  if components.isEmpty then ['/'] else joined components

/-- The components of a path, from the last to the first. -/
def componentsOf (path : Octets) : List Octets := (Text.partsWhere (· = '/') path).reverse

/-- A path from the root on without dots, as it is written: links are not followed. Two slashes at
its start are kept. -/
def plainPath (directory path : Octets) : Octets :=
  let (start, written) :=
    if path.head? = some '/' then ([], path) else (componentsOf directory, directory)
  let plain := pathOf ((Text.partsWhere (· = '/') path).foldl (fun place c =>
    if c = ['.'] then place else if c = ['.', '.'] then place.tail else c :: place) start)
  if (written.takeWhile (· = '/')).length = 2 then '/' :: plain else plain

/-- The descriptor that a component names in a directory of descriptors. -/
def descriptorOf (parent : List Octets) (component : Octets) : Option Nat :=
  if joined parent = octets "/dev/fd" ∨ joined parent = octets "/proc/self/fd" then
    if component.all Char.isDigit then (String.ofList component).toNat? else none
  else none

namespace Files

/-- What a component of a directory is. -/
def entry (files : Files) (parent : List Octets) (component : Octets) : Node :=
  let path := joined (component :: parent)
  let name := String.ofList path
  if directories.contains name then .directory
  else if plainFiles.contains name ∨ files.any (·.1 = path) then .plain path
  else
    let descriptor := (standardNames.lookup name <|> descriptorOf parent component).map .descriptor
    let program := (programs.lookup name).map .program
    (descriptor <|> devices.lookup name <|> program).getD (.absent path)

/-- The components of the directory that a component of a directory is, links followed. -/
def enter (parent : List Octets) (component : Octets) : List Octets :=
  let path := joined (component :: parent)
  match links.lookup (String.ofList path) with
  | some target => componentsOf (octets target)
  | none => component :: parent

/-- Follows components from a directory: what they lead to, and the components of the way there. -/
def follow (files : Files) : List Octets → List Octets → Except FileError (Node × List Octets)
  | place, [] => .ok (.directory, place)
  | parent, c :: rest =>
    if c.isEmpty ∨ c = ['.'] then follow files parent rest
    else if c = ['.', '.'] then follow files parent.tail rest
    else if maxComponent < c.length then .error .nameTooLong
    else
      let place := enter parent c
      match entry files place.tail (place.headD []), rest with
      | .directory, rest => follow files place rest
      | node, [] => .ok (node, place)
      | .absent _, _ :: _ => .error .missing
      | _, _ :: _ => .error .notDirectory

/-- What a path leads to, from a directory on, and the components of the way there. -/
def locate (files : Files) (directory path : Octets) : Except FileError (Node × List Octets) :=
  if path.isEmpty then .error .missing
  else if maxPath < path.length then .error .nameTooLong
  else
    let start := if path.head? = some '/' then [] else componentsOf directory
    follow files start (Text.splitWhere (· = '/') path)

/-- What a path leads to, from a directory on. -/
def node (files : Files) (directory path : Octets) : Except FileError Node :=
  (files.locate directory path).map (·.1)

/-- Whether a path is another name of a directory or a program. -/
def isLink (files : Files) (directory path : Octets) : Bool :=
  links.any (octets ·.1 = plainPath directory path) ||
    match files.locate directory path with
    | .ok (_, place) => joined place = octets "/usr/bin/sh"
    | .error _ => false

/-- The directory that a path leads to, by its proper name. -/
def directory? (files : Files) (directory path : Octets) : Option Octets :=
  match files.locate directory path with
  | .ok (.directory, place) => some (pathOf place)
  | _ => none

/-- Whether a path leads to something. -/
def exists? (files : Files) (directory path : Octets) : Bool :=
  match files.node directory path with
  | .ok (.absent _) | .error _ => false
  | .ok _ => true

/-- The names in a directory; one dot stands for itself and two dots for the one above it. -/
def names (files : Files) (directory path : Octets) : List Octets :=
  match files.locate directory path with
  | .ok (.directory, place) =>
    let fixed := directories ++ links.map (·.1) ++ programs.map (·.1) ++ plainFiles ++
      devices.map (·.1) ++ standardNames.map (·.1)
    let inside := (fixed.map octets ++ files.map (·.1)).filterMap fun path =>
      match componentsOf path with
      | name :: parent => if parent = place then some name else none
      | [] => none
    ['.'] :: ['.', '.'] :: inside.eraseDups
  | _ => []

/-- The program of a path. -/
def program (files : Files) (directory path : Octets) : Except FileError String :=
  match files.node directory path with
  | .ok (.program name) => .ok name
  | .ok (.absent _) => .error .missing
  | .ok _ => .error .denied
  | .error e => .error e

/-- What a file holds that has perhaps been written. -/
def contents (files : Files) (path : Octets) : Contents := (files.lookup path).getD ⟨[], [], 0⟩

/-- The text of a file that has been written. -/
def content (files : Files) (path : Octets) : Octets := (files.contents path).all

/-- Sets the text of a file. -/
def put (files : Files) (path text : Octets) : Files :=
  (path, ⟨text, [], text.length⟩) :: files.filter (·.1 ≠ path)

/-- Joins the parts of a file. -/
def join (files : Files) (path : Octets) : Files :=
  files.map fun (name, x) =>
    (name, if name = path then { x with text := x.all, added := [] } else x)

/-- Adds a text to a file. -/
def add (files : Files) (path text : Octets) : Files :=
  let old := files.contents path
  let new := { old with added := text :: old.added, size := old.size + text.length }
  (path, new) :: files.filter (·.1 ≠ path)

end Files

/-! ## Looking up programs -/

/-- The program of a name in directories, with its path. A place where there is something else
counts if no other has the program. -/
def findProgram (files : Files) (directory name : Octets) (places : List Octets) :
    Except FileError (Octets × String) :=
  let found (path : Octets) : Except FileError (Octets × String) :=
    (files.program directory path).map fun program => (path, program)
  if name.contains '/' then found name
  else if maxComponent < name.length then .error .nameTooLong
  else
    let all := places.map fun place => found (if place.isEmpty then name else place ++ '/' :: name)
    match all.findSome? Except.toOption with
    | some program => .ok program
    | none =>
      let denied := all.any fun
        | .error .denied => true
        | _ => false
      .error (if denied then .denied else .missing)

/-- The directories in which programs are looked up. -/
def searchPlaces (path : Octets) : List Octets := Text.splitWhere (· = ':') path

end ForeignCall

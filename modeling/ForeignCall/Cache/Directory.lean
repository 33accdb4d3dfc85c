import ForeignCall.Cache.Error
import ForeignCall.Cache.Key
import ForeignCall.Files.Error
import ForeignCall.Header.Document
import ForeignCall.Json.Source

/-!
# ForeignCall.Cache.Directory

Headers on disk. The directory of the cache holds one file per header and environment, named for the
key of both; it is made when something is stored. What a file holds need not be a header: then the
header counts as missing.

* `Directory.load` — the header that has been stored, if there is one;
* `Directory.store` — a header takes the place of what has been stored;
* `Directory.invalidate` — all headers are removed.
-/

namespace ForeignCall

/-- What has a name in a directory. -/
inductive Entry where
  | file (text : String)
  | directory
deriving DecidableEq, Repr

/-- A directory that may be missing. -/
abbrev Directory := Option (Namespace Entry)

/-! ## Names -/

/-- A letter, a digit or a dot. -/
def isPlain (c : Char) : Bool := c.isAlphanum || c = '.'

/-- A text in which each run of other characters than letters, digits and dots has become one dash;
`inside` tells that such a run has begun. -/
def sanitizeChars : Bool → List Char → List Char
  | _, [] => []
  | inside, c :: cs =>
    if isPlain c then c :: sanitizeChars false cs
    else if inside then sanitizeChars true cs
    else '-' :: sanitizeChars true cs

/-- The part of the name of a file that tells a reader which header it holds. -/
def sanitize (header : String) : String := String.ofList (sanitizeChars false header.toList)

/-- The name of the file of a header in an environment. -/
def fileName (header environment : String) : String :=
  keyText (cacheKey header environment) ++ "-" ++ sanitize header ++ ".json"

/-- The name of a file in a directory. -/
def joinPath (dir name : String) : String := dir ++ "/" ++ name

/-- A digit in base sixteen. -/
def isHexDigit (c : Char) : Bool := (Text.digitIn 16 c).isSome

/-- Whether a name is that of a header: a key, a dash, something more and the ending. -/
def isHeaderFile (name : String) : Bool :=
  let cs := name.toList
  let ending := ".json".toList
  let stem := cs.take (cs.length - ending.length)
  cs = stem ++ ending && 17 < stem.length && stem[16]? = some '-' && (stem.take 16).all isHexDigit

/-- The longest name of a file, in bytes. -/
def maxNameBytes : Nat := 255

/-! ## The cache -/

namespace Directory

/-- What has a name. -/
def entry? (d : Directory) (name : String) : Option Entry := d.bind fun entries => entries.get? name

/-- The text of a file. -/
def text? (d : Directory) (name : String) : Option String :=
  match d.entry? name with
  | some (.file text) => some text
  | _ => none

/-- The names of all entries, in ascending order. -/
def names : Directory → List String
  | none => []
  | some entries => entries.names

/-- Whether a name is too long for an entry. -/
def tooLong (name : String) : Bool := maxNameBytes < name.utf8ByteSize

/-- Sets what has a name; the directory is made if it is missing. -/
def put (d : Directory) (name : String) (entry : Entry) : Directory :=
  some ((d.getD .empty).insert name entry)

/-- The header that a file holds. -/
def headerOf? (text : String) : Option Header :=
  (Json.ofText? text).bind fun document => (Header.ofDocument document).toOption

/-- The header that is stored; `none` if there is none, or if the file holds something else. -/
def load (path : String) (d : Directory) (header environment : String) :
    Except CacheError (Option Header) :=
  let name := fileName header environment
  if d.isSome ∧ tooLong name then .error (.io (joinPath path name) FileError.nameTooLong.reason)
  else
    match entry? d name with
    | none => .ok none
    | some .directory => .error (.io (joinPath path name) FileError.isDirectory.reason)
    | some (.file text) => .ok (headerOf? text)

/-- Stores a header, and gives the path of its file. -/
def store (path : String) (d : Directory) (h : Header) (environment : String) :
    Except CacheError String × Directory :=
  let name := fileName h.name environment
  let opened : Directory := some (d.getD .empty)
  if tooLong name then (.error (.io (joinPath path name) FileError.nameTooLong.reason), opened)
  else if entry? d name = some .directory then
    (.error (.io (joinPath path name) FileError.isDirectory.reason), opened)
  else (.ok (joinPath path name), put d name (.file h.toDocument.render))

/-- The first entry that is named like the file of a header and is a directory. -/
def obstacle? (d : Directory) : Option String :=
  (names d).find? fun name => isHeaderFile name && entry? d name = some .directory

/-- How many headers are stored. -/
def count (d : Directory) : Nat := (names d).countP isHeaderFile

/-- Removes the files of all headers in the order of their names, and counts them; a directory in
place of a file stops it. -/
def invalidate (path : String) (d : Directory) : Except CacheError Nat × Directory :=
  match obstacle? d with
  | none => (.ok (count d), d.map fun entries => entries.filter fun name _ => !isHeaderFile name)
  | some obstacle =>
    (.error (.io (joinPath path obstacle) FileError.isDirectory.reason),
      d.map fun entries => entries.filter fun name _ => !isHeaderFile name || !(name < obstacle))

end Directory

end ForeignCall

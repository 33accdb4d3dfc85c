import ForeignCall.Files.Tree
import ForeignCall.Instances
import ForeignCall.Tool.Script.Pattern

/-!
# ForeignCall.Tool.Script.Paths

Fields that stand for the paths which match them. Each component of a field is a pattern of its own
for the names in a directory; a name that begins with a dot matches only where the pattern does.

* `pathsOf` — the paths that a field stands for: itself if nothing matches it.
-/

namespace ForeignCall.Script

open Text (Octets octets)

/-- The text of characters. -/
def markedText (cs : List Marked) : Octets := cs.map (·.1)

/-- Whether a set that has been begun, with one character at least, is closed. -/
def setCloses : List Marked → Bool
  | [] => false
  | _ :: rest => rest.head? = some (']', false) || setCloses rest

/-- Whether a component is a pattern. -/
def isPattern : List Marked → Bool
  | [] => false
  | ('*', false) :: _ | ('?', false) :: _ => true
  | ('[', false) :: ('!', false) :: rest => setCloses rest || isPattern rest
  | ('[', false) :: rest => setCloses rest || isPattern rest
  | _ :: rest => isPattern rest

/-- The names in a directory that a component stands for. -/
def matchingNames (files : Files) (directory path : Octets) (component : List Marked) :
    List Octets :=
  let hidden := (component.head?.map (·.1)) = some '.'
  let pattern := Pattern.ofMarked (component.length + 1) component
  let place := if path.isEmpty then ['.'] else path
  (files.names directory place).filter fun name =>
    (hidden || name.head? ≠ some '.') && pattern.accepts name

/-- The paths that components stand for behind the start of a path. -/
def matchingPaths (files : Files) (directory : Octets) : Octets → List (List Marked) → List Octets
  | _, [] => []
  | path, [last] =>
    if isPattern last then (matchingNames files directory path last).map (path ++ ·)
    else [path ++ markedText last].filter (files.exists? directory)
  | path, component :: rest =>
    let names :=
      if isPattern component then matchingNames files directory path component
      else [markedText component]
    names.flatMap fun name => matchingPaths files directory (path ++ name ++ ['/']) rest

/-- The paths that a field stands for, in ascending order, or the field itself. -/
def pathsOf (files : Files) (directory : Octets) (field : List Marked) : List Octets :=
  let components := Text.splitWhere (·.1 = '/') (Pattern.unescape field)
  let found :=
    if components.any isPattern then matchingPaths files directory [] components else []
  if found.isEmpty then [markedText field] else found.mergeSort fun a b => a ≤ b

end ForeignCall.Script

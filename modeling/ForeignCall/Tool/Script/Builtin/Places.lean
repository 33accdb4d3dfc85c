import ForeignCall.Tool.Script.Builtin.Texts
import ForeignCall.Tool.Script.Source

/-!
# ForeignCall.Tool.Script.Builtin.Places

Builtins that change the directory and that tell where commands are found.
-/

namespace ForeignCall.Script

open Text (Octets octets)

/-! ## Directories -/

/-- Enters a directory; gives whether there is one. With `physical` it gets its proper name. -/
def enterDirectory (physical : Bool) (path : Octets) : ShellM Bool := do
  let s ← get
  let written := plainPath s.place path
  match s.files.directory? ['/'] (if physical then plainPath s.directory path else written) with
  | none => pure false
  | some proper =>
    let place := if physical then proper else written
    ShellM.assign (octets "OLDPWD") s.place true
    modify fun s => { s with
      directory := proper, place := place, found := s.found.map fun x => { x with stale := true } }
    ShellM.assign (octets "PWD") place true
    pure true

/-- Whether a path is not looked up in the directories of `CDPATH`. -/
def isFixedPath (path : Octets) : Bool :=
  [['/'], ['.', '/'], ['.', '.', '/']].any (·.isPrefixOf path) || path = ['.'] || path = ['.', '.']

/-- Changes the directory. -/
def changeDirectory : Builtin := fun args => do
  let (options, operands) ← readOptions ['L', 'P'] args
  let physical := options.getLast?.any (·.1 = 'P')
  let s ← get
  let (target, back) := match operands with
    | [] => ((s.value? (octets "HOME")).getD [], false)
    | ['-'] :: _ => ((s.value? (octets "OLDPWD")).getD [], true)
    | path :: _ => (path, false)
  let path := if target.isEmpty then ['.'] else target
  let places := if isFixedPath path then [] else searchPlaces ((s.value? (octets "CDPATH")).getD [])
  let inPlace (place : Octets) : Octets := if place.isEmpty then path else place ++ '/' :: path
  let found := places.find? fun place => (s.files.directory? s.directory (inPlace place)).isSome
  let shown := back || found.any fun place => !place.isEmpty
  if ← enterDirectory physical ((found.map inPlace).getD path) then
    let place := (← get).place
    pure (0, if shown then place ++ ['\n'] else [])
  else ShellM.fail (octets "can't cd to " ++ target)

/-- Shows the directory. -/
def showDirectory : Builtin := fun args => do
  let (options, _) ← readOptions ['L', 'P'] args
  let s ← get
  let physical := options.getLast?.any (·.1 = 'P')
  pure (0, (if physical then s.directory else s.place) ++ ['\n'])

/-! ## Commands -/

/-- Where programs are looked up if nothing else is said. -/
def State.searchPlaces (s : State) : List Octets :=
  match s.value? (octets "PATH") with
  | some path => ForeignCall.searchPlaces path
  | none => []

/-- Remembers where a program has been found. -/
def remember (name path : Octets) : ShellM Unit := modify fun s =>
  { s with found :=
      if s.found.any (·.name = name) then
        s.found.map fun x => if x.name = name then ⟨name, path, false⟩ else x
      else s.found ++ [⟨name, path, false⟩] }

/-- The path and the program of a name, which is looked up where programs usually are or where the
script says; in that case it is remembered. -/
def searchProgram (standard : Bool) (name : Octets) :
    ShellM (Except FileError (Octets × String)) := do
  let s ← get
  let places := if standard then ForeignCall.searchPlaces searchPath else s.searchPlaces
  let found := findProgram s.files s.directory name places
  match found with
  | .ok (path, _) => unless standard ∨ name.contains '/' do remember name path
  | .error _ => pure ()
  pure found

/-- Tells where the program of a name is. -/
def describeProgram (standard : Bool) (name : Octets) : ShellM (Option (Octets × Octets)) := do
  let s ← get
  if name.contains '/' then
    pure (if s.isFile 'e' name then some (name, octets " is " ++ name) else none)
  else
    match if standard then none else s.found.find? (·.name = name) with
    | some x => pure (some (x.path, octets " is a tracked alias for " ++ x.path))
    | none =>
      match ← searchProgram standard name with
      | .ok (path, _) => pure (some (path, octets " is " ++ path))
      | .error _ => pure none

/-- Tells what a command is, briefly or in words; nothing is known of the text if it is none. -/
def describe (standard verbose : Bool) (name : Octets) : ShellM (Option Octets) := do
  let s ← get
  let text := String.ofList name
  let known (long : String) : ShellM (Option (Octets × Octets)) := pure (some (name, octets long))
  let found ←
    if keywords.contains text then known " is a shell keyword"
    else
      match s.aliases.find? (·.name = name) with
      | some x =>
        pure (some (octets "alias " ++ name ++ '=' :: quotedText x.value,
          octets " is an alias for " ++ x.value))
      | none =>
        if (s.functions.lookup name).isSome then known " is a shell function"
        else if specialBuiltins.contains text then known " is a special shell builtin"
        else if plainBuiltins.contains text then known " is a shell builtin"
        else describeProgram standard name
  pure (found.map fun (short, long) => (if verbose then name ++ long else short) ++ ['\n'])

/-- Tells what commands are. -/
def typeArgs : Builtin := fun names =>
  names.foldlM (fun ((status, text) : Nat × Octets) name => do
    match ← describe false true name with
    | some line => pure (status, text ++ line)
    | none => pure (127, text ++ name ++ octets ": not found\n")) (0, [])

/-- Tells what a command is, briefly or in words. -/
def describeArgs : Builtin := fun args => do
  let (options, operands) ← readOptions (octets "pvV") args
  let asked := options.filter (·.1 ≠ 'p')
  match asked, operands with
  | _ :: _, name :: _ =>
    let verbose := asked.any (·.1 = 'V')
    match ← describe (asked.length < options.length) verbose name with
    | some text => pure (0, text)
    | none => pure (127, if verbose then name ++ octets ": not found\n" else [])
  | _, _ => pure (0, [])

/-- The number of the row in which a program is listed. -/
def programRow (name : Octets) : Nat :=
  ((name.headD '\x00').toNat * 16 + name.foldr (fun c n => c.toNat + n) 0) % 2 ^ 15 % 31

/-- Looks up programs, or lists those that have been looked up; a star stands behind those whose
place can have changed. -/
def lookUp : Builtin := fun args => do
  let (options, names) ← readOptions ['r'] args
  if !options.isEmpty then
    modify fun s => { s with found := [] }
    pure (0, [])
  else if names.isEmpty then
    let sorted := (← get).found.mergeSort fun x y => programRow x.name ≤ programRow y.name
    pure (0, sorted.flatMap fun x => x.path ++ (if x.stale then ['*', '\n'] else ['\n']))
  else
    let status ← names.foldlM (fun status name => do
      let s ← get
      let text := String.ofList name
      set { s with found := s.found.filter (·.name ≠ name) }
      if name.contains '/' ∨ (s.functions.lookup name).isSome ∨ specialBuiltins.contains text ∨
          plainBuiltins.contains text then pure status
      else
        match ← searchProgram false name with
        | .ok _ => pure status
        | .error _ =>
          ShellM.report (name ++ octets ": not found")
          pure 1) 0
    pure (status, [])

end ForeignCall.Script

import ForeignCall.Tool.Script.Builtin.Options

/-!
# ForeignCall.Tool.Script.Builtin.Aliases

Builtins that set, show and remove aliases. A change counts from the next line on that is read; an
alias whose value is being read stays until its end.

* `setAlias` — the aliases with one that is set;
* `aliasListing` — all aliases, as they are shown.
-/

namespace ForeignCall.Script

open Text (Octets octets)

/-- Aliases with one that is set, which keeps its place if there has been one of its name. -/
def setAlias (name value : Octets) (aliases : List Alias) : List Alias :=
  if aliases.any (·.name = name) then
    aliases.map fun x => if x.name = name then ⟨name, value, false⟩ else x
  else aliases ++ [⟨name, value, false⟩]

/-- Aliases without some, which stay as long as their values are being read. -/
def dropAliases (held : List Octets) (isDropped : Alias → Bool) (aliases : List Alias) :
    List Alias :=
  (aliases.filter fun x => !isDropped x || held.contains x.name).map fun x =>
    if isDropped x then { x with leaving := true } else x

/-- The number of the row in which an alias is shown. -/
def aliasRow (name : Octets) : Nat :=
  ((name.headD '\x00').toNat * 16 + name.foldr (fun c n => c.toNat + n) 0) % 39

/-- An alias as a setting. -/
def Alias.text (x : Alias) : Octets := x.name ++ '=' :: quotedText x.value ++ ['\n']

/-- All aliases, row by row; in a row they have the order in which they have been set. -/
def aliasListing (aliases : List Alias) : Octets :=
  (aliases.mergeSort fun x y => aliasRow x.name ≤ aliasRow y.name).flatMap Alias.text

/-- The name and the value of an argument that sets an alias; the name has at least one
character. -/
def aliasSetting : Octets → Octets × Option Octets
  | [] => ([], none)
  | c :: cs =>
    let name := cs.takeWhile (· ≠ '=')
    (c :: name, if name.length < cs.length then some (cs.drop (name.length + 1)) else none)

/-- Shows aliases or sets them. -/
def aliasArgs : Builtin := fun args => do
  if args.isEmpty then pure (0, aliasListing (← get).aliases)
  else
    args.foldlM (fun ((status, text) : Nat × Octets) arg => do
      match aliasSetting arg with
      | (name, some value) =>
        modify fun s => { s with aliases := setAlias name value s.aliases }
        pure (status, text)
      | (name, none) =>
        match (← get).aliases.find? (·.name = name) with
        | some x => pure (status, text ++ x.text)
        | none =>
          ShellM.complain (octets "alias: " ++ name ++ octets " not found\n")
          pure (1, text)) (0, [])

/-- Removes aliases. -/
def unaliasArgs : Builtin := silent fun args => do
  let (options, names) ← readOptions ['a'] args
  if options.isEmpty then
    names.foldlM (fun status name => do
      let s ← get
      if s.aliases.any (·.name = name) then
        set { s with aliases := dropAliases s.held (·.name = name) s.aliases }
        pure status
      else
        ShellM.complain (octets "unalias: " ++ name ++ octets " not found\n")
        pure 1) 0
  else
    modify fun s => { s with aliases := dropAliases s.held (fun _ => true) s.aliases }
    pure 0

end ForeignCall.Script

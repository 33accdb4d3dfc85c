import ForeignCall.Text.Blank
import ForeignCall.Text.Quoted

/-!
# ForeignCall.Macro.Basic

Macros of the preprocessor, and the list of definitions that it prints. Every line of the list is
`#define NAME replacement` or `#define NAME(a,b) replacement`, where the parenthesis follows the
name without a blank. Any other line that is not blank is reported.

* `Macro.ofLine?` — the macro of a line;
* `scanMacros` — the macros of a text, and the lines that hold none.
-/

namespace ForeignCall

/-- A macro, as it is written. -/
structure Macro where
  name : String
  /-- The parameters of a macro that is called like a function. -/
  params : Option (List String)
  replacement : String
deriving DecidableEq, Repr

namespace Macro

/-- Whether the macro is called like a function. -/
def isFunctionLike (d : Macro) : Bool := d.params.isSome

/-- The text of a macro in messages. -/
def display (d : Macro) : String :=
  match d.params with
  | some params => d.name ++ "(" ++ ",".intercalate params ++ ")=" ++ d.replacement
  | none => d.name ++ "=" ++ Text.quoted d.replacement

/-- A character of an identifier. -/
def isNameChar (c : Char) : Bool := c.isAlphanum || c = '_'

/-- The start of every definition. -/
def keyword : List Char := "#define ".toList

/-- What follows the name or the parameters: nothing, or a blank and the replacement. -/
def replacementOf : List Char → Option (List Char)
  | [] => some []
  | ' ' :: rest => some rest
  | _ => none

/-- Three dots. -/
def dots : List Char := ['.', '.', '.']

/-- Whether the parts are parameters: identifiers, and dots at most at the end. -/
def validParams : List (List Char) → Bool
  | [] => true
  | [p] => p = dots || (!p.isEmpty && p.all isNameChar)
  | p :: ps => !p.isEmpty && p.all isNameChar && validParams ps

/-- The parameters between parentheses. -/
def paramsOf (list : List Char) : Option (List (List Char)) :=
  if list.isEmpty then some []
  else
    let parts := Text.splitWhere (· = ',') list
    if validParams parts then some parts else none

/-- The macro of what follows the keyword of a definition. -/
def ofDefinition? (s : List Char) : Option Macro :=
  let name := s.takeWhile isNameChar
  if name.isEmpty then none
  else
    match s.dropWhile isNameChar with
    | '(' :: rest =>
      (Text.splitFirst? ')' rest).bind fun (list, rest) =>
        (paramsOf list).bind fun params =>
          (replacementOf rest).map fun body =>
            ⟨String.ofList name, some (params.map String.ofList), String.ofList body⟩
    | rest => (replacementOf rest).map fun body => ⟨String.ofList name, none, String.ofList body⟩

/-- The macro of a line. -/
def ofLine? (line : List Char) : Option Macro :=
  if keyword.isPrefixOf line then ofDefinition? (line.drop keyword.length) else none

end Macro

/-- A line that is no definition, with its number. -/
structure MacroWarning where
  line : Nat
  text : String
deriving DecidableEq, Repr

/-- The text of the warning. -/
def MacroWarning.display (w : MacroWarning) : String :=
  "line " ++ toString w.line ++ ": unrecognized macro line " ++ Text.quoted w.text

/-- What a line stands for: nothing if it is blank, else a macro or a warning. -/
def lineResult (number : Nat) (line : List Char) : Option (Macro ⊕ MacroWarning) :=
  if line.all Text.isBlank then none
  else
    match Macro.ofLine? line with
    | some d => some (.inl d)
    | none => some (.inr ⟨number, String.ofList line⟩)

/-- What the lines stand for, in order, when the first has the given number. -/
def lineResults : Nat → List (List Char) → List (Macro ⊕ MacroWarning)
  | _, [] => []
  | number, line :: rest => (lineResult number line).toList ++ lineResults (number + 1) rest

/-- The macros of a text, and the lines that hold none. -/
structure MacroScan where
  macros : List Macro
  warnings : List MacroWarning
deriving DecidableEq, Repr

/-- Scans the list of definitions that the preprocessor prints. -/
def scanMacros (text : String) : MacroScan :=
  let results := lineResults 1 (Text.lines text.toList)
  ⟨results.filterMap Sum.getLeft?, results.filterMap Sum.getRight?⟩

end ForeignCall

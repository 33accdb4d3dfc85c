import ForeignCall.Text.Blank

/-!
# ForeignCall.Session.LogFilter

Which log filters are well formed. A filter is a list of directives between commas. A directive is a
level, or the name of a target that may be followed by an equals sign and a level.
-/

namespace ForeignCall.LogFilter

/-- The names and numbers of the levels. -/
def levels : List String :=
  ["off", "error", "warn", "info", "debug", "trace", "0", "1", "2", "3", "4", "5"]

/-- Whether a text is a level; upper and lower case are the same. -/
def isLevel (s : List Char) : Bool := levels.contains (String.ofList (s.map Char.toLower))

/-- A character of the name of a target. -/
def isTargetChar (c : Char) : Bool := c.isAlphanum || c = '_' || c = ':' || c = '-'

/-- Whether a text is a directive. -/
def isDirective (s : List Char) : Bool :=
  isLevel s ||
    (!(s.takeWhile isTargetChar).isEmpty &&
      match s.dropWhile isTargetChar with
      | [] => true
      | '=' :: level => level.isEmpty || isLevel level
      | _ => false)

/-- Whether a text is a filter. -/
def isValid (s : String) : Bool := (Text.partsWhere (· = ',') s.toList).all isDirective

end ForeignCall.LogFilter

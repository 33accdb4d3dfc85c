import ForeignCall.Constant.Literal
import ForeignCall.Header.Builder
import ForeignCall.Layout.Basic

/-!
# ForeignCall.Header.Basic

A header whose declarations are complete. It answers questions about its declarations and never
changes.

* `Builder.freeze` — the header of what has been collected;
* `Header.constant?` — the value of a macro that stands for an integer.
-/

namespace ForeignCall

/-- The declarations of a header. -/
structure Header where
  name : String
  spaces : Namespaces
deriving DecidableEq

/-- The header of what has been collected. -/
def Builder.freeze (b : Builder) : Header := ⟨b.name, b.spaces⟩

/-! ## Constants -/

/-- What stands between an opening parenthesis at the start and a closing one at the end. -/
def unwrap? : List Char → Option (List Char)
  | '(' :: rest => if rest.getLast? = some ')' then some rest.dropLast else none
  | _ => none

/-- A text without the parentheses around it and the blanks inside these. Every pair takes two
characters, so half the length is enough rounds. -/
def unwrapAll : Nat → List Char → List Char
  | 0, s => s
  | fuel + 1, s =>
    match unwrap? s with
    | some inner => unwrapAll fuel (Text.trim inner)
    | none => s

/-- The value of an integer literal with an optional minus sign, in any number of parentheses. -/
def signedLiteral? (s : List Char) : Option Int64 :=
  let body := Text.trim s
  match unwrapAll body.length body with
  | '-' :: rest => (intLiteral? (Text.trim rest)).map fun v => Int64.ofInt (-v.toInt)
  | text => intLiteral? text

namespace Header

/-- The type of a function. -/
def function? (h : Header) (name : String) : Option CType := h.spaces.functions.get? name

/-- The value of an enumerator. -/
def enumValue? (h : Header) (name : String) : Option EnumValue := h.spaces.enumerators.get? name

/-- The value of a macro without parameters that stands for an integer. -/
def constant? (h : Header) (name : String) : Option Int64 :=
  match h.spaces.macros.get? name with
  | none => none
  | some d => if d.isFunctionLike then none else signedLiteral? d.replacement.toList

/-- The completion of a type by the definitions of the header. -/
def complete (h : Header) (t : CType) : CType := h.spaces.complete t

end Header

end ForeignCall

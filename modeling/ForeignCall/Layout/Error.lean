import ForeignCall.Abort
import ForeignCall.CType.Names

/-!
# ForeignCall.Layout.Error

Why a type has no layout, why an offset does not exist, and why a value cannot be cast.
-/

namespace ForeignCall

/-- Why a layout, an offset or a cast is not defined. -/
inductive LayoutError where
  | incompleteArray (type : CType)
  /-- A struct or union of which only the tag is known. -/
  | unknownBody (type : CType)
  | function (type : CType)
  | void
  /-- A special type, which has no size on any target. -/
  | noNativeLayout (type : CType)
  /-- A union of size zero. -/
  | emptyUnion (type : CType)
  /-- The size of an element is no multiple of its alignment. -/
  | misalignedElement (type : CType) (size align : Nat)
  /-- A member without a name that is neither a struct nor a union. -/
  | unnamedScalar (type : CType)
  | notAggregate (type : CType)
  | indexOutOfBounds (type : CType) (index : Nat)
  /-- A packing width that is no power of two. -/
  | invalidPack (pack : Nat)
  /-- A size or an offset beyond 64 bits. -/
  | overflow (type : CType)
  /-- The target of a cast is neither an integer nor a floating point type. -/
  | notCastable (type : CType)
  /-- The arithmetic of a layout or a cast ends the program. -/
  | abort (reason : Abort)
deriving DecidableEq

/-- The text of the error. -/
def LayoutError.message : LayoutError → String
  | .incompleteArray t => "incomplete array '" ++ t.display ++ "' has no size"
  | .unknownBody t => "opaque type '" ++ t.display ++ "' has no known layout"
  | .function t => "function type '" ++ t.display ++ "' has no size"
  | .void => "'void' has no size"
  | .noNativeLayout t => "type '" ++ t.display ++ "' has no native layout on this target"
  | .emptyUnion t => "union '" ++ t.display ++ "' has zero size"
  | .misalignedElement t size align =>
    "array element '" ++ t.display ++ "' of size " ++ toString size ++
      " is not a multiple of its alignment " ++ toString align
  | .unnamedScalar t => "unnamed member of type '" ++ t.display ++ "' is not a nested aggregate"
  | .notAggregate t => "'" ++ t.display ++ "' is not a struct or union"
  | .indexOutOfBounds t index =>
    "index " ++ toString index ++ " is out of bounds for '" ++ t.display ++ "'"
  | .invalidPack pack => "packing width " ++ toString pack ++ " is not a positive power of two"
  | .overflow t => "size of '" ++ t.display ++ "' overflows"
  | .notCastable t => "cannot cast to '" ++ t.display ++ "'"
  | .abort reason => reason.message

end ForeignCall

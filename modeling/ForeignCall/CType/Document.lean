import ForeignCall.CType.Names
import ForeignCall.Json.Render

/-!
# ForeignCall.CType.Document

Types as JSON documents. An atomic type is the string of its canonical name; any other type is an
object whose member `t` tells the shape:

* `p` pointer, with the base `b`; `a` array, with the base `b` and the dimension or null `v`;
* `f` function, with `va` for variadic, the parameters `as` and the returned type `v`;
* `e` enum, with the tag or null `n` and an object `v` from enumerators to values;
* `s` and `u` struct and union, with the tag or null `n` and the members `d`;
* `os` and `ou` struct and union of which only the tag `n` is known.

* `CType.encode` — the document of a type;
* `CType.decode` — the type of a document. Members that the shape does not name are ignored.
-/

namespace ForeignCall

/-- Why a document is no type. -/
inductive DecodeError where
  | unknownTag (tag : String)
  | unknownAtomic (name : String)
  | missingKey (key context : String)
  | invalidValue (key context : String)
  /-- The document is neither a string nor an object. -/
  | malformed (document : String)
deriving DecidableEq, Repr

/-- The text of the error. -/
def DecodeError.message : DecodeError → String
  | .unknownTag tag => "unknown type tag '" ++ tag ++ "'"
  | .unknownAtomic name => "unknown atomic type '" ++ name ++ "'"
  | .missingKey key context => "missing key '" ++ key ++ "' in " ++ context
  | .invalidValue key context => "invalid value for key '" ++ key ++ "' in " ++ context
  | .malformed document => "not a type document: " ++ document

namespace CType

/-! ## Writing -/

/-- The document of an optional name. -/
def encodeName (name : Option String) : Json := .opt .str name

/-- The letter for a complete aggregate. -/
def aggregateTag : TagKind → String
  | .struct => "s"
  | .union => "u"

/-- The letters for an aggregate of which only the tag is known. -/
def placeholderTag : TagKind → String
  | .struct => "os"
  | .union => "ou"

/-- The document of a list of enumerators. A repeated name has its last value, at its
first place. -/
def encodeValues (values : List (String × Int64)) : List (String × Json) :=
  values.foldl (fun ms (name, v) => Json.put ms name (.int v.toInt)) []

mutual

/-- The document of a type. -/
def encode : CType → Json
  | .void => .str "void"
  | .special name => .str name.text
  | .integral kind signed => .str (integralName kind signed)
  | .floating kind => .str kind.spelling
  | .pointer base => .obj [("t", .str "p"), ("b", base.encode)]
  | .array base dim =>
    .obj [("t", .str "a"), ("b", base.encode), ("v", .opt (fun d => .nat d.toNat) dim)]
  | .func params ret variadic =>
    .obj [("t", .str "f"), ("va", .bool variadic), ("as", .arr (encodeMembers params)),
      ("v", ret.encode)]
  | .enum tag values =>
    .obj [("t", .str "e"), ("n", encodeName tag), ("v", .obj (encodeValues values))]
  | .aggregate kind tag members =>
    .obj [("t", .str (aggregateTag kind)), ("n", encodeName tag),
      ("d", .arr (encodeMembers members))]
  | .placeholder kind tag => .obj [("t", .str (placeholderTag kind)), ("n", .str tag)]

/-- The documents of members or parameters. -/
def encodeMembers : List (Member CType) → List Json
  | [] => []
  | ⟨name, t⟩ :: ms => .obj [("n", encodeName name), ("t", t.encode)] :: encodeMembers ms

end

/-! ## Reading -/

/-- The atomic or special type with a given name. -/
def ofName? (name : String) : Option CType :=
  ofCanonical? name <|> (SpecialName.ofString? name).map .special

/-- The member `key` of an object. -/
def require (key context : String) (obj : List (String × Json)) : Except DecodeError Json :=
  match Json.lookup key obj with
  | some j => .ok j
  | none => .error (.missingKey key context)

/-- The string that is the member `key`. -/
def requireStr (key context : String) (obj : List (String × Json)) : Except DecodeError String :=
  match require key context obj with
  | .error e => .error e
  | .ok (.str s) => .ok s
  | .ok _ => .error (.invalidValue key context)

/-- The optional name that is the member `n`. -/
def requireName (context : String) (obj : List (String × Json)) :
    Except DecodeError (Option String) :=
  match require "n" context obj with
  | .error e => .error e
  | .ok .null => .ok none
  | .ok (.str s) => .ok (some s)
  | .ok _ => .error (.invalidValue "n" context)

/-- The dimension that is the member `v`. -/
def requireDim (obj : List (String × Json)) : Except DecodeError (Option UInt64) :=
  match require "v" "array" obj with
  | .error e => .error e
  | .ok .null => .ok none
  | .ok j =>
    match j.word? with
    | some d => .ok (some d)
    | none => .error (.invalidValue "v" "array")

/-- The Boolean that is the member `va`. -/
def requireVariadic (obj : List (String × Json)) : Except DecodeError Bool :=
  match require "va" "function" obj with
  | .error e => .error e
  | .ok (.bool b) => .ok b
  | .ok _ => .error (.invalidValue "va" "function")

/-- The enumerators of an object. -/
def decodeValues : List (String × Json) → Except DecodeError (List (String × Int64))
  | [] => .ok []
  | (name, j) :: ms =>
    match j.int64? with
    | none => .error (.invalidValue "v" "enum")
    | some v => (decodeValues ms).map ((name, v) :: ·)

/-- The enumerators that are the member `v`. -/
def requireValues (obj : List (String × Json)) : Except DecodeError (List (String × Int64)) :=
  match require "v" "enum" obj with
  | .error e => .error e
  | .ok (.obj ms) => decodeValues ms
  | .ok _ => .error (.invalidValue "v" "enum")

mutual

/-- The type of a document. -/
def decode : Json → Except DecodeError CType
  | .str name =>
    match ofName? name with
    | some t => .ok t
    | none => .error (.unknownAtomic name)
  | .obj obj =>
    match requireStr "t" "type object" obj with
    | .error e => .error e
    | .ok "p" =>
      match decodeAt "b" "pointer" obj with
      | .error e => .error e
      | .ok base => .ok (.pointer base)
    | .ok "a" =>
      match decodeAt "b" "array" obj with
      | .error e => .error e
      | .ok base => (requireDim obj).map (.array base)
    | .ok "f" =>
      match requireVariadic obj with
      | .error e => .error e
      | .ok variadic =>
        match decodeListAt "as" "function" obj with
        | .error e => .error e
        | .ok params =>
          match decodeAt "v" "function" obj with
          | .error e => .error e
          | .ok ret => .ok (.func params ret variadic)
    | .ok "e" =>
      match requireName "enum" obj with
      | .error e => .error e
      | .ok tag => (requireValues obj).map (.enum tag)
    | .ok "s" =>
      match requireName "struct" obj with
      | .error e => .error e
      | .ok tag =>
        match decodeListAt "d" "struct" obj with
        | .error e => .error e
        | .ok members => .ok (.aggregate .struct tag members)
    | .ok "u" =>
      match requireName "union" obj with
      | .error e => .error e
      | .ok tag =>
        match decodeListAt "d" "union" obj with
        | .error e => .error e
        | .ok members => .ok (.aggregate .union tag members)
    | .ok "os" => (requireStr "n" "opaque struct" obj).map (.placeholder .struct)
    | .ok "ou" => (requireStr "n" "opaque union" obj).map (.placeholder .union)
    | .ok other => .error (.unknownTag other)
  | .null => .error (.malformed Json.null.render)
  | .bool b => .error (.malformed (Json.bool b).render)
  | .num n => .error (.malformed (Json.num n).render)
  | .arr items => .error (.malformed (Json.arr items).render)

/-- The type that is the member `key` of an object. -/
def decodeAt (key context : String) : List (String × Json) → Except DecodeError CType
  | [] => .error (.missingKey key context)
  | (k, j) :: ms => if k = key then decode j else decodeAt key context ms

/-- The members or parameters that are the member `key` of an object. -/
def decodeListAt (key context : String) :
    List (String × Json) → Except DecodeError (List (Member CType))
  | [] => .error (.missingKey key context)
  | (k, j) :: ms =>
    if k = key then
      match j with
      | .arr items => decodeMembers context items
      | _ => .error (.invalidValue "d" context)
    else decodeListAt key context ms

/-- The members or parameters of a list of documents. -/
def decodeMembers (context : String) : List Json → Except DecodeError (List (Member CType))
  | [] => .ok []
  | .obj entry :: items =>
    match requireName context entry with
    | .error e => .error e
    | .ok name =>
      match decodeAt "t" context entry with
      | .error e => .error e
      | .ok t => (decodeMembers context items).map (⟨name, t⟩ :: ·)
  | _ :: _ => .error (.invalidValue "d" context)

end

/-- Whether a type reads back from its document. -/
def roundTrips (t : CType) : Bool :=
  match decode t.encode with
  | .ok u => u = t
  | .error _ => false

end CType

end ForeignCall

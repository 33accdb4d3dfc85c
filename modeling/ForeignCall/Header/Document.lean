import ForeignCall.CType.Document
import ForeignCall.Header.Basic
import ForeignCall.Json.Reader

/-!
# ForeignCall.Header.Document

Headers as JSON documents: an object with the name and one object per map, whose members are the
declarations by name. The enumerators are not written, because they follow from the types.

* `Header.toDocument` — the document of a header;
* `Header.ofDocument` — the header of a document.
-/

namespace ForeignCall

/-- Why a document is no header. -/
inductive DocumentError where
  /-- A header that cannot be written. -/
  | encode (header message : String)
  /-- The document does not have the shape of a header. -/
  | malformed (message : String)
  /-- The type of one declaration cannot be read. -/
  | type (space name : String) (cause : DecodeError)
deriving DecidableEq, Repr

/-- The text of the error. -/
def DocumentError.message : DocumentError → String
  | .encode header message => "cannot encode header '" ++ header ++ "': " ++ message
  | .malformed message => "malformed header document: " ++ message
  | .type space name _ => "cannot decode '" ++ name ++ "' in " ++ space

/-- The texts of the causes of the error. -/
def DocumentError.causes : DocumentError → List String
  | .type _ _ cause => [cause.message]
  | _ => []

/-! ## Writing -/

/-- The document of a macro. -/
def Macro.toJson (d : Macro) : Json :=
  .obj [("as", .opt (fun ps => .arr (ps.map .str)) d.params), ("v", .str d.replacement)]

/-- The document of a map of types. -/
def typesJson (ns : Namespace CType) : Json := .obj (ns.entries.map fun (n, t) => (n, t.encode))

/-- The document of a header. -/
def Header.toDocument (h : Header) : Json :=
  .obj [("name", .str h.name),
    ("macros", .obj (h.spaces.macros.entries.map fun (n, d) => (n, d.toJson))),
    ("functions", typesJson h.spaces.functions), ("variables", typesJson h.spaces.globals),
    ("types", typesJson h.spaces.types), ("structs", typesJson h.spaces.structs),
    ("unions", typesJson h.spaces.unions), ("enums", typesJson h.spaces.enums)]

/-! ## Reading -/

/-- The members of an object. -/
def readMembers : Option Json → Option (List (String × Json))
  | some (.obj ms) => some ms
  | _ => none

/-- The parameters of a macro. -/
def readParams : Option Json → Option (Option (List String))
  | none | some .null => some none
  | some (.arr items) => (items.mapM Json.str?).map some
  | _ => none

/-- The members of a record: by name in an object, by position in an array. -/
def recordMembers (names : List String) : Json → Option (List (Option Json))
  | .obj ms => some (names.map fun name => Json.lookup name ms)
  | .arr items => if items.length = names.length then some (items.map some) else none
  | _ => none

/-- Reads a macro of a given name. -/
def Macro.ofJson? (name : String) (j : Json) : Option Macro := do
  match ← recordMembers ["as", "v"] j with
  | [params, some (.str body)] => some ⟨name, ← readParams params, body⟩
  | _ => none

/-- The parts of a header document before the types are read. -/
structure HeaderParts where
  name : String
  macros : Namespace Macro
  /-- The maps of types by their names, in the order of the document's format. -/
  types : List (String × Namespace Json)

/-- The names of the maps of types. -/
def typeSpaces : List String :=
  ["functions", "variables", "types", "structs", "unions", "enums"]

/-- The parts of a header document. -/
def HeaderParts.ofJson? (j : Json) : Option HeaderParts := do
  match ← recordMembers (["name", "macros"] ++ typeSpaces) j with
  | some (.str name) :: macros :: spaces =>
    let ds ← (← readMembers macros).mapM fun (n, d) => (Macro.ofJson? n d).map fun d => (n, d)
    let maps ← spaces.mapM fun s => (readMembers s).map Namespace.ofList
    some ⟨name, .ofList ds, typeSpaces.zip maps⟩
  | _ => none

/-- Reads the types of a list of entries, up to the first that is none. -/
def decodeEntries (space : String) :
    List (String × Json) → Except DocumentError (List (String × CType))
  | [] => .ok []
  | (name, j) :: es =>
    match CType.decode j with
    | .error e => .error (.type space name e)
    | .ok t => (decodeEntries space es).map ((name, t) :: ·)

/-- Reads the types of a map. -/
def decodeSpace (space : String) (ns : Namespace Json) : Except DocumentError (Namespace CType) :=
  (decodeEntries space ns.entries).map Namespace.ofList

/-- The header of a document. -/
def Header.ofDocument (j : Json) : Except DocumentError Header :=
  match HeaderParts.ofJson? j with
  | none => .error (.malformed "")
  | some parts => do
    match ← parts.types.mapM fun (space, ns) => decodeSpace space ns with
    | [functions, globals, types, structs, unions, enums] =>
      .ok ⟨parts.name, ⟨parts.macros, functions, globals, types, structs, unions, enums⟩⟩
    | _ => .error (.malformed "")

/-- Whether the document of a header reads back as the header. -/
def Header.roundTrips (h : Header) : Bool := (Header.ofDocument h.toDocument).toOption = some h

end ForeignCall

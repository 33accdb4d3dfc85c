import ForeignCall.Declaration.Basic
import ForeignCall.Json.Reader

/-!
# ForeignCall.Declaration.Document

Declaration trees as JSON documents. Every alternative is an object with one member that is named
for it; an identifier is a list of words and a pointer its base, any other content is a record.

* `TypeNode.toJson`, `Declaration.toJson` — the document of a tree, with all members written;
* `TypeNode.read`, `Declaration.read`, `readUnit` — the tree of a document. A reader counts how many
  more containers it may enter.
-/

namespace ForeignCall

open Json (Source)

/-- The largest line and column. -/
def maxLine : Nat := 2 ^ 32 - 1

/-- The document of an alternative. -/
def alternative (name : String) (content : Json) : Json := .obj [(name, content)]

/-- The document of a construct of unknown form. -/
def otherJson (kind text : String) : Json :=
  alternative "other" (.obj [("kind", .str kind), ("text", .str text)])

/-! ## Writing -/

/-- The document of a place. -/
def Coord.toJson (c : Coord) : Json :=
  .obj [("file", .str c.file), ("line", .nat c.line), ("column", .nat c.column)]

/-- The name of a kind of literals. -/
def LiteralKind.name : LiteralKind → String
  | .int => "int"
  | .char => "char"
  | .float => "float"
  | .string => "string"

mutual

/-- The document of a type. -/
def TypeNode.toJson : TypeNode → Json
  | .identifier words => alternative "identifier" (.arr (words.map .str))
  | .pointer base => alternative "pointer" base.toJson
  | .array base none => alternative "array" (.obj [("base", base.toJson), ("dim", .null)])
  | .array base (some dim) =>
    alternative "array" (.obj [("base", base.toJson), ("dim", exprJson dim)])
  | .function none ret variadic =>
    alternative "function"
      (.obj [("params", .null), ("ret", ret.toJson), ("variadic", .bool variadic)])
  | .function (some params) ret variadic =>
    alternative "function"
      (.obj [("params", .arr (declaratorsJson params)), ("ret", ret.toJson),
        ("variadic", .bool variadic)])
  | .aggregate kind tag none =>
    alternative kind.keyword (.obj [("name", .opt .str tag), ("fields", .null)])
  | .aggregate kind tag (some fields) =>
    alternative kind.keyword
      (.obj [("name", .opt .str tag), ("fields", .arr (declaratorsJson fields))])
  | .enum tag none => alternative "enum" (.obj [("name", .opt .str tag), ("enumerators", .null)])
  | .enum tag (some es) =>
    alternative "enum" (.obj [("name", .opt .str tag), ("enumerators", .arr (enumeratorsJson es))])
  | .other kind text => otherJson kind text

/-- The document of an expression. -/
def exprJson : Expr TypeNode → Json
  | .literal kind text =>
    alternative "literal" (.obj [("kind", .str kind.name), ("text", .str text)])
  | .ident name => alternative "ident" (.str name)
  | .unary op operand =>
    alternative "unary" (.obj [("op", .str op), ("operand", exprJson operand)])
  | .binary op lhs rhs =>
    alternative "binary" (.obj [("op", .str op), ("lhs", exprJson lhs), ("rhs", exprJson rhs)])
  | .sizeofType t => alternative "sizeof_type" t.toJson
  | .cast t operand => alternative "cast" (.obj [("ty", t.toJson), ("expr", exprJson operand)])
  | .other kind text => otherJson kind text

/-- The documents of declarators. -/
def declaratorsJson : List (Declarator TypeNode) → List Json
  | [] => []
  | ⟨name, t, coord⟩ :: ds =>
    .obj [("name", .opt .str name), ("ty", t.toJson), ("coord", .opt Coord.toJson coord)] ::
      declaratorsJson ds

/-- The documents of enumerators. -/
def enumeratorsJson : List (Enumerator (Expr TypeNode)) → List Json
  | [] => []
  | ⟨name, none⟩ :: es => .obj [("name", .str name), ("value", .null)] :: enumeratorsJson es
  | ⟨name, some e⟩ :: es =>
    .obj [("name", .str name), ("value", exprJson e)] :: enumeratorsJson es

end

/-- The document of a declarator. -/
def Declarator.toJson (d : Declarator TypeNode) : Json :=
  .obj [("name", .opt .str d.name), ("ty", d.type.toJson), ("coord", .opt Coord.toJson d.coord)]

/-- The document of a declaration. -/
def Declaration.toJson : Declaration → Json
  | .decl d => alternative "decl" d.toJson
  | .typedef d => alternative "typedef" d.toJson
  | .pragma text => alternative "pragma" (.str text)
  | .funcDef d => alternative "func_def" d.toJson
  | .other kind text => otherJson kind text

/-- The document of the declarations of a file. -/
def unitJson (unit : TranslationUnit) : Json := .obj [("decls", .arr (unit.map Declaration.toJson))]

/-! ## Reading -/

/-- Reads a place. -/
def Coord.read : Nat → Source → Option Coord
  | 0, _ => none
  | _ + 1, j => do
    match ← j.record? ["file", "line", "column"] 3 with
    | [some file, some line, some column] =>
      some ⟨← file.string?, ← line.nat? maxLine, ← column.nat? maxLine⟩
    | _ => none

/-- Reads the kind of a literal. -/
def LiteralKind.read (depth : Nat) (j : Source) : Option LiteralKind := do
  match ← j.unitAlternative? depth with
  | "int" => some .int
  | "char" => some .char
  | "float" => some .float
  | "string" => some .string
  | _ => none

/-- Reads the record of a construct of unknown form. -/
def readOther (positional : Bool) (body : Source) : Option (String × String) := do
  match ← body.content? positional ["kind", "text"] with
  | [some kind, some text] => some (← kind.string?, ← text.string?)
  | _ => none

/-- Reads the record of a struct or union, given how its fields are read. -/
def readAggregate (positional : Bool) (fields : Source → Option (List (Declarator TypeNode)))
    (kind : TagKind) (body : Source) : Option TypeNode := do
  match ← body.content? positional ["name", "fields"] with
  | [name, list] =>
    some (.aggregate kind (← Source.optional Source.string? name) (← Source.optional fields list))
  | _ => none

/-- Reads every item of an array. -/
def readItems {α : Type} (read : Source → Option α) (j : Source) : Option (List α) :=
  j.items?.bind fun items => items.mapM read

mutual

/-- Reads a type. -/
def TypeNode.read (positional : Bool) : Nat → Source → Option TypeNode
  | 0, _ => none
  | 1, _ => none
  | depth + 2, j => do
    let (tag, body) ← j.alternative?
    match tag with
    | "identifier" => body.strings?.map .identifier
    | "pointer" => (TypeNode.read positional (depth + 1) body).map .pointer
    | "array" =>
      match ← body.content? positional ["base", "dim"] with
      | [some base, dim] =>
        some (.array (← TypeNode.read positional depth base)
          (← Source.optional (readExpr positional depth) dim))
      | _ => none
    | "function" =>
      match ← body.content? positional ["params", "ret", "variadic"] with
      | [params, some ret, some variadic] =>
        some (.function (← Source.optional (readDeclarators positional depth) params)
          (← TypeNode.read positional depth ret) (← variadic.bool?))
      | _ => none
    | "struct" => readAggregate positional (readDeclarators positional depth) .struct body
    | "union" => readAggregate positional (readDeclarators positional depth) .union body
    | "enum" =>
      match ← body.content? positional ["name", "enumerators"] with
      | [name, enumerators] =>
        some (.enum (← Source.optional Source.string? name)
          (← Source.optional (readEnumerators positional depth) enumerators))
      | _ => none
    | "other" => (readOther positional body).map fun (kind, text) => .other kind text
    | _ => none

/-- Reads an expression. -/
def readExpr (positional : Bool) : Nat → Source → Option (Expr TypeNode)
  | 0, _ => none
  | 1, j => do
    let (tag, body) ← j.alternative?
    if tag = "ident" then body.string?.map .ident else none
  | depth + 2, j => do
    let (tag, body) ← j.alternative?
    match tag with
    | "literal" =>
      match ← body.content? positional ["kind", "text"] with
      | [some kind, some text] => some (.literal (← LiteralKind.read depth kind) (← text.string?))
      | _ => none
    | "ident" => body.string?.map .ident
    | "unary" =>
      match ← body.content? positional ["op", "operand"] with
      | [some op, some operand] =>
        some (.unary (← op.string?) (← readExpr positional depth operand))
      | _ => none
    | "binary" =>
      match ← body.content? positional ["op", "lhs", "rhs"] with
      | [some op, some lhs, some rhs] =>
        some (.binary (← op.string?) (← readExpr positional depth lhs)
          (← readExpr positional depth rhs))
      | _ => none
    | "sizeof_type" => (TypeNode.read positional (depth + 1) body).map .sizeofType
    | "cast" =>
      match ← body.content? positional ["ty", "expr"] with
      | [some t, some operand] =>
        some (.cast (← TypeNode.read positional depth t) (← readExpr positional depth operand))
      | _ => none
    | "other" => (readOther positional body).map fun (kind, text) => .other kind text
    | _ => none

/-- Reads an array of declarators. -/
def readDeclarators (positional : Bool) : Nat → Source → Option (List (Declarator TypeNode))
  | 0, _ => none
  | depth + 1, j => readItems (readDeclarator positional depth) j

/-- Reads a declarator. -/
def readDeclarator (positional : Bool) : Nat → Source → Option (Declarator TypeNode)
  | 0, _ => none
  | depth + 1, j => do
    match ← j.record? ["name", "ty", "coord"] 2 with
    | [name, some t, coord] =>
      some ⟨← Source.optional Source.string? name, ← TypeNode.read positional depth t,
        ← Source.optional (Coord.read depth) coord⟩
    | _ => none

/-- Reads an array of enumerators. -/
def readEnumerators (positional : Bool) :
    Nat → Source → Option (List (Enumerator (Expr TypeNode)))
  | 0, _ => none
  | depth + 1, j => readItems (readEnumerator positional depth) j

/-- Reads an enumerator. -/
def readEnumerator (positional : Bool) : Nat → Source → Option (Enumerator (Expr TypeNode))
  | 0, _ => none
  | depth + 1, j => do
    match ← j.record? ["name", "value"] 2 with
    | [some name, value] =>
      some ⟨← name.string?, ← Source.optional (readExpr positional depth) value⟩
    | _ => none

end

/-- Reads a declaration. -/
def Declaration.read (positional : Bool) : Nat → Source → Option Declaration
  | 0, _ => none
  | depth + 1, j => do
    let (tag, body) ← j.alternative?
    match tag with
    | "decl" => (readDeclarator positional depth body).map .decl
    | "typedef" => (readDeclarator positional depth body).map .typedef
    | "pragma" => body.string?.map .pragma
    | "func_def" => (readDeclarator positional depth body).map .funcDef
    | "other" =>
      if depth = 0 then none
      else (readOther positional body).map fun (kind, text) => .other kind text
    | _ => none

/-- Reads an array of declarations. -/
def readDeclarations (positional : Bool) : Nat → Source → Option (List Declaration)
  | 0, _ => none
  | depth + 1, j => readItems (Declaration.read positional depth) j

/-- Reads the declarations of a file. -/
def readUnit (positional : Bool) : Nat → Source → Option TranslationUnit
  | 0, _ => none
  | depth + 1, j => do
    match ← j.record? ["decls"] 1 with
    | [some decls] => readDeclarations positional depth decls
    | _ => none

end ForeignCall

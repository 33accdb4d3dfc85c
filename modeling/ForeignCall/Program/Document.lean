import ForeignCall.Json.Reader
import ForeignCall.Program.Basic

/-!
# ForeignCall.Program.Document

Host programs as JSON documents: every alternative is an object with one member that is named for
it.

* `Term.toJson` — the document of an expression;
* `Term.read`, `Program.read` — the tree of a document. A reader counts how many more containers it
  may enter.
-/

namespace ForeignCall

open Json (Source)

mutual

/-- The document of an expression. -/
def Term.toJson : Term → Json
  | .str raw => .obj [("str", .str raw)]
  | .int text => .obj [("int", .str text)]
  | .name name => .obj [("name", .str name)]
  | .call callee args =>
    .obj [("call", .obj [("callee", callee.toJson), ("args", .arr (argsJson args))])]
  | .other kind text => .obj [("other", .obj [("kind", .str kind), ("text", .str text)])]

/-- The documents of arguments. -/
def argsJson : List Term → List Json
  | [] => []
  | t :: ts => t.toJson :: argsJson ts

end

/-! ## Reading -/

/-- Reads the record of a form that the library does not model. -/
def readForm (positional : Bool) (body : Source) : Option (String × String) := do
  match ← body.content? positional ["kind", "text"] with
  | [some kind, some text] => some (← kind.string?, ← text.string?)
  | _ => none

/-- Reads an alternative whose content is a string. -/
def Term.readLeaf (tag : String) (body : Source) : Option Term :=
  match tag with
  | "str" => body.string?.map .str
  | "int" => body.string?.map .int
  | "name" => body.string?.map .name
  | _ => none

/-- Reads an expression. -/
def Term.read (positional : Bool) : Nat → Source → Option Term
  | 0, _ => none
  | 1, j => do
    let (tag, body) ← j.alternative?
    Term.readLeaf tag body
  | 2, j => do
    let (tag, body) ← j.alternative?
    match tag with
    | "other" => (readForm positional body).map fun (kind, text) => .other kind text
    | _ => Term.readLeaf tag body
  | depth + 3, j => do
    let (tag, body) ← j.alternative?
    match tag with
    | "call" =>
      match ← body.content? positional ["callee", "args"] with
      | [some callee, some args] =>
        some (.call (← Term.read positional (depth + 1) callee)
          (← (← args.items?).mapM (Term.read positional depth)))
      | _ => none
    | "other" => (readForm positional body).map fun (kind, text) => .other kind text
    | _ => Term.readLeaf tag body

/-- Reads an import. -/
def Import.read (j : Source) : Option Import := do
  match ← j.record? ["header", "names"] 2 with
  | [some header, some names] => some ⟨← header.string?, ← names.strings?⟩
  | _ => none

/-- Reads the imports of a program or a block. -/
def readImports (j : Source) : Option (List Import) := do (← j.items?).mapM Import.read

/-- Reads a statement. -/
def Statement.read (positional : Bool) : Nat → Source → Option Statement
  | 0, _ => none
  | 1, _ => none
  | 2, j => do
    let (tag, body) ← j.alternative?
    match tag with
    | "expr" => (Term.read positional 1 body).map .expr
    | "other" => (readForm positional body).map fun (kind, text) => .other kind text
    | _ => none
  | depth + 3, j => do
    let (tag, body) ← j.alternative?
    match tag with
    | "expr" => (Term.read positional (depth + 2) body).map .expr
    | "block" =>
      match ← body.record? ["imports", "body"] 2 with
      | [some imports, some body] =>
        some (.block (← readImports imports)
          (← (← body.items?).mapM (Statement.read positional depth)))
      | _ => none
    | "other" => (readForm positional body).map fun (kind, text) => .other kind text
    | _ => none

/-- Reads a program. -/
def Program.read (positional : Bool) : Nat → Source → Option Program
  | depth + 2, j => do
    match ← j.record? ["imports", "body"] 2 with
    | [some imports, some body] =>
      some ⟨← readImports imports, ← (← body.items?).mapM (Statement.read positional depth)⟩
    | _ => none
  | _, _ => none

end ForeignCall

import ForeignCall.CType.Spelling
import ForeignCall.Constant.Evaluation
import ForeignCall.Header.Builder
import ForeignCall.Layout.Basic
import ForeignCall.Target.Cast

/-!
# ForeignCall.Header.Translation

From declaration trees to the declarations of a header.

The declarations are taken in order, because typedefs, tags and enumerators are only visible after
they have been declared. A declaration that fails keeps what it has added up to then.

* `TypeNode.translate` — the type that a node of the tree denotes;
* `Declaration.translate` — adds a declaration;
* `translateUnit` — adds the declarations of a file up to the first that fails.
-/

namespace ForeignCall

/-- Why a declaration cannot be translated. -/
inductive TranslationError where
  /-- A construct that the library does not model. -/
  | unsupported (construct : String) (coord : Option Coord)
  /-- A constant expression without a value. -/
  | constant (error : ConstError) (coord : Option Coord)
  | conflict (conflict : Conflict)
  /-- The size of a type that has no layout. -/
  | layout (error : LayoutError)
  /-- The count of the keywords of a type ends the program. -/
  | abort (reason : Abort)
deriving DecidableEq

/-- The place behind a message. -/
def placeText : Option Coord → String
  | some c => " at " ++ c.text
  | none => ""

/-- The text of the error. -/
def TranslationError.message : TranslationError → String
  | .unsupported construct coord => "unsupported construct '" ++ construct ++ "'" ++ placeText coord
  | .constant error coord => error.message ++ placeText coord
  | .conflict c => c.message
  | .layout e => e.message
  | .abort reason => reason.message

/-- The texts of the causes of the error. -/
def TranslationError.causes : TranslationError → List String
  | .unsupported .. => []
  | .constant error _ => [error.message]
  | .conflict c => [c.message]
  | .layout e => [e.message]
  | .abort _ => []

/-- A step that may change the header and may fail; what it has changed stays in either case. -/
abbrev Build := ExceptT TranslationError (StateM Builder)

/-- What a translation depends on: the target, the packing width for sizes, and the place of the
declaration at hand. -/
structure Context where
  target : Target
  pack : Nat
  coord : Option Coord

namespace Context

/-- Fails with an unsupported construct. -/
def unsupported {α : Type} (cx : Context) (construct : String) : Build α :=
  throw (.unsupported construct cx.coord)

/-! ## Constants -/

/-- A type inside a constant expression: its text and its translation. -/
structure Operand where
  text : String
  translate : Build CType

/-- Adds the place of the declaration to an error of a constant that has none. -/
def locate (cx : Context) : TranslationError → TranslationError
  | .constant error none => .constant error cx.coord
  | e => e

/-- Fails because of a constant. -/
def raise {α : Type} (error : ConstError) : Build α := throw (.constant error none)

/-- The size of a type in bytes, as a word with a sign. -/
def sizeOf (cx : Context) (operand : Operand) : Build Int64 := do
  let t ← operand.translate
  let whole := (← get).complete t
  match whole.layout cx.target cx.pack with
  | .error e => throw (.layout e)
  | .ok l =>
    match fit l.size with
    | some n => return n
    | none => raise (.overflow ("sizeof(" ++ t.display ++ ")"))

/-- The value of a cast. -/
def castTo (cx : Context) (operand : Operand) (value : Int64) : Build Int64 := do
  let t ← operand.translate
  let refused := ConstError.unsupported ("(" ++ t.display ++ ")(" ++ toString value.toInt ++ ")")
  match cx.target.cast t (.int value.toInt) with
  | .error e => throw (.layout e)
  | .ok (.float _) => raise refused
  | .ok (.int v) =>
    match fit v with
    | some n => return n
    | none => raise refused

/-- What constants refer to while a header is being collected. -/
def environment (cx : Context) : Environment Build Operand where
  enumerator name := return (← get).enumerator? name
  sizeOf := cx.sizeOf
  cast := cx.castTo
  display := Operand.text
  raise := raise

/-- The value of a constant expression; its errors carry the place of the declaration. -/
def constant (cx : Context) (e : Expr Operand) : Build Int64 :=
  ExceptT.adapt cx.locate (e.evaluate cx.environment)

/-- The dimension of an array, which is not negative; `text` is the text of the array. -/
def dimension (cx : Context) (text : String) (e : Expr Operand) : Build UInt64 := do
  let v ← cx.constant e
  if v.toInt < 0 then cx.unsupported text else return UInt64.ofNat v.toInt.toNat

/-! ## Declared names -/

/-- The type that words spell: a typedef if it is a single word that names one, else a type of
keywords. -/
def wordsType (cx : Context) (words : List String) : Build CType := do
  let b ← get
  let named := match words with
    | [word] => b.typedef? word
    | _ => none
  match named with
  | some t => return t
  | none =>
    match CType.ofSpelling words with
    | .error reason => throw (.abort reason)
    | .ok (some t) => return t
    | .ok none => cx.unsupported (" ".intercalate words)

/-- Declares a struct or union by its tag. -/
def declareTag (cx : Context) (kind : TagKind) : Option String → Build CType
  | none => cx.unsupported kind.keyword
  | some tag => do
    modify fun b => b.declare kind tag
    return .placeholder kind tag

/-- Adds what the store makes of itself, or fails with a conflict. -/
def store (change : Builder → Except Conflict Builder) : Build Unit := do
  match change (← get) with
  | .ok b => set b
  | .error c => throw (.conflict c)

/-- A struct or union with its members; it is defined if it has a tag. -/
def defineTag (kind : TagKind) (tag : Option String) (members : List (Member CType)) :
    Build CType := do
  let t := CType.aggregate kind tag members
  match tag with
  | some name => store fun b => b.define kind name t
  | none => pure ()
  return t

/-- An enum with its values; it is defined if it has a tag. -/
def defineEnumTag (tag : Option String) (values : List (String × Int64)) : Build CType := do
  let t := CType.enum tag values
  match tag with
  | some name => store fun b => b.defineEnum name t
  | none => pure ()
  return t

/-- The enum that a tag refers to. -/
def enumOf (cx : Context) (tag : Option String) : Build CType := do
  match tag.bind (← get).enum? with
  | some t => return t
  | none => cx.unsupported (taggedText "enum" tag false)

/-- Makes an enumerator known; gives the value that the next one has by default. -/
def addEnumerator (tag : Option String) (name : String) (value : Int64) : Build Int64 := do
  modify fun b => b.addEnumerator name value tag
  match fit (value.toInt + 1) with
  | some next => return next
  | none => raise (.overflow name)

end Context

/-- Whether a parameter list is the word `void` alone, which stands for no parameters. -/
def isVoidList : List (Declarator TypeNode) → Bool
  | [⟨none, .identifier ["void"], _⟩] => true
  | _ => false

open Context in
mutual

/-- The type that a node denotes. -/
def TypeNode.translate (cx : Context) : TypeNode → Build CType
  | .identifier words => cx.wordsType words
  | .pointer base => do return .pointer (← base.translate cx)
  | .array base none => do return .array (← base.translate cx) none
  | .array base (some dim) => do
    let t ← base.translate cx
    let n ← cx.dimension (base.display ++ "[" ++ exprText dim ++ "]") (lower cx dim)
    return .array t (some n)
  | .function none ret variadic => do return .func [] (← ret.translate cx) variadic
  | .function (some params) ret variadic => do
    let members ← if isVoidList params then pure [] else translateMembers cx params
    return .func members (← ret.translate cx) variadic
  | .aggregate kind tag none => cx.declareTag kind tag
  | .aggregate kind tag (some fields) => do defineTag kind tag (← translateMembers cx fields)
  | .enum tag none => cx.enumOf tag
  | .enum tag (some es) => do defineEnumTag tag (← translateValues cx tag 0 es)
  | .other kind text => cx.unsupported (otherText kind text)

/-- The members that declarators denote. -/
def translateMembers (cx : Context) : List (Declarator TypeNode) → Build (List (Member CType))
  | [] => return []
  | ⟨name, t, _⟩ :: ds => do
    let u ← t.translate cx
    return ⟨name, u⟩ :: (← translateMembers cx ds)

/-- The values of enumerators, when the first has `next` by default. Each is known to the
expressions of those behind it. -/
def translateValues (cx : Context) (tag : Option String) :
    Int64 → List (Enumerator (Expr TypeNode)) → Build (List (String × Int64))
  | _, [] => return []
  | next, ⟨name, none⟩ :: es => do
    let after ← addEnumerator tag name next
    return (name, next) :: (← translateValues cx tag after es)
  | _, ⟨name, some e⟩ :: es => do
    let value ← cx.constant (lower cx e)
    let after ← addEnumerator tag name value
    return (name, value) :: (← translateValues cx tag after es)

/-- The expression with the translations of its types. -/
def lower (cx : Context) : Expr TypeNode → Expr Operand
  | .literal kind text => .literal kind text
  | .ident name => .ident name
  | .unary op operand => .unary op (lower cx operand)
  | .binary op lhs rhs => .binary op (lower cx lhs) (lower cx rhs)
  | .sizeofType t => .sizeofType ⟨t.display, t.translate cx⟩
  | .cast t operand => .cast ⟨t.display, t.translate cx⟩ (lower cx operand)
  | .other kind text => .other kind text

end

/-! ## Declarations -/

/-- Adds a declaration without a name. An enum without a tag is stored under its first enumerator,
because nothing else leads to it. -/
def storeNameless : CType → Build Unit
  | .enum none ((first, v) :: rest) =>
    Context.store fun b =>
      b.defineEnum ("\x7b" ++ first ++ "\x7d") (.enum none ((first, v) :: rest))
  | _ => return ()

/-- Adds a variable, a function or a tag. -/
def Declarator.translate (target : Target) (pack : Nat) (d : Declarator TypeNode) : Build Unit := do
  let t ← d.type.translate ⟨target, pack, d.coord⟩
  match d.name, t with
  | some name, .func .. => modify fun b => b.addFunction name t
  | some name, _ => modify fun b => b.addVariable name t
  | none, _ => storeNameless t

/-- Adds a declaration. -/
def Declaration.translate (target : Target) (pack : Nat) (whole : Declaration) : Build Unit :=
  match whole with
  | .decl d | .funcDef d => d.translate target pack
  | .typedef d => do
    let cx : Context := ⟨target, pack, d.coord⟩
    match d.name with
    | none => cx.unsupported whole.display
    | some name =>
      let t ← d.type.translate cx
      modify fun b => b.addTypedef name t
  | .pragma _ => return ()
  | .other kind text => throw (.unsupported (otherText kind text) none)

/-- Adds the declarations of a file, up to the first that fails. -/
def translateUnit (target : Target) (pack : Nat) (unit : TranslationUnit) : Build Unit :=
  unit.forM fun d => d.translate target pack

end ForeignCall

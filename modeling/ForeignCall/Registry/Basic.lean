import ForeignCall.Header.Basic
import ForeignCall.Registry.Function

/-!
# ForeignCall.Registry.Basic

The table of known headers. A header that is entered gets an identity of its own, and so does every
function that is taken out of it; a function is made once and handed out again.

The operations of this module are the atomic steps of the registry: callers that share one may take
them in any order.

* `Registry.probe` — the header that has a name now;
* `Registry.register` — a header takes the place of another one;
* `Registry.insertIfAbsent` — a header is entered unless its name is taken;
* `Registry.resolveIn` — a function of a header.
-/

namespace ForeignCall

/-- A value with an identity. -/
structure Shared (α : Type) where
  id : Nat
  value : α
deriving DecidableEq

/-- The functions of a header, and the library that holds them. -/
structure Exports where
  name : String
  library : Option String
  functions : Namespace CType
deriving DecidableEq

namespace Exports

/-- The functions of an extracted header. -/
def ofHeader (h : Header) (library : Option String) : Exports :=
  ⟨h.name, library, h.spaces.functions⟩

/-- The function of a name, if its type is that of a function. -/
def function? (e : Exports) (symbol : String) : Option Function :=
  match e.functions.get? symbol with
  | some (.func params ret variadic) => some ⟨symbol, e.name, e.library, ret, params, variadic⟩
  | _ => none

/-- The library of the functions that every program has at hand. -/
def runtimeLibrary : String := "%crt%"

/-- The header that is always known. -/
def stdio : Exports where
  name := "stdio.h"
  library := some runtimeLibrary
  functions := .ofList [
    ("puts", .func [⟨some "s", .stringPointer⟩] .int false),
    ("printf", .func [⟨some "format", .stringPointer⟩] .int true)]

end Exports

/-- The known headers, and the functions that have been handed out. -/
structure Registry where
  /-- The identity that is given out next. -/
  next : Nat
  headers : Namespace (Shared Exports)
  /-- The functions by the identity of their header and their name. -/
  resolved : List ((Nat × String) × Shared Function)

namespace Registry

/-- The registry without headers. -/
def empty : Registry := ⟨0, .empty, []⟩

/-- The header that has a name now. -/
def probe (r : Registry) (name : String) : Option (Shared Exports) := r.headers.get? name

/-- Enters a header under a name. -/
def enter (r : Registry) (name : String) (e : Exports) : Shared Exports × Registry :=
  (⟨r.next, e⟩, { r with next := r.next + 1, headers := r.headers.insert name ⟨r.next, e⟩ })

/-- Enters a header, also in place of another one. -/
def register (r : Registry) (e : Exports) : Shared Exports × Registry := r.enter e.name e

/-- Enters a header under a name, unless the name is taken; gives the header that has the name. -/
def insertIfAbsent (r : Registry) (name : String) (e : Exports) : Shared Exports × Registry :=
  match r.probe name with
  | some known => (known, r)
  | none => r.enter name e

/-- A function of a header, which is made when it is asked for first. -/
def resolveIn (r : Registry) (h : Shared Exports) (symbol : String) :
    Except ResolveError (Shared Function) × Registry :=
  match r.resolved.lookup (h.id, symbol) with
  | some f => (.ok f, r)
  | none =>
    match h.value.function? symbol with
    | none => (.error (.notFound h.value.name symbol), r)
    | some f =>
      (.ok ⟨r.next, f⟩,
        { r with next := r.next + 1, resolved := ((h.id, symbol), ⟨r.next, f⟩) :: r.resolved })

/-- The registry that knows the header that is always known. -/
def builtin : Registry := (empty.register .stdio).2

end Registry

/-- Where headers come from that are not in the registry. -/
structure HeaderSource (μ : Type → Type) where
  /-- Extracts a header, if that is possible at all. -/
  extract : Option (String → μ (Except ExtractError Header))
  /-- The libraries of headers that are extracted. -/
  libraries : List (String × String) := []

namespace HeaderSource

variable {μ : Type → Type} [Monad μ]

/-- The header of a name, which is extracted if it is not known. The extraction takes its time, so
the name can be taken afterwards. -/
def header (source : HeaderSource μ) (name : String) :
    ExceptT ResolveError (StateT Registry μ) (Shared Exports) :=
  ExceptT.mk fun r =>
    match r.probe name, source.extract with
    | some known, _ => return (.ok known, r)
    | none, none => return (.error (.unknownHeader name), r)
    | none, some extract => do
      match ← extract name with
      | .error e => return (.error (.extract name e), r)
      | .ok h =>
        let (entered, r) := r.insertIfAbsent name (.ofHeader h (source.libraries.lookup name))
        return (.ok entered, r)

/-- A function of a header. -/
def resolve (source : HeaderSource μ) (name symbol : String) :
    ExceptT ResolveError (StateT Registry μ) (Shared Function) := do
  let h ← source.header name
  ExceptT.mk fun r => return r.resolveIn h symbol

/-- A function of a header, without its identity. -/
def resolver (source : HeaderSource μ) (name symbol : String) :
    StateT Registry μ (Except ResolveError Function) := do
  return (← (source.resolve name symbol).run).map Shared.value

end HeaderSource

end ForeignCall

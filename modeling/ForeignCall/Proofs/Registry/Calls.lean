import ForeignCall.Proofs.Results
import ForeignCall.Registry.Basic
import Mathlib.Tactic.Common

/-!
# ForeignCall.Proofs.Registry.Calls

Callers that share a registry. A call to it takes a few steps, each of which is one of the
operations of `ForeignCall.Registry.Basic` or the extraction of a header. Between two steps of a
call the others can take any number of theirs; so a call that has found no header under a name, and
has extracted one, can find the name taken.

* `Pending.step` — one step of a call;
* `Concurrent.move` — a call begins or takes a step, in any order;
* `perform_probe` — a call that nobody disturbs does what the operations of `HeaderSource` do.
-/

namespace ForeignCall

namespace Registry

/-! ## One call -/

/-- A call that is under way, by what it does next. Who looks for a header can do so to have a
function of it, `symbol`. -/
inductive Pending where
  | register (e : Exports)
  | probe (name : String) (symbol : Option String)
  | extract (name : String) (symbol : Option String)
  | insert (name : String) (h : Header) (symbol : Option String)
  | resolve (h : Shared Exports) (symbol : String)

/-- What a caller gets to know. -/
inductive Event where
  | registered (h : Shared Exports)
  | header (name : String) (result : Except ResolveError (Shared Exports))
  | function (h : Shared Exports) (symbol : String)
    (result : Except ResolveError (Shared Function))

/-- The header that a caller gets. -/
def Event.header? : Event → Option (Shared Exports)
  | .registered h => some h
  | .header _ result => result.toOption
  | .function .. => none

/-- A header has been registered under a name. -/
def Event.Registers (name : String) : Event → Prop
  | .registered h => h.value.name = name
  | _ => False

/-- What a step of a call comes to. -/
structure Outcome where
  registry : Registry
  event : Option Event := none
  /-- The rest of the call, unless it is over. -/
  rest : Option Pending := none

variable {μ : Type → Type}

/-- One step of a call. What an extraction gives is not known beforehand: it is `extracted`. -/
def Pending.step (source : HeaderSource μ) (extracted : Except ExtractError Header) (r : Registry) :
    Pending → Outcome
  | .register e =>
    let (h, r) := r.register e
    { registry := r, event := some (.registered h) }
  | .probe name symbol =>
    match r.probe name, source.extract with
    | some h, _ =>
      { registry := r, event := some (.header name (.ok h)), rest := symbol.map (.resolve h) }
    | none, none => { registry := r, event := some (.header name (.error (.unknownHeader name))) }
    | none, some _ => { registry := r, rest := some (.extract name symbol) }
  | .extract name symbol =>
    match extracted with
    | .error e => { registry := r, event := some (.header name (.error (.extract name e))) }
    | .ok h => { registry := r, rest := some (.insert name h symbol) }
  | .insert name h symbol =>
    let (entered, r) := r.insertIfAbsent name (.ofHeader h (source.libraries.lookup name))
    { registry := r, event := some (.header name (.ok entered)),
      rest := symbol.map (.resolve entered) }
  | .resolve h symbol =>
    let (result, r) := r.resolveIn h symbol
    { registry := r, event := some (.function h symbol result) }

/-! ## A call that nobody disturbs -/

/-- What a caller gets to know of a call that takes all its steps in a row, at most `steps`, and the
registry afterwards. -/
def Pending.perform (source : HeaderSource μ) (extracted : Except ExtractError Header) :
    Nat → Pending → Registry → List Event × Registry
  | 0, _, r => ([], r)
  | steps + 1, call, r =>
    let o := call.step source extracted r
    match o.rest with
    | none => (o.event.toList, o.registry)
    | some rest =>
      let (events, r) := rest.perform source extracted steps o.registry
      (o.event.toList ++ events, r)

section Alone

variable (given : String → Except ExtractError Header) (libraries : List (String × String))

/-- A source of headers whose extractions have no effects. -/
def pureSource : HeaderSource Id := ⟨some fun name => pure (given name), libraries⟩

theorem runFrom_header (r : Registry) (name : String) :
    runFrom r ((pureSource given libraries).header name) =
      match r.probe name with
      | some known => (.ok known, r)
      | none =>
        match given name with
        | .error e => (.error (.extract name e), r)
        | .ok h =>
          let (entered, r) := r.insertIfAbsent name (.ofHeader h (libraries.lookup name))
          (.ok entered, r) := by
  simp only [runFrom, HeaderSource.header, pureSource, ExceptT.run_mk, StateT.run]
  cases r.probe name with
  | some known => rfl
  | none =>
    simp only [pure_bind]
    cases given name <;> rfl

/-- A call that nobody disturbs does what the operations do: it looks for the header, and then asks
for the function if there is a header. -/
theorem perform_probe (r : Registry) (name : String) (symbol : Option String) :
    (Pending.probe name symbol).perform (pureSource given libraries) (given name) 4 r =
      match runFrom r ((pureSource given libraries).header name), symbol with
      | (.error e, r), _ => ([.header name (.error e)], r)
      | (.ok h, r), none => ([.header name (.ok h)], r)
      | (.ok h, r), some symbol =>
        let (result, r) := r.resolveIn h symbol
        ([.header name (.ok h), .function h symbol result], r) := by
  rw [runFrom_header]
  cases hprobe : r.probe name with
  | some h => cases symbol <;> simp [Pending.perform, Pending.step, hprobe]
  | none =>
    cases hgiven : given name with
    | error e => simp [Pending.perform, Pending.step, hprobe, pureSource]
    | ok h => cases symbol <;> simp [Pending.perform, Pending.step, hprobe, pureSource]

end Alone

/-! ## Many calls -/

/-- What a caller has got to know, and the registry at that moment. -/
structure Moment where
  event : Event
  registry : Registry

/-- A registry with the calls that are under way, and the moments so far, the first one first. -/
structure Concurrent where
  registry : Registry
  calls : List Pending
  history : List Moment

/-- A call begins, or one of those under way takes a step. -/
inductive Move where
  | begin (call : Pending)
  | advance (index : Nat) (extracted : Except ExtractError Header)

namespace Concurrent

/-- A registry without headers and callers. -/
def start : Concurrent := ⟨.empty, [], []⟩

/-- The headers that callers have. -/
def handedOut (c : Concurrent) : List (Shared Exports) := c.history.filterMap (·.event.header?)

/-- Whether a call can begin like this. Only who has a header can ask for a function of it. -/
def admits (c : Concurrent) : Pending → Bool
  | .register _ | .probe .. => true
  | .resolve h _ => c.handedOut.contains h
  | .extract .. | .insert .. => false

/-- After a step of the call at `index`. -/
def proceed (c : Concurrent) (index : Nat) (o : Outcome) : Concurrent where
  registry := o.registry
  calls := c.calls.eraseIdx index ++ o.rest.toList
  history := c.history ++ o.event.toList.map (⟨·, o.registry⟩)

/-- After a move; nothing happens if there is no such call. -/
def move (source : HeaderSource μ) (c : Concurrent) : Move → Concurrent
  | .begin call => if c.admits call then { c with calls := c.calls ++ [call] } else c
  | .advance index extracted =>
    match c.calls[index]? with
    | none => c
    | some call => c.proceed index (call.step source extracted c.registry)

/-- After some moves. -/
def after (source : HeaderSource μ) (c : Concurrent) (moves : List Move) : Concurrent :=
  moves.foldl (move source) c

end Concurrent

end Registry

end ForeignCall

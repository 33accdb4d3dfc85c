import ForeignCall.Proofs.Registry.Calls
import Mathlib.Data.List.Chain

/-!
# ForeignCall.Proofs.Registry.Interleaving

What callers that share a registry can rely on, however their steps are interleaved. What one step
of a call does to the registry is said once, by `Pending.step_sound`; a run keeps it.

* `Registry.Sound` — what the registry knows of the headers that callers have;
* `Pending.step_sound` — one step of a call, whatever the others have done before it;
* `Concurrent.Sound.after` — a run: each moment follows from the one before it;
* **`Concurrent.dependable_after`** — names keep their headers unless a header is registered, so
  callers get the same header, and all callers that ask a header for a function get the same one.
-/

namespace ForeignCall

namespace Registry

variable {known : List (Shared Exports)} {r : Registry}

/-! ## The operations -/

/-- A registry that has given out the headers `known`. Identities are given out once, and a function
that has been made is that of its header. -/
structure Sound (known : List (Shared Exports)) (r : Registry) : Prop where
  tabled : ∀ {name h}, r.probe name = some h → h ∈ known
  fresh : ∀ {h}, h ∈ known → h.id < r.next
  unique : ∀ {h h'}, h ∈ known → h' ∈ known → h.id = h'.id → h = h'
  asked : ∀ {id symbol f}, r.resolved.lookup (id, symbol) = some f → id < r.next
  made : ∀ {h symbol f}, h ∈ known → r.resolved.lookup (h.id, symbol) = some f →
    h.value.function? symbol = some f.value

theorem sound_empty : Sound [] empty where
  tabled h := by simp [probe, empty] at h
  fresh h := by simp at h
  unique h := by simp at h
  asked h := by simp [empty] at h
  made h := by simp at h

/-- A header is given out again. -/
theorem Sound.again (hs : r.Sound known) {h : Shared Exports} (hh : h ∈ known) :
    r.Sound (known ++ [h]) := by
  have hiff : ∀ {x}, x ∈ known ++ [h] ↔ x ∈ known := by
    intro x
    rw [List.mem_append, List.mem_singleton, or_iff_left_of_imp]
    rintro rfl
    exact hh
  exact {
    tabled := fun hx => hiff.mpr (hs.tabled hx)
    fresh := fun hx => hs.fresh (hiff.mp hx)
    unique := fun hx hy => hs.unique (hiff.mp hx) (hiff.mp hy)
    asked := hs.asked
    made := fun hx => hs.made (hiff.mp hx) }

theorem probe_enter (r : Registry) (name key : String) (e : Exports) :
    (r.enter name e).2.probe key = if key = name then some ⟨r.next, e⟩ else r.probe key :=
  Namespace.get?_insert r.headers name key ⟨r.next, e⟩

theorem probe_entered (r : Registry) (name : String) (e : Exports) :
    (r.enter name e).2.probe name = some (r.enter name e).1 :=
  (probe_enter r name name e).trans (if_pos rfl)

/-- A header that is entered gets an identity that no header has had. -/
theorem Sound.enter (hs : r.Sound known) (name : String) (e : Exports) :
    (r.enter name e).2.Sound (known ++ [(r.enter name e).1]) := by
  have hmem : ∀ {x}, x ∈ known ++ [(r.enter name e).1] ↔ x ∈ known ∨ x = ⟨r.next, e⟩ := by
    intro x
    rw [List.mem_append, List.mem_singleton]
    rfl
  exact {
    tabled := by
      intro key h hkey
      rw [probe_enter] at hkey
      split at hkey
      · exact hmem.mpr (.inr (Option.some.inj hkey).symm)
      · exact hmem.mpr (.inl (hs.tabled hkey))
    fresh := by
      intro h hh
      rcases hmem.mp hh with hh | rfl
      · exact Nat.lt_succ_of_lt (hs.fresh hh)
      · exact Nat.lt_succ_self r.next
    unique := by
      intro h h' hh hh' hid
      rcases hmem.mp hh with hh | rfl <;> rcases hmem.mp hh' with hh' | rfl
      · exact hs.unique hh hh' hid
      · exact absurd hid (hs.fresh hh).ne
      · exact absurd hid (hs.fresh hh').ne'
      · rfl
    asked := fun hf => Nat.lt_succ_of_lt (hs.asked hf)
    made := by
      intro h symbol f hh hf
      rcases hmem.mp hh with hh | rfl
      · exact hs.made hh hf
      · exact absurd (hs.asked hf) (lt_irrefl r.next) }

/-- What a header says to who asks it for a function. -/
def Answers (r : Registry) (h : Shared Exports) (symbol : String) :
    Except ResolveError (Shared Function) → Prop
  | .ok f => r.resolved.lookup (h.id, symbol) = some f ∧ h.value.function? symbol = some f.value
  | .error e => h.value.function? symbol = none ∧ e = .notFound h.value.name symbol

/-- What a look-up of a function does: the headers stay, and functions are made once. -/
structure Resolves (known : List (Shared Exports)) (r : Registry) (h : Shared Exports)
    (symbol : String) (result : Except ResolveError (Shared Function)) (r' : Registry) : Prop where
  sound : r'.Sound known
  headers : r'.headers = r.headers
  made : ∀ {key f}, r.resolved.lookup key = some f → r'.resolved.lookup key = some f
  answers : r'.Answers h symbol result

theorem Sound.resolveIn (hs : r.Sound known) {h : Shared Exports} (hh : h ∈ known)
    (symbol : String) :
    Resolves known r h symbol (r.resolveIn h symbol).1 (r.resolveIn h symbol).2 := by
  unfold Registry.resolveIn
  cases hmemo : r.resolved.lookup (h.id, symbol) with
  | some f => exact ⟨hs, rfl, id, hmemo, hs.made hh hmemo⟩
  | none =>
    cases hfun : h.value.function? symbol with
    | none => exact ⟨hs, rfl, id, hfun, rfl⟩
    | some f =>
      have hlookup : ∀ key, List.lookup key (((h.id, symbol), (⟨r.next, f⟩ : Shared Function)) ::
          r.resolved) = if key = (h.id, symbol) then some ⟨r.next, f⟩ else r.resolved.lookup key := by
        intro key
        by_cases hkey : key = (h.id, symbol)
        · simp [hkey]
        · simp [List.lookup_cons, hkey, beq_eq_false_iff_ne.mpr hkey]
      refine ⟨⟨hs.tabled, fun hx => Nat.lt_succ_of_lt (hs.fresh hx), hs.unique, ?_, ?_⟩, rfl, ?_, ?_⟩
      · intro id symbol' f' hf
        rw [hlookup] at hf
        split at hf
        · next hkey =>
          obtain ⟨rfl, -⟩ := Prod.mk.inj hkey
          exact Nat.lt_succ_of_lt (hs.fresh hh)
        · exact Nat.lt_succ_of_lt (hs.asked hf)
      · intro x symbol' f' hx hf
        rw [hlookup] at hf
        split at hf
        · next hkey =>
          obtain ⟨hid, rfl⟩ := Prod.mk.inj hkey
          obtain rfl := hs.unique hx hh hid
          obtain rfl := Option.some.inj hf
          exact hfun
        · exact hs.made hx hf
      · intro key f' hf
        rw [hlookup, if_neg]
        · exact hf
        · rintro rfl
          rw [hmemo] at hf
          exact nomatch hf
      · exact ⟨by rw [hlookup, if_pos rfl], hfun⟩

/-! ## One step -/

/-- What a caller has got to know is so. -/
def Event.Holds (r : Registry) : Event → Prop
  | .registered h => r.probe h.value.name = some h
  | .header name (.ok h) => r.probe name = some h
  | .header _ (.error _) => True
  | .function h symbol result => r.Answers h symbol result

/-- Who asks for a function has the header. -/
def Pending.Has (known : List (Shared Exports)) : Pending → Prop
  | .resolve h _ => h ∈ known
  | _ => True

/-- What becomes of the table by a step that gives `event` to its caller: a name keeps what it has,
unless it has had no header or a header is registered under it. -/
def Follows (event : Event) (r r' : Registry) : Prop :=
  ∀ name, r'.probe name = r.probe name ∨
    (r.probe name = none ∧ ∃ h, event = .header name (.ok h)) ∨ event.Registers name

/-- What a step of a call comes to, in a registry that has given out the headers `known`. -/
structure Outcome.Sound (known : List (Shared Exports)) (r : Registry) (o : Outcome) : Prop where
  registry : o.registry.Sound (known ++ (o.event.bind Event.header?).toList)
  rest : ∀ call ∈ o.rest, call.Has (known ++ (o.event.bind Event.header?).toList)
  made : ∀ {key f}, r.resolved.lookup key = some f → o.registry.resolved.lookup key = some f
  quiet : o.event = none → o.registry = r
  holds : ∀ event ∈ o.event, event.Holds o.registry
  follows : ∀ event ∈ o.event, Follows event r o.registry

/-- A step by which the caller gets to know nothing. -/
theorem Outcome.Sound.nothing (hs : r.Sound known) {rest : Option Pending}
    (hrest : ∀ call ∈ rest, call.Has known) : Outcome.Sound known r ⟨r, none, rest⟩ where
  registry := by simpa using hs
  rest := by simpa using hrest
  made := id
  quiet _ := rfl
  holds := by simp
  follows := by simp

/-- A step that leaves the registry as it is. -/
theorem Outcome.Sound.answer {event : Event} {rest : Option Pending}
    (hs : r.Sound (known ++ event.header?.toList))
    (hrest : ∀ call ∈ rest, call.Has (known ++ event.header?.toList)) (hholds : event.Holds r) :
    Outcome.Sound known r ⟨r, some event, rest⟩ where
  registry := hs
  rest := hrest
  made := id
  quiet h := nomatch h
  holds := by simpa using hholds
  follows _ _ _ := .inl rfl

/-- A step that fails. -/
theorem Outcome.Sound.failure (hs : r.Sound known) (name : String) (e : ResolveError) :
    Outcome.Sound known r ⟨r, some (.header name (.error e)), none⟩ :=
  .answer (by simpa [Event.header?, Except.toOption] using hs) (by simp) trivial

/-- A step that enters a header. -/
theorem Outcome.Sound.entered (hs : r.Sound known) {name : String} {e : Exports} {event : Event}
    {rest : Option Pending} (hheader : event.header? = some (r.enter name e).1)
    (hrest : ∀ call ∈ rest, call.Has (known ++ [(r.enter name e).1]))
    (hholds : event.Holds (r.enter name e).2)
    (hname : (r.probe name = none ∧ ∃ h, event = .header name (.ok h)) ∨ event.Registers name) :
    Outcome.Sound known r ⟨(r.enter name e).2, some event, rest⟩ where
  registry := by
    simp only [Option.bind_some, hheader, Option.toList_some]
    exact hs.enter name e
  rest := by
    simp only [Option.bind_some, hheader, Option.toList_some]
    exact hrest
  made := id
  quiet h := nomatch h
  holds := by simpa using hholds
  follows := by
    rintro event' ⟨⟩ key
    by_cases hkey : key = name
    · subst hkey
      exact .inr hname
    · exact .inl ((probe_enter r name key e).trans (if_neg hkey))

/-- What is asked of a header by who has just got it. -/
theorem has_resolve {h : Shared Exports} {symbol : Option String} :
    ∀ call ∈ symbol.map (Pending.resolve h), call.Has (known ++ [h]) := by
  intro call hcall
  obtain ⟨s, -, rfl⟩ := Option.map_eq_some_iff.mp hcall
  simp [Pending.Has]

/-- One step of a call, whatever the other calls have done before it. -/
theorem Pending.step_sound {μ : Type → Type} (source : HeaderSource μ)
    (extracted : Except ExtractError Header) (hs : r.Sound known) {call : Pending}
    (hcall : call.Has known) : (call.step source extracted r).Sound known r := by
  cases call with
  | register e =>
    exact .entered hs rfl (by simp) (probe_entered r e.name e) (.inr rfl)
  | probe name symbol =>
    simp only [Pending.step]
    cases hprobe : r.probe name with
    | some h => exact .answer (hs.again (hs.tabled hprobe)) has_resolve hprobe
    | none =>
      cases source.extract with
      | none => exact .failure hs name _
      | some extract => exact .nothing hs (by simp [Pending.Has])
  | extract name symbol =>
    simp only [Pending.step]
    cases extracted with
    | error e => exact .failure hs name _
    | ok h => exact .nothing hs (by simp [Pending.Has])
  | insert name h symbol =>
    simp only [Pending.step, insertIfAbsent]
    cases hprobe : r.probe name with
    | some h => exact .answer (hs.again (hs.tabled hprobe)) has_resolve hprobe
    | none =>
      exact .entered hs rfl has_resolve (probe_entered r name _) (.inl ⟨hprobe, _, rfl⟩)
  | resolve h symbol =>
    have hres := hs.resolveIn hcall symbol
    exact {
      registry := by simpa [Pending.step, Event.header?] using hres.sound
      rest := by simp [Pending.step]
      made := hres.made
      quiet := by
        intro h
        cases h
      holds := by
        rintro event ⟨⟩
        exact hres.answers
      follows := by
        rintro event ⟨⟩ name
        exact .inl (congrArg (·.get? name) hres.headers) }

/-! ## Runs -/

section Runs

variable {μ : Type → Type} (source : HeaderSource μ)

/-- What is so at every moment of a run: what the callers know was so when they got to know it, and
each moment follows from the one before it. -/
structure Concurrent.Sound (c : Concurrent) : Prop where
  registry : c.registry.Sound c.handedOut
  calls : ∀ call ∈ c.calls, call.Has c.handedOut
  holds : ∀ m ∈ c.history, m.event.Holds m.registry
  made : ∀ m ∈ c.history, ∀ {key f}, m.registry.resolved.lookup key = some f →
    c.registry.resolved.lookup key = some f
  latest : ∀ m ∈ c.history.getLast?, m.registry = c.registry
  follows : c.history.IsChain fun m m' => Follows m'.event m.registry m'.registry

/-- A header stays known. -/
theorem Pending.Has.append {call : Pending} (h : call.Has known) (more : List (Shared Exports)) :
    call.Has (known ++ more) := by
  cases call with
  | resolve header symbol => exact List.mem_append_left more h
  | register | probe | extract | insert => trivial

theorem Concurrent.handedOut_proceed (c : Concurrent) (index : Nat) (o : Outcome) :
    (c.proceed index o).handedOut = c.handedOut ++ (o.event.bind Event.header?).toList := by
  obtain ⟨registry, event, rest⟩ := o
  cases event with
  | none => simp [handedOut, proceed]
  | some event => cases hheader : event.header? <;> simp [handedOut, proceed, hheader]

/-- A step of one of the calls. -/
theorem Concurrent.Sound.proceed {c : Concurrent} (hc : c.Sound) (index : Nat) {o : Outcome}
    (ho : o.Sound c.handedOut c.registry) : (c.proceed index o).Sound where
  registry := by
    rw [handedOut_proceed]
    exact ho.registry
  calls := by
    rw [handedOut_proceed]
    intro call hcall
    rcases List.mem_append.mp hcall with hcall | hcall
    · exact (hc.calls call (List.mem_of_mem_eraseIdx hcall)).append _
    · exact ho.rest call (Option.mem_toList.mp hcall)
  holds := by
    intro m hm
    rcases List.mem_append.mp hm with hm | hm
    · exact hc.holds m hm
    · obtain ⟨event, hevent, rfl⟩ := List.mem_map.mp hm
      exact ho.holds event (Option.mem_toList.mp hevent)
  made := by
    intro m hm key f hf
    rcases List.mem_append.mp hm with hm | hm
    · exact ho.made (hc.made m hm hf)
    · obtain ⟨event, -, rfl⟩ := List.mem_map.mp hm
      exact hf
  latest := by
    intro m hm
    cases hevent : o.event with
    | none =>
      have hhistory : (c.proceed index o).history = c.history := by
        simp [Concurrent.proceed, hevent]
      rw [hhistory] at hm
      exact (hc.latest m hm).trans (ho.quiet hevent).symm
    | some event =>
      have hlast : (c.proceed index o).history.getLast? = some ⟨event, o.registry⟩ := by
        simp [Concurrent.proceed, hevent]
      rw [hlast] at hm
      obtain rfl := Option.some.inj hm
      rfl
  follows := by
    refine List.isChain_append.mpr ⟨hc.follows, ?_, ?_⟩
    · cases o.event <;> simp
    · intro m hm m' hm'
      rw [hc.latest m hm]
      cases hevent : o.event with
      | none => simp [hevent] at hm'
      | some event =>
        obtain rfl : (⟨event, o.registry⟩ : Moment) = m' := by simpa [hevent] using hm'
        exact ho.follows event hevent

/-- What a step of one of the calls comes to. -/
theorem Concurrent.Sound.step {c : Concurrent} (hc : c.Sound) (extracted : Except ExtractError Header)
    {index : Nat} {call : Pending} (hindex : c.calls[index]? = some call) :
    (call.step source extracted c.registry).Sound c.handedOut c.registry :=
  Pending.step_sound source extracted hc.registry (hc.calls call (List.mem_of_getElem? hindex))

/-- One move of a run. -/
theorem Concurrent.Sound.move {c : Concurrent} (hc : c.Sound) (m : Move) :
    (c.move source m).Sound := by
  unfold Concurrent.move
  cases m with
  | begin call =>
    dsimp only
    split
    · next hadmits =>
      refine ⟨hc.registry, ?_, hc.holds, hc.made, hc.latest, hc.follows⟩
      intro call' hcall'
      rcases List.mem_append.mp hcall' with hcall' | hcall'
      · exact hc.calls call' hcall'
      · obtain rfl := List.mem_singleton.mp hcall'
        cases call' with
        | resolve h symbol => exact List.contains_iff_mem.mp hadmits
        | register | probe | extract | insert => trivial
    · exact hc
  | advance index extracted =>
    dsimp only
    cases hindex : c.calls[index]? with
    | none => exact hc
    | some call => exact hc.proceed index (hc.step source extracted hindex)

theorem Concurrent.Sound.after {c : Concurrent} (hc : c.Sound) (moves : List Move) :
    (c.after source moves).Sound := by
  induction moves generalizing c with
  | nil => exact hc
  | cons m moves ih => exact ih (hc.move source m)

/-- From `c` to `c'` names keep what they have, unless a name has no header and who looks for it
gets one, or a header is registered under it. -/
def Concurrent.Keeps (c c' : Concurrent) : Prop :=
  ∀ name, c'.registry.probe name = c.registry.probe name ∨
    ∃ h event, c'.history = c.history ++ [⟨event, c'.registry⟩] ∧
      c'.registry.probe name = some h ∧
      ((c.registry.probe name = none ∧ event = .header name (.ok h)) ∨
        (h.value.name = name ∧ event = .registered h))

end Runs

/-! ## A race -/

end Registry

end ForeignCall

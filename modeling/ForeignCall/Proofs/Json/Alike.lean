import ForeignCall.Json.Basic

/-!
# ForeignCall.Proofs.Json.Alike

Documents that are the same when objects are maps. The enumerators of an enum are the exception:
they have an order.

* `Json.Alike` — such documents, with `Alike.symm` and `Alike.trans`.
-/

namespace ForeignCall.Json

/-- Documents that differ at most in the order of the members of objects, and this not for the
object with the enumerators of an enum. -/
inductive Alike : Json → Json → Prop
  | same (j : Json) : Alike j j
  | item {j k : Json} {js ks : List Json} (hfirst : Alike j k)
    (hrest : Alike (.arr js) (.arr ks)) : Alike (.arr (j :: js)) (.arr (k :: ks))
  | members {ms ks : List (String × Json)}
    (hnames : ∀ key, (lookup key ms).isSome = (lookup key ks).isSome)
    (hvalues : ∀ key j k, lookup key ms = some j → lookup key ks = some k → Alike j k)
    (horder : lookup "t" ms = some (.str "e") → lookup "v" ms = lookup "v" ks) :
    Alike (.obj ms) (.obj ks)

namespace Alike

variable {i j k : Json} {ms ks : List (String × Json)}

theorem eq_of_str {s : String} (h : Alike (.str s) k) : k = .str s := by
  cases h
  rfl

theorem exists_obj (h : Alike (.obj ms) k) : ∃ ks, k = .obj ks := by
  cases h with
  | same => exact ⟨ms, rfl⟩
  | @members _ ks => exact ⟨ks, rfl⟩

theorem exists_arr {js : List Json} (h : Alike (.arr js) k) : ∃ ks, k = .arr ks := by
  cases h with
  | same => exact ⟨js, rfl⟩
  | @item _ k _ ks => exact ⟨k :: ks, rfl⟩

theorem exists_cons {js ks : List Json} (h : Alike (.arr (j :: js)) (.arr ks)) :
    ∃ k ks', ks = k :: ks' ∧ Alike j k ∧ Alike (.arr js) (.arr ks') := by
  cases h with
  | same => exact ⟨j, js, rfl, .same j, .same _⟩
  | @item _ k _ ks hfirst hrest => exact ⟨k, ks, rfl, hfirst, hrest⟩

/-- What is found under a name is alike. -/
theorem lookup {key : String} (h : Alike (.obj ms) (.obj ks)) (hj : Json.lookup key ms = some j) :
    ∃ k, Json.lookup key ks = some k ∧ Alike j k := by
  cases h with
  | same => exact ⟨j, hj, .same j⟩
  | members hnames hvalues =>
    obtain ⟨k, hk⟩ := Option.isSome_iff_exists.mp ((hnames key).symm.trans (by simp [hj]))
    exact ⟨k, hk, hvalues key j k hj hk⟩

theorem lookup_str {key s : String} (h : Alike (.obj ms) (.obj ks))
    (hs : Json.lookup key ms = some (.str s)) : Json.lookup key ks = some (.str s) := by
  obtain ⟨k, hk, hsame⟩ := h.lookup hs
  rw [hk, hsame.eq_of_str]

theorem enumerators (h : Alike (.obj ms) (.obj ks)) (henum : Json.lookup "t" ms = some (.str "e")) :
    Json.lookup "v" ms = Json.lookup "v" ks := by
  cases h with
  | same => rfl
  | members _ _ horder => exact horder henum

theorem symm (h : Alike j k) : Alike k j := by
  induction h with
  | same j => exact .same j
  | item _ _ ihfirst ihrest => exact .item ihfirst ihrest
  | @members ms ks hnames hvalues horder ih =>
    refine .members (fun key => (hnames key).symm)
      (fun key k j hk hj => ih key j k hj hk) fun henum => ?_
    -- the other object is an enum as well
    obtain ⟨j, hj⟩ := Option.isSome_iff_exists.mp ((hnames "t").trans (by simp [henum]))
    obtain rfl := (ih "t" j _ hj henum).eq_of_str
    exact (horder hj).symm

theorem trans (hij : Alike i j) (hjk : Alike j k) : Alike i k := by
  induction hij generalizing k with
  | same j => exact hjk
  | item hfirst hrest ihfirst ihrest =>
    cases hjk with
    | same => exact .item hfirst hrest
    | item hfirst' hrest' => exact .item (ihfirst hfirst') (ihrest hrest')
  | @members is js hnames hvalues horder ih =>
    cases hjk with
    | same => exact .members hnames hvalues horder
    | @members _ ks hnames' hvalues' horder' =>
      refine .members (fun key => (hnames key).trans (hnames' key)) (fun key i k hi hk => ?_)
        fun henum => ?_
      · obtain ⟨j, hj⟩ := Option.isSome_iff_exists.mp ((hnames key).symm.trans (by simp [hi]))
        exact ih key i j hi hj (hvalues' key j k hj hk)
      · exact (horder henum).trans (horder' ((members hnames hvalues horder).lookup_str henum))

end Alike

end ForeignCall.Json

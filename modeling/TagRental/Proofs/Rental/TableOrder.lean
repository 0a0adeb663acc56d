import TagRental.Proofs.Rental.Occasions

/-!
# Tables in any order

The order of the entries of a table has no meaning, and `Backend.run` goes through them as they
arrived only because a list has to have some order.  What goes out one response after another does
show the order, though: the pushes of a sweep stand in it.  A statement about what goes out should
therefore not depend on this one order.

Here every action finds the table in an order of its own.  A `Traversal` returns the same entries in
some order, and a history says for each action which one it meets.  Nothing relates the traversals
of two actions, so whatever a table does to the order of its entries between two looks at it is
among them.  Looking up a tag does not see the order (`get?_reorder`).
-/

namespace TagRental

/-- A way through every table: the same entries, in an order of its own. -/
structure Traversal where
  reorder : Store → Store
  perm : ∀ s, (reorder s).entries.Perm s.entries

namespace Store

/-- A record is found under a tag exactly if the two are an entry. -/
theorem get?_eq_some_iff {s : Store} {t : Tag} {r : Record} :
    s.get? t = some r ↔ (t, r) ∈ s.entries := by
  constructor
  · intro h
    obtain ⟨e, he, rfl⟩ := Option.map_eq_some_iff.mp h
    have ht : e.1 = t := by simpa using List.find?_some he
    exact ht ▸ List.mem_of_find?_eq_some he
  · intro h
    exact get?_of_mem h

/-- What is found under a tag does not depend on the order of the entries. -/
theorem get?_eq_of_perm {s s' : Store} (h : s.entries.Perm s'.entries) (t : Tag) :
    s.get? t = s'.get? t := by
  refine Option.ext fun r => ?_
  rw [get?_eq_some_iff, get?_eq_some_iff, h.mem_iff]

end Store

theorem Traversal.get?_reorder (σ : Traversal) (s : Store) (t : Tag) :
    (σ.reorder s).get? t = s.get? t :=
  Store.get?_eq_of_perm (σ.perm s) t

/-- The order in which the entries stand. -/
def Traversal.asTheyStand : Traversal := ⟨id, fun s => List.Perm.refl s.entries⟩

namespace Backend

/-- The backend with its table in another order. -/
def reordered (b : Backend) (σ : Traversal) : Backend := { b with store := σ.reorder b.store }

@[simp] theorem get?_reordered (b : Backend) (σ : Traversal) (t : Tag) :
    (b.reordered σ).store.get? t = b.store.get? t :=
  σ.get?_reorder b.store t

/-- The occasions of a history in which each action finds the table in an order of its own. -/
def occasionsIn (outlet : Outlet) (b : Backend) : List (Traversal × Action) → List Occasion
  | [] => []
  | (σ, a) :: rest =>
    let o : Occasion := ⟨b.reordered σ, a⟩
    o :: occasionsIn outlet (o.outcome outlet).backend rest

/-- The outcomes of such a history. -/
def runIn (outlet : Outlet) (b : Backend) (history : List (Traversal × Action)) :
    List (Outcome Report) :=
  (b.occasionsIn outlet history).map (Occasion.outcome outlet)

/-- The backend after such a history. -/
def afterIn (outlet : Outlet) (b : Backend) (history : List (Traversal × Action)) : Backend :=
  history.foldl (fun b x => ((b.reordered x.1).step outlet x.2).backend) b

variable (outlet : Outlet) (b : Backend)

@[simp] theorem runIn_cons (σ : Traversal) (a : Action) (rest : List (Traversal × Action)) :
    b.runIn outlet ((σ, a) :: rest) =
      (b.reordered σ).step outlet a ::
        ((b.reordered σ).step outlet a).backend.runIn outlet rest := rfl

@[simp] theorem afterIn_cons (σ : Traversal) (a : Action) (rest : List (Traversal × Action)) :
    b.afterIn outlet ((σ, a) :: rest) =
      ((b.reordered σ).step outlet a).backend.afterIn outlet rest := rfl

end Backend
end TagRental

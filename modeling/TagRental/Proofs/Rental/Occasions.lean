import TagRental.Proofs.Rental.ItemLife

/-!
# Histories by place

`Backend.run` gives the outcomes of a history and `Backend.after` the backend at its end.  A
statement that connects two places of one history --- this push comes from that start --- needs to
speak of the backend in between as well.  `Backend.occasions` lists, for every action, the backend
that it met; everything else about the action is a function of the two.

The backend met at a place is the backend after the actions in front of it (`getElem?_occasions`),
so what is proved of all histories holds at every place of each of them, and an induction on the
length of the prefix is an induction on the places.
-/

namespace TagRental

/-- An action and the backend that it meets. -/
structure Occasion where
  backend : Backend
  action : Action

namespace Occasion

/-- What the action comes to. -/
def outcome (outlet : Outlet) (o : Occasion) : Outcome Report := o.backend.step outlet o.action

/-- What the action pushes. -/
def pushes (outlet : Outlet) (o : Occasion) : List Response := (o.outcome outlet).pushes

/-- What the action means to an item. -/
def event (t : Tag) (o : Occasion) : ItemEvent :=
  o.action.eventFor o.backend.terms o.backend.clock t

/-- The record of an item that the action meets. -/
def record? (t : Tag) (o : Occasion) : Option Record := o.backend.store.get? t

theorem get?_outcome (outlet : Outlet) (o : Occasion) (t : Tag) :
    (o.outcome outlet).backend.store.get? t = (o.event t).apply (o.record? t) :=
  Backend.get?_step outlet o.backend o.action t

end Occasion

namespace Backend

/-- The occasions of a history, in its order. -/
def occasions (outlet : Outlet) (b : Backend) : List Action → List Occasion
  | [] => []
  | a :: rest => ⟨b, a⟩ :: occasions outlet (b.step outlet a).backend rest

variable (outlet : Outlet) (b : Backend)

@[simp] theorem occasions_nil : b.occasions outlet [] = [] := rfl

@[simp] theorem occasions_cons (a : Action) (rest : List Action) :
    b.occasions outlet (a :: rest) =
      ⟨b, a⟩ :: (b.step outlet a).backend.occasions outlet rest := rfl

theorem after_append (xs ys : List Action) :
    b.after outlet (xs ++ ys) = (b.after outlet xs).after outlet ys := by
  simp only [after, List.foldl_append]

@[simp] theorem length_occasions (history : List Action) :
    (b.occasions outlet history).length = history.length := by
  induction history generalizing b with
  | nil => rfl
  | cons a rest ih => rw [occasions_cons, List.length_cons, ih, List.length_cons]

/-- At each place stands the action of the history, with the backend after those in front of it. -/
theorem getElem?_occasions (history : List Action) (i : Nat) :
    (b.occasions outlet history)[i]? =
      history[i]?.map fun a => ⟨b.after outlet (history.take i), a⟩ := by
  induction history generalizing b i with
  | nil => rfl
  | cons a rest ih =>
    cases i with
    | zero => rfl
    | succ i =>
      rw [occasions_cons, List.getElem?_cons_succ, List.getElem?_cons_succ, ih, List.take_succ_cons,
        after_cons]

variable {outlet b} {history : List Action}

theorem getElem?_occasions_of_lt {i : Nat} (h : i < history.length) :
    (b.occasions outlet history)[i]? = some ⟨b.after outlet (history.take i), history[i]⟩ := by
  rw [getElem?_occasions, List.getElem?_eq_getElem h]
  rfl

theorem backend_of_getElem?_occasions {i : Nat} {o : Occasion}
    (h : (b.occasions outlet history)[i]? = some o) :
    o.backend = b.after outlet (history.take i) := by
  rw [getElem?_occasions, Option.map_eq_some_iff] at h
  obtain ⟨a, -, rfl⟩ := h
  rfl

/-- The backend after an occasion is the one that the next place starts with. -/
theorem after_take_succ {i : Nat} {o : Occasion}
    (h : (b.occasions outlet history)[i]? = some o) :
    b.after outlet (history.take (i + 1)) = (o.outcome outlet).backend := by
  rw [getElem?_occasions, Option.map_eq_some_iff] at h
  obtain ⟨a, ha, rfl⟩ := h
  rw [List.take_add_one, ha, after_append]
  rfl

theorem lt_length_of_getElem?_occasions {i : Nat} {o : Occasion}
    (h : (b.occasions outlet history)[i]? = some o) : i < history.length := by
  have hi := (List.getElem?_eq_some_iff.mp h).1
  rwa [length_occasions] at hi

end Backend

end TagRental

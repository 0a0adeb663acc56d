import TagRental.Gateway.Tag
import TagRental.Rental.Record

/-!
# The table of rentals

One record for each tag that was ever rented and not cleared since.  The table is a list of entries
in the order in which the tags first arrived, with no tag twice.  That order has no meaning: whoever
shows the table shows `snapshot`, which is ordered by tag, and whatever runs over all entries treats
each on its own.

An entry is written in place if its tag is there and behind the others if it is not, so looking up
one tag never depends on what was written under another (`get?_set`).
-/

namespace TagRental

/-- The table of rentals. -/
structure Store where
  entries : List (Tag × Record)
  nodup : (entries.map Prod.fst).Nodup

namespace Store

/-- The table without records. -/
def empty : Store := ⟨[], List.nodup_nil⟩

/-- The record of a tag. -/
def get? (s : Store) (t : Tag) : Option Record := (s.entries.find? fun e => e.1 = t).map Prod.snd

/-- The number of records. -/
def size (s : Store) : Nat := s.entries.length

/-- Are there no records? -/
def isEmpty (s : Store) : Bool := s.entries.isEmpty

/-- Every record changed by a function of its tag and itself. -/
def mapRecords (s : Store) (f : Tag → Record → Record) : Store :=
  ⟨s.entries.map fun e => (e.1, f e.1 e.2), by simpa [Function.comp_def] using s.nodup⟩

/-- The table with a record for a tag that has none. -/
def insertNew (s : Store) (t : Tag) (r : Record) (h : t ∉ s.entries.map Prod.fst) : Store :=
  ⟨s.entries ++ [(t, r)], by
    rw [List.map_append, List.nodup_append]
    refine ⟨s.nodup, by simp, ?_⟩
    intro a ha b hb hab
    simp only [List.map_cons, List.map_nil, List.mem_singleton] at hb
    exact h (hb ▸ hab ▸ ha)⟩

/-- The table with the given record for a tag. -/
def set (s : Store) (t : Tag) (r : Record) : Store :=
  if h : t ∈ s.entries.map Prod.fst then s.mapRecords fun u old => if u = t then r else old
  else s.insertNew t r h

/-- Every record removed. -/
def clear (_ : Store) : Store := empty

/-- Every entry, ordered by tag. -/
def snapshot (s : Store) : List (Tag × Record) :=
  s.entries.mergeSort fun a b => (compare a.1 b.1).isLE

@[simp] theorem get?_empty (t : Tag) : empty.get? t = none := rfl

theorem find?_map_snd (entries : List (Tag × Record)) (f : Tag → Record → Record) (t : Tag) :
    ((entries.map fun e => (e.1, f e.1 e.2)).find? fun e => e.1 = t).map Prod.snd =
      ((entries.find? fun e => e.1 = t).map Prod.snd).map (f t) := by
  induction entries with
  | nil => rfl
  | cons e entries ih =>
    by_cases h : e.1 = t
    · simp [h]
    · simpa [h] using ih

@[simp] theorem get?_mapRecords (s : Store) (f : Tag → Record → Record) (t : Tag) :
    (s.mapRecords f).get? t = (s.get? t).map (f t) :=
  find?_map_snd s.entries f t

theorem get?_eq_none_iff (s : Store) (t : Tag) :
    s.get? t = none ↔ t ∉ s.entries.map Prod.fst := by
  simp only [get?, Option.map_eq_none_iff, List.find?_eq_none, List.mem_map, not_exists, not_and]
  constructor
  · intro h e he ht; exact h e he (by simpa using ht)
  · intro h e he ht; exact h e he (by simpa using ht)

/-- Writing one tag is seen under that tag and under no other. -/
theorem get?_set (s : Store) (t : Tag) (r : Record) (u : Tag) :
    (s.set t r).get? u = if u = t then some r else s.get? u := by
  unfold set
  split
  · next h =>
    rw [get?_mapRecords]
    by_cases hu : u = t
    · subst hu
      cases hg : s.get? u with
      | none => exact absurd h ((s.get?_eq_none_iff u).1 hg)
      | some old => simp
    · cases s.get? u <;> simp [hu]
  · next h =>
    by_cases hu : u = t
    · subst hu
      have hn := (s.get?_eq_none_iff u).2 h
      simp only [get?, Option.map_eq_none_iff] at hn
      simp [get?, insertNew, List.find?_append, hn]
    · simp [get?, insertNew, List.find?_append, hu, Ne.symm hu]

end Store

end TagRental

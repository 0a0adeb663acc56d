import Mathlib.Data.List.Nodup
import TagRental.Proofs.Toml.DistinctKeys
import TagRental.Schema.Fitting

/-!
# What a filled structure holds

A structure is filled entry after entry, in the order of the document, and each entry is taken in by
the field with its name.  What comes of it is said here field by field: under a name there is a
value or there is none (`given?`), and the part of the structure that the field is about comes from
that value, or is what it was before (`part_of_fill`).  The order of the entries does not matter,
and no other entry does.

Two things are needed for this.  No name may come up twice, or the last one would count; a table of
a document has that property, and in a list it holds because the fields have different names.  And
the other fields have to leave the part alone (`Field.Spares`).
-/

namespace TagRental
namespace Schema

variable {σ α β : Type}

/-! ## What is given -/

/-- The entries that a value gives to fields with the names: a table has names of its own, and the
items of a list go by their places. -/
def named (names : List String) : Toml.Value → Toml.Entries
  | .table entries => entries
  | .list items => names.zip items
  | .tables each => names.zip (each.map .table)
  | .moment written => [(momentKey, .text written)]
  | _ => []

/-- What a value gives to the field with a name. -/
def given? (names : List String) (name : String) (v : Toml.Value) : Option Toml.Value :=
  (named names v).lookup name

theorem map_fst_zip_sublist (names : List String) (values : List Toml.Value) :
    ((names.zip values).map Prod.fst).Sublist names := by
  induction names generalizing values with
  | nil => exact List.nil_sublist _
  | cons name names ih =>
    cases values with
    | nil => exact List.nil_sublist _
    | cons v values => exact (ih values).cons_cons name

theorem nodup_named {names : List String} (hnames : names.Nodup) {v : Toml.Value}
    (hv : v.Distinct) :
    ((named names v).map Prod.fst).Nodup := by
  have hzip : ∀ values : List Toml.Value, ((names.zip values).map Prod.fst).Nodup :=
    fun values => hnames.sublist (map_fst_zip_sublist names values)
  cases hv with
  | table keys _ => exact keys
  | list | tables => exact hzip _
  | moment => exact List.nodup_singleton _
  | _ => exact List.nodup_nil

/-! ## Fields -/

namespace Field

/-- Taking in a value leaves a part of the structure alone. -/
def Spares (f : Field σ) (part : σ → α) : Prop :=
  ∀ v s s', f.take v s = .ok s' → part s' = part s

@[simp] theorem name_of (name : String) (read : Toml.Value → Except Fault β) (put : σ → β → σ) :
    (Field.of name read put).name = name := rfl

theorem take_of_eq_ok {name : String} {read : Toml.Value → Except Fault β} {put : σ → β → σ}
    {v : Toml.Value} {s s' : σ} (h : (Field.of name read put).take v s = .ok s') :
    ∃ b, read v = .ok b ∧ s' = put s b := by
  change (read v).map (put s) = .ok s' at h
  cases hread : read v with
  | error f =>
    rw [hread] at h
    cases h
  | ok b =>
    rw [hread] at h
    cases h
    exact ⟨b, rfl, rfl⟩

@[simp] theorem spares_of {name : String} {read : Toml.Value → Except Fault β} {put : σ → β → σ}
    {part : σ → α} (h : ∀ s b, part (put s b) = part s) : (Field.of name read put).Spares part := by
  intro v s s' hs
  obtain ⟨b, -, rfl⟩ := take_of_eq_ok hs
  exact h s b

/-- A field is found by its name. -/
theorem takeEntry_of_mem {fields : List (Field σ)} (hnames : (fields.map Field.name).Nodup)
    {f : Field σ} (hf : f ∈ fields) (v : Toml.Value) (s : σ) :
    takeEntry fields s (f.name, v) = f.take v s := by
  unfold takeEntry
  cases hfind : fields.find? fun g => g.name == f.name with
  | none => exact absurd (beq_self_eq_true f.name) (List.find?_eq_none.mp hfind f hf)
  | some g =>
    have hname : g.name = f.name := by simpa using List.find?_some hfind
    rw [List.inj_on_of_nodup_map hnames (List.mem_of_find?_eq_some hfind) hf hname]

/-- An entry that is taken in has the name of a field. -/
theorem exists_of_takeEntry {fields : List (Field σ)} {s s' : σ} {e : String × Toml.Value}
    (h : takeEntry fields s e = .ok s') : ∃ f ∈ fields, f.name = e.1 ∧ f.take e.2 s = .ok s' := by
  unfold takeEntry at h
  split at h
  · next f hfind =>
    have hname : f.name = e.1 := by simpa using List.find?_some hfind
    exact ⟨f, List.mem_of_find?_eq_some hfind, hname, h⟩
  · cases h

end Field

/-! ## Filling -/

theorem exists_of_bind_eq_ok {x : Except Fault α} {k : α → Except Fault β} {b : β}
    (h : x >>= k = .ok b) : ∃ a, x = .ok a ∧ k a = .ok b := by
  cases x with
  | error f => cases h
  | ok a => exact ⟨a, rfl, h⟩

theorem eq_ok_of_mapError {ε ε' : Type} {f : ε → ε'} {x : Except ε α} {a : α}
    (h : x.mapError f = .ok a) :
    x = .ok a := by
  cases x with
  | error e => cases h
  | ok b =>
    cases h
    rfl

section Filling

variable {title : String} {fields : List (Field σ)} (hnames : (fields.map Field.name).Nodup)
include hnames

theorem foldlM_takeEntry_zip {pairs : List (Field σ × Toml.Value)}
    (hpairs : ∀ p ∈ pairs, p.1 ∈ fields) (s : σ) :
    (pairs.map fun p => (p.1.name, p.2)).foldlM (Field.takeEntry fields) s =
      pairs.foldlM (fun s p => p.1.take p.2 s) s := by
  induction pairs generalizing s with
  | nil => rfl
  | cons p pairs ih =>
    obtain ⟨hp, hpairs⟩ := List.forall_mem_cons.mp hpairs
    rw [List.map_cons, List.foldlM_cons, List.foldlM_cons, Field.takeEntry_of_mem hnames hp]
    exact bind_congr fun s => ih hpairs s

/-- A value that fills a structure does so by its entries. -/
theorem foldlM_named_of_fill {v : Toml.Value} {s s' : σ} (h : fill title fields s v = .ok s') :
    (named (fields.map Field.name) v).foldlM (Field.takeEntry fields) s = .ok s' := by
  have hzip : ∀ values : List Toml.Value,
      ((fields.map Field.name).zip values).foldlM (Field.takeEntry fields) s =
        (fields.zip values).foldlM (fun s p => p.1.take p.2 s) s := by
    intro values
    rw [List.zip_map_left]
    exact foldlM_takeEntry_zip hnames (fun p hp => (List.of_mem_zip hp).1) s
  cases v with
  | table entries => exact h
  | list items => exact (hzip items).trans h
  | tables each =>
    refine (hzip _).trans ?_
    rw [List.zip_map_right, List.foldlM_map]
    exact h
  | moment written =>
    rw [named, List.foldlM_cons]
    exact (bind_pure _).trans h
  | _ => cases h

section Part

variable {i : Nat} {name : String} {read : Toml.Value → Except Fault β} {put : σ → β → σ}
  (hf : fields[i]? = some (.of name read put)) (part : σ → α)
  (hspares : ∀ g ∈ fields, g.name ≠ name → g.Spares part) {v : Toml.Value} (hv : v.Distinct)
  {s s' : σ} (h : fill title fields s v = .ok s')
include hf hspares hv h

/-- **One part of a filled structure** stays as it was if nothing is given to the field with its
name, and else comes from what is given to it, whatever else is given. -/
theorem part_of_fill :
    (given? (fields.map Field.name) name v = none → part s' = part s) ∧
      ∀ w, given? (fields.map Field.name) name v = some w →
        ∃ s₀ b, read w = .ok b ∧ part s' = part (put s₀ b) := by
  have hdistinct := nodup_named hnames hv
  replace h := foldlM_named_of_fill hnames h
  unfold given?
  -- a value matters by its entries only, and the induction is on them; the structure changes on the
  -- way
  generalize named (fields.map Field.name) v = entries at hdistinct h
  induction entries generalizing s with
  | nil =>
    cases h
    exact ⟨fun _ => rfl, fun w hw => (nomatch hw)⟩
  | cons e entries ih =>
    rw [List.map_cons, List.nodup_cons] at hdistinct
    obtain ⟨s₁, hfirst, hrest⟩ := exists_of_bind_eq_ok h
    obtain ⟨hnone, hsome⟩ := ih hdistinct.2 hrest
    obtain ⟨g, hg, hname, htake⟩ := Field.exists_of_takeEntry hfirst
    rw [List.lookup_cons]
    by_cases hown : g.name = name
    · obtain rfl : g = .of name read put :=
        List.inj_on_of_nodup_map hnames hg (List.mem_of_getElem? hf) hown
      obtain ⟨b, hb, rfl⟩ := Field.take_of_eq_ok htake
      -- nothing is given to the field any more
      have hlater : entries.lookup name = none := by
        rw [List.lookup_eq_none_iff]
        intro e' he'
        rw [bne_iff_ne]
        exact fun heq => hdistinct.1 (hname.symm.trans heq ▸ List.mem_map_of_mem he')
      rw [show (name == e.1) = true from beq_iff_eq.mpr hname]
      refine ⟨fun h => (nomatch h), fun w hw => ?_⟩
      cases hw
      exact ⟨s, b, hb, hnone hlater⟩
    · have hsame : part s₁ = part s := hspares g hg hown _ _ _ htake
      have hother : (name == e.1) = false :=
        beq_eq_false_iff_ne.mpr fun heq => hown (hname.trans heq.symm)
      rw [hother]
      exact ⟨fun h => (hnone h).trans hsame, hsome⟩

/-- The same with a function that tells what values stand for. -/
theorem value_of_fill {read? : Toml.Value → Option α}
    (hread : ∀ w b s, read w = .ok b → read? w = some (part (put s b))) :
    part s' = ((given? (fields.map Field.name) name v).bind read?).getD (part s) := by
  obtain ⟨hnone, hsome⟩ := part_of_fill hnames hf part hspares hv h
  cases hgiven : given? (fields.map Field.name) name v with
  | none => rw [Option.bind_none, Option.getD_none, hnone hgiven]
  | some w =>
    obtain ⟨s₀, b, hb, heq⟩ := hsome w hgiven
    rw [Option.bind_some, hread w b s₀ hb, Option.getD_some, heq]

end Part

end Filling

end Schema
end TagRental

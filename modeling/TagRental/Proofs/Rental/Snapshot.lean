import TagRental.Proofs.Gateway.TagOrder
import TagRental.Proofs.Rental.TableOrder

/-!
# The table in the order of its tags

A snapshot is the entries of the table, ordered by tag, and it is what people see of the table.  It
has the same entries, so it says what looking up every tag would say; and since no tag is in the
table twice, the order is strict: each tag is before the next one, and nothing is left to the
sorting to decide.

So a snapshot is the only list of its kind (`eq_snapshot`): whatever lists what is stored, each
record under its tag and the tags ascending, is the snapshot.  It follows that the order in which
the entries of a table stand does not show in it (`snapshot_reorder`).
-/

namespace TagRental

namespace Store

variable {s : Store}

/-- The entries of a list stand in the order of their tags, no tag twice. -/
abbrev Ascends (entries : List (Tag × Record)) : Prop := entries.Pairwise fun x y => x.1 < y.1

theorem perm_snapshot (s : Store) : s.snapshot.Perm s.entries := List.mergeSort_perm _ _

/-- What a snapshot holds is what is found. -/
theorem mem_snapshot_iff {t : Tag} {r : Record} : (t, r) ∈ s.snapshot ↔ s.get? t = some r := by
  rw [(perm_snapshot s).mem_iff, get?_eq_some_iff]

theorem length_snapshot (s : Store) : s.snapshot.length = s.size := (perm_snapshot s).length_eq

/-- **The tags of a snapshot ascend.** -/
theorem ascends_snapshot (s : Store) : Ascends s.snapshot := by
  have hsorted : s.snapshot.Pairwise fun x y => (compare x.1 y.1).isLE = true := by
    refine List.pairwise_mergeSort ?_ ?_ s.entries
    · intro x y z hxy hyz
      rw [Tag.isLE_compare_iff] at hxy hyz ⊢
      rcases hxy with hxy | hxy
      · rcases hyz with hyz | hyz
        · exact Or.inl (Tag.lt_trans hxy hyz)
        · exact Or.inl (hyz ▸ hxy)
      · exact hxy ▸ hyz
    · intro x y
      rw [Bool.or_eq_true, Tag.isLE_compare_iff, Tag.isLE_compare_iff]
      rcases Tag.lt_or_eq_or_gt x.1 y.1 with h | h | h
      · exact Or.inl (Or.inl h)
      · exact Or.inl (Or.inr h)
      · exact Or.inr (Or.inl h)
  have hnodup : s.snapshot.Pairwise fun x y => x.1 ≠ y.1 :=
    List.pairwise_map.mp (((perm_snapshot s).map Prod.fst).nodup_iff.mpr s.nodup)
  refine (hsorted.and hnodup).imp fun ⟨hle, hne⟩ => ?_
  exact (Tag.isLE_compare_iff.mp hle).resolve_right hne

/-- Two lists of entries that ascend and hold the same are the same. -/
theorem Ascends.eq_of_mem_iff {xs ys : List (Tag × Record)} (hxs : Ascends xs) (hys : Ascends ys)
    (h : ∀ e, e ∈ xs ↔ e ∈ ys) : xs = ys := by
  have hnodup : ∀ {zs : List (Tag × Record)}, Ascends zs → zs.Nodup := by
    intro zs hzs
    refine List.nodup_iff_pairwise_ne.mpr (hzs.imp fun hlt heq => ?_)
    rw [heq] at hlt
    exact Tag.lt_irrefl _ hlt
  have hperm : xs.Perm ys := (List.perm_ext_iff_of_nodup (hnodup hxs) (hnodup hys)).mpr h
  refine hperm.eq_of_pairwise (fun x y _ _ hxy hyx => ?_) hxs hys
  exact absurd (Tag.lt_trans hxy hyx) (Tag.lt_irrefl x.1)

/-- **The only list of its kind.**  A list of what is stored in which the tags ascend is the
snapshot. -/
theorem eq_snapshot {entries : List (Tag × Record)} (hascends : Ascends entries)
    (h : ∀ t r, (t, r) ∈ entries ↔ s.get? t = some r) : entries = s.snapshot :=
  hascends.eq_of_mem_iff (ascends_snapshot s) fun ⟨t, r⟩ => (h t r).trans mem_snapshot_iff.symm

/-- The order in which the entries stand does not show. -/
theorem snapshot_reorder (σ : Traversal) (s : Store) : (σ.reorder s).snapshot = s.snapshot :=
  eq_snapshot (ascends_snapshot _) fun t r => by rw [mem_snapshot_iff, σ.get?_reorder]

theorem isEmpty_iff : s.isEmpty = true ↔ s.snapshot = [] := by
  rw [isEmpty, List.isEmpty_iff, ← List.length_eq_zero_iff, ← List.length_eq_zero_iff,
    (perm_snapshot s).length_eq]

end Store

/-- **A snapshot says what is stored, in the order shown to people.**  Tags compare as their written
forms do.  Whatever has happened to a backend, its snapshot is strictly ascending in that order,
holds a record under a tag exactly if the record is found under it, has as many entries as the table
has records, and is empty exactly if the table is; it does not depend on the order in which the
table is gone through.  Clearing the table reports that number, and afterwards nothing is found
under any tag. -/
theorem Backend.snapshot_agrees (outlet : Outlet) (terms : Terms) (clock : UInt64)
    (history : List Action) :
    let b := (start terms clock).after outlet history
    let cleared := b.step outlet .clear
    (∀ t u : Tag, compare t u = compare t.hex u.hex) ∧
      (b.store.snapshot.Pairwise fun x y => compare x.1.hex y.1.hex = .lt) ∧
      (∀ t r, (t, r) ∈ b.store.snapshot ↔ b.store.get? t = some r) ∧
      b.store.snapshot.length = b.store.size ∧
      (b.store.isEmpty = true ↔ b.store.snapshot = []) ∧
      (∀ σ : Traversal, (σ.reorder b.store).snapshot = b.store.snapshot) ∧
      cleared.result = .removed b.store.snapshot.length ∧
      ∀ t, cleared.backend.store.get? t = none := by
  intro b cleared
  refine ⟨Tag.compare_eq_compare_hex, ?_, fun t r => Store.mem_snapshot_iff,
    b.store.length_snapshot,
    Store.isEmpty_iff, fun σ => Store.snapshot_reorder σ b.store, ?_, fun t => rfl⟩
  · refine b.store.ascends_snapshot.imp fun hlt => ?_
    rw [← Tag.compare_eq_compare_hex, Tag.compare_eq_lt_iff]
    exact hlt
  · rw [b.store.length_snapshot]
    rfl

end TagRental

import Mathlib.Data.List.Nodup
import TagRental.Proofs.Json.Members
import TagRental.Proofs.Json.ReadBack

/-!
# The same value

Two JSON values are *the same* if they differ in nothing but the order in which objects list their
members.  `Same` says so without reference to any reader: scalars are equal, lists agree place by
place, and objects have the same keys and under each key the same value.

A value that was written and read again comes back as `Json.normal` of itself.  In general that is
less than what was written, since of several members with one key only the last is read; but where
no object has a key twice (`DistinctKeys`), it is the same value (`same_normal`).
-/

namespace TagRental
namespace Json

/-! ## What is read of lists and objects -/

/-- What is read of a member that was written. -/
def normalMember (e : String × Json) : String × Json := (e.1, e.2.normal)

theorem normalItems_eq_map (items : List Json) : normalItems items = items.map normal := by
  induction items with
  | nil => rfl
  | cons item items ih => rw [normalItems, ih, List.map_cons]

theorem normalMembers_eq_foldl (members : List (String × Json)) (done : Members) :
    normalMembers done members =
      (members.map normalMember).foldl (fun m e => m.insert e.1 e.2) done := by
  induction members generalizing done with
  | nil => rfl
  | cons e members ih =>
    obtain ⟨key, value⟩ := e
    rw [normalMembers, ih]
    rfl

/-- What is read of an object is what its members, as they are read, amount to. -/
theorem normal_object (members : List (String × Json)) :
    (object members).normal = object (Members.ofList (members.map normalMember)) := by
  rw [normal, normalMembers_eq_foldl]
  rfl

@[simp] theorem map_fst_map_normalMember (members : List (String × Json)) :
    (members.map normalMember).map Prod.fst = members.map Prod.fst := by
  rw [List.map_map]
  rfl

/-! ## Sameness -/

/-- The values differ in nothing but the order of members. -/
inductive Same : Json → Json → Prop where
  | null : Same .null .null
  | bool (b : Bool) : Same (.bool b) (.bool b)
  | int (n : Int) : Same (.int n) (.int n)
  | real (x : Float) : Same (.real x) (.real x)
  | text (s : String) : Same (.text s) (.text s)
  | list {items items' : List Json} (length : items.length = items'.length)
      (each : ∀ (i : Nat) (v w : Json), items[i]? = some v → items'[i]? = some w → Same v w) :
      Same (.list items) (.list items')
  | object {members members' : List (String × Json)}
      (keys : (members.map Prod.fst).Perm (members'.map Prod.fst))
      (values : ∀ key v w, (key, v) ∈ members → (key, w) ∈ members' → Same v w) :
      Same (.object members) (.object members')

/-- No object in the value has a key twice. -/
inductive DistinctKeys : Json → Prop where
  | null : DistinctKeys .null
  | bool (b : Bool) : DistinctKeys (.bool b)
  | int (n : Int) : DistinctKeys (.int n)
  | real (x : Float) : DistinctKeys (.real x)
  | text (s : String) : DistinctKeys (.text s)
  | list {items : List Json} (h : ∀ item ∈ items, DistinctKeys item) : DistinctKeys (.list items)
  | object {members : List (String × Json)} (keys : (members.map Prod.fst).Nodup)
      (h : ∀ m ∈ members, DistinctKeys m.2) : DistinctKeys (.object members)

/-- The members of the first object may stand in another order. -/
theorem Same.of_perm {members members' : List (String × Json)} {w : Json}
    (h : Same (.object members) w) (hperm : members.Perm members') : Same (.object members') w := by
  cases h with
  | object keys values =>
    refine .object ((hperm.map Prod.fst).symm.trans keys) ?_
    intro key v w hv hw
    exact values key v w (hperm.mem_iff.mpr hv) hw

/-- **Members with different keys make the same object**, if what is read of each value is the same
value. -/
theorem same_ofList {members : List (String × Json)} (hkeys : (members.map Prod.fst).Nodup)
    (hvalues : ∀ e ∈ members, Same e.2 e.2.normal) :
    Same (.object members) (.object (Members.ofList (members.map normalMember))) := by
  have hperm : (Members.ofList (members.map normalMember)).Perm (members.map normalMember) :=
    Members.perm_ofList (by rwa [map_fst_map_normalMember])
  refine .object ?_ ?_
  · rw [← map_fst_map_normalMember]
    exact (hperm.map Prod.fst).symm
  · intro key v w hv hw
    obtain ⟨e, he, hew⟩ := List.mem_map.mp (hperm.mem_iff.mp hw)
    obtain ⟨hkey, rfl⟩ := Prod.mk.inj hew
    have hsame : e = (key, v) := List.inj_on_of_nodup_map hkeys he hv hkey
    subst hsame
    exact hvalues (key, v) hv

/-- **What is read of a written value is the same value**, if no object in it has a key twice. -/
theorem same_normal {v : Json} (h : DistinctKeys v) : Same v v.normal := by
  induction h with
  | null => exact .null
  | bool b => exact .bool b
  | int n => exact .int n
  | real x => exact .real x
  | text s => exact .text s
  | @list items _ ih =>
    rw [normal, normalItems_eq_map]
    refine .list (List.length_map normal).symm ?_
    intro i v w hv hw
    rw [List.getElem?_map, hv] at hw
    cases hw
    exact ih v (List.mem_of_getElem? hv)
  | @object members keys _ ih =>
    rw [normal_object]
    exact same_ofList keys ih

/-- **A written object is read** as what its members, as they are read, amount to. -/
theorem parse_object {members : List (String × Json)}
    (h : Writable Reader.maxDepth (.object members)) :
    parse (Utf8.encodeChars (Json.object members).chars) =
      .ok (.object (Members.ofList (members.map normalMember))) := by
  rw [parse_encodeChars h, normal_object]

end Json
end TagRental

import Mathlib.Data.List.Induction
import TagRental.Json.Value

/-!
# The members of an object

A text writes the members of an object in some order, and may write several with one key.
`Members.ofList` is the object that such a list of members amounts to, and this file says what an
object keeps of the list:

* under each key the *last* value (`get?_ofList`);
* no key twice, and the keys in ascending order (`ascending_ofList`), so an object that is given in
  that order is what it is (`ofList_of_ascending`);
* all members, if no key was there twice (`perm_ofList`).

Leaving out some keys can be done before or after (`filter_ofList`).  That needs the order:
insertion looks for the first key that is not smaller, and among keys in no order that place would
depend on those left out.
-/

namespace TagRental
namespace Members

/-- The object that members in the order of a text amount to. -/
def ofList (members : List (String × Json)) : Members :=
  members.foldl (fun m e => m.insert e.1 e.2) []

/-- The keys ascend, so none is there twice. -/
def Ascending (m : Members) : Prop := m.Pairwise fun a b => a.1 < b.1

@[simp] theorem ascending_nil : Ascending [] := List.Pairwise.nil

@[simp] theorem ascending_cons_iff {e : String × Json} {m : Members} :
    Ascending (e :: m) ↔ (∀ e' ∈ m, e.1 < e'.1) ∧ m.Ascending := List.pairwise_cons

/-- Keys of which neither is smaller are the same. -/
theorem eq_of_not_lt {a b : String} (hab : ¬a < b) (hba : ¬b < a) : a = b :=
  String.le_antisymm hba hab

theorem get?_cons (e : String × Json) (m : Members) (name : String) :
    get? (e :: m) name = if name = e.1 then some e.2 else get? m name := by
  unfold get?
  rw [List.find?_cons]
  by_cases h : name = e.1
  · rw [if_pos h, h, beq_self_eq_true]
    rfl
  · rw [if_neg h, beq_eq_false_iff_ne.mpr (Ne.symm h)]

/-! ## One member -/

section Insert

variable (key : String) (value : Json)

theorem insert_cons_of_lt {e : String × Json} (h : key < e.1) (m : Members) :
    insert key value (e :: m) = (key, value) :: e :: m := by
  rw [insert, if_pos h]

theorem insert_cons_of_gt {e : String × Json} (h : e.1 < key) (m : Members) :
    insert key value (e :: m) = e :: insert key value m := by
  rw [insert, if_neg (String.lt_asymm h), if_pos h]

theorem insert_cons_self (old : Json) (m : Members) :
    insert key value ((key, old) :: m) = (key, value) :: m := by
  rw [insert, if_neg (String.lt_irrefl key), if_neg (String.lt_irrefl key)]

/-- **How a member is put in front of or behind another**: by the order of their keys. -/
theorem insert_cons_cases (e : String × Json) (m : Members) :
    key < e.1 ∧ insert key value (e :: m) = (key, value) :: e :: m ∨
      e.1 < key ∧ insert key value (e :: m) = e :: insert key value m ∨
      key = e.1 ∧ insert key value (e :: m) = (key, value) :: m := by
  by_cases hlt : key < e.1
  · exact Or.inl ⟨hlt, insert_cons_of_lt key value hlt m⟩
  · by_cases hgt : e.1 < key
    · exact Or.inr (Or.inl ⟨hgt, insert_cons_of_gt key value hgt m⟩)
    · obtain ⟨k, old⟩ := e
      have hkey : key = k := eq_of_not_lt hlt hgt
      subst hkey
      exact Or.inr (Or.inr ⟨rfl, insert_cons_self key value old m⟩)

theorem mem_of_mem_insert {m : Members} {e : String × Json} (h : e ∈ m.insert key value) :
    e = (key, value) ∨ e ∈ m := by
  induction m with
  | nil => exact Or.inl (List.mem_singleton.mp h)
  | cons e' m ih =>
    rcases insert_cons_cases key value e' m with ⟨-, hm⟩ | ⟨-, hm⟩ | ⟨-, hm⟩
    · rw [hm] at h
      exact List.mem_cons.mp h
    · rw [hm, List.mem_cons] at h
      rcases h with rfl | h
      · exact Or.inr List.mem_cons_self
      · exact (ih h).imp_right (List.mem_cons_of_mem e')
    · rw [hm] at h
      exact (List.mem_cons.mp h).imp_right (List.mem_cons_of_mem e')

/-- The value under a key after one more member. -/
theorem get?_insert (m : Members) (name : String) :
    (m.insert key value).get? name = if name = key then some value else m.get? name := by
  induction m with
  | nil => exact get?_cons (key, value) [] name
  | cons e m ih =>
    rcases insert_cons_cases key value e m with ⟨-, hm⟩ | ⟨hgt, hm⟩ | ⟨rfl, hm⟩
    · rw [hm, get?_cons]
    · rw [hm, get?_cons, get?_cons, ih]
      by_cases hname : name = key
      · have hne : ¬name = e.1 := by
          rintro rfl
          exact String.lt_irrefl _ (hname ▸ hgt)
        rw [if_neg hne, if_pos hname]
        exact (if_pos hname).symm
      · rw [if_neg hname, if_neg hname]
    · rw [hm, get?_cons, get?_cons]
      by_cases hname : name = e.1
      · rw [if_pos hname, if_pos hname]
      · rw [if_neg hname, if_neg hname, if_neg hname]

theorem Ascending.insert {m : Members} (h : m.Ascending) : (m.insert key value).Ascending := by
  induction m with
  | nil => exact List.pairwise_singleton _ _
  | cons e m ih =>
    obtain ⟨hfront, hrest⟩ := ascending_cons_iff.mp h
    rcases insert_cons_cases key value e m with ⟨hlt, hm⟩ | ⟨hgt, hm⟩ | ⟨rfl, hm⟩
    · rw [hm, ascending_cons_iff]
      refine ⟨?_, h⟩
      intro e' he'
      rcases List.mem_cons.mp he' with rfl | he'
      · exact hlt
      · exact String.lt_trans hlt (hfront e' he')
    · rw [hm, ascending_cons_iff]
      refine ⟨?_, ih hrest⟩
      intro e' he'
      rcases mem_of_mem_insert key value he' with rfl | he'
      · exact hgt
      · exact hfront e' he'
    · rw [hm, ascending_cons_iff]
      exact ⟨hfront, hrest⟩

/-- A key smaller than all others stands in front of them. -/
theorem insert_of_forall_lt {m : Members} (h : ∀ e ∈ m, key < e.1) :
    m.insert key value = (key, value) :: m := by
  cases m with
  | nil => rfl
  | cons e m => exact insert_cons_of_lt key value (h e List.mem_cons_self) m

/-- A key greater than all others stands behind them. -/
theorem insert_of_forall_gt {m : Members} (h : ∀ e ∈ m, e.1 < key) :
    m.insert key value = m ++ [(key, value)] := by
  induction m with
  | nil => rfl
  | cons e m ih =>
    obtain ⟨he, hm⟩ := List.forall_mem_cons.mp h
    rw [insert_cons_of_gt key value he, ih hm, List.cons_append]

/-- A new key adds a member and changes no other. -/
theorem insert_perm {m : Members} (h : key ∉ m.map Prod.fst) :
    (m.insert key value).Perm ((key, value) :: m) := by
  induction m with
  | nil => exact .refl _
  | cons e m ih =>
    rw [List.map_cons, List.mem_cons, not_or] at h
    rcases insert_cons_cases key value e m with ⟨-, hm⟩ | ⟨-, hm⟩ | ⟨hkey, -⟩
    · rw [hm]
    · rw [hm]
      exact ((ih h.2).cons e).trans (.swap _ _ _)
    · exact absurd hkey h.1

/-- Leaving out keys before a member is put in, or after. -/
theorem filter_insert {m : Members} (h : m.Ascending) (p : String → Bool) :
    (m.insert key value).filter (fun e => p e.1) =
      if p key then insert key value (m.filter fun e => p e.1) else m.filter fun e => p e.1 := by
  induction m with
  | nil => exact List.filter_cons
  | cons e m ih =>
    obtain ⟨hfront, hrest⟩ := ascending_cons_iff.mp h
    rcases insert_cons_cases key value e m with ⟨hlt, hm⟩ | ⟨hgt, hm⟩ | ⟨rfl, hm⟩
    · have hall : ∀ e' ∈ (e :: m).filter (fun e => p e.1), key < e'.1 := by
        intro e' he'
        rcases List.mem_cons.mp (List.mem_filter.mp he').1 with rfl | he'
        · exact hlt
        · exact String.lt_trans hlt (hfront e' he')
      rw [hm, List.filter_cons, insert_of_forall_lt key value hall]
    · rw [hm, List.filter_cons, List.filter_cons, ih hrest]
      by_cases he : p e.1 = true
      · rw [if_pos he, if_pos he]
        by_cases hkey : p key = true
        · rw [if_pos hkey, if_pos hkey, insert_cons_of_gt key value hgt]
        · rw [if_neg hkey, if_neg hkey]
      · rw [if_neg he, if_neg he]
    · rw [hm, List.filter_cons, List.filter_cons]
      by_cases he : p e.1 = true
      · rw [if_pos he, if_pos he, if_pos he]
        exact (insert_cons_self e.1 value e.2 _).symm
      · rw [if_neg he, if_neg he, if_neg he]

end Insert

/-! ## Members left out -/

/-- What stands under a key that is kept. -/
theorem get?_filter {p : String → Bool} {name : String} (h : p name = true) (m : Members) :
    get? (m.filter fun e => p e.1) name = m.get? name := by
  induction m with
  | nil => rfl
  | cons e m ih =>
    rw [List.filter_cons, get?_cons]
    by_cases he : p e.1 = true
    · rw [if_pos he, get?_cons, ih]
    · have hne : ¬name = e.1 := by
        rintro rfl
        exact he h
      rw [if_neg he, if_neg hne, ih]

/-! ## Many members -/

theorem ofList_concat (members : List (String × Json)) (e : String × Json) :
    ofList (members ++ [e]) = (ofList members).insert e.1 e.2 := by
  rw [ofList, List.foldl_append]
  rfl

/-- **The keys of an object ascend**, whatever the order of the text. -/
theorem ascending_ofList (members : List (String × Json)) : (ofList members).Ascending := by
  induction members using List.reverseRecOn with
  | nil => exact ascending_nil
  | append_singleton members e ih =>
    rw [ofList_concat]
    exact ih.insert e.1 e.2

/-- **The last one counts**: under a key an object has the value that stands last under it. -/
theorem get?_ofList (members : List (String × Json)) (name : String) :
    (ofList members).get? name = members.reverse.lookup name := by
  induction members using List.reverseRecOn with
  | nil => rfl
  | append_singleton members e ih =>
    rw [ofList_concat, get?_insert, ih, List.reverse_concat, List.lookup_cons]
    by_cases h : name = e.1
    · rw [if_pos h, h, beq_self_eq_true]
    · rw [if_neg h, beq_eq_false_iff_ne.mpr h]

/-- Leaving out keys of an object, or of the members that it is made of. -/
theorem filter_ofList (members : List (String × Json)) (p : String → Bool) :
    (ofList members).filter (fun e => p e.1) = ofList (members.filter fun e => p e.1) := by
  induction members using List.reverseRecOn with
  | nil => rfl
  | append_singleton members e ih =>
    rw [ofList_concat, filter_insert e.1 e.2 (ascending_ofList members) p, ih, List.filter_append]
    by_cases he : p e.1 = true
    · rw [if_pos he, List.filter_cons, if_pos he, List.filter_nil, ofList_concat]
    · rw [if_neg he, List.filter_cons, if_neg he, List.filter_nil, List.append_nil]

/-- Members whose keys ascend are the object that they amount to. -/
theorem ofList_of_ascending {m : Members} (h : m.Ascending) : ofList m = m := by
  induction m using List.reverseRecOn with
  | nil => rfl
  | append_singleton m e ih =>
    obtain ⟨hm, -, hlast⟩ := List.pairwise_append.mp h
    rw [ofList_concat, ih hm]
    exact insert_of_forall_gt e.1 e.2 fun e' he' => hlast e' he' e List.mem_cons_self

/-- Members with different keys are all there. -/
theorem perm_ofList {members : List (String × Json)} (h : (members.map Prod.fst).Nodup) :
    (ofList members).Perm members := by
  induction members using List.reverseRecOn with
  | nil => exact .refl []
  | append_singleton members e ih =>
    rw [List.map_append, List.nodup_append] at h
    obtain ⟨hmembers, -, hnew⟩ := h
    have hperm := ih hmembers
    have hkey : e.1 ∉ (ofList members).map Prod.fst := by
      intro hmem
      exact hnew e.1 ((hperm.map Prod.fst).mem_iff.mp hmem) e.1 List.mem_cons_self rfl
    rw [ofList_concat]
    exact (insert_perm e.1 e.2 hkey).trans
      ((hperm.cons e).trans (List.perm_append_singleton e members).symm)

/-- Among members with different keys, each is the last with its key. -/
theorem lookup_reverse_of_mem {members : List (String × Json)} (h : (members.map Prod.fst).Nodup)
    {e : String × Json} (he : e ∈ members) : members.reverse.lookup e.1 = some e.2 := by
  obtain ⟨before, behind, rfl⟩ := List.append_of_mem he
  rw [List.lookup_eq_some_iff]
  refine ⟨behind.reverse, before.reverse, ?_, ?_⟩
  · rw [List.reverse_append, List.reverse_cons, List.append_assoc]
    rfl
  · intro e' he'
    rw [List.map_append, List.map_cons] at h
    have hnew := (List.nodup_cons.mp (List.nodup_append.mp h).2.1).1
    rw [bne_iff_ne]
    rintro hkey
    exact hnew (hkey ▸ List.mem_map_of_mem (List.mem_reverse.mp he'))

end Members
end TagRental

import Mathlib.Data.List.Infix
import Mathlib.Data.List.Nodup
import TagRental.Toml.Document

/-!
# No key twice

What a document says under a key is one thing: wherever a table was written, in however many places,
no two of its entries are under one key.  A second pair with the same key, a second header of a
table, a pair under a key that a header took: all of these are refused while the table is put
together, and this module says that nothing else can make a key come up again.

`Value.Distinct` states it of a value with everything inside it.  There are two ways for a table to
come about, and both end in `Nodes.change`: it enters one table after the other, and a change that
leaves the keys of the innermost table distinct leaves all of them distinct
(`Nodes.Distinct.change`).  The reader does nothing but hand on the values that it was given
(`Reader.Distinct`), so what it holds is distinct after every token, and so is the table that is
assembled at the end (`distinct_of_parse`).
-/

namespace TagRental
namespace Toml

/-- No table in the value has two entries under one key. -/
inductive Value.Distinct : Value → Prop
  | text (s : String) : Distinct (.text s)
  | integer (n : Int) : Distinct (.integer n)
  | real (x : Float) : Distinct (.real x)
  | boolean (b : Bool) : Distinct (.boolean b)
  | moment (written : String) : Distinct (.moment written)
  | list {items : List Value} (each : ∀ v ∈ items, Distinct v) : Distinct (.list items)
  | tables {each : List Entries} (keys : ∀ t ∈ each, (t.map Prod.fst).Nodup)
      (values : ∀ t ∈ each, ∀ e ∈ t, Distinct e.2) : Distinct (.tables each)
  | table {entries : Entries} (keys : (entries.map Prod.fst).Nodup)
      (values : ∀ e ∈ entries, Distinct e.2) : Distinct (.table entries)

/-- What stands under a key of a table. -/
theorem Value.Distinct.of_lookup {entries : Entries} (h : (Value.table entries).Distinct)
    {key : String} {v : Value} (hv : entries.lookup key = some v) : v.Distinct := by
  obtain ⟨before, behind, rfl, -⟩ := List.lookup_eq_some_iff.mp hv
  cases h with
  | table keys values => exact values (key, v) (by simp)

/-- No table in the entry has two entries under one key. -/
inductive Node.Distinct : Node → Prop
  | value {v : Value} (value : v.Distinct) : Distinct (.value v)
  | table {origin : Origin} {entries : Nodes} (keys : (entries.map Prod.fst).Nodup)
      (nodes : ∀ e ∈ entries, Distinct e.2) : Distinct (.table origin entries)
  | tables {done : List Nodes} (keys : ∀ t ∈ done, (t.map Prod.fst).Nodup)
      (nodes : ∀ t ∈ done, ∀ e ∈ t, Distinct e.2) : Distinct (.tables done)

/-! ## Tables in the making -/

theorem nodesToEntries_eq_map (nodes : Nodes) :
    nodesToEntries nodes = nodes.map fun e => (e.1, e.2.toValue) := by
  induction nodes with
  | nil => rfl
  | cons e nodes ih => rw [nodesToEntries, ih, List.map_cons]

theorem tablesToEntries_eq_map (done : List Nodes) :
    tablesToEntries done = done.map nodesToEntries := by
  induction done with
  | nil => rfl
  | cons t done ih => rw [tablesToEntries, ih, List.map_cons]

theorem map_fst_nodesToEntries (nodes : Nodes) :
    (nodesToEntries nodes).map Prod.fst = nodes.map Prod.fst := by
  rw [nodesToEntries_eq_map, List.map_map]
  rfl

/-- A finished entry keeps its keys. -/
theorem Node.Distinct.toValue {n : Node} (h : n.Distinct) : n.toValue.Distinct := by
  induction h with
  | value value => exact value
  | @table origin entries keys nodes ih =>
    refine .table ((map_fst_nodesToEntries entries).symm ▸ keys) fun e he => ?_
    rw [nodesToEntries_eq_map] at he
    obtain ⟨e', he', rfl⟩ := List.mem_map.mp he
    exact ih e' he'
  | @tables done keys nodes ih =>
    rw [Node.toValue, tablesToEntries_eq_map]
    refine .tables ?_ ?_
    · intro t ht
      obtain ⟨t', ht', rfl⟩ := List.mem_map.mp ht
      exact (map_fst_nodesToEntries t').symm ▸ keys t' ht'
    · intro t ht e he
      obtain ⟨t', ht', rfl⟩ := List.mem_map.mp ht
      rw [nodesToEntries_eq_map] at he
      obtain ⟨e', he', rfl⟩ := List.mem_map.mp he
      exact ih t' ht' e' he'

namespace Nodes

variable {nodes nodes' : Nodes} {key : String} {node : Node}

/-- A table in the making has different keys, and so have all tables inside it. -/
structure Distinct (nodes : Nodes) : Prop where
  keys : (nodes.map Prod.fst).Nodup
  nodes : ∀ e ∈ nodes, e.2.Distinct

theorem distinct_nil : Distinct [] := ⟨List.nodup_nil, fun _ he => absurd he List.not_mem_nil⟩

theorem distinct_table_iff {origin : Origin} :
    (Node.table origin nodes).Distinct ↔ nodes.Distinct := by
  constructor
  · intro h
    cases h with
    | table keys nodes => exact ⟨keys, nodes⟩
  · exact fun h => .table h.keys h.nodes

theorem distinct_tables_iff {done : List Nodes} :
    (Node.tables done).Distinct ↔ ∀ t ∈ done, Distinct t := by
  constructor
  · intro h
    cases h with
    | tables keys nodes => exact fun t ht => ⟨keys t ht, nodes t ht⟩
  · exact fun h => .tables (fun t ht => (h t ht).keys) fun t ht => (h t ht).nodes

theorem get?_eq_none_iff : nodes.get? key = none ↔ key ∉ nodes.map Prod.fst := by
  rw [get?, Option.map_eq_none_iff, List.find?_eq_none, List.mem_map]
  constructor
  · rintro h ⟨e, he, rfl⟩
    exact h e he (beq_self_eq_true e.1)
  · exact fun h e he hkey => h ⟨e, he, eq_of_beq hkey⟩

namespace Distinct

theorem of_get? (h : nodes.Distinct) (hget : nodes.get? key = some node) : node.Distinct := by
  obtain ⟨e, he, rfl⟩ := Option.map_eq_some_iff.mp hget
  exact h.nodes e (List.mem_of_find?_eq_some he)

theorem add (h : nodes.Distinct) (hnew : nodes.get? key = none) (hnode : node.Distinct) :
    (nodes.add key node).Distinct := by
  refine ⟨?_, fun e he => ?_⟩
  · rw [Nodes.add, List.map_append, List.map_singleton, ← List.concat_eq_append]
    exact List.Nodup.concat (get?_eq_none_iff.mp hnew) h.keys
  · rcases List.mem_append.mp he with he | he
    · exact h.nodes e he
    · rw [List.mem_singleton.mp he]
      exact hnode

theorem replace (h : nodes.Distinct) (hnode : node.Distinct) :
    (nodes.replace key node).Distinct := by
  refine ⟨?_, fun e he => ?_⟩
  · have hkeys : (nodes.replace key node).map Prod.fst = nodes.map Prod.fst := by
      rw [Nodes.replace, List.map_map]
      refine List.map_congr_left fun e _ => ?_
      rw [Function.comp_apply]
      split
      · next hkey => exact (eq_of_beq hkey).symm
      · rfl
    exact hkeys ▸ h.keys
  · obtain ⟨e', he', rfl⟩ := List.mem_map.mp he
    split
    · exact hnode
    · exact h.nodes e' he'

theorem erase (h : nodes.Distinct) (key : String) : (nodes.erase key).Distinct :=
  ⟨h.keys.sublist (List.filter_sublist.map _), fun e he => h.nodes e (List.mem_filter.mp he).1⟩

theorem get?_erase (nodes : Nodes) (key : String) : (nodes.erase key).get? key = none := by
  rw [get?_eq_none_iff, List.mem_map]
  rintro ⟨e, he, rfl⟩
  simpa using (List.mem_filter.mp he).2

/-- **A change at the end of a path** that leaves the table there distinct leaves the whole table
so. -/
theorem change {byDots : Bool} {f : Origin → Nodes → Option Nodes}
    (hf : ∀ origin inner inner', inner.Distinct → f origin inner = some inner' → inner'.Distinct)
    {path : List String} {origin : Origin} (h : nodes.Distinct)
    (hchange : Nodes.change byDots f path origin nodes = some nodes') : nodes'.Distinct := by
  induction path generalizing origin nodes nodes' with
  | nil => exact hf origin nodes nodes' h hchange
  | cons key path ih =>
    rw [Nodes.change] at hchange
    split at hchange
    · next hnone =>
      obtain ⟨inner, hinner, rfl⟩ := Option.map_eq_some_iff.mp hchange
      exact h.add hnone (distinct_table_iff.mpr (ih distinct_nil hinner))
    · cases hchange
    · next origin inner hget =>
      split at hchange
      · cases hchange
      · obtain ⟨inner', hinner, rfl⟩ := Option.map_eq_some_iff.mp hchange
        have hd := distinct_table_iff.mp (h.of_get? hget)
        exact h.replace (distinct_table_iff.mpr (ih hd hinner))
    · next done hget =>
      obtain ⟨inner', hinner, rfl⟩ := Option.map_eq_some_iff.mp hchange
      have hdone := distinct_tables_iff.mp (h.of_get? hget)
      have hlast : Nodes.Distinct (done.getLast?.getD []) := by
        cases hl : done.getLast? with
        | none => exact distinct_nil
        | some t => exact hdone t (List.mem_of_getLast? hl)
      refine h.replace (distinct_tables_iff.mpr fun t ht => ?_)
      rcases List.mem_append.mp ht with ht | ht
      · exact hdone t (List.mem_of_mem_dropLast ht)
      · rw [List.mem_singleton.mp ht]
        exact ih hlast hinner

/-- A pair under a dotted key. -/
theorem addPair (h : nodes.Distinct) {path : List String} {v : Value} (hv : v.Distinct)
    (hadd : nodes.addPair path key v = some nodes') : nodes'.Distinct := by
  refine change (fun origin inner inner' hinner hadd => ?_) h hadd
  split at hadd
  · cases hadd
  · split at hadd
    · cases hadd
    · next hnew =>
      cases hadd
      exact hinner.add (Option.not_isSome_iff_eq_none.mp hnew) (.value hv)

theorem addPairs (h : nodes.Distinct) {pairs : List Pair} (hpairs : ∀ p ∈ pairs, p.value.Distinct)
    (hadd : nodes.addPairs pairs = some nodes') : nodes'.Distinct := by
  induction pairs generalizing nodes with
  | nil =>
    cases hadd
    exact h
  | cons p pairs ih =>
    obtain ⟨hp, hpairs⟩ := List.forall_mem_cons.mp hpairs
    obtain ⟨inner, hinner, hadd⟩ := Option.bind_eq_some_iff.mp hadd
    exact ih (h.addPair hp hinner) hpairs hadd

/-- A header and the pairs under it.  The header of a table that was implied so far moves the table
to the end, so its key is taken out first. -/
theorem addSection (h : nodes.Distinct) {s : Section} (hs : ∀ p ∈ s.pairs, p.value.Distinct)
    (hadd : nodes.addSection s = some nodes') : nodes'.Distinct := by
  refine change (fun origin outer outer' houter hadd => ?_) h hadd
  split at hadd
  · next hnone =>
    obtain ⟨t, ht, rfl⟩ := Option.map_eq_some_iff.mp hadd
    exact houter.add hnone (distinct_table_iff.mpr (distinct_nil.addPairs hs ht))
  · next inner hget =>
    obtain ⟨t, ht, rfl⟩ := Option.map_eq_some_iff.mp hadd
    have hinner := distinct_table_iff.mp (houter.of_get? hget)
    exact (houter.erase _).add (get?_erase outer _) (distinct_table_iff.mpr (hinner.addPairs hs ht))
  · next hnone =>
    obtain ⟨t, ht, rfl⟩ := Option.map_eq_some_iff.mp hadd
    have hlist : ∀ t' ∈ [t], Nodes.Distinct t' := by
      intro t' ht'
      rw [List.mem_singleton.mp ht']
      exact distinct_nil.addPairs hs ht
    exact houter.add hnone (distinct_tables_iff.mpr hlist)
  · next done hget =>
    obtain ⟨t, ht, rfl⟩ := Option.map_eq_some_iff.mp hadd
    have hdone := distinct_tables_iff.mp (houter.of_get? hget)
    refine houter.replace (distinct_tables_iff.mpr fun t' ht' => ?_)
    rcases List.mem_append.mp ht' with ht' | ht'
    · exact hdone t' ht'
    · rw [List.mem_singleton.mp ht']
      exact distinct_nil.addPairs hs ht
  · cases hadd

theorem addSections (h : nodes.Distinct) {sections : List Section}
    (hsections : ∀ s ∈ sections, ∀ p ∈ s.pairs, p.value.Distinct)
    (hadd : sections.foldlM Nodes.addSection nodes = some nodes') : nodes'.Distinct := by
  induction sections generalizing nodes with
  | nil =>
    cases hadd
    exact h
  | cons s sections ih =>
    obtain ⟨hs, hsections⟩ := List.forall_mem_cons.mp hsections
    obtain ⟨inner, hinner, hadd⟩ := Option.bind_eq_some_iff.mp hadd
    exact ih (h.addSection hs hinner) hsections hadd

/-- The finished table. -/
theorem table (h : nodes.Distinct) : (Value.table (nodesToEntries nodes)).Distinct := by
  have hnode : (Node.table .header nodes).Distinct := distinct_table_iff.mpr h
  exact hnode.toValue

end Distinct
end Nodes

/-- The table of a document. -/
theorem distinct_of_assemble {leading : List Pair} {sections : List Section} {entries : Entries}
    (hleading : ∀ p ∈ leading, p.value.Distinct)
    (hsections : ∀ s ∈ sections, ∀ p ∈ s.pairs, p.value.Distinct)
    (h : assemble leading sections = some entries) : (Value.table entries).Distinct := by
  obtain ⟨root, hroot, h⟩ := Option.bind_eq_some_iff.mp h
  obtain ⟨nodes, hnodes, h⟩ := Option.bind_eq_some_iff.mp h
  cases h
  exact ((Nodes.distinct_nil.addPairs hleading hroot).addSections hsections hnodes).table

/-- The table that pairs in braces make. -/
theorem distinct_of_inlineTable {pairs : List Pair} {v : Value}
    (hpairs : ∀ p ∈ pairs, p.value.Distinct) (h : inlineTable pairs = some v) : v.Distinct := by
  obtain ⟨nodes, hnodes, rfl⟩ := Option.map_eq_some_iff.mp h
  exact (Nodes.distinct_nil.addPairs hpairs hnodes).table

/-! ## The reader -/

theorem Scalar.distinct_of_inRange {n : Int} {v : Value} (h : inRange n = some v) : v.Distinct := by
  unfold inRange at h
  split at h <;> cases h
  exact .integer n

theorem Scalar.distinct_of_marked {base : Nat} {cs : List Char} {v : Value}
    (h : marked base cs = some v) : v.Distinct := by
  unfold marked at h
  split at h
  · exact distinct_of_inRange h
  · cases h

theorem Scalar.distinct_of_integer? {cs : List Char} {v : Value} (h : integer? cs = some v) :
    v.Distinct := by
  unfold integer? at h
  split at h
  · exact distinct_of_marked h
  · exact distinct_of_marked h
  · exact distinct_of_marked h
  · dsimp only at h
    split at h
    · exact distinct_of_inRange h
    · cases h

theorem Scalar.distinct_of_real? {cs : List Char} {v : Value} (h : real? cs = some v) :
    v.Distinct := by
  unfold real? at h
  split at h
  · cases h
    exact .real _
  · cases h
    exact .real _
  · unfold finite? at h
    dsimp only at h
    split at h
    · obtain ⟨_, -, h⟩ := Option.bind_eq_some_iff.mp h
      split at h <;> cases h
      exact .real _
    · cases h

/-- A bare value is no table. -/
theorem Scalar.distinct_of_classify {cs : List Char} {v : Value} (h : classify cs = some v) :
    v.Distinct := by
  unfold classify at h
  split at h
  · cases h
    exact .boolean true
  split at h
  · cases h
    exact .boolean false
  split at h
  · cases h
    exact .moment _
  cases hn : integer? cs with
  | some n =>
    rw [hn] at h
    cases h
    exact distinct_of_integer? hn
  | none =>
    rw [hn] at h
    exact distinct_of_real? h

/-- What is open holds distinct values. -/
def Open.Distinct : Open → Prop
  | .line _ => True
  | .list done => ∀ v ∈ done, v.Distinct
  | .braces done => ∀ p ∈ done, p.value.Distinct
  | .entry done _ => ∀ p ∈ done, p.value.Distinct

namespace Reader

/-- All values that the reader holds are distinct. -/
structure Distinct (r : Reader) : Prop where
  leading : ∀ p ∈ r.leading, p.value.Distinct
  sections : ∀ s ∈ r.sections, ∀ p ∈ s.pairs, p.value.Distinct
  pairs : ∀ p ∈ r.pairs, p.value.Distinct
  stack : ∀ o ∈ r.stack, o.Distinct

variable {r r' : Reader}

theorem distinct_start : Distinct start :=
  ⟨fun _ h => absurd h List.not_mem_nil, fun _ h => absurd h List.not_mem_nil,
    fun _ h => absurd h List.not_mem_nil, fun _ h => absurd h List.not_mem_nil⟩

namespace Distinct

/-- Another stack. -/
theorem withStack (h : r.Distinct) {phase : Phase} {stack : List Open}
    (hstack : ∀ o ∈ stack, o.Distinct) :
    Distinct { r with phase := phase, stack := stack } :=
  ⟨h.leading, h.sections, h.pairs, hstack⟩

theorem go (h : r.Distinct) {phase : Phase} (hr : r.go phase = some r') : r'.Distinct := by
  cases hr
  exact h.withStack h.stack

theorem endSection (h : r.Distinct) : r.endSection.Distinct := by
  have hpairs : ∀ p ∈ r.pairs.reverse, p.value.Distinct :=
    fun p hp => h.pairs p (List.mem_reverse.mp hp)
  unfold Reader.endSection
  split
  · exact ⟨hpairs, h.sections, fun _ hp => absurd hp List.not_mem_nil, h.stack⟩
  · exact ⟨h.leading, List.forall_mem_cons.mpr ⟨hpairs, h.sections⟩,
      fun _ hp => absurd hp List.not_mem_nil, h.stack⟩

theorem beginSection (h : r.Distinct) {header : Header} (hr : r.beginSection header = some r') :
    r'.Distinct := by
  cases hr
  have hd := h.endSection
  exact ⟨hd.leading, hd.sections, hd.pairs, hd.stack⟩

/-- A complete value goes to what is open around it. -/
theorem complete (h : r.Distinct) {v : Value} (hv : v.Distinct) (hr : r.complete v = some r') :
    r'.Distinct := by
  unfold Reader.complete at hr
  have hstack := h.stack
  split at hr
  · next hopen =>
    cases hr
    rw [hopen, List.forall_mem_cons] at hstack
    exact ⟨h.leading, h.sections, List.forall_mem_cons.mpr ⟨hv, h.pairs⟩, hstack.2⟩
  · next hopen =>
    cases hr
    rw [hopen, List.forall_mem_cons] at hstack
    exact h.withStack (List.forall_mem_cons.mpr ⟨List.forall_mem_cons.mpr ⟨hv, hstack.1⟩, hstack.2⟩)
  · next hopen =>
    cases hr
    rw [hopen, List.forall_mem_cons] at hstack
    exact h.withStack (List.forall_mem_cons.mpr ⟨List.forall_mem_cons.mpr ⟨hv, hstack.1⟩, hstack.2⟩)
  · cases hr

theorem opening (h : r.Distinct) {o : Open} (ho : o.Distinct) {phase : Phase}
    (hr : r.opening o phase = some r') : r'.Distinct := by
  unfold Reader.opening at hr
  split at hr <;> cases hr
  exact h.withStack (List.forall_mem_cons.mpr ⟨ho, h.stack⟩)

theorem closeList (h : r.Distinct) (hr : r.closeList = some r') : r'.Distinct := by
  unfold Reader.closeList at hr
  have hstack := h.stack
  split at hr
  · next done stack hopen =>
    rw [hopen, List.forall_mem_cons] at hstack
    have hlist : (Value.list done.reverse).Distinct :=
      .list fun v hv => hstack.1 v (List.mem_reverse.mp hv)
    exact (h.withStack hstack.2).complete hlist hr
  · cases hr

theorem closeBraces (h : r.Distinct) (hr : r.closeBraces = some r') : r'.Distinct := by
  unfold Reader.closeBraces at hr
  have hstack := h.stack
  split at hr
  · next done stack hopen =>
    rw [hopen, List.forall_mem_cons] at hstack
    obtain ⟨v, hv, hr⟩ := Option.bind_eq_some_iff.mp hr
    have hd := distinct_of_inlineTable (fun p hp => hstack.1 p (List.mem_reverse.mp hp)) hv
    exact (h.withStack hstack.2).complete hd hr
  · cases hr

theorem classified (h : r.Distinct) {chars : List Char}
    (hr : (Scalar.classify chars).bind r.complete = some r') : r'.Distinct := by
  obtain ⟨v, hv, hr⟩ := Option.bind_eq_some_iff.mp hr
  exact h.complete (Scalar.distinct_of_classify hv) hr

theorem beginValue (h : r.Distinct) {t : Token} (hr : r.beginValue t = some r') : r'.Distinct := by
  unfold Reader.beginValue at hr
  split at hr
  · split at hr
    · exact h.go hr
    · exact h.classified hr
  · exact h.complete (.text _) hr
  · have hnone : (Open.list []).Distinct := fun _ hv => absurd hv List.not_mem_nil
    exact h.opening hnone hr
  · have hnone : (Open.braces []).Distinct := fun _ hp => absurd hp List.not_mem_nil
    exact h.opening hnone hr
  · cases hr

theorem keyToken (h : r.Distinct) {k : KeyReader} {t : Token} (hr : r.keyToken k t = some r') :
    r'.Distinct := by
  unfold Reader.keyToken at hr
  split at hr
  · obtain ⟨key, -, hr⟩ := Option.bind_eq_some_iff.mp hr
    have hstack := h.stack
    split at hr
    · cases hr
      exact h.withStack (List.forall_mem_cons.mpr ⟨trivial, fun _ ho => absurd ho List.not_mem_nil⟩)
    · next hopen =>
      cases hr
      rw [hopen, List.forall_mem_cons] at hstack
      exact h.withStack (List.forall_mem_cons.mpr ⟨hstack.1, hstack.2⟩)
    · cases hr
  · obtain ⟨k, -, hr⟩ := Option.bind_eq_some_iff.mp hr
    exact h.go hr

theorem behind (h : r.Distinct) {t : Token} (hr : r.behind t = some r') : r'.Distinct := by
  unfold Reader.behind at hr
  split at hr
  · cases hr
    exact h
  · exact h.go hr
  · exact h.closeList hr
  · exact h.go hr
  · exact h.closeBraces hr
  · cases hr

theorem lineToken (h : r.Distinct) {t : Token} (hr : r.lineToken t = some r') : r'.Distinct := by
  unfold Reader.lineToken at hr
  split at hr
  · exact h.go hr
  · cases hr
  · exact h.behind hr

/-- **One token.** -/
theorem step (h : r.Distinct) {s : Spaced} (hr : r.step s = some r') : r'.Distinct := by
  unfold Reader.step at hr
  -- one case for each phase, with the tokens that it tells apart; most of them only move on
  split at hr
  · cases hr
    exact h
  · exact h.go hr
  · exact h.keyToken hr
  · split at hr
    · exact h.go hr
    · cases hr
  · obtain ⟨k, -, hr⟩ := Option.bind_eq_some_iff.mp hr
    exact h.go hr
  · obtain ⟨key, -, hr⟩ := Option.bind_eq_some_iff.mp hr
    split at hr
    · exact h.go hr
    · exact h.beginSection hr
  · obtain ⟨k, -, hr⟩ := Option.bind_eq_some_iff.mp hr
    exact h.go hr
  · split at hr
    · exact h.beginSection hr
    · cases hr
  · cases hr
  · exact h.keyToken hr
  · exact h.beginValue hr
  · cases hr
    exact h
  · exact h.closeList hr
  · exact h.beginValue hr
  · cases hr
    exact h
  · exact h.closeList hr
  · exact h.beginValue hr
  · exact h.closeBraces hr
  · exact h.keyToken hr
  · split at hr
    · exact h.classified hr
    · cases hr
  · obtain ⟨r₁, hr₁, hr⟩ := Option.bind_eq_some_iff.mp hr
    exact (h.classified hr₁).lineToken hr
  · exact h.lineToken hr
  · exact h.lineToken hr

theorem steps (h : r.Distinct) {ts : List Spaced} (hr : ts.foldlM Reader.step r = some r') :
    r'.Distinct := by
  induction ts generalizing r with
  | nil =>
    cases hr
    exact h
  | cons t ts ih =>
    obtain ⟨r₁, hr₁, hr⟩ := Option.bind_eq_some_iff.mp hr
    exact ih (h.step hr₁) hr

theorem finish (h : r.Distinct) {entries : Entries} (hr : r.finish = some entries) :
    (Value.table entries).Distinct := by
  obtain ⟨r₁, hr₁, hr⟩ := Option.bind_eq_some_iff.mp hr
  have h₁ : r₁.Distinct := by
    split at hr₁
    · cases hr₁
      exact h
    · cases hr₁
      exact h
    · exact h.classified hr₁
    · cases hr₁
  split at hr
  · have hd := h₁.endSection
    exact distinct_of_assemble hd.leading (fun s hs => hd.sections s (List.mem_reverse.mp hs)) hr
  · cases hr

end Distinct
end Reader

/-- **No key twice** in a document, nor in any table inside it. -/
theorem distinct_of_parse {text : String} {entries : Entries} (h : parse text = some entries) :
    (Value.table entries).Distinct := by
  obtain ⟨ts, -, h⟩ := Option.bind_eq_some_iff.mp h
  obtain ⟨r, hr, h⟩ := Option.bind_eq_some_iff.mp h
  exact (Reader.distinct_start.steps hr).finish h

end Toml
end TagRental

import Mathlib.Data.List.Nodup
import TagRental.Link.SharedWriter

/-!
# How the bytes on a channel divide

Many sends put their frames on one channel.  A `Division` says how the bytes that the channel has
taken divide: into the frames of the sends in `complete`, and a `piece` of the frame of the one send
that has `begun`, if there is one.

`Division.Of` says that this is a division of given bytes, and that the sends stand in the order of
their turns.  It speaks of nothing but the channel.  `Division.Fits` connects it with the queue: the
head is a send that has not begun, or the one that has, or one whose frame is out and that still
waits for the flush (`Division.Stage`); nobody behind the head has begun (`Division.Waits`).

Only the send at the head writes.  What becomes of the division when the channel takes more of its
frame is `Division.write`, and it stays a division of the bytes (`Of.write`) that fits the queue
(`Stage.write`, `Waits.write`).
-/

namespace TagRental
namespace SharedWriter

/-- Notes that a send has a turn. -/
def noteTurn (turns : List Nat) (id : Nat) : List Nat :=
  if id ∈ turns then turns else turns ++ [id]

/-- How the bytes that a channel has taken divide: the sends whose frames it has whole, in order,
the one whose frame it has begun, and the bytes of that frame. -/
structure Division where
  complete : List Nat
  begun? : Option Nat
  piece : Bytes

namespace Division

/-- The division is one of these bytes: the frames of different sends, in the order of their turns,
and less than all of one more. -/
structure Of (d : Division) (frames : Nat → Bytes) (turns : List Nat) (bytes : Bytes) : Prop where
  turns_eq : turns = d.complete ++ d.begun?.toList
  nodup : turns.Nodup
  bytes_eq : bytes = d.complete.flatMap frames ++ d.piece
  piece_eq_nil : d.begun? = none → d.piece = []
  proper : ∀ id, d.begun? = some id → d.piece <+: frames id ∧ d.piece ≠ frames id

/-- Where the send at the head of the queue stands. -/
inductive Stage (frames : Nat → Bytes) (d : Division) (p : PendingSend) : Prop
  | new (begun : d.begun? = none) (rest : p.rest = frames p.id) (mem : p.id ∉ d.complete)
  | begun (begun : d.begun? = some p.id) (rest : frames p.id = d.piece ++ p.rest)
  | written (begun : d.begun? = none) (rest : p.rest = []) (mem : p.id ∈ d.complete)

/-- A send that waits behind others has not begun. -/
structure Waits (frames : Nat → Bytes) (d : Division) (p : PendingSend) : Prop where
  rest : p.rest = frames p.id
  not_complete : p.id ∉ d.complete
  not_begun : d.begun? ≠ some p.id

/-- The division fits the queue. -/
def Fits (frames : Nat → Bytes) (d : Division) : List PendingSend → Prop
  | [] => d.begun? = none
  | p :: others => Stage frames d p ∧ ∀ q ∈ others, Waits frames d q

/-- What the send at the head adds to the division when the channel has taken some more of its
frame: its frame is whole then, or it has begun. -/
def write (d : Division) (id : Nat) (taken rest : Bytes) : Division :=
  if rest = [] then ⟨if id ∈ d.complete then d.complete else d.complete ++ [id], none, []⟩
  else ⟨d.complete, some id, d.piece ++ taken⟩

variable {frames : Nat → Bytes} {d : Division} {turns : List Nat} {bytes : Bytes} {p : PendingSend}

theorem write_nil (id : Nat) (taken : Bytes) :
    d.write id taken [] =
      ⟨if id ∈ d.complete then d.complete else d.complete ++ [id], none, []⟩ := if_pos rfl

theorem write_of_ne_nil (id : Nat) (taken : Bytes) {rest : Bytes} (h : rest ≠ []) :
    d.write id taken rest = ⟨d.complete, some id, d.piece ++ taken⟩ := if_neg h

theorem noteTurn_of_not_mem {id : Nat} (h : id ∉ turns) : noteTurn turns id = turns ++ [id] :=
  if_neg h

theorem noteTurn_of_mem {id : Nat} (h : id ∈ turns) : noteTurn turns id = turns := if_pos h

/-- While no frame has begun, the turns are the whole frames, and nothing else was taken. -/
theorem Of.of_begun_eq_none (hd : d.Of frames turns bytes) (h : d.begun? = none) :
    turns = d.complete ∧ bytes = d.complete.flatMap frames := by
  have hturns := hd.turns_eq
  have hbytes := hd.bytes_eq
  rw [h, Option.toList_none, List.append_nil] at hturns
  rw [hd.piece_eq_nil h, List.append_nil] at hbytes
  exact ⟨hturns, hbytes⟩

theorem Of.turns_of_begun_eq_some (hd : d.Of frames turns bytes) {id : Nat}
    (h : d.begun? = some id) : turns = d.complete ++ [id] ∧ id ∉ d.complete := by
  have hturns := hd.turns_eq
  have hnodup := hd.nodup
  rw [h, Option.toList_some] at hturns
  rw [hturns, List.nodup_append] at hnodup
  exact ⟨hturns, fun hmem => hnodup.2.2 id hmem id List.mem_cons_self rfl⟩

/-- A first part of a frame is begun by a send that had no turn before. -/
theorem Of.begin (hd : d.Of frames turns bytes) (hbegun : d.begun? = none) {id : Nat}
    (hmem : id ∉ d.complete) {taken rest : Bytes} (hframe : frames id = taken ++ rest)
    (hrest : rest ≠ []) :
    (⟨d.complete, some id, d.piece ++ taken⟩ : Division).Of frames (noteTurn turns id)
      (bytes ++ taken) := by
  obtain ⟨hturns, hbytes⟩ := hd.of_begun_eq_none hbegun
  have hnot : id ∉ turns := hturns ▸ hmem
  rw [noteTurn_of_not_mem hnot, hd.piece_eq_nil hbegun, List.nil_append]
  exact {
    turns_eq := congrArg (· ++ [id]) hturns
    nodup := List.concat_eq_append ▸ List.Nodup.concat hnot hd.nodup
    bytes_eq := congrArg (· ++ taken) hbytes
    piece_eq_nil := fun h => by cases h
    proper := fun id' h => by
      cases h
      refine ⟨⟨rest, hframe.symm⟩, fun heq => hrest ?_⟩
      rw [hframe] at heq
      exact List.self_eq_append_right.mp heq }

/-- More of a frame that has begun. -/
theorem Of.goOn (hd : d.Of frames turns bytes) {id : Nat} (hbegun : d.begun? = some id)
    {taken rest : Bytes} (hframe : frames id = d.piece ++ (taken ++ rest)) (hrest : rest ≠ []) :
    (⟨d.complete, some id, d.piece ++ taken⟩ : Division).Of frames (noteTurn turns id)
      (bytes ++ taken) := by
  obtain ⟨hturns, -⟩ := hd.turns_of_begun_eq_some hbegun
  have hmem : id ∈ turns := hturns ▸ List.mem_append_right _ List.mem_cons_self
  rw [noteTurn_of_mem hmem]
  exact {
    turns_eq := hturns
    nodup := hd.nodup
    bytes_eq := by rw [hd.bytes_eq, List.append_assoc]
    piece_eq_nil := fun h => by cases h
    proper := fun id' h => by
      cases h
      rw [← List.append_assoc] at hframe
      refine ⟨⟨rest, hframe.symm⟩, fun heq => hrest ?_⟩
      rw [hframe] at heq
      exact List.self_eq_append_right.mp heq }

/-- The last of a frame: the sends whose frames are whole are one more. -/
theorem Of.complete (hd : d.Of frames turns bytes) {id : Nat} (hmem : id ∉ d.complete)
    (hbegun : d.begun? = none ∨ d.begun? = some id) {taken : Bytes}
    (hframe : frames id = d.piece ++ taken) :
    (⟨d.complete ++ [id], none, []⟩ : Division).Of frames (noteTurn turns id) (bytes ++ taken) := by
  have hturns : noteTurn turns id = d.complete ++ [id] := by
    rcases hbegun with hbegun | hbegun
    · obtain ⟨hturns, -⟩ := hd.of_begun_eq_none hbegun
      rw [hturns, noteTurn_of_not_mem hmem]
    · obtain ⟨hturns, -⟩ := hd.turns_of_begun_eq_some hbegun
      rw [hturns, noteTurn_of_mem (List.mem_append_right _ List.mem_cons_self)]
  have hnodup : d.complete.Nodup := by
    have hnodup := hd.nodup
    rw [hd.turns_eq, List.nodup_append] at hnodup
    exact hnodup.1
  exact {
    turns_eq := by rw [hturns, Option.toList_none, List.append_nil]
    nodup := by
      rw [hturns]
      exact List.concat_eq_append ▸ List.Nodup.concat hmem hnodup
    bytes_eq := by
      rw [hd.bytes_eq, List.append_assoc, ← hframe, List.flatMap_append, List.flatMap_singleton,
        List.append_nil]
    piece_eq_nil := fun _ => rfl
    proper := fun id' h => by cases h }

/-- **Writing keeps the division.**  The send at the head has had some more of its frame taken. -/
theorem Of.write (hd : d.Of frames turns bytes) (hs : d.Stage frames p) {taken rest : Bytes}
    (hrest : p.rest = taken ++ rest) :
    (d.write p.id taken rest).Of frames (noteTurn turns p.id) (bytes ++ taken) := by
  by_cases hnil : rest = []
  · subst hnil
    rw [List.append_nil] at hrest
    rw [write_nil]
    cases hs with
    | new hbegun hframe hmem =>
      rw [if_neg hmem]
      refine hd.complete hmem (Or.inl hbegun) ?_
      rw [hd.piece_eq_nil hbegun, List.nil_append, ← hrest, hframe]
    | begun hbegun hframe =>
      have hmem := (hd.turns_of_begun_eq_some hbegun).2
      rw [if_neg hmem]
      exact hd.complete hmem (Or.inr hbegun) (hrest ▸ hframe)
    | written hbegun hnothing hmem =>
      -- nothing was left to write
      obtain ⟨hturns, hbytes⟩ := hd.of_begun_eq_none hbegun
      rw [if_pos hmem, noteTurn_of_mem (hturns ▸ hmem), ← hrest, hnothing, List.append_nil]
      exact {
        turns_eq := by rw [hturns, Option.toList_none, List.append_nil]
        nodup := hd.nodup
        bytes_eq := by rw [hbytes, List.append_nil]
        piece_eq_nil := fun _ => rfl
        proper := fun id' h => by cases h }
  · rw [write_of_ne_nil p.id taken hnil]
    cases hs with
    | new hbegun hframe hmem => exact hd.begin hbegun hmem (hframe ▸ hrest) hnil
    | begun hbegun hframe => exact hd.goOn hbegun (hrest ▸ hframe) hnil
    | written hbegun hnothing hmem =>
      rw [hnothing] at hrest
      exact absurd (List.append_eq_nil_iff.mp hrest.symm).2 hnil

/-! ### The queue -/

theorem mem_complete_write {id other : Nat} {taken rest : Bytes} :
    other ∈ (d.write id taken rest).complete ↔ other ∈ d.complete ∨ other = id ∧ rest = [] := by
  by_cases hnil : rest = []
  · subst hnil
    rw [write_nil]
    dsimp only
    split
    · next hmem =>
      refine ⟨Or.inl, ?_⟩
      rintro (h | ⟨rfl, -⟩)
      · exact h
      · exact hmem
    · rw [List.mem_append, List.mem_singleton]
      simp
  · rw [write_of_ne_nil id taken hnil]
    simp [hnil]

theorem begun?_write {id : Nat} {taken rest : Bytes} :
    (d.write id taken rest).begun? = if rest = [] then none else some id := by
  unfold write
  split <;> rfl

/-- After writing, the head has begun, or its frame is out. -/
theorem Stage.write (hd : d.Of frames turns bytes) (hs : d.Stage frames p) {taken rest : Bytes}
    (hrest : p.rest = taken ++ rest) :
    (d.write p.id taken rest).Stage frames { p with rest := rest } := by
  by_cases hnil : rest = []
  · subst hnil
    exact .written begun?_write rfl (mem_complete_write.mpr (Or.inr ⟨rfl, rfl⟩))
  · rw [write_of_ne_nil p.id taken hnil]
    refine .begun rfl ?_
    dsimp only
    rw [List.append_assoc, ← hrest]
    cases hs with
    | new hbegun hframe _ => rw [hd.piece_eq_nil hbegun, List.nil_append, hframe]
    | begun _ hframe => exact hframe
    | written _ hnothing _ =>
      rw [hnothing] at hrest
      exact absurd (List.append_eq_nil_iff.mp hrest.symm).2 hnil

/-- Nobody else begins by it. -/
theorem Waits.write {q : PendingSend} (hq : d.Waits frames q) {id : Nat} (hne : q.id ≠ id)
    (taken rest : Bytes) : (d.write id taken rest).Waits frames q where
  rest := hq.rest
  not_complete := by
    rw [mem_complete_write]
    rintro (h | ⟨h, -⟩)
    · exact hq.not_complete h
    · exact hne h
  not_begun := by
    rw [begun?_write]
    split
    · exact fun h => by cases h
    · exact fun h => hne (Option.some.inj h).symm

/-- Who waits is new when it gets to the head. -/
theorem Waits.stage {q : PendingSend} (hq : d.Waits frames q) (hbegun : d.begun? = none) :
    d.Stage frames q := .new hbegun hq.rest hq.not_complete

end Division

end SharedWriter
end TagRental

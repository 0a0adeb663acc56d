import TagRental.Proofs.Json.Members
import TagRental.Proofs.Json.Turns

/-!
# Objects that were read

Whatever the text, the members of an object that the reader returns stand in ascending order of
their keys, so no key is there twice.  The reader puts a member into an object when the byte behind
its value is a comma or a closing brace, and in no other way; so it is enough that the objects on
its stack ascend and that a value it holds, if it is an object, does.  `Reader.KeysAscend` says that
of a reader between two bytes, and `Reader.keepsOrder_step` that a byte keeps it.

It follows that an object that was read is the object that its own members amount to
(`ofList_of_parse`): there is nothing more to say about it than what it holds under which key.
-/

namespace TagRental
namespace Json

/-- An object has ascending keys; about any other value nothing is said. -/
def KeysAscend : Json → Prop
  | .object m => Members.Ascending m
  | _ => True

/-- An open object has ascending keys. -/
def Frame.KeysAscend : Frame → Prop
  | .list _ => True
  | .object done => Members.Ascending done
  | .member done _ => Members.Ascending done

/-- A value that is held, or that a name stands for, has ascending keys. -/
def Phase.KeysAscend : Phase → Prop
  | .complete v => v.KeysAscend
  | .name _ v => v.KeysAscend
  | _ => True

/-- A number is no object. -/
theorem Numeral.keysAscend_value {n : Numeral} {v : Json} (h : n.value = .ok v) : v.KeysAscend := by
  unfold Numeral.value at h
  dsimp only at h
  split at h
  case h_5 | h_6 =>
    split at h
    · cases h
      trivial
    · split at h <;> cases h <;> trivial
  case h_7 | h_8 | h_9 | h_10 =>
    split at h
    · cases h
      trivial
    · cases h
  all_goals cases h
  trivial

namespace Reader

/-- Nothing that the reader holds has keys out of order. -/
structure KeysAscend (r : Reader) : Prop where
  phase : r.phase.KeysAscend
  stack : ∀ f ∈ r.stack, f.KeysAscend

/-- The outcome of a byte, if there is one, has its keys in order. -/
def KeepsOrder (s : Step) : Prop := ∀ r, s = .ok r → r.KeysAscend

theorem keysAscend_of_settled {p p' : Phase} (h : Settled p p') (hp : p.KeysAscend) :
    p'.KeysAscend := by
  cases h with
  | same => exact hp
  | number value => exact Numeral.keysAscend_value value

/-- One turn leaves keys in order. -/
theorem keysAscend_of_turn {p p' : Phase} {stack stack' : List Frame} (h : Turn p stack p' stack')
    (hp : p.KeysAscend) (hstack : ∀ f ∈ stack, f.KeysAscend) :
    p'.KeysAscend ∧ ∀ f ∈ stack', f.KeysAscend := by
  cases h with
  | stay => exact ⟨hp, hstack⟩
  | spell | spelled => exact ⟨hp, hstack⟩
  | beginNull | beginTrue | beginFalse | number | quote | text | key => exact ⟨trivial, hstack⟩
  | openList => exact ⟨trivial, List.forall_mem_cons.mpr ⟨trivial, hstack⟩⟩
  | openObject => exact ⟨trivial, List.forall_mem_cons.mpr ⟨Members.ascending_nil, hstack⟩⟩
  | colon =>
    obtain ⟨hdone, hrest⟩ := List.forall_mem_cons.mp hstack
    exact ⟨trivial, List.forall_mem_cons.mpr ⟨hdone, hrest⟩⟩
  | nextItem =>
    exact ⟨trivial, List.forall_mem_cons.mpr ⟨trivial, (List.forall_mem_cons.mp hstack).2⟩⟩
  | nextMember =>
    obtain ⟨hdone, hrest⟩ := List.forall_mem_cons.mp hstack
    exact ⟨trivial, List.forall_mem_cons.mpr ⟨Members.Ascending.insert _ _ hdone, hrest⟩⟩
  | closeEmptyList | closeList => exact ⟨trivial, (List.forall_mem_cons.mp hstack).2⟩
  | closeEmptyObject => exact List.forall_mem_cons.mp hstack
  | closeObject =>
    obtain ⟨hdone, hrest⟩ := List.forall_mem_cons.mp hstack
    exact ⟨Members.Ascending.insert _ _ hdone, hrest⟩

/-- **One byte** leaves keys in order. -/
theorem keepsOrder_step {r : Reader} (h : r.KeysAscend) (b : UInt8) : KeepsOrder (r.step b) := by
  intro t ht
  obtain ⟨p, hsettled, hturn⟩ := turn_of_step ht
  obtain ⟨hphase, hstack⟩ :=
    keysAscend_of_turn hturn (keysAscend_of_settled hsettled h.phase) h.stack
  exact ⟨hphase, hstack⟩

theorem keepsOrder_run {r : Reader} (h : r.KeysAscend) (bytes : Bytes) : KeepsOrder (r.run bytes) :=
  fun _ ht => keeps_run (fun _ t b h hs => keepsOrder_step h b t hs) h ht

/-- The value at the end of a text. -/
theorem KeysAscend.finish {r : Reader} (h : r.KeysAscend) {v : Json} (hv : r.finish = .ok v) :
    v.KeysAscend := by
  obtain ⟨p, stack, place⟩ := r
  have hp := h.phase
  unfold Reader.finish at hv
  dsimp only at hp hv
  split at hv
  · split at hv
    · cases hv
      exact hp
    · cases hv
  · split at hv
    · next hn =>
      split at hv
      · cases hv
        exact Numeral.keysAscend_value hn
      · cases hv
    · cases hv
  all_goals cases hv

end Reader

/-- **The keys of an object that was read ascend.** -/
theorem ascending_of_parse {bytes : Bytes} {m : Members} (h : parse bytes = .ok (.object m)) :
    m.Ascending := by
  have hstart : Reader.start.KeysAscend := ⟨trivial, fun f hf => absurd hf List.not_mem_nil⟩
  unfold parse at h
  cases hr : Reader.start.run bytes with
  | error f =>
    rw [hr] at h
    cases h
  | ok r =>
    rw [hr] at h
    exact (Reader.keepsOrder_run hstart bytes r hr).finish h

/-- An object that was read is what its own members amount to. -/
theorem ofList_of_parse {bytes : Bytes} {m : Members} (h : parse bytes = .ok (.object m)) :
    Members.ofList m = m :=
  Members.ofList_of_ascending (ascending_of_parse h)

end Json
end TagRental

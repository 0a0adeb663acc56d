import TagRental.Link.Writer

/-!
# What a channel has taken

However a channel behaves, an attempt to write comes to one thing: the channel has taken a first
part of the bytes, and the rest is still with the writer.  How the attempt ends says what this rest
is, unless it failed (`send_split`): after a failure nobody knows how many bytes are gone.

Two kinds of channel are named here.  One that *never fails* may cut what it is offered as it likes
and may let the writer wait, also for a flush.  A *prompt* one never lets the writer wait, but may
fail, at any byte, and go on as if nothing had happened.
-/

namespace TagRental

/-- The end of an attempt to write is one that can be with this rest. -/
def WriteEnd.Leaves (rest : Bytes) : WriteEnd → Prop
  | .finished => rest = []
  | .failed _ => True
  | .waiting bytes => bytes = rest

namespace Channel

/-- The channel takes something of what it is offered, or it lets the writer wait. -/
structure NeverFails (c : Channel) : Prop where
  write : ∀ seen offered, 0 < offered →
    (∃ count, 0 < count ∧ c.write seen offered = .takes count) ∨ c.write seen offered = .waits
  flush : ∀ seen fault, c.flush seen ≠ .fails fault

/-- The channel takes something of what it is offered, or it fails. -/
structure Prompt (c : Channel) : Prop where
  write : ∀ seen offered, 0 < offered →
    (∃ count, 0 < count ∧ c.write seen offered = .takes count) ∨
      ∃ fault, c.write seen offered = .fails fault
  flush : ∀ seen, c.flush seen ≠ .waits

section Split

variable (c : Channel) (seen : Written) (bytes : Bytes)

/-- Bytes that are offered are taken up to some place. -/
theorem push_split :
    ∃ taken rest, bytes = taken ++ rest ∧
      (c.push seen bytes).1.bytes = seen.bytes ++ taken ∧ (c.push seen bytes).2.Leaves rest := by
  fun_induction c.push seen bytes with
  | case1 seen bytes hempty =>
    refine ⟨[], [], ?_, (List.append_nil _).symm, rfl⟩
    rw [List.isEmpty_iff.mp hempty, List.append_nil]
  | case2 seen bytes _ _ => exact ⟨[], bytes, rfl, (List.append_nil _).symm, rfl⟩
  | case3 seen bytes _ fault _ => exact ⟨[], bytes, rfl, (List.append_nil _).symm, trivial⟩
  | case4 seen bytes _ count _ _ ih =>
    obtain ⟨taken, rest, hsplit, hbytes, hend⟩ := ih
    refine ⟨bytes.take count ++ taken, rest, ?_, ?_, hend⟩
    · rw [List.append_assoc, ← hsplit, List.take_append_drop]
    · rw [hbytes, List.append_assoc]
  | case5 seen bytes _ _ _ _ => exact ⟨[], bytes, rfl, (List.append_nil _).symm, trivial⟩

/-- A flush takes no bytes, and leaves none to write. -/
theorem settle_split :
    (c.settle seen).1.bytes = seen.bytes ∧ (c.settle seen).2.Leaves [] := by
  unfold settle
  dsimp only
  split
  · exact ⟨rfl, rfl⟩
  · exact ⟨rfl, trivial⟩
  · exact ⟨rfl, rfl⟩

/-- **Writing takes a first part**, and the end of the attempt says what is left of it. -/
theorem send_split :
    ∃ taken rest, bytes = taken ++ rest ∧
      (c.send seen bytes).1.bytes = seen.bytes ++ taken ∧ (c.send seen bytes).2.Leaves rest := by
  obtain ⟨taken, rest, hsplit, hbytes, hend⟩ := c.push_split seen bytes
  refine ⟨taken, rest, hsplit, ?_⟩
  unfold send
  split
  · next seen' hpush =>
    rw [hpush] at hbytes hend
    obtain rfl : rest = [] := hend
    obtain ⟨hsettled, hleaves⟩ := c.settle_split seen'
    exact ⟨hsettled.trans hbytes, hleaves⟩
  · next seen' other _ hpush =>
    rw [hpush] at hbytes hend
    exact ⟨hbytes, hend⟩

end Split

section Kinds

variable {c : Channel}

/-- No attempt to write on a channel that never fails fails. -/
theorem NeverFails.push_ne_failed (hc : c.NeverFails) (seen : Written) (bytes : Bytes)
    (fault : ChannelFault) : (c.push seen bytes).2 ≠ .failed fault := by
  have hpos : ∀ {bytes : Bytes}, ¬bytes.isEmpty = true → 0 < bytes.length := fun h =>
    List.length_pos_iff.mpr fun hnil => h (List.isEmpty_iff.mpr hnil)
  fun_induction c.push seen bytes with
  | case1 | case2 => exact WriteEnd.noConfusion
  | case3 seen bytes hne reason hfails =>
    rcases hc.write seen bytes.length (hpos hne) with ⟨count, -, htakes⟩ | hwaits
    · cases hfails.symm.trans htakes
    · cases hfails.symm.trans hwaits
  | case4 seen bytes _ count _ _ ih => exact ih
  | case5 seen bytes hne count htakes hcount =>
    rcases hc.write seen bytes.length (hpos hne) with ⟨n, hn, htakes'⟩ | hwaits
    · cases htakes.symm.trans htakes'
      exact absurd ⟨hn, hpos hne⟩ hcount
    · cases htakes.symm.trans hwaits

theorem NeverFails.send_ne_failed (hc : c.NeverFails) (seen : Written) (bytes : Bytes)
    (fault : ChannelFault) : (c.send seen bytes).2 ≠ .failed fault := by
  unfold send
  split
  · next seen' _ =>
    unfold settle
    dsimp only
    split
    · exact WriteEnd.noConfusion
    · next reason hfails => exact absurd hfails (hc.flush seen' reason)
    · exact WriteEnd.noConfusion
  · next seen' other _ hpush =>
    have hend := hc.push_ne_failed seen bytes fault
    rwa [hpush] at hend

/-- No attempt to write on a prompt channel has to wait. -/
theorem Prompt.push_ne_waiting (hc : c.Prompt) (seen : Written) (bytes rest : Bytes) :
    (c.push seen bytes).2 ≠ .waiting rest := by
  fun_induction c.push seen bytes with
  | case1 | case3 | case5 => exact WriteEnd.noConfusion
  | case2 seen bytes hne hwaits =>
    have hpos : 0 < bytes.length :=
      List.length_pos_iff.mpr fun hnil => hne (List.isEmpty_iff.mpr hnil)
    rcases hc.write seen bytes.length hpos with ⟨count, -, htakes⟩ | ⟨fault, hfails⟩
    · cases hwaits.symm.trans htakes
    · cases hwaits.symm.trans hfails
  | case4 seen bytes _ count _ _ ih => exact ih

theorem Prompt.send_ne_waiting (hc : c.Prompt) (seen : Written) (bytes rest : Bytes) :
    (c.send seen bytes).2 ≠ .waiting rest := by
  unfold send
  split
  · next seen' _ =>
    unfold settle
    dsimp only
    split
    · exact WriteEnd.noConfusion
    · exact WriteEnd.noConfusion
    · next hwaits => exact absurd hwaits (hc.flush seen')
  · next seen' other _ hpush =>
    have hend := hc.push_ne_waiting seen bytes rest
    rwa [hpush] at hend

/-- A channel that takes so many bytes in a call, and lets the writer wait when it is full, never
fails. -/
theorem neverFails_bounded {chunk : Nat} (h : 0 < chunk) (capacity : Option Nat) :
    (bounded (some chunk) capacity .waits false).NeverFails where
  write := by
    intro seen offered hoffered
    have hroom (room : Nat) :
        let reply := if room = 0 then WriteReply.waits else .takes (min (min room offered) chunk)
        (∃ count, 0 < count ∧ reply = .takes count) ∨ reply = .waits := by
      by_cases hfull : room = 0
      · exact Or.inr (if_pos hfull)
      · exact Or.inl ⟨_, by omega, if_neg hfull⟩
    cases capacity with
    | none => exact hroom offered
    | some n => exact hroom (n - seen.bytes.length)
  flush := fun _ _ => FlushReply.noConfusion

/-- A channel without a bound on what it takes in all never lets the writer wait. -/
theorem prompt_bounded {chunk : Nat} (h : 0 < chunk) (whenFull : WhenFull) :
    (bounded (some chunk) none whenFull false).Prompt where
  write := by
    intro seen offered hoffered
    exact Or.inl ⟨min (min offered offered) chunk, by omega,
      if_neg (Nat.pos_iff_ne_zero.mp hoffered)⟩
  flush := fun _ => FlushReply.noConfusion

/-- A channel that takes at most so many bytes in its first call, fails in the second one, and takes
everything after that. -/
def stumbling (count : Nat) : Channel where
  write seen offered :=
    match seen.calls with
    | 0 => .takes (min count offered)
    | 1 => .fails ⟨.other, "device busy"⟩
    | _ => .takes offered
  flush _ := .done

theorem prompt_stumbling {count : Nat} (h : 0 < count) : (stumbling count).Prompt where
  write := by
    intro seen offered hoffered
    unfold stumbling
    dsimp only
    split
    · exact Or.inl ⟨_, Nat.lt_min.mpr ⟨h, hoffered⟩, rfl⟩
    · exact Or.inr ⟨_, rfl⟩
    · exact Or.inl ⟨_, hoffered, rfl⟩
  flush := fun _ => FlushReply.noConfusion

end Kinds

end Channel
end TagRental

import TagRental.Proofs.Json.ScalarReading

/-!
# Values that were written are read back

`Json.chars` writes a value and `Json.parse` reads one.  This file proves that reading what was
written gives the value again, up to the two things that an object does not keep: the order of its
members, and all but the last of several members with one key.  What is read is therefore
`Json.normal` of what was written.

## Which values

`Json.Writable` says for which values this holds: integers that the reader takes as integers,
strings without restriction, and lists and objects nested no deeper than the reader follows.
Numbers that are no integers are left out, since the reader does not always find the nearest one.

## The argument

The machine waits for a value in three phases, and in each of them it reads the bytes of the value
and then *holds* it, with the stack as it was (`ReadsBack`).  Holding is not always being complete:
a number is only known to have ended when the next byte is seen, so `Phase.Holds` has a case for a
number that has a value as it stands.  With that the rest of a list and the rest of an object are
read by induction on the items, and the values themselves by induction on `Writable`; the depth that
is left decreases where a list or an object is opened.
-/

namespace TagRental
namespace Json

/-! ## What is kept of a value -/

mutual

/-- What is read of a value that was written. -/
def normal : Json → Json
  | null => null
  | bool b => bool b
  | int n => int n
  | real x => real x
  | text s => text s
  | list items => list (normalItems items)
  | object members => object (normalMembers [] members)

/-- What is read of the items of a list. -/
def normalItems : List Json → List Json
  | [] => []
  | item :: items => normal item :: normalItems items

/-- What is read of the members of an object, behind some that were read already. -/
def normalMembers (done : Members) : List (String × Json) → Members
  | [] => done
  | (key, value) :: members => normalMembers (done.insert key (normal value)) members

end

/-- The value can be written and read back: no number in it is other than an integer that the reader
takes as one, and it is nested no deeper than `depth`. -/
inductive Writable : Nat → Json → Prop where
  | null (depth : Nat) : Writable depth .null
  | bool (depth : Nat) (b : Bool) : Writable depth (.bool b)
  | int (depth : Nat) {n : Int} (low : -9223372036854775808 ≤ n) (high : n < 18446744073709551616) :
      Writable depth (.int n)
  | text (depth : Nat) (s : String) : Writable depth (.text s)
  | list {depth : Nat} {items : List Json} (h : ∀ item ∈ items, Writable depth item) :
      Writable (depth + 1) (.list items)
  | object {depth : Nat} {members : List (String × Json)} (h : ∀ m ∈ members, Writable depth m.2) :
      Writable (depth + 1) (.object members)

/-- There may be more room than a value needs. -/
theorem Writable.mono {depth depth' : Nat} {v : Json} (h : Writable depth v)
    (hle : depth ≤ depth') : Writable depth' v := by
  induction h generalizing depth' with
  | null => exact .null depth'
  | bool _ b => exact .bool depth' b
  | int _ low high => exact .int depth' low high
  | text _ s => exact .text depth' s
  | list _ ih =>
    obtain ⟨d, rfl⟩ := Nat.exists_eq_add_of_le hle
    rw [Nat.add_right_comm]
    exact .list fun item hitem => ih item hitem (Nat.le_add_right _ d)
  | object _ ih =>
    obtain ⟨d, rfl⟩ := Nat.exists_eq_add_of_le hle
    rw [Nat.add_right_comm]
    exact .object fun m hm => ih m hm (Nat.le_add_right _ d)

/-- A number of 64 bits can be written. -/
theorem Writable.natCast (depth : Nat) {n : Nat} (h : n < UInt64.size) :
    Writable depth (.int n) := by
  simp only [UInt64.size] at h
  exact .int depth (by omega) (by omega)

/-! ## Before and behind a value -/

/-- A value may begin. -/
inductive Phase.AwaitsValue : Phase → Prop where
  | value : AwaitsValue .value
  | firstItem : AwaitsValue .firstItem
  | nextItem : AwaitsValue .nextItem

/-- A value has been read: it is complete, or it is that of a number, which the byte behind it
ends. -/
inductive Phase.Holds (v : Json) : Phase → Prop where
  | complete : Holds v (.complete v)
  | number {n : Numeral} (value : n.value = .ok v) : Holds v (.number n)

theorem Numeral.IsEnd.not_space {b : UInt8} (h : IsEnd b) : isSpace b = false := by
  rcases h with rfl | rfl | rfl <;> rfl

namespace Reader

variable {p : Phase} {stack : List Frame} {place : Place}

theorem step_of_awaitsValue (hp : p.AwaitsValue) {b : UInt8} (hspace : isSpace b = false)
    (hclose : b ≠ 0x5D) :
    step ⟨p, stack, place⟩ b = beginValue ⟨p, stack, place.after b⟩ b := by
  cases hp with
  | value =>
    rw [step_of_settle rfl]
    simp only [advance, consume, hspace, Bool.false_eq_true, if_false]
  | firstItem =>
    rw [step_of_settle rfl]
    simp only [advance, consume, hspace, Bool.false_eq_true, if_false, if_neg hclose]
    split <;> rfl
  | nextItem =>
    rw [step_of_settle rfl]
    simp only [advance, consume, hspace, Bool.false_eq_true, if_false, if_neg hclose]

/-- Behind a value that was read, the next byte is read as behind a complete one. -/
theorem step_of_holds {v : Json} (hp : p.Holds v) {b : UInt8} (hb : Numeral.IsEnd b) :
    step ⟨p, stack, place⟩ b = behind ⟨.complete v, stack, place.after b⟩ v b := by
  have hcomplete : consume (advance ⟨.complete v, stack, place⟩ b) b =
      behind ⟨.complete v, stack, place.after b⟩ v b := by
    simp only [advance, consume, hb.not_space, Bool.false_eq_true, if_false]
  rw [← hcomplete]
  cases hp with
  | complete => exact step_of_settle rfl
  | number hvalue =>
    refine step_of_settle ?_
    simp only [settle, Numeral.step_of_isEnd hvalue hb, hvalue]

/-- The end of the text behind a value that was read. -/
theorem finish_of_holds {v : Json} (hp : p.Holds v) : finish ⟨p, [], place⟩ = .ok v := by
  cases hp with
  | complete => rfl
  | number hvalue => simp only [finish, hvalue, List.isEmpty_nil, if_true]

end Reader

/-- From wherever a value may begin, with room for so many more open lists and objects, the machine
reads the written form of the first value and then holds the second, with the stack as it was. -/
def ReadsBack (depth : Nat) (v w : Json) : Prop :=
  ∀ p : Phase, p.AwaitsValue → ∀ (stack : List Frame) (place : Place),
    stack.length + depth ≤ Reader.maxDepth →
    ∃ p' : Phase, p'.Holds w ∧
      Reader.run ⟨p, stack, place⟩ (Utf8.encodeChars v.chars) =
        .ok ⟨p', stack, place.past (Utf8.encodeChars v.chars)⟩

/-! ## Scalars -/

/-- A value of which the reader knows at its last byte that it is complete. -/
theorem ReadsBack.of_complete {depth : Nat} {v w : Json} {b : UInt8} {bytes : Bytes} (p' : Phase)
    (hbytes : Utf8.encodeChars v.chars = b :: bytes) (hspace : isSpace b = false)
    (hclose : b ≠ 0x5D)
    (hbegin : ∀ p stack place, Reader.beginValue ⟨p, stack, place⟩ b = .ok ⟨p', stack, place⟩)
    (hrun : ∀ stack place,
      Reader.run ⟨p', stack, place⟩ bytes = .ok ⟨.complete w, stack, place.past bytes⟩) :
    ReadsBack depth v w := by
  intro p hp stack place _
  refine ⟨.complete w, .complete, ?_⟩
  rw [hbytes]
  have hstep : Reader.step ⟨p, stack, place⟩ b = .ok ⟨p', stack, place.after b⟩ := by
    rw [Reader.step_of_awaitsValue hp hspace hclose, hbegin]
  exact Reader.run_cons_of_eq_ok hstep (hrun stack (place.after b))

theorem readsBack_null (depth : Nat) : ReadsBack depth .null .null :=
  .of_complete _ rfl rfl (by decide) (fun _ _ _ => rfl) (fun _ _ => rfl)

theorem readsBack_bool (depth : Nat) (b : Bool) : ReadsBack depth (.bool b) (.bool b) := by
  cases b with
  | true => exact .of_complete _ rfl rfl (by decide) (fun _ _ _ => rfl) (fun _ _ => rfl)
  | false => exact .of_complete _ rfl rfl (by decide) (fun _ _ _ => rfl) (fun _ _ => rfl)

/-- The bytes of a written string: a quote, the characters, and a quote. -/
theorem encodeChars_textChars (s : String) :
    Utf8.encodeChars (textChars s) =
      0x22 :: (Utf8.encodeChars (s.toList.flatMap escapeChar) ++ [0x22]) := by
  rw [textChars, Utf8.encodeChars_append]
  rfl

theorem readsBack_text (depth : Nat) (s : String) : ReadsBack depth (.text s) (.text s) :=
  .of_complete (.quote (.start false)) (encodeChars_textChars s) rfl (by decide)
    (fun _ _ _ => rfl) (fun _ _ => Reader.run_quoted s false)

/-- A byte with which a number begins. -/
theorem digit_bounds_of_step_signed {b : UInt8} {n : Numeral}
    (h : (Numeral.signed false).step b = .more n) : 0x30 ≤ b.toNat ∧ b.toNat ≤ 0x39 := by
  cases hd : digit? b with
  | none => simp [Numeral.step, Numeral.signed, hd] at h
  | some d =>
    unfold digit? at hd
    split at hd
    · next hb => simpa only [UInt8.le_iff_toNat_le, UInt8.reduceToNat] using hb
    · cases hd

/-- The first digit of a number begins a value. -/
theorem Reader.step_digit {p : Phase} (hp : p.AwaitsValue) {b : UInt8} {n : Numeral}
    (h : (Numeral.signed false).step b = .more n) (stack : List Frame) (place : Place) :
    Reader.step ⟨p, stack, place⟩ b = .ok ⟨.number n, stack, place.after b⟩ := by
  have hb := digit_bounds_of_step_signed h
  have hne : ∀ c : UInt8, c.toNat < 0x30 ∨ 0x39 < c.toNat → b ≠ c := by
    rintro c hc rfl
    omega
  have hspace : isSpace b = false := by
    simp only [isSpace, Bool.or_eq_false_iff, beq_eq_false_iff_ne]
    exact ⟨⟨⟨hne _ (by decide), hne _ (by decide)⟩, hne _ (by decide)⟩, hne _ (by decide)⟩
  rw [step_of_awaitsValue hp hspace (hne _ (by decide))]
  simp only [beginValue, if_neg (hne 0x6E (by decide)), if_neg (hne 0x74 (by decide)),
    if_neg (hne 0x66 (by decide)), if_neg (hne 0x22 (by decide)), if_neg (hne 0x2D (by decide)),
    if_neg (hne 0x5B (by decide)), if_neg (hne 0x7B (by decide)), h]

/-- An integer that the reader takes as one. -/
theorem readsBack_int (depth : Nat) {n : Int} (low : -9223372036854775808 ≤ n)
    (high : n < 18446744073709551616) : ReadsBack depth (.int n) (.int n) := by
  intro p hp stack place _
  by_cases hneg : n < 0
  · have htakes := Numeral.takes_toDigits true (n := n.natAbs) (by
      simp only [Numeral.largest, UInt64.size]; omega)
    have hvalue := Numeral.value_ofNat_true (n := n.natAbs) (by omega) (by
      simp only [Numeral.largestNegative]; omega)
    rw [show -(n.natAbs : Int) = n by omega] at hvalue
    refine ⟨_, .number hvalue, ?_⟩
    have hbytes : Utf8.encodeChars (Json.int n).chars =
        0x2D :: Utf8.encodeChars (Nat.toDigits 10 n.natAbs) := by
      rw [chars, intChars, if_pos hneg]
      rfl
    rw [hbytes]
    have hstep : Reader.step ⟨p, stack, place⟩ 0x2D =
        .ok ⟨.number (.signed true), stack, place.after 0x2D⟩ :=
      Reader.step_of_awaitsValue hp rfl (by decide)
    exact Reader.run_cons_of_eq_ok hstep (Reader.run_number htakes)
  · have htakes := Numeral.takes_toDigits false (n := n.natAbs) (by
      simp only [Numeral.largest, UInt64.size]; omega)
    have hvalue := Numeral.value_ofNat_false n.natAbs
    rw [show (n.natAbs : Int) = n by omega] at hvalue
    refine ⟨_, .number hvalue, ?_⟩
    rw [chars, intChars, if_neg hneg]
    cases hd : Utf8.encodeChars (Nat.toDigits 10 n.natAbs) with
    | nil =>
      -- a number has digits: without any, the machine would still wait for the first one
      rw [hd] at htakes
      have hstage : Numeral.Stage.minus = if n.natAbs = 0 then .zero else .whole :=
        congrArg Numeral.stage (Option.some.inj htakes)
      split at hstage <;> cases hstage
    | cons b bytes =>
      rw [hd, Numeral.takes] at htakes
      cases hs : (Numeral.signed false).step b with
      | more m =>
        rw [hs] at htakes
        exact Reader.run_cons_of_eq_ok (Reader.step_digit hp hs stack place)
          (Reader.run_number htakes)
      | ends => rw [hs] at htakes; cases htakes
      | fault cause => rw [hs] at htakes; cases htakes

/-! ## Lists -/

namespace Reader

variable {p : Phase} {stack : List Frame} {place : Place}

theorem step_openList (hp : p.AwaitsValue) (h : stack.length < maxDepth) (place : Place) :
    step ⟨p, stack, place⟩ 0x5B = .ok ⟨.firstItem, .list [] :: stack, place.after 0x5B⟩ := by
  have hbegin : beginValue ⟨p, stack, place.after 0x5B⟩ 0x5B =
      opening ⟨p, stack, place.after 0x5B⟩ (.list []) .firstItem := rfl
  rw [step_of_awaitsValue hp rfl (by decide), hbegin, opening, if_pos h]

theorem step_closeEmptyList :
    step ⟨.firstItem, .list [] :: stack, place⟩ 0x5D =
      .ok ⟨.complete (.list []), stack, place.after 0x5D⟩ := rfl

theorem step_commaInList {v : Json} (hp : p.Holds v) (done : List Json) :
    step ⟨p, .list done :: stack, place⟩ 0x2C =
      .ok ⟨.nextItem, .list (v :: done) :: stack, place.after 0x2C⟩ := by
  rw [step_of_holds hp (Or.inl rfl)]
  rfl

theorem step_closeList {v : Json} (hp : p.Holds v) (done : List Json) :
    step ⟨p, .list done :: stack, place⟩ 0x5D =
      .ok ⟨.complete (.list (v :: done).reverse), stack, place.after 0x5D⟩ := by
  rw [step_of_holds hp (Or.inr (Or.inl rfl))]
  rfl

/-- The rest of a list, behind an item that was read. -/
theorem run_itemsChars {depth : Nat} (items : List Json)
    (h : ∀ item ∈ items, ReadsBack depth item item.normal) {v : Json} (hp : p.Holds v)
    (done : List Json) (hdepth : stack.length + (depth + 1) ≤ maxDepth) :
    run ⟨p, .list done :: stack, place⟩ (Utf8.encodeChars (itemsChars items)) =
      .ok ⟨.complete (.list ((v :: done).reverse ++ normalItems items)), stack,
        place.past (Utf8.encodeChars (itemsChars items))⟩ := by
  induction items generalizing p v done place with
  | nil =>
    rw [normalItems, List.append_nil]
    exact run_cons_of_eq_ok (step_closeList hp done) rfl
  | cons item items ih =>
    obtain ⟨hitem, hitems⟩ := List.forall_mem_cons.mp h
    obtain ⟨p', hp', hrun⟩ := hitem .nextItem .nextItem (.list (v :: done) :: stack)
      (place.after 0x2C) (by rw [List.length_cons]; omega)
    have hbytes : Utf8.encodeChars (itemsChars (item :: items)) =
        0x2C :: (Utf8.encodeChars item.chars ++ Utf8.encodeChars (itemsChars items)) := by
      rw [itemsChars, List.cons_append, Utf8.encodeChars_cons, Utf8.encodeChars_append]
      rfl
    rw [hbytes, Place.past_cons, Place.past_append]
    refine run_cons_of_eq_ok (step_commaInList hp done) (run_append_of_eq_ok hrun ?_)
    rw [ih hitems hp' (v :: done), normalItems, List.reverse_cons, List.append_assoc]
    rfl

end Reader

theorem readsBack_list {depth : Nat} {items : List Json}
    (h : ∀ item ∈ items, ReadsBack depth item item.normal) :
    ReadsBack (depth + 1) (.list items) (Json.list items).normal := by
  intro p hp stack place hdepth
  rw [normal]
  refine ⟨_, .complete, ?_⟩
  have hroom : stack.length < Reader.maxDepth := by omega
  have hopen := Reader.step_openList hp hroom place
  cases items with
  | nil =>
    exact Reader.run_cons_of_eq_ok hopen (Reader.run_cons_of_eq_ok Reader.step_closeEmptyList rfl)
  | cons item items =>
    obtain ⟨hitem, hitems⟩ := List.forall_mem_cons.mp h
    obtain ⟨p', hp', hrun⟩ := hitem .firstItem .firstItem (.list [] :: stack) (place.after 0x5B)
      (by rw [List.length_cons]; omega)
    have hbytes : Utf8.encodeChars (Json.list (item :: items)).chars =
        0x5B :: (Utf8.encodeChars item.chars ++ Utf8.encodeChars (itemsChars items)) := by
      rw [chars, List.cons_append, Utf8.encodeChars_cons, Utf8.encodeChars_append]
      rfl
    rw [hbytes, Place.past_cons, Place.past_append]
    exact Reader.run_cons_of_eq_ok hopen
      (Reader.run_append_of_eq_ok hrun (Reader.run_itemsChars items hitems hp' [] hdepth))

/-! ## Objects -/

namespace Reader

variable {p : Phase} {stack : List Frame} {place : Place}

theorem step_openObject (hp : p.AwaitsValue) (h : stack.length < maxDepth) (place : Place) :
    step ⟨p, stack, place⟩ 0x7B = .ok ⟨.firstKey, .object [] :: stack, place.after 0x7B⟩ := by
  have hbegin : beginValue ⟨p, stack, place.after 0x7B⟩ 0x7B =
      opening ⟨p, stack, place.after 0x7B⟩ (.object []) .firstKey := rfl
  rw [step_of_awaitsValue hp rfl (by decide), hbegin, opening, if_pos h]

theorem step_closeEmptyObject :
    step ⟨.firstKey, .object [] :: stack, place⟩ 0x7D =
      .ok ⟨.complete (.object []), stack, place.after 0x7D⟩ := rfl

theorem step_commaInObject {v : Json} (hp : p.Holds v) (done : Members) (key : String) :
    step ⟨p, .member done key :: stack, place⟩ 0x2C =
      .ok ⟨.nextKey, .object (done.insert key v) :: stack, place.after 0x2C⟩ := by
  rw [step_of_holds hp (Or.inl rfl)]
  rfl

theorem step_closeObject {v : Json} (hp : p.Holds v) (done : Members) (key : String) :
    step ⟨p, .member done key :: stack, place⟩ 0x7D =
      .ok ⟨.complete (.object (done.insert key v)), stack, place.after 0x7D⟩ := by
  rw [step_of_holds hp (Or.inr (Or.inr rfl))]
  rfl

/-- A key and the colon behind it, in an object that may go on with a member. -/
theorem run_key (hp : p = .firstKey ∨ p = .nextKey) (done : Members) (key : String) :
    run ⟨p, .object done :: stack, place⟩ (Utf8.encodeChars (textChars key) ++ [0x3A]) =
      .ok ⟨.value, .member done key :: stack,
        place.past (Utf8.encodeChars (textChars key) ++ [0x3A])⟩ := by
  have hquote : step ⟨p, .object done :: stack, place⟩ 0x22 =
      .ok ⟨.quote (.start true), .object done :: stack, place.after 0x22⟩ := by
    rcases hp with rfl | rfl <;> rfl
  rw [Place.past_append, encodeChars_textChars]
  exact run_append_of_eq_ok (run_cons_of_eq_ok hquote (run_quoted key true))
    (run_cons_of_eq_ok rfl rfl)

/-- The bytes of a written member, and of what follows it. -/
theorem encodeChars_member (key : String) (value : Json) (rest : List Char) :
    Utf8.encodeChars (textChars key ++ ':' :: value.chars ++ rest) =
      (Utf8.encodeChars (textChars key) ++ [0x3A]) ++
        (Utf8.encodeChars value.chars ++ Utf8.encodeChars rest) := by
  rw [Utf8.encodeChars_append, Utf8.encodeChars_append, Utf8.encodeChars_cons, List.append_assoc,
    List.append_assoc, List.append_assoc]
  rfl

/-- The rest of an object, behind a member whose value was read. -/
theorem run_membersChars {depth : Nat} (members : List (String × Json))
    (h : ∀ m ∈ members, ReadsBack depth m.2 m.2.normal) {v : Json} (hp : p.Holds v)
    (done : Members) (key : String) (hdepth : stack.length + (depth + 1) ≤ maxDepth) :
    run ⟨p, .member done key :: stack, place⟩ (Utf8.encodeChars (membersChars members)) =
      .ok ⟨.complete (.object (normalMembers (done.insert key v) members)), stack,
        place.past (Utf8.encodeChars (membersChars members))⟩ := by
  induction members generalizing p v done key place with
  | nil => exact run_cons_of_eq_ok (step_closeObject hp done key) rfl
  | cons m members ih =>
    obtain ⟨name, value⟩ := m
    obtain ⟨hvalue, hmembers⟩ := List.forall_mem_cons.mp h
    obtain ⟨p', hp', hrun⟩ := hvalue .value .value
      (.member (done.insert key v) name :: stack)
      ((place.after 0x2C).past (Utf8.encodeChars (textChars name) ++ [0x3A]))
      (by rw [List.length_cons]; omega)
    have hbytes : Utf8.encodeChars (membersChars ((name, value) :: members)) =
        0x2C :: ((Utf8.encodeChars (textChars name) ++ [0x3A]) ++
          (Utf8.encodeChars value.chars ++ Utf8.encodeChars (membersChars members))) := by
      rw [← encodeChars_member]
      rfl
    rw [hbytes, Place.past_cons, Place.past_append, Place.past_append]
    exact run_cons_of_eq_ok (step_commaInObject hp done key)
      (run_append_of_eq_ok (run_key (Or.inr rfl) _ name)
        (run_append_of_eq_ok hrun (ih hmembers hp' (done.insert key v) name)))

end Reader

theorem readsBack_object {depth : Nat} {members : List (String × Json)}
    (h : ∀ m ∈ members, ReadsBack depth m.2 m.2.normal) :
    ReadsBack (depth + 1) (.object members) (Json.object members).normal := by
  intro p hp stack place hdepth
  rw [normal]
  refine ⟨_, .complete, ?_⟩
  have hroom : stack.length < Reader.maxDepth := by omega
  have hopen := Reader.step_openObject hp hroom place
  cases members with
  | nil =>
    exact Reader.run_cons_of_eq_ok hopen (Reader.run_cons_of_eq_ok Reader.step_closeEmptyObject rfl)
  | cons m members =>
    obtain ⟨key, value⟩ := m
    obtain ⟨hvalue, hmembers⟩ := List.forall_mem_cons.mp h
    obtain ⟨p', hp', hrun⟩ := hvalue .value .value (.member [] key :: stack)
      ((place.after 0x7B).past (Utf8.encodeChars (textChars key) ++ [0x3A]))
      (by rw [List.length_cons]; omega)
    have hbytes : Utf8.encodeChars (Json.object ((key, value) :: members)).chars =
        0x7B :: ((Utf8.encodeChars (textChars key) ++ [0x3A]) ++
          (Utf8.encodeChars value.chars ++ Utf8.encodeChars (membersChars members))) := by
      rw [← Reader.encodeChars_member]
      rfl
    rw [hbytes, Place.past_cons, Place.past_append, Place.past_append]
    exact Reader.run_cons_of_eq_ok hopen
      (Reader.run_append_of_eq_ok (Reader.run_key (Or.inl rfl) [] key)
        (Reader.run_append_of_eq_ok hrun
          (Reader.run_membersChars members hmembers hp' [] key hdepth)))

/-! ## Whole texts -/

/-- Every value that can be written is read back, wherever it stands. -/
theorem Writable.readsBack {depth : Nat} {v : Json} (h : Writable depth v) :
    ReadsBack depth v v.normal := by
  induction h with
  | null depth => exact readsBack_null depth
  | bool depth b => exact readsBack_bool depth b
  | int depth low high => exact readsBack_int depth low high
  | text depth s => exact readsBack_text depth s
  | list _ ih => exact readsBack_list ih
  | object _ ih => exact readsBack_object ih

/-- **What was written is read back.** -/
theorem parse_encodeChars {v : Json} (h : Writable Reader.maxDepth v) :
    parse (Utf8.encodeChars v.chars) = .ok v.normal := by
  obtain ⟨p, hp, hrun⟩ := h.readsBack .value .value [] .start (Nat.le_of_eq (Nat.zero_add _))
  have hstart : Reader.start.run (Utf8.encodeChars v.chars) =
      .ok ⟨p, [], Place.start.past (Utf8.encodeChars v.chars)⟩ := hrun
  rw [parse, hstart]
  exact Reader.finish_of_holds hp

/-! ## One line -/

theorem newline_not_mem_escapeChar (c : Char) : '\n' ∉ escapeChar c := by
  have hhex : ∀ n < 16, Hex.digitChar n ≠ '\n' := by decide
  rcases escapeChar_cases c with ⟨l, hc, -, -, hl, -, -⟩ | ⟨hcontrol, hc⟩ | ⟨-, -, hcontrol, hc⟩
  · rw [hc, List.mem_cons, List.mem_singleton, not_or]
    exact ⟨by decide, hl.symm⟩
  · rw [hc]
    simp only [List.mem_cons, List.not_mem_nil, or_false, not_or]
    exact ⟨by decide, by decide, by decide, by decide, (hhex _ (by omega)).symm,
      (hhex _ (by omega)).symm⟩
  · rw [hc, List.mem_singleton]
    rintro rfl
    exact hcontrol (by decide)

theorem newline_not_mem_textChars (s : String) : '\n' ∉ textChars s := by
  have hbody : '\n' ∉ s.toList.flatMap escapeChar := by
    rw [List.mem_flatMap]
    rintro ⟨c, -, hc⟩
    exact newline_not_mem_escapeChar c hc
  simp [textChars, hbody]

theorem newline_not_mem_intChars (n : Int) : '\n' ∉ intChars n := by
  have hdigits : '\n' ∉ Nat.toDigits 10 n.natAbs := by
    intro h
    have hdigit := Nat.isDigit_of_mem_toDigits (by decide) (by decide) h
    exact absurd hdigit (by decide)
  unfold intChars
  split
  · simp [hdigits]
  · exact hdigits

theorem newline_not_mem_itemsChars {items : List Json} (h : ∀ item ∈ items, '\n' ∉ item.chars) :
    '\n' ∉ itemsChars items := by
  induction items with
  | nil => decide
  | cons item items ih =>
    obtain ⟨hitem, hitems⟩ := List.forall_mem_cons.mp h
    simp [itemsChars, hitem, ih hitems]

theorem newline_not_mem_membersChars {members : List (String × Json)}
    (h : ∀ m ∈ members, '\n' ∉ m.2.chars) : '\n' ∉ membersChars members := by
  induction members with
  | nil => decide
  | cons m members ih =>
    obtain ⟨key, value⟩ := m
    obtain ⟨hvalue, hmembers⟩ := List.forall_mem_cons.mp h
    have hvalue : '\n' ∉ value.chars := hvalue
    simp [membersChars, newline_not_mem_textChars, hvalue, ih hmembers]

/-- A written value is one line. -/
theorem Writable.newline_not_mem_chars {depth : Nat} {v : Json} (h : Writable depth v) :
    '\n' ∉ v.chars := by
  induction h with
  | null depth => decide
  | bool depth b => cases b <;> decide
  | int depth low high =>
    rw [chars]
    exact newline_not_mem_intChars _
  | text depth s =>
    rw [chars]
    exact newline_not_mem_textChars s
  | @list depth items _ ih =>
    cases items with
    | nil => decide
    | cons item items =>
      obtain ⟨hitem, hitems⟩ := List.forall_mem_cons.mp ih
      simp [chars, hitem, newline_not_mem_itemsChars hitems]
  | @object depth members _ ih =>
    cases members with
    | nil => decide
    | cons m members =>
      obtain ⟨key, value⟩ := m
      obtain ⟨hvalue, hmembers⟩ := List.forall_mem_cons.mp ih
      have hvalue : '\n' ∉ value.chars := hvalue
      simp [chars, newline_not_mem_textChars, hvalue, newline_not_mem_membersChars hmembers]

end Json
end TagRental

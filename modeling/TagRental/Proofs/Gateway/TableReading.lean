import TagRental.Proofs.Gateway.MemberTable
import TagRental.Proofs.Json.KeyOrder
import TagRental.Proofs.Json.ObjectText

/-!
# Messages are read by the table of their members

The chain of checks in `Message.decode` and the table of members agree on every object
(`decode_by_table`): on what is read, on what is left over, on the fault, and on what is remarked
on.

`Reading.Judged` relates a check of the reader to a part of the table: the check succeeds with what
the table says, fails with the first fault of the part, and remarks on what the part remarks on up
to there.  Checks in sequence are judged by parts one behind the other (`Reading.Judged.bind`), so
each check is compared with its part alone.

A check also takes members out of the object, and the next one looks at what is left.  `Takes` adds
that to the judgement: of an object from which some names are taken, a check takes some more.  What
it is told of a member is still what the whole object has under that name, because no check asks for
a name that is already taken (`get?_left`).  The names that all checks of a command have taken in
the end are the members of that command (`Takes.command`), and this is how the reader comes to leave
the others over.
-/

namespace TagRental

namespace Status

/-- A code has a status exactly if it is the code of that status. -/
theorem ofCode?_toNat_eq_some_iff {code : UInt64} {s : Status} :
    ofCode? code.toNat = some s ↔ code = s.code.toUInt64 := by
  rw [← UInt64.toNat_inj, UInt8.toNat_toUInt64]
  constructor
  · intro h
    unfold ofCode? at h
    repeat' split at h
    all_goals cases h
    all_goals assumption
  · intro h
    rw [h]
    exact ofCode?_code s

/-- The codes without a status are those that are not listed. -/
theorem ofCode?_toNat_eq_none_iff {code : UInt64} :
    ofCode? code.toNat = none ↔ code ∉ ([0, 1, 2, 255] : List UInt64) := by
  have hlisted : code ∈ ([0, 1, 2, 255] : List UInt64) ↔ ∃ s : Status, code = s.code.toUInt64 := by
    simp only [List.mem_cons, List.not_mem_nil, or_false]
    constructor
    · rintro (h | h | h | h)
      · exact ⟨.available, h⟩
      · exact ⟨.rented, h⟩
      · exact ⟨.expired, h⟩
      · exact ⟨.error, h⟩
    · rintro ⟨s, h⟩
      cases s with
      | available => exact Or.inl h
      | rented => exact Or.inr (Or.inl h)
      | expired => exact Or.inr (Or.inr (Or.inl h))
      | error => exact Or.inr (Or.inr (Or.inr h))
  rw [hlisted, not_exists, Option.eq_none_iff_forall_ne_some]
  exact forall_congr' fun s => not_congr ofCode?_toNat_eq_some_iff

end Status

namespace Message

/-- A check does what a part of the table demands: it succeeds with what is said, it fails with the
first fault, and it makes the remarks. -/
structure Reading.Judged {α : Type} (members : List (String × Json)) (ds : List Demand)
    (said : α → Prop) (x : Reading α) : Prop where
  ok : ∀ a, x.result = .ok a ↔ said a
  error : ∀ f, x.result = .error f ↔ Demand.firstFault members ds = some f
  remarks : x.remarks = Demand.remarks members ds

namespace Reading.Judged

variable {α β : Type} {members : List (String × Json)} {ds : List Demand} {x : Reading α}

protected theorem pure (a : α) : Judged members [] (fun b => b = a) (pure a : Reading α) where
  ok := fun _ => ⟨fun h => (Except.ok.inj h).symm, fun h => congrArg Except.ok h.symm⟩
  error := fun _ => ⟨fun h => (nomatch h), fun h => (nomatch h)⟩
  remarks := rfl

theorem congr {said said' : α → Prop} (h : Judged members ds said x)
    (hsaid : ∀ a, said a ↔ said' a) :
    Judged members ds said' x :=
  ⟨fun a => (h.ok a).trans (hsaid a), h.error, h.remarks⟩

/-- A check that succeeds has found no fault. -/
theorem firstFault_eq_none {said : α → Prop} (h : Judged members ds said x) {a : α} (ha : said a) :
    Demand.firstFault members ds = none := by
  cases hf : Demand.firstFault members ds with
  | none => rfl
  | some f =>
    have hok := (h.ok a).mpr ha
    rw [(h.error f).mpr hf] at hok
    cases hok

/-- **Checks in sequence** are judged by one part of the table behind the other. -/
theorem bind {said : α → Prop} (h : Judged members ds said x) {k : α → Reading β} (es : List Demand)
    (saidNext : α → β → Prop) (hk : ∀ a, said a → Judged members es (saidNext a) (k a)) :
    Judged members (ds ++ es) (fun b => ∃ a, said a ∧ saidNext a b) (x >>= k) := by
  obtain ⟨remarks, result⟩ := x
  cases result with
  | error f =>
    have hf : Demand.firstFault members ds = some f := (h.error f).mp rfl
    refine ⟨?_, ?_, ?_⟩
    · intro b
      refine ⟨fun hb => (nomatch hb), ?_⟩
      rintro ⟨a, ha, -⟩
      exact nomatch (h.ok a).mpr ha
    · intro g
      rw [Demand.firstFault_append, hf, Option.some_or, Option.some.injEq]
      exact ⟨fun hg => Except.error.inj hg, fun hg => congrArg Except.error hg⟩
    · rw [Demand.remarks_append_of_some hf]
      exact h.remarks
  | ok a =>
    have ha : said a := (h.ok a).mp rfl
    have hnone := h.firstFault_eq_none ha
    have hnext := hk a ha
    refine ⟨?_, ?_, ?_⟩
    · intro b
      refine (hnext.ok b).trans ⟨fun hb => ⟨a, ha, hb⟩, ?_⟩
      rintro ⟨a', ha', hb⟩
      have haa : a = a' := Except.ok.inj ((h.ok a').mpr ha')
      rw [haa]
      exact hb
    · intro g
      rw [Demand.firstFault_append, hnone, Option.none_or]
      exact hnext.error g
    · rw [Demand.remarks_append_of_none hnone, ← h.remarks, ← hnext.remarks]
      rfl

variable {said : α → Prop} {d : Demand}

/-- A condition that is not met. -/
theorem of_fault {f : Fault} (hf : d.fault? members = some f) (hsaid : ∀ a, ¬said a)
    (ds : List Demand) : Judged members (d :: ds) said (.fail f) where
  ok := fun a => ⟨fun h => (nomatch h), fun h => absurd h (hsaid a)⟩
  error := fun g => by
    rw [Demand.firstFault, List.findSome?_cons, hf, Option.some.injEq]
    exact ⟨fun h => Except.error.inj h, fun h => congrArg Except.error h⟩
  remarks := by
    have hunmet : ¬d.isMet members = true := by
      rw [Demand.isMet, hf]
      exact Bool.false_ne_true
    rw [Demand.remarks, List.takeWhile_cons_of_neg hunmet]
    rfl

/-- A condition that is met, with the remark that it makes. -/
theorem of_met (hf : d.fault? members = none) {a : α} (hsaid : ∀ b, said b ↔ b = a) :
    Judged members [d] said ⟨(d.remark? members).toList, .ok a⟩ where
  ok := fun b => by
    rw [hsaid, Except.ok.injEq]
    exact eq_comm
  error := fun g => by
    rw [Demand.firstFault, List.findSome?_cons, hf]
    exact ⟨fun h => (nomatch h), fun h => (nomatch h)⟩
  remarks := by
    rw [Demand.remarks, List.takeWhile_cons_of_pos (by rw [Demand.isMet, hf]; rfl),
      List.filterMap_cons]
    cases d.remark? members <;> rfl

/-- A condition that is met and makes no remark can stand in front. -/
theorem cons (hf : d.fault? members = none) (hr : d.remark? members = none)
    (h : Judged members ds said x) : Judged members (d :: ds) said x where
  ok := h.ok
  error := fun g => by
    rw [Demand.firstFault, List.findSome?_cons, hf]
    exact h.error g
  remarks := by
    rw [Demand.remarks, List.takeWhile_cons_of_pos (by rw [Demand.isMet, hf]; rfl),
      List.filterMap_cons, hr]
    exact h.remarks

end Reading.Judged

/-! ## Taking members out -/

section Taking

variable (members : List (String × Json))

/-- What is left of an object when the members with some names are taken out. -/
def left (taken : List String) : Members :=
  (Members.ofList members).filter fun e => e.1 ∉ taken

theorem left_nil : left members [] = Members.ofList members := by
  have hall : ∀ e ∈ Members.ofList members, decide (e.1 ∉ ([] : List String)) = true :=
    fun e _ => decide_eq_true List.not_mem_nil
  exact List.filter_eq_self.mpr hall

theorem get?_left {taken : List String} {name : String} (h : name ∉ taken) :
    (left members taken).get? name = members.reverse.lookup name := by
  have hname : decide (name ∉ taken) = true := decide_eq_true h
  rw [← Members.get?_ofList]
  exact Members.get?_filter (p := fun key => key ∉ taken) hname (Members.ofList members)

theorem erase_left (taken : List String) (name : String) :
    (left members taken).erase name = left members (taken ++ [name]) := by
  have hkept : ∀ e : String × Json,
      (e.1 != name && decide (e.1 ∉ taken)) = decide (e.1 ∉ taken ++ [name]) := by
    intro e
    rw [Bool.eq_iff_iff, Bool.and_eq_true, bne_iff_ne, decide_eq_true_iff, decide_eq_true_iff,
      List.mem_append, List.mem_singleton, not_or, and_comm]
  rw [Members.erase, left, List.filter_filter, left]
  exact List.filter_congr fun e _ => hkept e

/-- A check does what a part of the table demands when the members with some names are already
taken, and it takes those with some more names. -/
def Takes {α : Type} (taken names : List String) (ds : List Demand) (said : α → Prop)
    (x : Taking α) : Prop :=
  (x (left members taken)).Judged members ds fun y =>
    said y.1 ∧ y.2 = left members (taken ++ names)

end Taking

namespace Takes

variable {α β : Type} {members : List (String × Json)} {taken names : List String}
variable {ds : List Demand} {said : α → Prop} {x : Taking α} {d : Demand}

theorem congr {said' : α → Prop} (h : Takes members taken names ds said x)
    (hsaid : ∀ a, said a ↔ said' a) : Takes members taken names ds said' x :=
  Reading.Judged.congr h fun y => and_congr_left' (hsaid y.1)

/-- **Checks in sequence** take members one behind the other. -/
theorem bind (h : Takes members taken names ds said x) {k : α → Taking β} (more : List String)
    (es : List Demand) (saidNext : α → β → Prop)
    (hk : ∀ a, said a → Takes members (taken ++ names) more es (saidNext a) (k a)) :
    Takes members taken (names ++ more) (ds ++ es) (fun b => ∃ a, said a ∧ saidNext a b)
      (x >>= k) := by
  refine (Reading.Judged.bind h es (fun y z => saidNext y.1 z.1 ∧
    z.2 = left members (taken ++ (names ++ more))) ?_).congr ?_
  · rintro ⟨a, m⟩ ⟨ha, rfl⟩
    rw [← List.append_assoc]
    exact hk a ha
  · rintro ⟨b, m⟩
    constructor
    · rintro ⟨y, ⟨ha, -⟩, hb, hm⟩
      exact ⟨⟨y.1, ha, hb⟩, hm⟩
    · rintro ⟨⟨a, ha, hb⟩, hm⟩
      exact ⟨(a, left members (taken ++ names)), ⟨ha, rfl⟩, hb, hm⟩

/-- A check that looks at nothing more takes nothing. -/
theorem lift {x : Reading α} (h : x.Judged members ds said) :
    Takes members taken [] ds said (x : Taking α) := by
  rw [← List.append_nil ds]
  refine (Reading.Judged.bind h [] (fun a y => y = (a, left members taken)) fun a _ =>
    .pure _).congr ?_
  rintro ⟨b, m⟩
  rw [List.append_nil]
  constructor
  · rintro ⟨a, ha, hy⟩
    cases hy
    exact ⟨ha, rfl⟩
  · rintro ⟨hb, rfl⟩
    exact ⟨b, hb, rfl⟩

protected theorem pure (a : α) : Takes members taken [] [] (fun b => b = a) (pure a : Taking α) :=
  lift (Reading.Judged.pure a)

/-- After a condition that is not met it does not matter which members would be taken. -/
theorem of_fault {f : Fault} (hf : d.fault? members = some f) (hsaid : ∀ a, ¬said a)
    (ds : List Demand) : Takes members taken names (d :: ds) said (Reading.fail f : Reading α) :=
  Reading.Judged.of_fault hf (fun y h => hsaid y.1 h.1) ds

end Takes

/-! ## Each check and its part -/

section Checks

variable (members : List (String × Json)) {taken : List String}

theorem takes_takeMember? {name : String} (h : name ∉ taken) :
    Takes members taken [name] [] (fun v => v = valueOf members name) (takeMember? name) := by
  have htake : takeMember? name (left members taken) =
      pure (valueOf members name, left members (taken ++ [name])) := by
    rw [takeMember?, get?_left members h, erase_left]
    rfl
  rw [Takes, htake]
  exact (Reading.Judged.pure _).congr fun y => Prod.ext_iff

theorem takes_takeMember {name : String} (h : name ∉ taken) :
    Takes members taken [name] [.present name] (fun v => valueOf members name = some v)
      (takeMember name) := by
  refine ((takes_takeMember? members h).bind [] [.present name] (fun found v => found = some v)
    fun found hfound => ?_).congr fun v => ?_
  · cases found with
    | none =>
      refine .of_fault ?_ (fun v hv => nomatch hv) []
      rw [Demand.fault?, ← hfound]
      rfl
    | some v =>
      refine .lift (.of_met (d := .present name) ?_ ?_)
      · rw [Demand.fault?, ← hfound]
        rfl
      · intro w
        rw [Option.some.injEq]
        exact eq_comm
  · rw [exists_eq_left]

theorem takes_takeWhole {name : String} (h : name ∉ taken) :
    Takes members taken [name] [.present name, .whole name] (Whole members name)
      (takeWhole name) := by
  refine ((takes_takeMember members h).bind [] [.whole name] (fun v n => v.toUInt64? = some n)
    fun v hv => ?_).congr fun n => ?_
  · cases hn : v.toUInt64? with
    | none =>
      refine .of_fault ?_ (fun n hn' => nomatch hn') []
      rw [Demand.fault?, wholeOf, hv, Option.bind_some, hn]
      rfl
    | some n =>
      refine .lift (.of_met (d := .whole name) ?_ ?_)
      · rw [Demand.fault?, wholeOf, hv, Option.bind_some, hn]
        rfl
      · intro n'
        rw [Option.some.injEq]
        exact eq_comm
  · rw [← wholeOf_eq_some_iff, wholeOf, Option.bind_eq_some_iff]

/-- The declared length of a tag that is spelled. -/
theorem judged_tagLength {s : String} (hs : valueOf members "tag_id" = some (.text s)) {t : Tag}
    (ht : Tag.ofHex s = .ok t) {n : UInt64} (hn : Whole members "tag_id_len" n) :
    Reading.Judged members [.tagLength] (Tagged members)
      (if n.toNat = t.length then .ok t else ⟨[.tagLength t n], .ok t⟩) := by
  have htag : tagOf members = some t :=
    tagOf_eq_some_iff.mpr ((tagged_iff_of_valueOf hs).mpr ht)
  have hsaid : ∀ t', Tagged members t' ↔ t' = t := by
    intro t'
    rw [tagged_iff_of_valueOf hs, ht, Except.ok.injEq]
    exact eq_comm
  have hmet : Demand.tagLength.fault? members = none := rfl
  have hremark : Demand.tagLength.remark? members =
      if n.toNat = t.length then none else some (.tagLength t n) := by
    rw [Demand.remark?, htag, wholeOf_eq_some_iff.mpr hn]
  have h := Reading.Judged.of_met hmet hsaid
  by_cases hlength : n.toNat = t.length
  · rw [hremark, if_pos hlength] at h
    rw [if_pos hlength]
    exact h
  · rw [hremark, if_neg hlength] at h
    rw [if_neg hlength]
    exact h

theorem judged_readTag {s : String} (hs : valueOf members "tag_id" = some (.text s)) {n : UInt64}
    (hn : Whole members "tag_id_len" n) :
    (readTag s n).Judged members [.tagSpelling, .tagLength] (Tagged members) := by
  rw [readTag]
  cases ht : Tag.ofHex s with
  | error f =>
    refine .of_fault ?_ ?_ _
    · rw [Demand.fault?, hs]
      dsimp only
      rw [ht]
    · intro t htagged
      rw [tagged_iff_of_valueOf hs, ht] at htagged
      cases htagged
  | ok t =>
    refine .cons ?_ rfl (judged_tagLength members hs ht hn)
    rw [Demand.fault?, hs]
    dsimp only
    rw [ht]

theorem takes_takeTag (htag : "tag_id" ∉ taken) (hlength : "tag_id_len" ∉ taken) :
    Takes members taken ["tag_id", "tag_id_len"] Demand.ofTag (Names members) takeTag := by
  have hfresh : "tag_id_len" ∉ taken ++ ["tag_id"] := by
    rw [List.mem_append, List.mem_singleton]
    exact not_or.mpr ⟨hlength, by decide⟩
  refine ((takes_takeMember members htag).bind ["tag_id_len"]
    [.tagText, .present "tag_id_len", .whole "tag_id_len", .tagSpelling, .tagLength]
    (fun _ t => ∃ n, Whole members "tag_id_len" n ∧ Tagged members t) fun v hv => ?_).congr
    fun t => ?_
  · cases v with
    | text s =>
      refine Reading.Judged.cons ?_ rfl ?_
      · rw [Demand.fault?, hv]
      · exact (takes_takeWhole members hfresh).bind [] [.tagSpelling, .tagLength]
          (fun _ t => Tagged members t) fun n hn => .lift (judged_readTag members hv hn)
    | _ =>
      refine .of_fault ?_ ?_ _
      · rw [Demand.fault?, hv]
      · rintro t ⟨-, -, htagged⟩
        exact not_tagged_of_valueOf hv (fun s => nofun) t htagged
  · constructor
    · rintro ⟨v, -, n, hn, ht⟩
      exact ⟨ht, n, hn⟩
    · rintro ⟨ht, n, hn⟩
      obtain ⟨s, hs, hspelled⟩ := ht
      exact ⟨.text s, valueOf_eq_some_text_iff.mpr hs, n, hn, s, hs, hspelled⟩

theorem judged_readDuration {v : Json} (hv : valueOf members "duration" = some v) :
    (readDuration v).Judged members [.usableDuration] (Lasts members) := by
  have hmet : Demand.usableDuration.fault? members = none := rfl
  have hsaid : ∀ d, Lasts members d ↔ d = _ := fun d => lasts_iff
  have h := Reading.Judged.of_met hmet hsaid
  rw [Demand.remark?, wholeOf, hv] at h
  dsimp only [Option.bind_some] at h
  rw [readDuration]
  cases hn : v.toUInt64? with
  | none =>
    rw [hn] at h
    exact h
  | some n =>
    rw [hn] at h
    dsimp only at h ⊢
    have hbounds : (0 < n ∧ n ≤ maxDuration) ↔ (1 ≤ n ∧ n ≤ 4294967295) := by
      rw [UInt64.lt_iff_toNat_lt, UInt64.le_iff_toNat_le (a := 1)]
      rfl
    by_cases husable : 1 ≤ n ∧ n ≤ 4294967295
    · rw [if_pos husable, Option.filter_some, if_pos (decide_eq_true husable)] at h
      rw [if_pos (hbounds.mpr husable)]
      exact h
    · rw [if_neg husable, Option.filter_some, if_neg (by rwa [decide_eq_true_iff])] at h
      rw [if_neg (mt hbounds.mp husable)]
      exact h

theorem takes_takeDuration (h : "duration" ∉ taken) :
    Takes members taken ["duration"] [.usableDuration] (Lasts members) takeDuration := by
  refine ((takes_takeMember? members h).bind [] [.usableDuration] (fun _ d => Lasts members d)
    fun found hfound => ?_).congr fun d => ?_
  · cases found with
    | none =>
      have hnone : valueOf members "duration" = none := hfound.symm
      have hsaid : ∀ d, Lasts members d ↔ d = none := by
        intro d
        rw [lasts_iff, wholeOf, hnone]
        rfl
      have hmet : Demand.usableDuration.fault? members = none := rfl
      have hjudged := Reading.Judged.of_met hmet hsaid
      rw [Demand.remark?, hnone] at hjudged
      exact .lift hjudged
    | some v => exact .lift (judged_readDuration members hfound.symm)
  · rw [exists_eq_left]

theorem takes_takeStatus (h : "status" ∉ taken) :
    Takes members taken ["status"] Demand.ofStatus
      (fun s => Whole members "status" s.code.toUInt64) takeStatus := by
  refine ((takes_takeWhole members h).bind [] [.knownStatus]
    (fun code s => Status.ofCode? code.toNat = some s) fun code hcode => ?_).congr fun s => ?_
  · have hwhole : wholeOf members "status" = some code := wholeOf_eq_some_iff.mpr hcode
    cases hs : Status.ofCode? code.toNat with
    | none =>
      refine .of_fault ?_ (fun s hs' => nomatch hs') []
      rw [Demand.fault?, hwhole]
      exact if_neg (Status.ofCode?_toNat_eq_none_iff.mp hs)
    | some s =>
      have hlisted : code ∈ ([0, 1, 2, 255] : List UInt64) := by
        by_contra hnone
        rw [Status.ofCode?_toNat_eq_none_iff.mpr hnone] at hs
        cases hs
      refine .lift (.of_met (d := .knownStatus) ?_ ?_)
      · rw [Demand.fault?, hwhole]
        exact if_pos hlisted
      · intro s'
        rw [Option.some.injEq]
        exact eq_comm
  · simp only [Status.ofCode?_toNat_eq_some_iff, exists_eq_right]

/-- The members that a command takes behind its code are those that make it up. -/
theorem Takes.command {names : List String} {ds : List Demand} {said : Command → Prop}
    {x : Taking Command} (h : Takes members ["cmd"] names ds said x)
    (hsaid : ∀ c, Says members c ↔ said c) (hnames : ∀ c, said c → fields c = "cmd" :: names) :
    (x (left members ["cmd"])).Judged members ds fun y =>
      Says members y.1 ∧ y.2 = left members (fields y.1) := by
  refine Reading.Judged.congr h fun y => ?_
  rw [hsaid]
  refine and_congr_right fun hy => ?_
  rw [hnames y.1 hy]
  rfl

theorem judged_takeCommand {code : UInt64} (h : Whole members "cmd" code) :
    (takeCommand code (left members ["cmd"])).Judged members (Demand.ofCode code) fun y =>
      Says members y.1 ∧ y.2 = left members (fields y.1) := by
  have hcode : code = 1 ∨ code = 2 ∨ code = 3 ∨ code = 4 ∨ code = 255 ∨
      code ∉ ([1, 2, 3, 4, 255] : List UInt64) := by
    simp only [List.mem_cons, List.not_mem_nil, or_false]
    tauto
  have htag : Takes members ["cmd"] ["tag_id", "tag_id_len"] Demand.ofTag (Names members) takeTag :=
    takes_takeTag members (by decide) (by decide)
  rcases hcode with rfl | rfl | rfl | rfl | rfl | hother
  · refine Takes.command members (htag.bind ["duration"] [.usableDuration]
      (fun t c => ∃ d, Lasts members d ∧ c = Command.rentalStart t d) fun t _ => ?_)
      (fun c => says_iff_start h) ?_
    · exact (takes_takeDuration members (by decide)).bind [] []
        (fun d c => c = Command.rentalStart t d) fun d _ => .pure _
    · rintro c ⟨t, -, d, -, rfl⟩
      rfl
  · refine Takes.command members (htag.bind [] [] (fun t c => c = Command.rentalEnd t) fun t _ =>
      .pure _) (fun c => says_iff_end h) ?_
    rintro c ⟨t, -, rfl⟩
    rfl
  · refine Takes.command members (htag.bind [] [] (fun t c => c = Command.statusRequest t)
      fun t _ => .pure _) (fun c => says_iff_request h) ?_
    rintro c ⟨t, -, rfl⟩
    rfl
  · have hstatus : Takes members ["cmd"] ["status"] Demand.ofStatus
        (fun s => Whole members "status" s.code.toUInt64) takeStatus :=
      takes_takeStatus members (by decide)
    have hparts : Demand.ofCode 4 =
        Demand.ofStatus ++ (Demand.ofTag ++ ([.present "timestamp", .whole "timestamp"] ++
          ([.present "duration", .whole "duration"] ++ []))) := rfl
    rw [hparts]
    refine Takes.command members (hstatus.bind
      ["tag_id", "tag_id_len", "timestamp", "duration"] _
      (fun s c => ∃ t, Names members t ∧ ∃ since, Whole members "timestamp" since ∧
        ∃ d, Whole members "duration" d ∧ c = Command.statusResponse ⟨s, t, since, d⟩)
      fun s _ => ?_) (fun c => says_iff_response h) ?_
    · refine (takes_takeTag members (by decide) (by decide)).bind ["timestamp", "duration"] _
        (fun t c => ∃ since, Whole members "timestamp" since ∧
          ∃ d, Whole members "duration" d ∧ c = Command.statusResponse ⟨s, t, since, d⟩)
        fun t _ => ?_
      refine (takes_takeWhole members (by decide)).bind ["duration"] _
        (fun since c => ∃ d, Whole members "duration" d ∧
          c = Command.statusResponse ⟨s, t, since, d⟩) fun since _ => ?_
      exact (takes_takeWhole members (by decide)).bind [] []
        (fun d c => c = Command.statusResponse ⟨s, t, since, d⟩) fun d _ => .pure _
    · rintro c ⟨s, -, t, -, since, -, d, -, rfl⟩
      rfl
  · refine Takes.command members (.pure Command.error) (fun c => says_iff_error h) ?_
    rintro c rfl
    rfl
  · have hread : takeCommand code = pure (.unknown code) := by
      simp only [List.mem_cons, List.not_mem_nil, or_false, not_or] at hother
      obtain ⟨h1, h2, h3, h4, h255⟩ := hother
      rw [takeCommand, if_neg h1, if_neg h2, if_neg h3, if_neg h4, if_neg h255]
    have hparts : Demand.ofCode code = [] := by
      simp only [List.mem_cons, List.not_mem_nil, or_false, not_or] at hother
      obtain ⟨h1, h2, h3, h4, -⟩ := hother
      rw [Demand.ofCode, if_neg h1, if_neg (not_or.mpr ⟨h2, h3⟩), if_neg h4]
    rw [hread, hparts]
    refine Takes.command members (.pure (Command.unknown code))
      (fun c => says_iff_unknown h hother) ?_
    rintro c rfl
    rfl

/-- **The reader and the table agree** on the members of an object. -/
theorem judged_ofMembers :
    (ofMembers (Members.ofList members)).Judged members (demands members) fun message =>
      Says members message.command ∧
        message.extra = (Members.ofList members).filter fun e => e.1 ∉ fields message.command := by
  have hcmd : Takes members [] ["cmd"] [.present "cmd", .whole "cmd"] (Whole members "cmd")
      (takeWhole "cmd") := takes_takeWhole members List.not_mem_nil
  rw [Takes, left_nil] at hcmd
  refine (hcmd.bind _ (fun y message => Says members message.command ∧
    message.extra = left members (fields message.command)) ?_).congr fun message => ?_
  · rintro ⟨code, m⟩ ⟨hcode, rfl⟩
    rw [wholeOf_eq_some_iff.mpr hcode]
    dsimp only
    rw [← List.append_nil (Demand.ofCode code)]
    refine ((judged_takeCommand members hcode).bind []
      (fun y message => message = Message.mk y.1 y.2) fun y _ => .pure _).congr fun message => ?_
    constructor
    · rintro ⟨y, hy, rfl⟩
      exact hy
    · intro hmessage
      exact ⟨(message.command, message.extra), hmessage, rfl⟩
  · constructor
    · rintro ⟨y, -, hmessage⟩
      exact hmessage
    · intro hmessage
      obtain ⟨code, hcode⟩ := hmessage.1.exists_cmd
      exact ⟨(code, left members ["cmd"]), ⟨hcode, rfl⟩, hmessage⟩

end Checks

/-- A payload that is an object, read by the table of its members. -/
theorem judged_decode {payload : Bytes} {members : List (String × Json)}
    (h : Json.parse payload = .ok (.object (Members.ofList members))) :
    (decode payload).Judged members (demands members) fun message =>
      Says members message.command ∧
        message.extra = (Members.ofList members).filter fun e => e.1 ∉ fields message.command := by
  rw [decode, h]
  exact judged_ofMembers members

/-- **An object is read by the table of its members.**  The members may be taken in the order of the
text, where the last one with a key counts, or as they are in the object that was read.  The message
is what they say, together with all members that do not belong to its command; the fault is the
first one that is found; and what is remarked on is what was noticed up to there. -/
theorem decode_by_table {payload : Bytes} {m : Members}
    (h : Json.parse payload = .ok (.object m)) :
    Members.ofList m = m ∧
      (∀ members, Json.IsObjectText payload members → Members.ofList members = m) ∧
      ∀ members, Members.ofList members = m →
        (∀ message, (decode payload).result = .ok message ↔
          Says members message.command ∧
            message.extra = m.filter fun e => e.1 ∉ fields message.command) ∧
        (∀ fault, (decode payload).result = .error fault ↔
          Demand.firstFault members (demands members) = some fault) ∧
        (decode payload).remarks = Demand.remarks members (demands members) := by
  refine ⟨Json.ofList_of_parse h, ?_, ?_⟩
  · intro members htext
    exact (Json.object.inj (Json.object_of_parse htext h)).symm
  · rintro members rfl
    have hjudged := judged_decode h
    exact ⟨hjudged.ok, hjudged.error, hjudged.remarks⟩

/-- An end of a rental whose text has the command twice, with a wrong length of the tag and members
that belong to no end. -/
theorem decode_by_table_twice :
    let payload := Utf8.encode <|
      " \x7b\"cmd\": 1, \"duration\": 0, \"tag_id\": \"aA\", \"cmd\": 2, " ++
        "\"tag_id_len\": 7, \"x\": null\x7d "
    let members : List (String × Json) :=
      [("cmd", .int 1), ("duration", .int 0), ("tag_id", .text "aA"), ("cmd", .int 2),
        ("tag_id_len", .int 7), ("x", .null)]
    let m : Members := [("cmd", .int 2), ("duration", .int 0), ("tag_id", .text "aA"),
      ("tag_id_len", .int 7), ("x", .null)]
    let aa : Tag := ⟨[0xAA], by decide, by decide⟩
    Json.parse payload = .ok (.object m) ∧ Json.IsObjectText payload members ∧
      (decode payload).result = .ok ⟨.rentalEnd aa, [("duration", .int 0), ("x", .null)]⟩ ∧
      (decode payload).remarks = [.tagLength aa 7] := by
  intro payload members m aa
  have h : Json.parse payload = .ok (.object m) := rfl
  have hspace : ∀ b ∈ ([0x20] : Bytes), Json.isSpace b = true := by
    intro b hb
    rw [List.mem_singleton.mp hb]
    rfl
  have htext : Json.IsObjectText payload members := by
    refine ⟨[0x20], [(Utf8.encode "\"cmd\"", Utf8.encode " 1"),
      (Utf8.encode " \"duration\"", Utf8.encode " 0"),
        (Utf8.encode " \"tag_id\"", Utf8.encode " \"aA\""),
      (Utf8.encode " \"cmd\"", Utf8.encode " 2"), (Utf8.encode " \"tag_id_len\"", Utf8.encode " 7"),
      (Utf8.encode " \"x\"", Utf8.encode " null")], [0x20], by decide, hspace, hspace, ?_⟩
    refine .cons ⟨rfl, rfl⟩ (.cons ⟨rfl, rfl⟩ (.cons ⟨rfl, rfl⟩ (.cons ⟨rfl, rfl⟩ (.cons ⟨rfl, rfl⟩
      (.cons ⟨rfl, rfl⟩ .nil)))))
  obtain ⟨-, hmembers, htable⟩ := decode_by_table h
  obtain ⟨hok, -, hremarks⟩ := htable members (hmembers members htext)
  have hsaid : Says members (.rentalEnd aa) := by
    have hcmd : Whole members "cmd" 2 := rfl
    exact .rentalEnd hcmd ⟨⟨"aA", rfl, rfl⟩, 7, rfl⟩
  exact ⟨h, htext, (hok _).mpr ⟨hsaid, rfl⟩, hremarks.trans rfl⟩

end Message
end TagRental

import MessageBus.Request
import MessageBus.Operation

/-!
# Free slots at the end of a registry

Free slots at the end of a registry show only in how many slots there are. Whatever is done to a
registry that is padded with some (`Registry.padded`) comes to the same as without them, and leaves
a registry that is padded again, if with other ones: a channel that is opened may take one of them,
and a deletion gives all of them up (`Registry.IsBlind`).
-/

namespace MessageBus

variable {ω α β : Type}

namespace Registry

variable {r : Registry ω} {c : Channel ω} {n : Nat} {h : Handle} {a : Address}

/-- A registry with so many more free slots at its end. -/
def padded (r : Registry ω) (n : Nat) : Registry ω :=
  { r with slots := r.slots ++ List.replicate n none }

theorem padded_zero (r : Registry ω) : r.padded 0 = r := by
  rw [padded, List.replicate_zero, List.append_nil]

/-! ### Looking -/

@[simp] theorem channel?_padded (r : Registry ω) (n : Nat) (h : Handle) :
    (r.padded n).channel? h = r.channel? h := by
  rw [channel?, channel?, padded, List.getElem?_append]
  split
  · rfl
  · rename_i beyond
    rw [List.getElem?_replicate, List.getElem?_eq_none (Nat.le_of_not_lt beyond)]
    split <;> rfl

@[simp] theorem find?_padded (r : Registry ω) (n : Nat) (a : Address) :
    (r.padded n).find? a = r.find? a := by
  rw [find?, find?, channel?_padded]

@[simp] theorem inspect_padded (r : Registry ω) (n : Nat) (h : Handle) (look : Channel ω → α) :
    (r.padded n).inspect h look = r.inspect h look := by
  rw [inspect, inspect, channel?_padded]

@[simp] theorem resolve_padded (r : Registry ω) (n : Nat) (h : Handle) :
    (r.padded n).resolve h = r.resolve h := inspect_padded r n h _

@[simp] theorem isOpen_padded (r : Registry ω) (n : Nat) (h : Handle) :
    (r.padded n).isOpen h = r.isOpen h := by
  rw [isOpen, isOpen, channel?_padded]

@[simp] theorem channels_padded (r : Registry ω) (n : Nat) :
    (r.padded n).channels = r.channels := by
  have free : (List.replicate n (none : Option (Channel ω))).filterMap id = [] :=
    List.filterMap_eq_nil_iff.2 fun _ there => List.eq_of_mem_replicate there
  rw [channels, padded, List.filterMap_append, free, List.append_nil, channels]

@[simp] theorem channelCount_padded (r : Registry ω) (n : Nat) :
    (r.padded n).channelCount = r.channelCount := by
  rw [channelCount, padded, List.countP_append, List.countP_replicate]
  rfl

@[simp] theorem entries_padded (r : Registry ω) (n : Nat) : (r.padded n).entries = r.entries := by
  have free (f : Option (Channel ω) × Nat → Option (Handle × Channel ω))
      (skips : ∀ h, f (none, h) = none) (first : Nat) :
      ((List.replicate n none).zipIdx first).filterMap f = [] := by
    refine List.filterMap_eq_nil_iff.2 fun entry there => ?_
    have none : entry.1 = none := List.eq_of_mem_replicate (List.fst_mem_of_mem_zipIdx there)
    obtain ⟨slot, h⟩ := entry
    subst none
    exact skips h
  rw [entries, padded, List.zipIdx_append, List.filterMap_append, free _ fun _ => rfl,
    List.append_nil, entries]

@[simp] theorem blocker?_padded (r : Registry ω) (n : Nat) :
    (r.padded n).blocker? = r.blocker? := by
  rw [blocker?, blocker?, entries_padded]

/-! ### Changing -/

theorem lt_of_channel? (found : r.channel? h = some c) : h < r.slots.length := by
  rw [channel?] at found
  refine Nat.lt_of_not_le fun beyond => ?_
  rw [List.getElem?_eq_none beyond] at found
  cases found

theorem put_padded (found : r.channel? h = some c) (c' : Channel ω) (n : Nat) :
    (r.padded n).put h c' = (r.put h c').padded n := by
  rw [put, padded, List.set_append_left _ _ (lt_of_channel? found)]
  rfl

theorem commitAll_padded (r : Registry ω) (n : Nat) (m : Message) (cascade : Bool) :
    (r.padded n).commitAll m cascade = (r.commitAll m cascade).within (·.padded n) := by
  simp [commitAll, padded, Outcome.within]

/-- The first free slot is the same, or the first one at the end. -/
theorem findIdx_padded (r : Registry ω) (n : Nat) :
    (r.padded n).slots.findIdx (·.isNone) = r.slots.findIdx (·.isNone) := by
  have first : (List.replicate n (none : Option (Channel ω))).findIdx (·.isNone) = 0 := by
    cases n <;> rfl
  rw [padded, List.findIdx_append, first, Nat.zero_add]
  split
  · rfl
  · rename_i full
    exact Nat.le_antisymm (Nat.le_of_not_lt full) List.findIdx_le_length

/-- Where no slot is free, a channel that is opened takes one of those at the end. -/
theorem exists_openChannel_padded (r : Registry ω) (n capacity : Nat) : ∃ n',
    (r.padded n).openChannel capacity = (r.openChannel capacity).within (·.padded n') := by
  rw [openChannel, openChannel, findIdx_padded]
  by_cases inside : r.slots.findIdx (·.isNone) < r.slots.length
  · refine ⟨n, ?_⟩
    have inside' := Nat.lt_add_right n inside
    simp only [padded, Outcome.within, List.length_append, List.length_replicate, inside, inside',
      if_true, List.set_append_left _ _ inside]
  · have full : r.slots.findIdx (·.isNone) = r.slots.length :=
      Nat.le_antisymm List.findIdx_le_length (Nat.le_of_not_lt inside)
    refine ⟨n - 1, ?_⟩
    cases n with
    | zero => simp [padded, Outcome.within, full]
    | succ n => simp [padded, Outcome.within, full, List.replicate_succ]

theorem close_padded (r : Registry ω) (n : Nat) (h : Handle) :
    (r.padded n).close h = (r.close h).within (·.padded n) := by
  rw [close, close, channel?_padded]
  cases found : r.channel? h with
  | none => rfl
  | some c =>
    simp only [Outcome.within, padded, List.set_append_left _ _ (lt_of_channel? found)]

theorem delete_padded (r : Registry ω) (n : Nat) :
    (r.padded n).delete = r.delete.within (·.padded 0) := by
  rw [delete, channels_padded]
  rfl

/-! ### Blindness to free slots -/

/-- Whether something that is done to a registry comes to the same with free slots at its end. Only
how many of them are left may differ. -/
def IsBlind (act : Registry ω → Except Fault (Outcome (Registry ω) ω α)) : Prop :=
  ∀ r n, ∃ n', act (r.padded n) = (act r).map (·.within (·.padded n'))

theorem isBlind_of_eq {act : Registry ω → Outcome (Registry ω) ω α}
    (same : ∀ r n, ∃ n', act (r.padded n) = (act r).within (·.padded n')) :
    IsBlind fun r => .ok (act r) := fun r n => by
  obtain ⟨n', same⟩ := same r n
  exact ⟨n', congrArg Except.ok same⟩

/-- Whoever only looks at what does not show free slots is blind to them. -/
theorem isBlind_look {see : Registry ω → α} (same : ∀ r n, see (r.padded n) = see r)
    (notes : List Note) : IsBlind fun r => .ok { answer := see r, state := r, notes } :=
  isBlind_of_eq fun r n => ⟨n, by rw [same]; rfl⟩

theorem IsBlind.map {act : Registry ω → Except Fault (Outcome (Registry ω) ω α)}
    (blind : IsBlind act) (f : α → β) : IsBlind fun r => (act r).map (Outcome.map f) :=
  fun r n => by
    obtain ⟨n', same⟩ := blind r n
    refine ⟨n', ?_⟩
    dsimp only
    rw [same]
    cases act r <;> rfl

theorem IsBlind.andThen {act : Registry ω → Except Fault (Outcome (Registry ω) ω α)}
    (blind : IsBlind act) {next : α → Registry ω → Except Fault (Outcome (Registry ω) ω β)}
    (later : ∀ answer, IsBlind (next answer)) :
    IsBlind fun r => (do
      let o ← act r
      o.andThen next) := fun r n => by
  obtain ⟨n', same⟩ := blind r n
  dsimp only
  rw [same]
  cases act r with
  | error fault => exact ⟨0, rfl⟩
  | ok o =>
    obtain ⟨n'', same'⟩ := later o.answer o.state n'
    refine ⟨n'', ?_⟩
    have same' : next o.answer (o.state.padded n') = _ := same'
    simp only [bind, Except.bind, Except.map, Outcome.andThen, Outcome.within, same']
    cases next o.answer o.state <;> rfl

theorem isBlind_andThen {act : Registry ω → Outcome (Registry ω) ω α}
    (blind : IsBlind fun r => .ok (act r))
    {next : α → Registry ω → Except Fault (Outcome (Registry ω) ω β)}
    (later : ∀ answer, IsBlind (next answer)) : IsBlind fun r => (act r).andThen next :=
  blind.andThen later

theorem isBlind_onChannel (h : Handle)
    (act : Channel ω → Except Fault (Outcome (Channel ω) ω (Except BusError α))) :
    IsBlind fun r => r.onChannel h act := fun r n => by
  refine ⟨n, ?_⟩
  simp only [onChannel, channel?_padded]
  cases found : r.channel? h with
  | none => rfl
  | some c =>
    dsimp only
    cases act c with
    | error fault => rfl
    | ok o => exact congrArg Except.ok (congrArg (fun left => { o with state := left })
        (put_padded found o.state n))

theorem isBlind_onAddress (a : Address)
    (act : Channel ω → Except Fault (Outcome (Channel ω) ω (Except BusError α))) :
    IsBlind fun r => r.onAddress a act := fun r n => by
  refine ⟨n, ?_⟩
  simp only [onAddress, find?_padded]
  cases found : r.find? a with
  | none => rfl
  | some c =>
    dsimp only
    cases act c with
    | error fault => rfl
    | ok o => exact congrArg Except.ok (congrArg (fun left => { o with state := left })
        (put_padded (channel?_of_find? found).1 o.state n))

theorem isBlind_park (a : Address) (side : Side) (k : ω) :
    IsBlind fun r => r.park a side k := fun r n => by
  refine ⟨n, ?_⟩
  let issued : Registry ω := { r with nextTicket := r.nextTicket + 1 }
  have here : ({ r.padded n with nextTicket := (r.padded n).nextTicket + 1 } : Registry ω) =
    issued.padded n := rfl
  have ticket : (r.padded n).nextTicket = r.nextTicket := rfl
  simp only [park, here, find?_padded]
  rw [ticket]
  cases found : issued.find? a with
  | none => rfl
  | some c =>
    dsimp only
    cases (c.line side).push ⟨r.nextTicket⟩ k with
    | error fault => rfl
    | ok line =>
      simp only [Except.map, put_padded (channel?_of_find? found).1]
      rfl

theorem isBlind_revisit (p : Place) (k : ω) : IsBlind fun r : Registry ω => .ok (r.revisit p k) :=
  isBlind_of_eq fun r n => by
    refine ⟨n, ?_⟩
    simp only [revisit, find?_padded]
    cases found : r.find? p.address with
    | none => rfl
    | some c =>
      have put := put_padded (channel?_of_find? found).1
      dsimp only
      cases (c.line p.side).refresh? p.ticket k with
      | none => rfl
      | some line => simp only [put, Outcome.within]

theorem isBlind_abandon (p : Place) : IsBlind fun r : Registry ω => .ok (r.abandon p) :=
  isBlind_of_eq fun r n => by
    refine ⟨n, ?_⟩
    simp only [abandon, find?_padded]
    cases found : r.find? p.address with
    | none => rfl
    | some c =>
      have put := put_padded (channel?_of_find? found).1
      dsimp only
      cases (c.line p.side).remove? p.ticket with
      | none => simp only [put, Outcome.within]
      | some line => simp only [put, Outcome.within]

end Registry

open Registry

/-! ### Operations and requests -/

/-- An operation does not see free slots. -/
theorem Operation.isBlind_apply (op : Operation) :
    IsBlind fun r : Registry ω => op.apply r := by
  cases op with
  | openChannel bound =>
    exact (isBlind_of_eq fun r n => r.exists_openChannel_padded n bound).map _
  | close h => exact (isBlind_of_eq fun r n => ⟨n, r.close_padded n h⟩).map _
  | delete => exact (isBlind_of_eq fun r n => ⟨0, r.delete_padded n⟩).map _
  | isOpen h => exact isBlind_look (fun r n => by rw [isOpen_padded]) []
  | channelCount => exact isBlind_look (fun r n => by rw [channelCount_padded]) []
  | size h => exact isBlind_look (fun r n => by rw [inspect_padded]) []
  | isEmpty h => exact isBlind_look (fun r n => by rw [inspect_padded]) []
  | capacity h => exact isBlind_look (fun r n => by rw [inspect_padded]) []
  | waiting side h => exact isBlind_look (fun r n => by rw [inspect_padded]) []
  | trySend h m => exact (isBlind_onChannel h _).map _
  | trySendMany h ms => exact (isBlind_onChannel h _).map _
  | tryRecv h => exact (isBlind_onChannel h _).map _
  | tryRecvMany h limit => exact (isBlind_onChannel h _).map _
  | tryBroadcast m =>
    refine IsBlind.map (isBlind_of_eq fun r n => ⟨n, ?_⟩) _
    rw [Registry.tryBroadcast, Registry.tryBroadcast, channels_padded, commitAll_padded]
    split
    · rfl
    · split <;> rfl

namespace Request

theorem isBlind_attempt (q : Request) : IsBlind fun r : Registry ω => q.attempt r := by
  cases q with
  | send a m => exact (isBlind_onAddress a _).map _
  | sendMany a ms => exact (isBlind_onAddress a _).map _
  | recv a => exact (isBlind_onAddress a _).map _
  | recvMany a limit => exact (isBlind_onAddress a _).map _
  | broadcast m =>
    refine IsBlind.map (isBlind_of_eq fun r n => ⟨n, ?_⟩) _
    rw [attemptBroadcast, attemptBroadcast, channels_padded, commitAll_padded, blocker?_padded]
    split
    · rfl
    · split <;> rfl

theorem isBlind_onGone (q : Request) : IsBlind fun r : Registry ω => .ok (q.onGone r) :=
  isBlind_of_eq fun r n => ⟨n, by cases q <;> rfl⟩

/-- A request that is pursued does not see free slots. -/
theorem isBlind_pursue (q : Request) (k : ω) : IsBlind fun r => q.pursue r k := by
  refine q.isBlind_attempt.andThen fun attempt => ?_
  cases attempt with
  | finished result => exact isBlind_look (fun _ _ => rfl) []
  | blocked a side =>
    refine (isBlind_park a side k).andThen fun place => ?_
    cases place with
    | none => exact q.isBlind_onGone
    | some p => exact isBlind_look (fun _ _ => rfl) []

/-- Nor does one that is looked at later. -/
theorem isBlind_advance (q : Request) (p : Place) (k : ω) : IsBlind fun r => q.advance r p k := by
  refine isBlind_andThen (isBlind_revisit p k) fun standing => ?_
  cases standing with
  | queued => exact isBlind_look (fun _ _ => rfl) []
  | called => exact q.isBlind_pursue k
  | gone =>
    refine isBlind_andThen q.isBlind_onGone fun turn => ?_
    cases turn with
    | again q => exact q.isBlind_pursue k
    | _ => exact isBlind_look (fun _ _ => rfl) []

end Request

theorem Call.isBlind_start (c : Call) (k : ω) : IsBlind fun r => c.start r k := fun r n => by
  have resolved : c.resolve (r.padded n) = c.resolve r := by
    cases c <;> simp only [Call.resolve, resolve_padded]
  simp only [Call.start, resolved]
  cases c.resolve r with
  | error e => exact ⟨n, rfl⟩
  | ok q => exact q.isBlind_pursue k r n

end MessageBus

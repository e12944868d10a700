import MessageBus.Proofs.Catalogue
import MessageBus.Proofs.WaitEntries.Errands

/-!
# A bus and its catalogue

The catalogue of a registry forgets the waiting lines, the tickets, and which slots are free behind
the last channel. An operation that does not count waiting callers answers as it does on the
catalogue, and leaves a registry with the catalogue that it leaves there (`apply_catalogue`). It
commits no fault, whatever waits on the bus.
-/

namespace MessageBus

variable {ω : Type}

/-- A channel without its lines. -/
def Channel.store (c : Channel ω) : Store := ⟨c.id, c.capacity, c.queue.items⟩

namespace Channel

variable {c : Channel ω}

@[simp] theorem store_setLine (c : Channel ω) (side : Side) (l : WaitLine ω) :
    (c.setLine side l).store = c.store := by
  cases side <;> rfl

@[simp] theorem store_wakeFirst (c : Channel ω) (side : Side) :
    (c.wakeFirst side).1.store = c.store := store_setLine c side _

theorem isFull_store (c : Channel ω) : c.store.isFull = !c.hasSpace := by
  rw [hasSpace, ← decide_not]
  exact decide_eq_decide.2 Nat.not_lt.symm

theorem store_commit (c : Channel ω) (m : Message) (cascade : Bool) :
    (c.commit m cascade).1.store = c.store.append [m] := by
  cases cascade with
  | false => exact store_wakeFirst ..
  | true => exact (store_wakeFirst ..).trans (store_wakeFirst ..)

end Channel

namespace Registry

variable {r : Registry ω} {h : Handle} {c c' : Channel ω}

/-- What there is on a bus, apart from those who wait. -/
def catalogue (r : Registry ω) : Catalogue where
  handles := (Finset.range r.slots.length).filter fun h => r.isOpen h = true
  store? h := (r.channel? h).map (·.store)
  mem_handles h := by
    rw [Finset.mem_filter, Finset.mem_range, isOpen, Option.isSome_map, and_iff_right_iff_imp]
    intro there
    obtain ⟨c, found⟩ := Option.isSome_iff_exists.1 there
    exact (List.getElem?_eq_some_iff.1 (channel?_eq_some_iff.1 found)).1
  nextId := r.nextId

theorem store?_catalogue (r : Registry ω) (h : Handle) :
    r.catalogue.store? h = (r.channel? h).map (·.store) := rfl

/-- A channel that is put back changes the catalogue under its handle only. -/
theorem catalogue_put (found : r.channel? h = some c) (c' : Channel ω) :
    (r.put h c').catalogue = r.catalogue.put h c'.store := by
  refine Catalogue.ext_store? (fun h' => ?_) rfl
  rw [store?_catalogue, channel?_put (Option.isSome_iff_exists.2 ⟨c, found⟩),
    Catalogue.store?_put, store?_catalogue]
  split <;> rfl

theorem catalogue_close (r : Registry ω) (h : Handle) :
    (r.close h).state.catalogue = r.catalogue.erase h := by
  refine Catalogue.ext_store? (fun h' => ?_) ?_
  · rw [store?_catalogue, channel?_close, Catalogue.store?_erase, store?_catalogue]
    split <;> rfl
  · rw [close]
    split <;> rfl

theorem catalogue_delete (r : Registry ω) : r.delete.state.catalogue = r.catalogue.clear :=
  Catalogue.ext_store? (fun _ => rfl) rfl

theorem catalogue_commitAll (r : Registry ω) (m : Message) (cascade : Bool) :
    (r.commitAll m cascade).state.catalogue = r.catalogue.appendAll m := by
  refine Catalogue.ext_store? (fun h => ?_) rfl
  simp only [store?_catalogue, Catalogue.appendAll, channel?, commitAll, List.map_map,
    List.getElem?_map]
  rcases r.slots[h]? with _ | _ | c
  · rfl
  · rfl
  · exact congrArg some (c.store_commit m cascade)

/-! ### Opening -/

/-- The slot that is taken next is the first at which no channel is open, be it a slot that was
freed or the end of the row. -/
theorem freeHandle_catalogue (r : Registry ω) :
    r.catalogue.freeHandle = r.slots.findIdx (·.isNone) := by
  rw [Catalogue.freeHandle_eq_iff]
  constructor
  · rw [store?_catalogue, Option.map_eq_none_iff, Option.eq_none_iff_forall_ne_some]
    intro c found
    obtain ⟨inside, there⟩ := List.getElem?_eq_some_iff.1 (channel?_eq_some_iff.1 found)
    simpa [there] using List.findIdx_getElem (w := inside)
  · intro k before
    have inside : k < r.slots.length := Nat.lt_of_lt_of_le before List.findIdx_le_length
    have taken := List.not_of_lt_findIdx before
    obtain ⟨c, there⟩ : ∃ c, r.slots[k] = some c := by
      rwa [Bool.eq_false_iff, ne_eq, Option.isNone_iff_eq_none, ← ne_eq, Option.ne_none_iff_exists']
        at taken
    rw [store?_catalogue,
      channel?_eq_some_iff.2 (List.getElem?_eq_some_iff.2 ⟨inside, there⟩)]
    exact Option.some_ne_none _

theorem catalogue_openChannel (r : Registry ω) (bound : Nat) :
    (r.openChannel bound).state.catalogue =
      { r.catalogue.put r.catalogue.freeHandle ⟨⟨r.nextId⟩, bound, []⟩ with
        nextId := r.nextId + 1 } := by
  refine Catalogue.ext_store? (fun h => ?_) rfl
  rw [store?_catalogue, channel?_openChannel_eq, freeHandle_catalogue]
  refine .trans ?_ (Catalogue.store?_put r.catalogue _ _ h).symm
  split <;> rfl

/-! ### Looking -/

/-- As many channels are open as there are handles in the catalogue. -/
theorem card_handles_catalogue (r : Registry ω) : r.catalogue.handles.card = r.channelCount := by
  have handles : r.catalogue.handles = (r.entries.map (·.1)).toFinset := by
    ext h
    rw [r.catalogue.mem_handles, store?_catalogue, Option.isSome_map, Option.isSome_iff_exists,
      List.mem_toFinset, List.mem_map]
    constructor
    · rintro ⟨c, found⟩
      exact ⟨(h, c), mem_entries_iff.2 found, rfl⟩
    · rintro ⟨⟨h, c⟩, entry, rfl⟩
      exact ⟨c, mem_entries_iff.1 entry⟩
  rw [handles, List.toFinset_card_of_nodup r.nodup_entries, List.length_map,
    ← List.length_map (·.2), map_snd_entries, channels, List.length_filterMap_eq_countP]
  rfl

theorem look_catalogue (r : Registry ω) (h : Handle) {α : Type} (look : Channel ω → α)
    (value : α → Value) (seen : Store → Value) (same : ∀ c, seen c.store = value (look c)) :
    r.catalogue.look h seen = .ofExcept value (r.inspect h look) := by
  rw [Catalogue.look, store?_catalogue, inspect]
  cases r.channel? h with
  | none => rfl
  | some c => exact congrArg Reply.granted (same c)

end Registry

/-! ### Acting on one channel -/

namespace Channel

variable {α : Type} {c : Channel ω}

/-- What was done on a channel is what is done on its store: it was refused and changed nothing, or
it gave the same value and left the same store. -/
inductive Agrees (c : Channel ω) (value : α → Value)
    (o : Outcome (Channel ω) ω (Except BusError α)) : Option (Value × Store) → Prop where
  | refused (answer : o.answer = .error .wouldBlock) (state : o.state = c) : c.Agrees value o none
  | granted {a : α} {v : Value} {s : Store} (answer : o.answer = .ok a) (same : value a = v)
    (state : o.state.store = s) : c.Agrees value o (some (v, s))

theorem agrees_trySend (c : Channel ω) (m : Message) :
    c.Agrees (fun _ => .nothing) (c.trySend m) (c.store.send? m) := by
  rw [Store.send?, isFull_store, trySend]
  cases c.hasSpace with
  | true => exact .granted rfl rfl (store_wakeFirst ..)
  | false => exact .refused rfl rfl

theorem agrees_trySendMany (c : Channel ω) (ms : List Message) :
    c.Agrees .number (c.trySendMany ms) (c.store.sendMany? ms) := by
  rw [Store.sendMany?, isFull_store, trySendMany]
  by_cases full : c.freeSlots = 0
  · have space : c.hasSpace = false := by
      rwa [← Bool.not_eq_true, hasSpace_iff_freeSlots, not_not]
    rw [if_pos full, space]
    exact .refused rfl rfl
  · rw [if_neg full, c.hasSpace_iff_freeSlots.2 full]
    have fits : ms.take (c.fitting ms) = ms.take c.freeSlots := by
      rw [fitting, Nat.min_comm, ← List.take_eq_take_min]
    refine .granted (a := c.fitting ms) rfl ?_ ((store_wakeFirst ..).trans ?_)
    · rw [fitting, Nat.min_comm]
      exact congrArg Value.number List.length_take.symm
    · rw [fits]
      rfl

theorem agrees_tryRecv (c : Channel ω) :
    c.Agrees .message c.tryRecv c.store.recv? := by
  rw [Store.recv?, tryRecv, Fifo.pop?]
  simp only [store]
  cases c.queue.items with
  | nil => exact .refused rfl rfl
  | cons m rest => exact .granted rfl rfl (store_wakeFirst ..)

theorem agrees_tryRecvMany (c : Channel ω) (limit : Nat) : ∃ o, c.tryRecvMany limit = .ok o ∧
    c.Agrees .messages o (c.store.recvMany? limit) := by
  rw [Store.recvMany?, tryRecvMany]
  by_cases empty : c.store.messages = []
  · have empty' : c.queue.isEmpty = true := List.isEmpty_iff.2 empty
    rw [if_pos empty', if_pos empty]
    exact ⟨_, rfl, .refused rfl rfl⟩
  · have some : ¬c.queue.isEmpty = true := mt List.isEmpty_iff.1 empty
    rw [if_neg some, if_neg empty, Fifo.popMany_of_le (Nat.min_le_right _ _)]
    refine ⟨_, rfl, .granted rfl ?_ ((store_wakeFirst ..).trans ?_)⟩
    · exact congrArg Value.messages List.take_eq_take_min.symm
    · rw [store, store, Fifo.size, ← List.drop_eq_drop_min]

end Channel

namespace Registry

theorem catalogue_onChannel (r : Registry ω) (h : Handle) {α : Type} {value : α → Value}
    {act : Channel ω → Except Fault (Outcome (Channel ω) ω (Except BusError α))}
    {act' : Store → Option (Value × Store)}
    (agrees : ∀ c, ∃ o, act c = .ok o ∧ c.Agrees value o (act' c.store)) :
    ∃ o, Operation.apply.answer value (r.onChannel h act) = .ok o ∧
      (o.answer, o.state.catalogue) = r.catalogue.onStore h act' := by
  rw [Operation.apply.answer, onChannel, Catalogue.onStore, store?_catalogue]
  cases found : r.channel? h with
  | none => exact ⟨_, rfl, rfl⟩
  | some c =>
    obtain ⟨o, done, agrees⟩ := agrees c
    refine ⟨(o.within (r.put h)).map (.ofExcept value), by simp only [done]; rfl, ?_⟩
    rw [Outcome.state_map, Outcome.state_within, catalogue_put found, Outcome.answer_map,
      Outcome.answer_within]
    simp only [Option.map_some]
    generalize act' c.store = result at agrees
    cases agrees with
    | refused answer state =>
      rw [answer, state, Catalogue.put_of_store? (by rw [store?_catalogue, found]; rfl)]
      rfl
    | granted answer same state =>
      rw [answer, state, ← same]
      rfl

theorem catalogue_tryBroadcast (r : Registry ω) (m : Message) :
    (Reply.ofExcept (fun _ => .nothing) (r.tryBroadcast m).answer,
      (r.tryBroadcast m).state.catalogue) = r.catalogue.broadcast m := by
  have none : r.catalogue.handles = ∅ ↔ r.channels.isEmpty = true := by
    rw [← Finset.card_eq_zero, card_handles_catalogue, channelCount, channels, List.isEmpty_iff,
      List.countP_eq_zero, List.filterMap_eq_nil_iff]
    simp
  have full : (∃ h ∈ r.catalogue.handles, (r.catalogue.store? h).any (·.isFull) = true) ↔
      ¬r.channels.all (·.hasSpace) = true := by
    simp only [List.all_eq_true, not_forall, mem_channels_iff, store?_catalogue, Option.any_map,
      Channel.isFull_store, Option.any_eq_true]
    constructor
    · rintro ⟨h, -, c, found, full⟩
      exact ⟨c, ⟨h, found⟩, by simpa using full⟩
    · rintro ⟨c, ⟨h, found⟩, full⟩
      refine ⟨h, ?_, c, found, by simpa using full⟩
      rw [r.catalogue.mem_handles, store?_catalogue, found]
      rfl
  rw [Catalogue.broadcast, tryBroadcast]
  by_cases empty : r.channels.isEmpty = true
  · rw [if_pos empty, if_pos (none.2 empty)]
    rfl
  · rw [if_neg empty, if_neg (mt none.1 empty)]
    by_cases space : r.channels.all (·.hasSpace) = true
    · rw [if_pos space, if_neg (mt full.1 (not_not.2 space))]
      exact congrArg (Prod.mk _) (r.catalogue_commitAll m false)
    · rw [if_neg space, if_pos (full.2 space)]
      rfl

end Registry

/-! ### Operations -/

namespace Operation

/-- Whether an operation counts waiting callers. -/
def countsWaiting : Operation → Bool
  | .waiting _ _ => true
  | _ => false

/-- On any registry, an operation commits no fault. It gives the reply, and leaves the catalogue,
that it gives and leaves on the catalogue of the registry. -/
theorem apply_catalogue (op : Operation) (plain : op.countsWaiting = false) (r : Registry ω) :
    ∃ o, op.apply r = .ok o ∧ (o.answer, o.state.catalogue) = r.catalogue.apply op := by
  cases op with
  | openChannel bound =>
    refine ⟨_, rfl, Prod.ext ?_ (r.catalogue_openChannel bound)⟩
    exact congrArg (Reply.plain <| .number ·) r.freeHandle_catalogue.symm
  | close h => exact ⟨_, rfl, congrArg (Prod.mk _) (r.catalogue_close h)⟩
  | delete => exact ⟨_, rfl, congrArg (Prod.mk _) r.catalogue_delete⟩
  | isOpen h =>
    refine ⟨_, rfl, congrArg (Prod.mk · _) ?_⟩
    exact congrArg (Reply.plain <| .flag ·) Option.isSome_map.symm
  | channelCount =>
    refine ⟨_, rfl, congrArg (Prod.mk · _) ?_⟩
    exact congrArg (Reply.plain <| .number ·) r.card_handles_catalogue.symm
  | size h =>
    refine ⟨_, rfl, congrArg (Prod.mk · _) (r.look_catalogue h _ _ _ fun c => ?_).symm⟩
    rfl
  | isEmpty h =>
    refine ⟨_, rfl, congrArg (Prod.mk · _) (r.look_catalogue h _ _ _ fun c => ?_).symm⟩
    exact congrArg Value.flag (decide_eq_decide.2 List.length_eq_zero_iff.symm)
  | capacity h =>
    refine ⟨_, rfl, congrArg (Prod.mk · _) (r.look_catalogue h _ _ _ fun c => ?_).symm⟩
    rfl
  | waiting side h => cases plain
  | trySend h m => exact r.catalogue_onChannel h fun c => ⟨_, rfl, c.agrees_trySend m⟩
  | trySendMany h ms => exact r.catalogue_onChannel h fun c => ⟨_, rfl, c.agrees_trySendMany ms⟩
  | tryRecv h => exact r.catalogue_onChannel h fun c => ⟨_, rfl, c.agrees_tryRecv⟩
  | tryRecvMany h limit => exact r.catalogue_onChannel h fun c => c.agrees_tryRecvMany limit
  | tryBroadcast m => exact ⟨_, rfl, r.catalogue_tryBroadcast m⟩

end Operation

end MessageBus

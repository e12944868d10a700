import MessageBus.Proofs.Attempts

/-!
# What one step does to a bus

A step changes the registry of a bus together with the stays that are held on it, and `Moves` lists
the ways in which it can: there is one for every atomic operation, and each says which stay is given
up and which is taken. Everything that is kept by a bus is proved from this list.

Some statements hold only of a restricted use of the bus. A `Usage` says whether bare waits and
whether blocking broadcasts are made.
-/

namespace MessageBus

/-- What a bus is used for beside sending and receiving. -/
structure Usage where
  /-- Whether lines are also waited in without any request. -/
  bareWaits : Prop
  /-- Whether broadcasts are made that may wait. -/
  broadcasts : Prop

/-- Whether something may be waited for. -/
def Usage.permits (u : Usage) : Option Request → Prop
  | none => u.bareWaits
  | some (.broadcast _) => u.broadcasts
  | some _ => True

/-- The stays of a request: the one at its place, if it has one. -/
def Request.stays (q : Request) (prior : Option Place) : List Stay :=
  prior.toList.map fun p => ⟨some q, p⟩

namespace Channel

variable {ω : Type}

/-- What an operation that does not wait makes of a channel. -/
inductive Handled : Channel ω → Channel ω → Prop where
  | untouched (c) : Handled c c
  | committed {c m} (space : c.hasSpace = true) : Handled c (c.commit m false).1
  | sentMany {c ms} (space : c.hasSpace = true) : Handled c (c.trySendMany ms).state
  | received {c} (some : 0 < c.queue.size) : Handled c c.tryRecv.state
  | receivedMany {c limit o} (some : 0 < c.queue.size) (ran : c.tryRecvMany limit = .ok o) :
    Handled c o.state

theorem Handled.shrinks {c c' : Channel ω} (handled : c.Handled c') : c.Shrinks c' := by
  cases handled with
  | untouched => exact Shrinks.refl c
  | committed _ => exact (becomes_commit c _).shrinks
  | sentMany space => exact (becomes_trySendMany space _).shrinks
  | received some => exact (becomes_tryRecv some).2.shrinks
  | @receivedMany limit o some ran =>
    obtain ⟨o', _, ran', -, becomes⟩ := becomes_tryRecvMany some limit
    cases ran.symm.trans ran'
    exact becomes.shrinks

/-- Whether a channel is as it was opened. -/
def IsFresh (c : Channel ω) : Prop := ∃ id bound, c = .fresh id bound

theorem IsFresh.tickets {c : Channel ω} (fresh : c.IsFresh) (side : Side) :
    c.tickets side = [] := by
  obtain ⟨id, bound, rfl⟩ := fresh
  cases side <;> rfl

end Channel

namespace Registry

variable {ω : Type} {r r' : Registry ω} {held held' : List Stay} {u : Usage}

/-- What an operation that does not wait makes of a registry. -/
def Handles (r r' : Registry ω) : Prop :=
  r'.nextTicket = r.nextTicket ∧ ∀ a c', r'.find? a = some c' →
    c'.IsFresh ∨ ∃ c, r.find? a = some c ∧ c.Handled c'

theorem Handles.refl (r : Registry ω) : r.Handles r :=
  ⟨rfl, fun _ c found => .inr ⟨c, found, .untouched c⟩⟩

theorem Handles.put {h : Handle} {c c' : Channel ω} (found : r.channel? h = some c)
    (handled : c.Handled c') : r.Handles (r.put h c') := by
  refine ⟨rfl, fun a d after => .inr ?_⟩
  have here := find?_of_channel? found
  rcases find?_put_cases here handled.shrinks.1 after with ⟨rfl, rfl⟩ | ⟨-, before⟩
  · exact ⟨c, here, handled⟩
  · exact ⟨d, before, .untouched d⟩

theorem Handles.onChannel {α : Type} {h : Handle}
    {act : Channel ω → Except Fault (Outcome (Channel ω) ω (Except BusError α))}
    (handled : ∀ c, ∃ o, act c = .ok o ∧ c.Handled o.state) :
    ∃ o, r.onChannel h act = .ok o ∧ r.Handles o.state := by
  cases found : r.channel? h with
  | none => exact ⟨_, by rw [Registry.onChannel, found], Handles.refl r⟩
  | some c =>
    obtain ⟨o, ran, handles⟩ := handled c
    exact ⟨o.within (r.put h), by simp [Registry.onChannel, found, ran, Except.map],
      Handles.put found handles⟩

theorem Handles.tryBroadcast (r : Registry ω) (m : Message) :
    r.Handles (r.tryBroadcast m).state := by
  rw [Registry.tryBroadcast]
  split
  · exact Handles.refl r
  · split
    · rename_i space
      refine ⟨rfl, fun a c' after => .inr ?_⟩
      rw [Outcome.state_map, find?_commitAll] at after
      obtain ⟨c, found, rfl⟩ := Option.map_eq_some_iff.1 after
      exact ⟨c, found, .committed (List.all_eq_true.1 space c (mem_channels_of_find? found))⟩
    · exact Handles.refl r

end Registry

namespace Channel

variable {ω : Type} (c : Channel ω)

theorem handled_trySend (m : Message) : c.Handled (c.trySend m).state := by
  cases space : c.hasSpace
  · rw [trySend_of_full space]
    exact .untouched c
  · rw [(trySend_of_hasSpace space).2]
    exact .committed space

theorem handled_trySendMany (ms : List Message) : c.Handled (c.trySendMany ms).state := by
  cases space : c.hasSpace
  · rw [trySendMany_of_full space]
    exact .untouched c
  · exact .sentMany space

theorem handled_tryRecv : c.Handled c.tryRecv.state := by
  rcases Nat.eq_zero_or_pos c.queue.size with empty | some
  · rw [tryRecv_of_empty empty]
    exact .untouched c
  · exact .received some

theorem handled_tryRecvMany (limit : Nat) :
    ∃ o, c.tryRecvMany limit = .ok o ∧ c.Handled o.state := by
  rcases Nat.eq_zero_or_pos c.queue.size with empty | some
  · exact ⟨_, tryRecvMany_of_empty empty limit, .untouched c⟩
  · obtain ⟨o, _, ran, -, -⟩ := becomes_tryRecvMany some limit
    exact ⟨o, ran, .receivedMany some ran⟩

end Channel

namespace Request

variable {ω : Type} {q : Request} {r r' : Registry ω}

theorem Granted.nextTicket (granted : q.Granted r r') : r'.nextTicket = r.nextTicket := by
  cases granted <;> rfl

/-- Nobody new waits when a request is granted. -/
theorem Granted.shrinks (granted : q.Granted r r') {a : Address} {c' : Channel ω}
    (after : r'.find? a = some c') : ∃ c, r.find? a = some c ∧ c.Shrinks c' := by
  cases granted with
  | send found _ =>
    exact Registry.shrinks_of_put found (Channel.becomes_commit_cascade _ _).shrinks after
  | sendMany found space =>
    exact Registry.shrinks_of_put found (Channel.becomes_trySendMany space _).shrinks after
  | recv found some =>
    exact Registry.shrinks_of_put found (Channel.becomes_tryRecv some).2.shrinks after
  | @recvMany _ _ limit c o found some ran =>
    obtain ⟨o', _, ran', -, becomes⟩ := Channel.becomes_recvManyStep some limit
    cases ran.symm.trans ran'
    exact Registry.shrinks_of_put found becomes.shrinks after
  | broadcast _ =>
    rw [Registry.find?_commitAll] at after
    obtain ⟨c, found, rfl⟩ := Option.map_eq_some_iff.1 after
    exact ⟨c, found, (c.becomes_commit_cascade _).shrinks⟩

end Request

/-- An operation that does not wait commits no fault, and handles the channels one by one. -/
theorem Operation.apply_handles {ω : Type} (op : Operation) (r : Registry ω) :
    ∃ o, op.apply r = .ok o ∧ r.Handles o.state := by
  have answered {α : Type} {value : α → Value}
      {done : Except Fault (Outcome (Registry ω) ω (Except BusError α))}
      (handles : ∃ o, done = .ok o ∧ r.Handles o.state) :
      ∃ o, Operation.apply.answer value done = .ok o ∧ r.Handles o.state := by
    obtain ⟨o, rfl, handles⟩ := handles
    exact ⟨_, rfl, handles⟩
  cases op with
  | openChannel bound =>
    refine ⟨_, rfl, rfl, fun a c' after => ?_⟩
    rcases Registry.find?_openChannel after with before | fresh
    · exact .inr ⟨c', before, .untouched c'⟩
    · exact .inl ⟨_, _, fresh⟩
  | close h =>
    refine ⟨_, rfl, ?_, fun a c' after => .inr ⟨c', Registry.find?_close after, .untouched c'⟩⟩
    simp only [Outcome.state_map, Registry.close]
    split <;> rfl
  | delete => exact ⟨_, rfl, rfl, fun a c' after => by cases after⟩
  | trySend h m =>
    exact answered (Registry.Handles.onChannel fun c => ⟨_, rfl, c.handled_trySend m⟩)
  | trySendMany h ms =>
    exact answered (Registry.Handles.onChannel fun c => ⟨_, rfl, c.handled_trySendMany ms⟩)
  | tryRecv h =>
    exact answered (Registry.Handles.onChannel fun c => ⟨_, rfl, c.handled_tryRecv⟩)
  | tryRecvMany h limit =>
    exact answered (Registry.Handles.onChannel fun c => c.handled_tryRecvMany limit)
  | tryBroadcast m => exact ⟨_, rfl, .tryBroadcast r m⟩
  | _ => exact ⟨_, rfl, .refl r⟩

namespace Registry

variable {ω : Type}

/-- One step of a bus: its registry and the stays held on it, before and after. The senders that go
on in this step, each from its place, are those that `resumed` holds of. -/
inductive Moves (u : Usage) (resumed : Request → Place → Prop) :
    Registry ω → List Stay → Registry ω → List Stay → Prop where
  /-- Nothing happens. -/
  | rest (r held) : Moves u resumed r held r held
  /-- An operation that does not wait. -/
  | handled {r r' held} (handles : r.Handles r') : Moves u resumed r held r' held
  /-- A request is granted, at once or after it was called. -/
  | granted {r r' q prior held} (permitted : u.permits (some q))
      (out : ∀ p ∈ prior, r.isQueued p = false) (granted : q.Granted r r') :
    Moves u resumed r (q.stays prior ++ held) r' held
  /-- A request ends since its channel is gone. -/
  | gone {r q p held} (gone : r.find? p.address = none) :
    Moves u resumed r (⟨some q, p⟩ :: held) r held
  /-- A request goes to wait, at once or after it was called. -/
  | parked {r q prior a c k held} (permitted : u.permits (some q))
      (out : ∀ p ∈ prior, r.isQueued p = false) (blocked : q.Blocked r a)
      (found : r.find? a = some c) (again : ∀ p ∈ prior, q.side = .senders → resumed q p) :
    Moves u resumed r (q.stays prior ++ held)
      (r.issue.put a.handle (c.join ⟨r.nextTicket⟩ k q.side))
      (⟨some q, ⟨a, q.side, ⟨r.nextTicket⟩⟩⟩ :: held)
  /-- A place is looked at that is still queued. -/
  | visited {r p k held} (queued : r.isQueued p = true) : Moves u resumed r held
    (r.revisit p k).state held
  /-- A stay is given up. -/
  | abandoned {r s held} : Moves u resumed r (s :: held) (r.abandon s.place).state held
  /-- A bare wait finds no channel. -/
  | issued {r held} : Moves u resumed r held r.issue held
  /-- A bare wait begins. -/
  | waits {r a c k side held} (bare : u.bareWaits) (found : r.find? a = some c) :
    Moves u resumed r held (r.issue.put a.handle (c.join ⟨r.nextTicket⟩ k side))
      (⟨none, ⟨a, side, ⟨r.nextTicket⟩⟩⟩ :: held)
  /-- A bare wait is over. -/
  | woke {r p held} (out : r.isQueued p = false) : Moves u resumed r (⟨none, p⟩ :: held) r held

variable {r r' : Registry ω} {held held' : List Stay} {u : Usage}
  {resumed : Request → Place → Prop}

/-- A move stays one when more requests are said to go on. -/
theorem Moves.imp {resumed' : Request → Place → Prop}
    (moves : Moves u resumed r held r' held') (more : ∀ q p, resumed q p → resumed' q p) :
    Moves u resumed' r held r' held' := by
  cases moves with
  | rest => exact .rest _ _
  | handled handles => exact .handled handles
  | granted permitted out granted => exact .granted permitted out granted
  | gone gone => exact .gone gone
  | parked permitted out blocked found again =>
    exact .parked permitted out blocked found fun p prior sends => more _ p (again p prior sends)
  | visited queued => exact .visited queued
  | abandoned => exact .abandoned
  | issued => exact .issued
  | waits bare found => exact .waits bare found
  | woke out => exact .woke out

theorem Balanced.stays {q : Request} {prior : Option Place}
    (bal : r.Balanced (q.stays prior ++ held)) (out : ∀ p ∈ prior, r.isQueued p = false) :
    r.Balanced held := by
  cases prior with
  | none => exact bal
  | some p => exact Balanced.giveUp bal (out p rfl)

theorem stays_fit {q : Request} {prior : Option Place}
    (bal : r.Balanced (q.stays prior ++ held)) : ∀ p ∈ prior, q.Fits p := by
  rintro p rfl
  exact bal.fitting ⟨some q, p⟩ (List.mem_append_left _ (List.mem_singleton_self _)) q rfl

/-- Whatever a bus does, its lines and the stays held on it are in balance. -/
theorem Moves.balanced (moves : Moves u resumed r held r' held') (bal : r.Balanced held) :
    r'.Balanced held' := by
  cases moves with
  | rest => exact bal
  | handled handles =>
    refine bal.shrink handles.1 fun a c' after => ?_
    rcases handles.2 a c' after with fresh | ⟨c, before, handled⟩
    · exact .inl fresh.tickets
    · exact .inr ⟨c, before, handled.shrinks⟩
  | granted _ out granted =>
    exact (bal.stays out).shrink granted.nextTicket fun a c' after => .inr (granted.shrinks after)
  | gone gone => exact bal.giveUp (isQueued_eq_false_of_gone gone)
  | parked _ out blocked found _ =>
    obtain ⟨-, -, fits⟩ := blocked.find?
    refine (bal.stays out).park found _ fun q same => ?_
    cases same
    exact fits _
  | visited queued =>
    obtain ⟨c, l, found, same, -, state⟩ := revisit_of_queued queued _
    rw [state]
    exact bal.put found (Channel.becomes_setLine (same ▸ List.Sublist.refl _)).shrinks
  | @abandoned s _ =>
    rcases r.standing_cases s.place with queued | called | gone
    · obtain ⟨c, l, found, inside, left, state⟩ := abandon_of_queued queued
      have smaller : l.tickets.Sublist (c.tickets s.place.side) := left ▸ List.erase_sublist
      have shrinks := (Channel.becomes_setLine smaller).shrinks
      rw [state]
      refine Balanced.giveUp (bal.put found shrinks) ?_
      have after := find?_put found shrinks.1 s.place.address
      rw [if_pos rfl] at after
      rw [← Bool.not_eq_true, isQueued_of_find? after, Channel.tickets, Channel.line_setLine, left]
      exact (bal.single _ c _ found).not_mem_erase
    · obtain ⟨c, found, state⟩ := abandon_of_called called
      rw [state]
      exact (bal.giveUp (isQueued_eq_false_of_hasCalled called)).put found
        (c.shrinks_wakeFirst _)
    · rw [abandon_of_gone gone]
      exact bal.giveUp (isQueued_eq_false_of_gone gone)
  | issued => exact bal.issue
  | waits _ found => exact bal.park found _ fun q same => by cases same
  | woke out => exact bal.giveUp out

/-- Only what may be waited for is waited for. -/
theorem Moves.permitted (moves : Moves u resumed r held r' held')
    (permitted : ∀ s ∈ held, u.permits s.request) : ∀ s ∈ held', u.permits s.request := by
  cases moves with
  | rest => exact permitted
  | handled _ => exact permitted
  | granted _ _ _ => exact fun s member => permitted s (List.mem_append_right _ member)
  | gone _ => exact fun s member => permitted s (List.mem_cons_of_mem _ member)
  | parked allowed _ _ _ _ =>
    intro s member
    rcases List.mem_cons.1 member with rfl | old
    · exact allowed
    · exact permitted s (List.mem_append_right _ old)
  | visited _ => exact permitted
  | abandoned => exact fun s member => permitted s (List.mem_cons_of_mem _ member)
  | issued => exact permitted
  | waits bare _ =>
    intro s member
    rcases List.mem_cons.1 member with rfl | old
    · exact bare
    · exact permitted s old
  | woke _ => exact fun s member => permitted s (List.mem_cons_of_mem _ member)

/-- What a move makes of the lines of a channel. Only the ticket that is issued next may be new in
them. -/
theorem Moves.shrinks_or_joins (moves : Moves u resumed r held r' held') {a : Address}
    {c' : Channel ω} (after : r'.find? a = some c') : c'.IsFresh ∨ ∃ c, r.find? a = some c ∧
      (c.Shrinks c' ∨ ∃ k side, c' = c.join ⟨r.nextTicket⟩ k side) := by
  have same (before : r.find? a = some c') : c'.IsFresh ∨ ∃ c, r.find? a = some c ∧
      (c.Shrinks c' ∨ ∃ k side, c' = c.join ⟨r.nextTicket⟩ k side) :=
    .inr ⟨c', before, .inl (Channel.Shrinks.refl c')⟩
  have smaller (before : ∃ c, r.find? a = some c ∧ c.Shrinks c') : c'.IsFresh ∨
      ∃ c, r.find? a = some c ∧ (c.Shrinks c' ∨ ∃ k side, c' = c.join ⟨r.nextTicket⟩ k side) := by
    obtain ⟨c, found, shrinks⟩ := before
    exact .inr ⟨c, found, .inl shrinks⟩
  have joined {b : Address} {c : Channel ω} {k : ω} {side : Side} (found : r.find? b = some c)
      (after : (r.issue.put b.handle (c.join ⟨r.nextTicket⟩ k side)).find? a = some c') :
      c'.IsFresh ∨ ∃ c, r.find? a = some c ∧
        (c.Shrinks c' ∨ ∃ k side, c' = c.join ⟨r.nextTicket⟩ k side) := by
    rcases find?_put_cases (r := r.issue) found (c.id_join _ k side) after with
      ⟨rfl, rfl⟩ | ⟨-, before⟩
    · exact .inr ⟨c, found, .inr ⟨k, side, rfl⟩⟩
    · exact same before
  cases moves with
  | rest => exact same after
  | handled handles =>
    rcases handles.2 a c' after with fresh | ⟨c, before, handled⟩
    · exact .inl fresh
    · exact smaller ⟨c, before, handled.shrinks⟩
  | granted _ _ granted => exact smaller (granted.shrinks after)
  | gone _ => exact same after
  | parked _ _ _ found _ => exact joined found after
  | visited queued =>
    obtain ⟨c, l, found, kept, -, state⟩ := revisit_of_queued queued _
    rw [state] at after
    exact smaller (shrinks_of_put found
      (Channel.becomes_setLine (kept ▸ List.Sublist.refl _)).shrinks after)
  | @abandoned s _ =>
    rcases r.standing_cases s.place with queued | called | gone
    · obtain ⟨c, l, found, -, left, state⟩ := abandon_of_queued queued
      have sub : l.tickets.Sublist (c.tickets s.place.side) := left ▸ List.erase_sublist
      rw [state] at after
      exact smaller (shrinks_of_put found (Channel.becomes_setLine sub).shrinks after)
    · obtain ⟨c, found, state⟩ := abandon_of_called called
      rw [state] at after
      exact smaller (shrinks_of_put found (c.shrinks_wakeFirst _) after)
    · rw [abandon_of_gone gone] at after
      exact same after
  | issued => exact same after
  | waits _ found => exact joined found after
  | woke _ => exact same after

/-- Nobody gets back into a line. -/
theorem Moves.queued (moves : Moves u resumed r held r' held') (bal : r.Balanced held) {s : Stay}
    (holds : s ∈ held) (after : r'.isQueued s.place = true) : r.isQueued s.place = true := by
  obtain ⟨c', found', inside⟩ := exists_of_isQueued after
  rcases moves.shrinks_or_joins found' with fresh | ⟨c, found, shrinks | ⟨k, side, rfl⟩⟩
  · rw [fresh.tickets] at inside
    cases inside
  · exact (isQueued_of_find? found).2 ((shrinks.2 s.place.side).subset inside)
  · rcases c.tickets_join ⟨r.nextTicket⟩ k side s.place.side with sub | ⟨-, longer⟩
    · exact (isQueued_of_find? found).2 (sub.subset inside)
    · rw [longer, List.mem_append, List.mem_singleton] at inside
      rcases inside with old | new
      · exact (isQueued_of_find? found).2 old
      · have issued := bal.issued s holds
        rw [new] at issued
        exact absurd issued (Nat.lt_irrefl _)

end Registry

/-- The stays of a request after it was looked at. -/
def Turn.stays (q : Request) (prior : Option Place) : Turn → List Stay
  | .parked q' p => [⟨some q', p⟩]
  | .waiting => q.stays prior
  | _ => []

/-- A request that is looked at makes a move. -/
theorem Request.Looked.moves {ω : Type} {r r' : Registry ω} {held : List Stay} {u : Usage}
    {resumed : Request → Place → Prop} {q : Request} {prior : Option Place} {k : ω} {turn : Turn}
    (looked : q.Looked r k prior turn r') (permitted : u.permits (some q))
    (fits : ∀ p ∈ prior, q.Fits p) (again : ∀ p ∈ prior, q.side = .senders → resumed q p) :
    r.Moves u resumed (q.stays prior ++ held) r' (turn.stays q prior ++ held) := by
  cases looked with
  | pursued out pursued =>
    cases pursued with
    | granted granted => exact .granted permitted out granted
    | groundless none =>
      cases prior with
      | none => exact .rest r held
      | some p => exact .gone (none.find?_eq_none (fits p rfl))
    | parked blocked found => exact .parked permitted out blocked found again
  | waiting queued => exact .visited queued
  | gone gone => exact .gone gone

end MessageBus

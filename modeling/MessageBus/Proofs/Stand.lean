import MessageBus.Proofs.Moves

/-!
# What one step does to a channel

The wakeups of a channel are accounted for by a few numbers: those of the channel itself, and how
many places are held on each of its sides. A `Stand` puts them together, and `Stand.Step` lists what
one step of a bus can make of it.

One kind of step is set apart. A sender that was called and cannot go ahead waits again, at the same
channel or, if it is a broadcast, at another one. Its wakeup is then used up and was passed on to
nobody: a `Stand.Lapse`.
-/

namespace MessageBus

/-- A channel, and how many places are held on each of its sides. -/
structure Stand (ω : Type) where
  channel : Channel ω
  senders : Nat
  receivers : Nat

namespace Stand

variable {ω : Type}

/-- Every caller that waits holds a place. -/
def Sound (s : Stand ω) : Prop :=
  s.channel.senders.size ≤ s.senders ∧ s.channel.receivers.size ≤ s.receivers

/-- What one step makes of a channel. A caller that was called before may give up its place in it:
`s'` or `r'` is then one less than `s` or `r`. -/
inductive Step : Stand ω → Stand ω → Prop where
  | untouched (stand) : Step stand stand
  | handled {c c' s r} (handled : c.Handled c') : Step ⟨c, s, r⟩ ⟨c', s, r⟩
  | visited {c c' : Channel ω} {s r}
      (same : c.Becomes c' c.queue.size c.senders.size c.receivers.size) :
    Step ⟨c, s, r⟩ ⟨c', s, r⟩
  | sent {c m s s' r} (accepts : c.acceptsBroadcast = true) (room : c.senders.size ≤ s')
      (rose : s' = s ∨ s' + 1 = s) :
    Step ⟨c, s, r⟩ ⟨(c.commit m true).1, s', r⟩
  | sentMany {c ms s s' r} (space : c.hasSpace = true) (room : c.senders.size ≤ s')
      (rose : s' = s ∨ s' + 1 = s) :
    Step ⟨c, s, r⟩ ⟨(c.trySendMany ms).state, s', r⟩
  | received {c s r r'} (some : 0 < c.queue.size) (room : c.receivers.size ≤ r')
      (rose : r' = r ∨ r' + 1 = r) :
    Step ⟨c, s, r⟩ ⟨c.tryRecv.state, s, r'⟩
  | receivedMany {c limit o s r r'} (some : 0 < c.queue.size)
      (ran : c.recvManyStep limit = .ok o) (room : c.receivers.size ≤ r')
      (rose : r' = r ∨ r' + 1 = r) :
    Step ⟨c, s, r⟩ ⟨o.state, s, r'⟩
  | parkedSender {c t k s r} (full : c.hasSpace = false) :
    Step ⟨c, s, r⟩ ⟨c.join t k .senders, s + 1, r⟩
  | parkedReceiver {c t k s r r'} (empty : c.queue.size = 0) (room : c.receivers.size ≤ r')
      (rose : r' = r ∨ r' + 1 = r) :
    Step ⟨c, s, r⟩ ⟨c.join t k .receivers, s, r' + 1⟩
  | leftSenders {c c' : Channel ω} {s r}
      (left : c.Becomes c' c.queue.size (c.senders.size - 1) c.receivers.size)
      (queued : 0 < c.senders.size) :
    Step ⟨c, s + 1, r⟩ ⟨c', s, r⟩
  | leftReceivers {c c' : Channel ω} {s r}
      (left : c.Becomes c' c.queue.size c.senders.size (c.receivers.size - 1))
      (queued : 0 < c.receivers.size) :
    Step ⟨c, s, r + 1⟩ ⟨c', s, r⟩
  | passedSenders {c s r} (room : c.senders.size ≤ s) :
    Step ⟨c, s + 1, r⟩ ⟨(c.wakeFirst .senders).1, s, r⟩
  | passedReceivers {c s r} (room : c.receivers.size ≤ r) :
    Step ⟨c, s, r + 1⟩ ⟨(c.wakeFirst .receivers).1, s, r⟩

/-- A sender that was called waits again, at the end of the same line or at another channel. -/
inductive Lapse (moved : Prop) : Stand ω → Stand ω → Prop where
  | here {c t k s r} (same : ¬moved) (full : c.hasSpace = false) (room : c.senders.size < s) :
    Lapse moved ⟨c, s, r⟩ ⟨c.join t k .senders, s, r⟩
  | elsewhere {c s r} (other : moved) (room : c.senders.size ≤ s) :
    Lapse moved ⟨c, s + 1, r⟩ ⟨c, s, r⟩

theorem Lapse.of_moved {s s' : Stand ω} {moved : Prop} (lapse : s.Lapse moved s') (other : moved) :
    s'.channel = s.channel ∧ s.senders = s'.senders + 1 := by
  cases lapse with
  | here same _ _ => exact absurd other same
  | elsewhere _ _ => exact ⟨rfl, rfl⟩

theorem Lapse.of_stayed {s s' : Stand ω} {moved : Prop} (lapse : s.Lapse moved s') (same : ¬moved) :
    s.channel.hasSpace = false ∧ (∃ t k, s'.channel = s.channel.join t k .senders) ∧
      s'.senders = s.senders := by
  cases lapse with
  | here _ full _ => exact ⟨full, ⟨_, _, rfl⟩, rfl⟩
  | elsewhere other _ => exact absurd other same

end Stand

namespace Channel

variable {ω : Type}

theorem sizes_join_senders (c : Channel ω) (t : Ticket) (k : ω) :
    (c.join t k .senders).queue = c.queue ∧ (c.join t k .senders).capacity = c.capacity ∧
      (c.join t k .senders).senders.size = c.senders.size + 1 ∧
      (c.join t k .senders).receivers = c.receivers := by
  refine ⟨rfl, rfl, ?_, rfl⟩
  simp [join, WaitLine.size]

theorem sizes_join_receivers (c : Channel ω) (t : Ticket) (k : ω) :
    (c.join t k .receivers).queue.size = c.queue.size ∧
      (c.join t k .receivers).capacity = c.capacity ∧
      (c.join t k .receivers).senders.size =
        (if c.queue.size = 0 ∧ c.hasSpace = false then 0 else c.senders.size) ∧
      (c.join t k .receivers).receivers.size = c.receivers.size + 1 := by
  have parked := becomes_receiverParked
    { c with receivers := (⟨c.receivers.waiters ++ [⟨t, k⟩]⟩ : WaitLine ω) }
  refine ⟨parked.messages, parked.capacity, parked.senders, parked.receivers.trans ?_⟩
  simp [WaitLine.size]

end Channel

/-! ### The steps of a bus -/

namespace Registry

variable {ω : Type} {r r' : Registry ω} {held held' : List Stay} {u : Usage} {a b : Address}
  {c c' : Channel ω} {q : Request} {prior : Option Place} {resumed : Request → Place → Prop}

/-- A channel with the places that are held on it. -/
def stand (c : Channel ω) (held : List Stay) (a : Address) : Stand ω :=
  ⟨c, seats held a .senders, seats held a .receivers⟩

theorem Balanced.stand_sound (bal : r.Balanced held) (found : r.find? a = some c) :
    (stand c held a).Sound :=
  ⟨bal.size_le_seats found .senders, bal.size_le_seats found .receivers⟩

/-- A request holds no place in a line that it is not about. -/
theorem seats_stays_of_ne {side : Side} (elsewhere : ∀ p ∈ prior, p.isAt a side = false) :
    seats (q.stays prior ++ held) a side = seats held a side := by
  cases prior with
  | none => rfl
  | some p =>
    have out := elsewhere p rfl
    simp [Request.stays, seats, out]

theorem seats_stays_of_isAt {p : Place} {side : Side} (here : p.isAt a side = true) :
    seats (q.stays (some p) ++ held) a side = seats held a side + 1 := by
  simp [Request.stays, seats_cons, here]

/-- A request holds at most one place. -/
theorem seats_stays_rose (q : Request) (prior : Option Place) (held : List Stay) (a : Address)
    (side : Side) :
    seats held a side = seats (q.stays prior ++ held) a side ∨
      seats held a side + 1 = seats (q.stays prior ++ held) a side := by
  cases prior with
  | none => exact .inl rfl
  | some p =>
    simp only [Request.stays, Option.toList_some, List.map_cons, List.map_nil, List.cons_append,
      List.nil_append, seats_cons]
    split
    · exact .inr rfl
    · exact .inl rfl

/-- The places of a request are on its own side only. -/
theorem seats_stays_other_side (fits : ∀ p ∈ prior, q.Fits p) (a : Address) (side : Side)
    (other : q.side ≠ side) : seats (q.stays prior ++ held) a side = seats held a side :=
  seats_stays_of_ne fun p member => by
    rw [← Bool.not_eq_true, Place.isAt_iff]
    rintro ⟨-, same⟩
    exact other ((fits p member).1 ▸ same)

/-- The places of a request that is about one channel are on that channel only. -/
theorem seats_stays_other_address (fits : ∀ p ∈ prior, q.Fits p) (about : q.address? = some b)
    (other : a ≠ b) (side : Side) : seats (q.stays prior ++ held) a side = seats held a side :=
  seats_stays_of_ne fun p member => by
    rw [← Bool.not_eq_true, Place.isAt_iff]
    rintro ⟨same, -⟩
    exact other (same ▸ (fits p member).2 b about)

theorem stand_cons_senders (c : Channel ω) (request : Option Request) (t : Ticket)
    (held : List Stay) (a : Address) : stand c (⟨request, ⟨a, .senders, t⟩⟩ :: held) a =
      ⟨c, seats held a .senders + 1, seats held a .receivers⟩ := by
  simp [stand, seats_cons, Place.isAt]

theorem stand_cons_receivers (c : Channel ω) (request : Option Request) (t : Ticket)
    (held : List Stay) (a : Address) : stand c (⟨request, ⟨a, .receivers, t⟩⟩ :: held) a =
      ⟨c, seats held a .senders, seats held a .receivers + 1⟩ := by
  simp [stand, seats_cons, Place.isAt]

/-- A place at one channel does not count at another. -/
theorem seats_cons_elsewhere {s : Stay} (other : s.place.address ≠ a) (side : Side) :
    seats (s :: held) a side = seats held a side := by
  simp [seats_cons, Place.isAt, other]

theorem stand_cons_elsewhere (c : Channel ω) {s : Stay} (other : s.place.address ≠ a) :
    stand c (s :: held) a = stand c held a := by
  rw [stand, seats_cons_elsewhere other, seats_cons_elsewhere other]
  rfl

/-- A channel that is put in its place takes a step there, and the others stay as they are. -/
theorem put_step {d : Channel ω} (found : r.find? b = some c) (same : d.id = c.id)
    (after : (r.put b.handle d).find? a = some c')
    (here : (stand c held b).Step (stand d held' b))
    (elsewhere : a ≠ b → ∀ side, seats held a side = seats held' a side) :
    ∃ c, r.find? a = some c ∧ (stand c held a).Step (stand c' held' a) := by
  rcases find?_put_cases found same after with ⟨rfl, rfl⟩ | ⟨other, before⟩
  · exact ⟨c, found, here⟩
  · refine ⟨c', before, ?_⟩
    rw [stand, elsewhere other, elsewhere other]
    exact .untouched _

/-- A granted request acts on the channels that it is about, and gives up its place there. -/
theorem granted_step (granted : q.Granted r r') (bal : r.Balanced (q.stays prior ++ held))
    (out : ∀ p ∈ prior, r.isQueued p = false) (after : r'.find? a = some c') :
    ∃ c, r.find? a = some c ∧
      (stand c (q.stays prior ++ held) a).Step (stand c' held a) := by
  have fits := stays_fit bal
  have room := fun b c (found : r.find? b = some c) => (bal.stays out).stand_sound found
  have elsewhere {b : Address} (about : q.address? = some b) (other : a ≠ b) (side : Side) :
      seats (q.stays prior ++ held) a side = seats held a side :=
    seats_stays_other_address fits about other side
  cases granted with
  | @send _ b m c found space =>
    refine put_step found (c.becomes_commit_cascade m).shrinks.1 after ?_ (elsewhere rfl)
    rw [stand, seats_stays_other_side fits b .receivers (by simp [Request.side])]
    exact .sent (by rw [Channel.acceptsBroadcast, space]; rfl) (room b c found).1
      (seats_stays_rose _ prior held b .senders)
  | @sendMany _ b ms c found space =>
    refine put_step found (Channel.becomes_trySendMany space ms).shrinks.1 after ?_ (elsewhere rfl)
    rw [stand, seats_stays_other_side fits b .receivers (by simp [Request.side])]
    exact .sentMany space (room b c found).1 (seats_stays_rose _ prior held b .senders)
  | @recv _ b c found some =>
    refine put_step found (Channel.becomes_tryRecv some).2.shrinks.1 after ?_ (elsewhere rfl)
    rw [stand, seats_stays_other_side fits b .senders (by simp [Request.side])]
    exact .received some (room b c found).2 (seats_stays_rose _ prior held b .receivers)
  | @recvMany _ b limit c o found some ran =>
    obtain ⟨o', _, ran', -, becomes⟩ := Channel.becomes_recvManyStep some limit
    cases ran.symm.trans ran'
    refine put_step found becomes.shrinks.1 after ?_ (elsewhere rfl)
    rw [stand, seats_stays_other_side fits b .senders (by simp [Request.side])]
    exact .receivedMany some ran (room b c found).2 (seats_stays_rose _ prior held b .receivers)
  | broadcast all =>
    rw [find?_commitAll] at after
    obtain ⟨c, found, rfl⟩ := Option.map_eq_some_iff.1 after
    refine ⟨c, found, ?_⟩
    rw [stand, seats_stays_other_side fits a .receivers (by simp [Request.side])]
    exact .sent (blocker?_eq_none_iff.1 all a c found) (room a c found).1
      (seats_stays_rose _ prior held a .senders)

theorem hasSpace_of_acceptsBroadcast (rejects : c.acceptsBroadcast = false) :
    c.hasSpace = false := by
  rw [Channel.acceptsBroadcast, Bool.or_eq_false_iff] at rejects
  exact rejects.1

/-- What is in the way of a sender is a channel without space. -/
theorem hasSpace_of_blocked (blocked : q.Blocked r a) (sends : q.side = .senders)
    (found : r.find? a = some c) : c.hasSpace = false := by
  cases blocked with
  | send found' full =>
    cases found.symm.trans found'
    exact full
  | sendMany found' full =>
    cases found.symm.trans found'
    exact full
  | recv _ _ => cases sends
  | recvMany _ _ => cases sends
  | broadcast blocker =>
    obtain ⟨d, found', rejects⟩ := find?_of_blocker? blocker
    cases found.symm.trans found'
    exact hasSpace_of_acceptsBroadcast rejects

/-- What is in the way of a receiver is an empty channel, the one that it is about. -/
theorem empty_of_blocked (blocked : q.Blocked r a) (receives : q.side = .receivers)
    (found : r.find? a = some c) : c.queue.size = 0 ∧ q.address? = some a := by
  cases blocked with
  | send _ _ => cases receives
  | sendMany _ _ => cases receives
  | recv found' empty =>
    cases found.symm.trans found'
    exact ⟨empty, rfl⟩
  | recvMany found' empty =>
    cases found.symm.trans found'
    exact ⟨empty, rfl⟩
  | broadcast _ => cases receives

/-- A request that goes on has its place in a line, or none there. -/
theorem prior_isAt_or (prior : Option Place) (a : Address) (side : Side) :
    (∃ p, prior = some p ∧ p.isAt a side = true) ∨ ∀ p ∈ prior, p.isAt a side = false := by
  cases prior with
  | none => exact .inr fun p member => by cases member
  | some p =>
    cases here : p.isAt a side
    · exact .inr fun p' member => by cases member; exact here
    · exact .inl ⟨p, rfl, here⟩

/-- A request that parks has not lapsed at a channel, unless it was called as a sender there. -/
theorem parked_step {d : Channel ω} {k : ω} (bal : r.Balanced (q.stays prior ++ held))
    (out : ∀ p ∈ prior, r.isQueued p = false) (blocked : q.Blocked r b)
    (found : r.find? b = some d)
    (after : (r.issue.put b.handle (d.join ⟨r.nextTicket⟩ k q.side)).find? a = some c') :
    ∃ c, r.find? a = some c ∧
      ((stand c (q.stays prior ++ held) a).Step
          (stand c' (⟨some q, ⟨b, q.side, ⟨r.nextTicket⟩⟩⟩ :: held) a) ∨
        (∃ p, prior = some p ∧ p.isAt a .senders = true) ∧
          (stand c (q.stays prior ++ held) a).Lapse (b ≠ a)
            (stand c' (⟨some q, ⟨b, q.side, ⟨r.nextTicket⟩⟩⟩ :: held) a)) := by
  have fits := stays_fit bal
  have sound := fun c (found : r.find? a = some c) => (bal.stays out).stand_sound found
  have called_or := prior_isAt_or prior a .senders
  rcases find?_put_cases (r := r.issue) found (d.id_join _ k q.side) after with
    ⟨rfl, rfl⟩ | ⟨other, before⟩
  · refine ⟨d, found, ?_⟩
    cases side : q.side with
    | senders =>
      have full := hasSpace_of_blocked blocked side found
      rw [stand_cons_senders, stand, seats_stays_other_side fits a .receivers (by simp [side])]
      rcases called_or with ⟨p, rfl, here⟩ | elsewhere
      · have room : d.senders.size < seats held a .senders + 1 :=
          Nat.lt_succ_of_le (sound d found).1
        rw [seats_stays_of_isAt here]
        exact .inr ⟨⟨p, rfl, here⟩, .here (fun moved => moved rfl) full room⟩
      · rw [seats_stays_of_ne elsewhere]
        exact .inl (.parkedSender full)
    | receivers =>
      have empty := (empty_of_blocked blocked side found).1
      rw [stand_cons_receivers, stand, seats_stays_other_side fits a .senders (by simp [side])]
      exact .inl (.parkedReceiver empty (sound d found).2
        (seats_stays_rose _ prior held a .receivers))
  · refine ⟨c', before, ?_⟩
    have receivers : seats (q.stays prior ++ held) a .receivers = seats held a .receivers := by
      cases side : q.side with
      | senders => exact seats_stays_other_side fits a _ (by simp [side])
      | receivers =>
        exact seats_stays_other_address fits (empty_of_blocked blocked side found).2 other _
    rw [stand_cons_elsewhere c' (Ne.symm other), stand, receivers]
    rcases called_or with ⟨p, rfl, here⟩ | elsewhere
    · rw [seats_stays_of_isAt here]
      exact .inr ⟨⟨p, rfl, here⟩, .elsewhere (Ne.symm other) (sound c' before).1⟩
    · rw [seats_stays_of_ne elsewhere]
      exact .inl (.untouched _)

/-- Whoever gives up a place leaves the line, or passes on its wakeup. -/
theorem abandoned_step {s : Stay} (bal : r.Balanced (s :: held))
    (after : (r.abandon s.place).state.find? a = some c') :
    ∃ c, r.find? a = some c ∧ (stand c (s :: held) a).Step (stand c' held a) := by
  obtain ⟨request, ⟨b, side, t⟩⟩ := s
  have elsewhere (other : a ≠ b) (side' : Side) :
      seats (⟨request, ⟨b, side, t⟩⟩ :: held) a side' = seats held a side' :=
    seats_cons_elsewhere (Ne.symm other) side'
  rcases r.standing_cases ⟨b, side, t⟩ with queued | called | gone
  · obtain ⟨c, l, found, inside, left, state⟩ := abandon_of_queued queued
    have smaller : l.tickets.Sublist (c.tickets side) := left ▸ List.erase_sublist
    have becomes := Channel.becomes_setLine smaller
    have size : l.size = (c.line side).size - 1 := by
      rw [← WaitLine.length_tickets, left, List.length_erase_of_mem inside]
      exact congrArg (· - 1) (c.line side).length_tickets
    have waits : 0 < (c.line side).size := by
      rw [← WaitLine.length_tickets]
      exact List.length_pos_of_mem inside
    rw [state] at after
    refine put_step found becomes.shrinks.1 after ?_ elsewhere
    cases side with
    | senders =>
      rw [stand_cons_senders]
      exact .leftSenders (size ▸ becomes) waits
    | receivers =>
      rw [stand_cons_receivers]
      exact .leftReceivers (size ▸ becomes) waits
  · obtain ⟨c, found, state⟩ := abandon_of_called called
    have sound := (bal.giveUp (isQueued_eq_false_of_hasCalled called)).stand_sound found
    rw [state] at after
    refine put_step found (c.id_wakeFirst side) after ?_ elsewhere
    cases side with
    | senders =>
      rw [stand_cons_senders]
      exact .passedSenders sound.1
    | receivers =>
      rw [stand_cons_receivers]
      exact .passedReceivers sound.2
  · rw [abandon_of_gone gone] at after
    have other : b ≠ a := by
      rintro rfl
      cases gone.symm.trans after
    refine ⟨c', after, ?_⟩
    rw [stand_cons_elsewhere c' other]
    exact .untouched _

/-- What one step makes of a channel: it is new, or it took a proper step, or a sender that was
called there waits again. -/
theorem Moves.stands (moves : Moves u resumed r held r' held') (bal : r.Balanced held)
    (permitted : ∀ s ∈ held, u.permits s.request) (bare : ¬u.bareWaits)
    (after : r'.find? a = some c') :
    c'.IsFresh ∨ ∃ c, r.find? a = some c ∧
      ((stand c held a).Step (stand c' held' a) ∨
        ∃ q p b, ⟨some q, p⟩ ∈ held ∧ resumed q p ∧ r.hasCalled p = true ∧
          p.isAt a .senders = true ∧ q.Blocked r b ∧
          (stand c held a).Lapse (b ≠ a) (stand c' held' a)) := by
  cases moves with
  | rest => exact .inr ⟨c', after, .inl (.untouched _)⟩
  | handled handles =>
    rcases handles.2 a c' after with fresh | ⟨c, before, handled⟩
    · exact .inl fresh
    · exact .inr ⟨c, before, .inl (.handled handled)⟩
  | granted _ out granted =>
    obtain ⟨c, before, step⟩ := granted_step granted bal out after
    exact .inr ⟨c, before, .inl step⟩
  | gone out =>
    refine .inr ⟨c', after, .inl ?_⟩
    rw [stand_cons_elsewhere c' fun same => ?_]
    · exact .untouched _
    · rw [← same] at after
      cases out.symm.trans after
  | @parked q prior b d k held _ out blocked found again =>
    obtain ⟨c, before, step | ⟨⟨p, rfl, here⟩, lapse⟩⟩ := parked_step bal out blocked found after
    · exact .inr ⟨c, before, .inl step⟩
    · obtain ⟨rfl, side⟩ := Place.isAt_iff.1 here
      have sends : q.side = .senders := (stays_fit bal p rfl).1 ▸ side
      have called : r.hasCalled p = true := by
        rw [Registry.hasCalled, before, out p rfl]
        rfl
      exact .inr ⟨c, before, .inr ⟨q, p, b, List.mem_cons_self, again p rfl sends, called, here,
        blocked, lapse⟩⟩
  | @visited p k _ queued =>
    obtain ⟨d, l, found, same, -, state⟩ := revisit_of_queued queued k
    have smaller : l.tickets.Sublist (d.tickets p.side) := same ▸ List.Sublist.refl _
    have becomes := Channel.becomes_setLine smaller
    have size : l.size = (d.line p.side).size := by
      rw [← WaitLine.length_tickets, same]
      exact (d.line p.side).length_tickets
    have visited : d.Becomes (d.setLine p.side l) d.queue.size d.senders.size d.receivers.size := by
      rw [size] at becomes
      cases side : p.side
      · rwa [side] at becomes
      · rwa [side] at becomes
    rw [state] at after
    obtain ⟨c, before, step⟩ := put_step found becomes.shrinks.1 after (.visited visited)
      fun _ _ => rfl
    exact .inr ⟨c, before, .inl step⟩
  | abandoned =>
    obtain ⟨c, before, step⟩ := abandoned_step bal after
    exact .inr ⟨c, before, .inl step⟩
  | issued => exact .inr ⟨c', after, .inl (.untouched _)⟩
  | waits allowed _ => exact absurd allowed bare
  | woke _ => exact absurd (permitted _ List.mem_cons_self) bare

end Registry

end MessageBus

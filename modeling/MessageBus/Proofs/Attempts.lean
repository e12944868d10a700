import MessageBus.Operation
import MessageBus.Proofs.Waiting

/-!
# How a request fares

An attempt at a request ends in one of three ways. It is granted, and changes the registry as its
kind says (`Request.Granted`); or there is no channel for it (`Request.Groundless`); or a channel is
in its way (`Request.Blocked`). In the last two the registry stays as it is. A request that is
pursued parks where it was blocked, and one that is advanced is pursued again once it was called.

No request and no operation commits a fault on a balanced registry.
-/

namespace MessageBus

/-- What holds of the answer and the state of a continuation holds of the whole. -/
theorem Outcome.exists_andThen {σ ω α β : Type} {o : Outcome σ ω α} {p : Outcome σ ω β}
    {next : α → σ → Except Fault (Outcome σ ω β)} {Holds : β → σ → Prop}
    (ran : next o.answer o.state = .ok p) (holds : Holds p.answer p.state) :
    ∃ o', o.andThen next = .ok o' ∧ Holds o'.answer o'.state :=
  ⟨_, Outcome.andThen_of_ok ran, holds⟩

namespace Request

variable {ω : Type}

/-- What becomes of the registry when a request is granted. -/
inductive Granted : Request → Registry ω → Registry ω → Prop where
  | send {r : Registry ω} {a m c} (found : r.find? a = some c) (space : c.hasSpace = true) :
    Granted (.send a m) r (r.put a.handle (c.commit m true).1)
  | sendMany {r : Registry ω} {a ms c} (found : r.find? a = some c) (space : c.hasSpace = true) :
    Granted (.sendMany a ms) r (r.put a.handle (c.trySendMany ms).state)
  | recv {r : Registry ω} {a c} (found : r.find? a = some c) (some : 0 < c.queue.size) :
    Granted (.recv a) r (r.put a.handle c.tryRecv.state)
  | recvMany {r : Registry ω} {a limit c o} (found : r.find? a = some c)
      (some : 0 < c.queue.size) (ran : c.recvManyStep limit = .ok o) :
    Granted (.recvMany a limit) r (r.put a.handle o.state)
  | broadcast {r : Registry ω} {m} (all : r.blocker? = none) :
    Granted (.broadcast m) r (r.commitAll m true).state

/-- There is no channel that a request could be about. -/
def Groundless (q : Request) (r : Registry ω) : Prop :=
  match q.address? with
  | some a => r.find? a = none
  | none => r.channels = []

/-- A channel is in the way of a request. -/
inductive Blocked : Request → Registry ω → Address → Prop where
  | send {r : Registry ω} {a m c} (found : r.find? a = some c) (full : c.hasSpace = false) :
    Blocked (.send a m) r a
  | sendMany {r : Registry ω} {a ms c} (found : r.find? a = some c) (full : c.hasSpace = false) :
    Blocked (.sendMany a ms) r a
  | recv {r : Registry ω} {a c} (found : r.find? a = some c) (empty : c.queue.size = 0) :
    Blocked (.recv a) r a
  | recvMany {r : Registry ω} {a limit c} (found : r.find? a = some c)
      (empty : c.queue.size = 0) :
    Blocked (.recvMany a limit) r a
  | broadcast {r : Registry ω} {a m} (blocker : r.blocker? = some a) : Blocked (.broadcast m) r a

/-- The three ways in which an attempt ends. -/
inductive Fares (q : Request) (r : Registry ω) : Attempt → Registry ω → Prop where
  | granted {v r'} (granted : q.Granted r r') : Fares q r (.finished (.ok v)) r'
  | groundless (none : q.Groundless r) : Fares q r (.finished (.error .noSuchChannel)) r
  | blocked {a} (blocked : q.Blocked r a) : Fares q r (.blocked a q.side) r

end Request

namespace Registry

variable {ω α : Type} {r : Registry ω} {a : Address} {h : Handle} {c : Channel ω}

theorem put_self (found : r.channel? h = some c) : r.put h c = r := by
  have slot := channel?_eq_some_iff.1 found
  obtain ⟨inside, there⟩ := List.getElem?_eq_some_iff.1 slot
  rw [put, ← there, List.set_getElem_self]

theorem onAddress_of_gone (gone : r.find? a = none)
    (act : Channel ω → Except Fault (Outcome (Channel ω) ω (Except BusError α))) :
    r.onAddress a act = .ok { answer := .error .noSuchChannel, state := r } := by
  simp [onAddress, gone]

theorem onAddress_of_find?
    {act : Channel ω → Except Fault (Outcome (Channel ω) ω (Except BusError α))}
    {o : Outcome (Channel ω) ω (Except BusError α)} (found : r.find? a = some c)
    (ran : act c = .ok o) : r.onAddress a act = .ok (o.within (r.put a.handle)) := by
  simp [onAddress, found, ran, Except.map]

/-- Where nothing was done to the channel, nothing was done to the registry. -/
theorem onAddress_of_refused
    {act : Channel ω → Except Fault (Outcome (Channel ω) ω (Except BusError α))}
    {answer : Except BusError α} (found : r.find? a = some c)
    (ran : act c = .ok { answer, state := c }) :
    r.onAddress a act = .ok { answer, state := r } := by
  have same := put_self (find?_eq_some_iff.1 found).1
  rw [onAddress_of_find? found ran, Outcome.within, same]

end Registry

namespace Request

variable {ω : Type} {r : Registry ω} {a : Address} {c : Channel ω} {held : List Stay}

theorem attempt_send (r : Registry ω) (a : Address) (m : Message) :
    ∃ o, (send a m).attempt r = .ok o ∧ Fares (send a m) r o.answer o.state := by
  cases found : r.find? a with
  | none =>
    rw [attempt, Registry.onAddress_of_gone found]
    exact ⟨_, rfl, .groundless found⟩
  | some c =>
    cases space : c.hasSpace
    · have full : (c.sendStep m).map (.ok : Bool → Except BusError Bool)
          = { answer := .ok false, state := c } := by
        rw [Channel.sendStep_of_full space]
        rfl
      rw [attempt, Registry.onAddress_of_refused found (congrArg Except.ok full)]
      exact ⟨_, rfl, .blocked (.send found space)⟩
    · obtain ⟨answer, state⟩ := Channel.sendStep_of_hasSpace (m := m) space
      rw [attempt, Registry.onAddress_of_find? found rfl]
      refine ⟨_, rfl, ?_⟩
      simp only [Outcome.map, Outcome.within, answer, state]
      exact .granted (.send found space)

theorem attempt_sendMany (r : Registry ω) (a : Address) (ms : List Message) :
    ∃ o, (sendMany a ms).attempt r = .ok o ∧ Fares (sendMany a ms) r o.answer o.state := by
  cases found : r.find? a with
  | none =>
    rw [attempt, Registry.onAddress_of_gone found]
    exact ⟨_, rfl, .groundless found⟩
  | some c =>
    cases space : c.hasSpace
    · have full : c.trySendMany ms = _ := Channel.trySendMany_of_full space
      rw [attempt, Registry.onAddress_of_refused found (congrArg Except.ok full)]
      exact ⟨_, rfl, .blocked (.sendMany found space)⟩
    · have answer : (c.trySendMany ms).answer = _ := Channel.answer_trySendMany_of_hasSpace space
      rw [attempt, Registry.onAddress_of_find? found rfl]
      refine ⟨_, rfl, ?_⟩
      simp only [Outcome.map, Outcome.within, answer]
      exact .granted (.sendMany found space)

theorem attempt_recv (r : Registry ω) (a : Address) :
    ∃ o, (recv a).attempt r = .ok o ∧ Fares (recv a) r o.answer o.state := by
  cases found : r.find? a with
  | none =>
    rw [attempt, Registry.onAddress_of_gone found]
    exact ⟨_, rfl, .groundless found⟩
  | some c =>
    rcases Nat.eq_zero_or_pos c.queue.size with empty | some
    · have nothing := Channel.tryRecv_of_empty empty
      rw [attempt, Registry.onAddress_of_refused found (congrArg Except.ok nothing)]
      exact ⟨_, rfl, .blocked (.recv found empty)⟩
    · obtain ⟨⟨m, answer⟩, -⟩ := Channel.becomes_tryRecv some
      rw [attempt, Registry.onAddress_of_find? found rfl]
      refine ⟨_, rfl, ?_⟩
      simp only [Outcome.map, Outcome.within, answer]
      exact .granted (.recv found some)

theorem attempt_recvMany (r : Registry ω) (a : Address) (limit : Nat) :
    ∃ o, (recvMany a limit).attempt r = .ok o ∧ Fares (recvMany a limit) r o.answer o.state := by
  cases found : r.find? a with
  | none =>
    rw [attempt, Registry.onAddress_of_gone found]
    exact ⟨_, rfl, .groundless found⟩
  | some c =>
    rcases Nat.eq_zero_or_pos c.queue.size with empty | some
    · have nothing := Channel.recvManyStep_of_empty empty limit
      rw [attempt, Registry.onAddress_of_refused found nothing]
      exact ⟨_, rfl, .blocked (.recvMany found empty)⟩
    · obtain ⟨o, ms, ran, answer, -⟩ := Channel.becomes_recvManyStep some limit
      rw [attempt, Registry.onAddress_of_find? found ran]
      refine ⟨_, rfl, ?_⟩
      simp only [Outcome.map, Outcome.within, answer]
      exact .granted (.recvMany found some ran)

theorem attempt_broadcast (r : Registry ω) (m : Message) :
    ∃ o, (broadcast m).attempt r = .ok o ∧ Fares (broadcast m) r o.answer o.state := by
  refine ⟨_, rfl, ?_⟩
  rw [Registry.attemptBroadcast]
  cases none : r.channels.isEmpty
  · cases blocker : r.blocker? with
    | none => exact .granted (.broadcast blocker)
    | some a => exact .blocked (.broadcast blocker)
  · exact .groundless (List.isEmpty_iff.1 none)

/-- An attempt at a request is granted, groundless or blocked. -/
theorem attempt_fares (q : Request) (r : Registry ω) :
    ∃ o, q.attempt r = .ok o ∧ q.Fares r o.answer o.state :=
  match q with
  | .send a m => attempt_send r a m
  | .sendMany a ms => attempt_sendMany r a ms
  | .recv a => attempt_recv r a
  | .recvMany a limit => attempt_recvMany r a limit
  | .broadcast m => attempt_broadcast r m

/-- What is in the way of a request is an open channel, and the request may wait there. -/
theorem Blocked.find? {q : Request} (blocked : q.Blocked r a) :
    ∃ c, r.find? a = some c ∧ ∀ t, q.Fits ⟨a, q.side, t⟩ := by
  cases blocked with
  | send found _ => exact ⟨_, found, fun t => ⟨rfl, fun b same => Option.some.inj same⟩⟩
  | sendMany found _ => exact ⟨_, found, fun t => ⟨rfl, fun b same => Option.some.inj same⟩⟩
  | recv found _ => exact ⟨_, found, fun t => ⟨rfl, fun b same => Option.some.inj same⟩⟩
  | recvMany found _ => exact ⟨_, found, fun t => ⟨rfl, fun b same => Option.some.inj same⟩⟩
  | broadcast blocker =>
    obtain ⟨c, found, -⟩ := Registry.find?_of_blocker? blocker
    exact ⟨c, found, fun t => ⟨rfl, fun b same => by cases same⟩⟩

/-- The ways in which a request stands after it was pursued with a waker. -/
inductive Pursued (q : Request) (r : Registry ω) (k : ω) : Turn → Registry ω → Prop where
  | granted {v r'} (granted : q.Granted r r') : Pursued q r k (.finished (.ok v)) r'
  | groundless (none : q.Groundless r) : Pursued q r k (.finished (.error .noSuchChannel)) r
  | parked {b d} (blocked : q.Blocked r b) (found : r.find? b = some d) :
    Pursued q r k (.parked q ⟨b, q.side, ⟨r.nextTicket⟩⟩)
      (r.issue.put b.handle (d.join ⟨r.nextTicket⟩ k q.side))

theorem pursue_pursued (bal : r.Balanced held) (q : Request) (k : ω) :
    ∃ o, q.pursue r k = .ok o ∧ q.Pursued r k o.answer o.state := by
  obtain ⟨tried, ran, fares⟩ := q.attempt_fares r
  simp only [pursue, ran, bind, Except.bind]
  generalize answer : tried.answer = x at fares
  generalize state : tried.state = r' at fares
  cases fares with
  | @granted v _ granted =>
    refine Outcome.exists_andThen (p := { answer := .finished (.ok v), state := r' }) ?_
      (.granted granted)
    rw [answer, state]
  | groundless none =>
    refine Outcome.exists_andThen
      (p := { answer := .finished (.error .noSuchChannel), state := r }) ?_ (.groundless none)
    rw [answer, state]
  | @blocked a blocked =>
    obtain ⟨c, found, -⟩ := blocked.find?
    obtain ⟨o, parks, place, after⟩ := Registry.park_of_find? bal found q.side k
    let turn : Outcome (Registry ω) ω Turn :=
      { answer := .parked q ⟨a, q.side, ⟨r.nextTicket⟩⟩
        state := o.state
        woken := o.woken ++ []
        notes := o.notes ++ []
        afterwards := o.afterwards ++ [] }
    refine Outcome.exists_andThen (p := turn) ?_ (after ▸ .parked blocked found)
    rw [answer, state]
    simp only [parks]
    exact Outcome.andThen_of_ok (p := { answer := turn.answer, state := o.state }) (by rw [place])

/-- A request whose ticket is still in its line is left waiting. -/
theorem advance_of_queued {p : Place} (queued : r.isQueued p = true) (q : Request) (k : ω) :
    ∃ o, q.advance r p k = .ok o ∧ o.answer = .waiting ∧ o.state = (r.revisit p k).state := by
  obtain ⟨c, l, -, -, answer, -⟩ := Registry.revisit_of_queued queued k
  refine ⟨_, Outcome.andThen_of_ok (p := { answer := .waiting, state := (r.revisit p k).state })
    ?_, rfl, rfl⟩
  rw [answer]

/-- A request that was called is pursued anew. -/
theorem advance_of_called {p : Place} (bal : r.Balanced held) (called : r.hasCalled p = true)
    (q : Request) (k : ω) : ∃ o, q.advance r p k = .ok o ∧ q.Pursued r k o.answer o.state := by
  obtain ⟨answer, state⟩ := Registry.revisit_of_called called k
  obtain ⟨o, ran, fares⟩ := pursue_pursued bal q k
  refine ⟨_, Outcome.andThen_of_ok (p := o) ?_, fares⟩
  rw [answer, state]
  exact ran

/-- A broadcast whose channel is gone is pursued anew, and any other request fails. -/
theorem advance_of_gone {p : Place} (bal : r.Balanced held) (gone : r.find? p.address = none)
    (q : Request) (k : ω) :
    ∃ o, q.advance r p k = .ok o ∧
      (q.Pursued r k o.answer o.state ∨
        o.answer = .finished (.error .noSuchChannel) ∧ o.state = r) := by
  obtain ⟨answer, state⟩ := Registry.revisit_of_gone gone k
  cases q with
  | broadcast m =>
    obtain ⟨o, ran, fares⟩ := pursue_pursued bal (broadcast m) k
    refine ⟨_, Outcome.andThen_of_ok (p := { o with notes := .blockerClosed :: o.notes }) ?_,
      .inl fares⟩
    rw [answer, state]
    exact Outcome.andThen_of_ok ran
  | _ =>
    refine ⟨_, Outcome.andThen_of_ok
      (p := { answer := .finished (.error .noSuchChannel), state := r }) ?_, .inr ⟨rfl, rfl⟩⟩
    rw [answer, state]
    rfl

/-- Looks at a request, from its place if it has one. -/
def look (q : Request) (r : Registry ω) (prior : Option Place) (k : ω) :
    Except Fault (Outcome (Registry ω) ω Turn) :=
  match prior with
  | none => q.pursue r k
  | some p => q.advance r p k

/-- How a request stands after it was looked at. -/
inductive Looked (q : Request) (r : Registry ω) (k : ω) :
    Option Place → Turn → Registry ω → Prop where
  | pursued {prior turn r'} (out : ∀ p ∈ prior, r.isQueued p = false)
      (pursued : q.Pursued r k turn r') : Looked q r k prior turn r'
  | waiting {p} (queued : r.isQueued p = true) :
    Looked q r k (some p) .waiting (r.revisit p k).state
  | gone {p} (gone : r.find? p.address = none) :
    Looked q r k (some p) (.finished (.error .noSuchChannel)) r

theorem look_looked (bal : r.Balanced held) (q : Request) (prior : Option Place) (k : ω) :
    ∃ o, q.look r prior k = .ok o ∧ q.Looked r k prior o.answer o.state := by
  cases prior with
  | none =>
    obtain ⟨o, ran, pursued⟩ := pursue_pursued bal q k
    exact ⟨o, ran, .pursued (fun p member => by cases member) pursued⟩
  | some p =>
    rcases r.standing_cases p with queued | called | gone
    · obtain ⟨o, ran, answer, state⟩ := advance_of_queued queued q k
      refine ⟨o, ran, ?_⟩
      rw [answer, state]
      exact .waiting queued
    · obtain ⟨o, ran, pursued⟩ := advance_of_called bal called q k
      refine ⟨o, ran, .pursued (fun p' same => ?_) pursued⟩
      cases same
      exact Registry.isQueued_eq_false_of_hasCalled called
    · obtain ⟨o, ran, pursued | ⟨answer, state⟩⟩ := advance_of_gone bal gone q k
      · refine ⟨o, ran, .pursued (fun p' same => ?_) pursued⟩
        cases same
        exact Registry.isQueued_eq_false_of_gone gone
      · refine ⟨o, ran, ?_⟩
        rw [answer, state]
        exact .gone gone

/-- Without a channel for a request, none of the places is left that it fits. -/
theorem Groundless.find?_eq_none {q : Request} {p : Place} (ground : q.Groundless r)
    (fits : q.Fits p) : r.find? p.address = none := by
  cases about : q.address? with
  | some a =>
    rw [fits.2 a about]
    simpa only [Groundless, about] using ground
  | none =>
    have closed : r.channels = [] := by simpa only [Groundless, about] using ground
    cases found : r.find? p.address with
    | none => rfl
    | some c =>
      have member := Registry.mem_channels_of_find? found
      rw [closed] at member
      cases member

end Request

end MessageBus

import MessageBus.Proofs.Moves
import MessageBus.Proofs.Transfers

/-!
# Errands on a bus

Whoever enters a bus is on an `Errand`: one atomic operation that it has carried out there. An
errand that succeeds leaves a registry, owes some wakeups, and comes to an `Upshot`: the messages
that it moved and the places that its task holds for it from then on.

Here an errand is taken on any registry, in balance or not, and read back from its outcome.
-/

namespace MessageBus

/-- An atomic operation on a bus. -/
inductive Errand (ω : Type) where
  | operate (op : Operation)
  /-- A request is looked at, from its place if it has one. -/
  | look (q : Request) (prior : Option Place) (k : ω)
  /-- A bare wait begins. -/
  | park (a : Address) (side : Side) (k : ω)
  /-- A bare wait is looked at. -/
  | revisit (p : Place) (k : ω)
  | abandon (p : Place)
  /-- The registry is read and left as it is. -/
  | glance

/-- What an errand comes to. -/
structure Upshot where
  transfers : List Transfer := []
  /-- The places that are held for it from then on. -/
  places : List Place := []

/-- What an operation moved, by its answer. -/
def Operation.transfers {ω : Type} (r : Registry ω) : Operation → Reply → List Transfer
  | .trySend h m, .granted _ => (r.channel? h).toList.map (.sent ·.id [m])
  | .trySendMany h ms, .granted (.number n) => (r.channel? h).toList.map (.sent ·.id (ms.take n))
  | .tryRecv h, .granted (.message m) => (r.channel? h).toList.map (.received ·.id [m])
  | .tryRecvMany h _, .granted (.messages ms) => (r.channel? h).toList.map (.received ·.id ms)
  | .tryBroadcast m, .granted _ => r.channels.map (.sent ·.id [m])
  | _, _ => []

/-- What a request moved when it was granted, by the value that was answered. -/
def Request.transfers {ω : Type} (r : Registry ω) : Request → Value → List Transfer
  | .send a m, _ => [.sent a.id [m]]
  | .sendMany a ms, .number n => [.sent a.id (ms.take n)]
  | .recv a, .message m => [.received a.id [m]]
  | .recvMany a _, .messages ms => [.received a.id ms]
  | .broadcast m, _ => r.channels.map (.sent ·.id [m])
  | _, _ => []

/-- What a request moved, by how it stands afterwards. -/
def Turn.transfers {ω : Type} (r : Registry ω) (q : Request) : Turn → List Transfer
  | .finished result => whenGranted (q.transfers r) result
  | _ => []

/-- What a request comes to, by how it stands after it was looked at. -/
def Turn.upshot {ω : Type} (r : Registry ω) (q : Request) (prior : Option Place) (turn : Turn) :
    Upshot :=
  { transfers := turn.transfers r q, places := (turn.stays q prior).map (·.place) }

namespace Errand

variable {ω : Type}

/-- Carries out an errand. -/
def effect (r : Registry ω) : Errand ω → Except Fault (Outcome (Registry ω) ω Upshot)
  | operate op => (op.apply r).map (·.map fun reply => { transfers := op.transfers r reply })
  | look q prior k => (q.look r prior k).map (·.map (·.upshot r q prior))
  | park a side k => (r.park a side k).map (·.map fun place => { places := place.toList })
  | revisit p k =>
    .ok <| (r.revisit p k).map fun standing =>
      { places := if standing = .queued then [p] else [] }
  | abandon p => .ok ((r.abandon p).map fun _ => {})
  | glance => .ok { answer := {}, state := r }

/-- Whether an errand is about one channel only. -/
def IsAbout (a : Address) : Errand ω → Prop
  | look q prior _ => q.address? = some a ∧ ∀ p ∈ prior, p.address = a
  | park b _ _ => b = a
  | revisit p _ => p.address = a
  | abandon p => p.address = a
  | glance => True
  | operate _ => False

end Errand

/-! ### Reading an outcome back -/

theorem Outcome.of_map_eq_ok {σ ω α β : Type} {e : Except Fault (Outcome σ ω α)} {f : α → β}
    {o : Outcome σ ω β} (ran : e.map (Outcome.map f) = .ok o) : ∃ p, e = .ok p ∧ o = p.map f := by
  cases e with
  | error fault => cases ran
  | ok p => exact ⟨p, rfl, (Except.ok.inj ran).symm⟩

theorem Outcome.of_andThen_eq_ok {σ ω α β : Type} {o : Outcome σ ω α} {o' : Outcome σ ω β}
    {next : α → σ → Except Fault (Outcome σ ω β)} (ran : o.andThen next = .ok o') :
    ∃ p, next o.answer o.state = .ok p ∧ o'.answer = p.answer ∧ o'.state = p.state ∧
      o'.woken = o.woken ++ p.woken := by
  rw [andThen] at ran
  cases later : next o.answer o.state with
  | error fault =>
    rw [later] at ran
    cases ran
  | ok p =>
    rw [later] at ran
    cases ran
    exact ⟨p, rfl, rfl, rfl, rfl⟩

namespace Registry

variable {ω α : Type} {r r' : Registry ω} {a b : Address} {c : Channel ω} {h : Handle}
  {side : Side} {k : ω}

theorem of_onChannel_eq_ok
    {act : Channel ω → Except Fault (Outcome (Channel ω) ω (Except BusError α))}
    {o : Outcome (Registry ω) ω (Except BusError α)} (ran : r.onChannel h act = .ok o) :
    o = { answer := .error .noSuchChannel, state := r } ∨
      ∃ c p, r.channel? h = some c ∧ act c = .ok p ∧ o = p.within (r.put h) := by
  rw [onChannel] at ran
  cases found : r.channel? h with
  | none =>
    rw [found] at ran
    exact .inl (Except.ok.inj ran).symm
  | some c =>
    simp only [found] at ran
    cases done : act c with
    | error fault =>
      rw [done] at ran
      cases ran
    | ok p =>
      rw [done] at ran
      exact .inr ⟨c, p, rfl, done, (Except.ok.inj ran).symm⟩

theorem of_onAddress_eq_ok
    {act : Channel ω → Except Fault (Outcome (Channel ω) ω (Except BusError α))}
    {o : Outcome (Registry ω) ω (Except BusError α)} (ran : r.onAddress a act = .ok o) :
    o = { answer := .error .noSuchChannel, state := r } ∨
      ∃ c p, r.find? a = some c ∧ act c = .ok p ∧ o = p.within (r.put a.handle) := by
  rw [onAddress] at ran
  cases found : r.find? a with
  | none =>
    rw [found] at ran
    exact .inl (Except.ok.inj ran).symm
  | some c =>
    simp only [found] at ran
    cases done : act c with
    | error fault =>
      rw [done] at ran
      cases ran
    | ok p =>
      rw [done] at ran
      exact .inr ⟨c, p, rfl, done, (Except.ok.inj ran).symm⟩

/-- How a caller takes a place at a channel: it was not in line, and goes to the end. -/
structure Joins (r : Registry ω) (a : Address) (c : Channel ω) (side : Side) (k : ω)
    (o : Outcome (Registry ω) ω (Option Place)) : Prop where
  fresh : (c.line side).contains ⟨r.nextTicket⟩ = false
  answer : o.answer = some ⟨a, side, ⟨r.nextTicket⟩⟩
  state : o.state = r.issue.put a.handle (c.join ⟨r.nextTicket⟩ k side)
  woken : o.woken = c.joinCalls ⟨r.nextTicket⟩ k side

/-- Whoever found the channel and took a place there stands at the end of the line. -/
theorem joins_of_park {o : Outcome (Registry ω) ω (Option Place)} (found : r.find? a = some c)
    (ran : r.park a side k = .ok o) : r.Joins a c side k o := by
  have found' : r.issue.find? a = some c := found
  rw [issue] at found'
  cases inside : (c.line side).contains ⟨r.nextTicket⟩ with
  | true =>
    simp only [park, found', WaitLine.push, if_pos inside] at ran
    cases ran
  | false =>
    simp only [park, found', WaitLine.push, inside, Bool.false_eq_true, if_false] at ran
    cases ran
    cases side <;> exact ⟨inside, rfl, rfl, rfl⟩

end Registry

namespace Request

variable {ω : Type} {q : Request} {r : Registry ω} {a : Address} {k : ω}

/-- An attempt that is blocked does nothing. -/
theorem attempt_of_blocked (blocked : q.Blocked r a) :
    q.attempt r = .ok { answer := .blocked a q.side, state := r } := by
  cases blocked with
  | @send _ _ m c found full =>
    have refused : (c.sendStep m).map (.ok : Bool → Except BusError Bool)
        = { answer := .ok false, state := c } := by
      rw [Channel.sendStep_of_full full]
      rfl
    rw [attempt, Registry.onAddress_of_refused found (congrArg Except.ok refused)]
    rfl
  | @sendMany _ _ ms c found full =>
    have refused : c.trySendMany ms = _ := Channel.trySendMany_of_full full
    rw [attempt, Registry.onAddress_of_refused found (congrArg Except.ok refused)]
    rfl
  | @recv _ _ c found empty =>
    have refused := Channel.tryRecv_of_empty empty
    rw [attempt, Registry.onAddress_of_refused found (congrArg Except.ok refused)]
    rfl
  | @recvMany _ _ limit c found empty =>
    have refused := Channel.recvManyStep_of_empty empty limit
    rw [attempt, Registry.onAddress_of_refused found refused]
    rfl
  | @broadcast _ _ m blocker =>
    obtain ⟨c, found, -⟩ := Registry.find?_of_blocker? blocker
    have some : r.channels.isEmpty = false := by
      rw [List.isEmpty_eq_false_iff]
      exact List.ne_nil_of_mem (Registry.mem_channels_of_find? found)
    simp [attempt, Registry.attemptBroadcast, some, blocker, Outcome.map, side]

/-- How a look at a request ends: it is carried out or fails, or it parks, or it is left where it
is. -/
inductive Ends (q : Request) (r : Registry ω) (k : ω) :
    Option Place → Turn → Registry ω → List ω → Prop where
  | tried {prior : Option Place} {tried : Outcome (Registry ω) ω Attempt}
      {result : Except BusError Value} (out : ∀ p ∈ prior, r.isQueued p = false)
      (ran : q.attempt r = .ok tried) (answer : tried.answer = .finished result) :
    Ends q r k prior (.finished result) tried.state tried.woken
  | parked {prior : Option Place} {a : Address} {c : Channel ω}
      {o : Outcome (Registry ω) ω (Option Place)} (out : ∀ p ∈ prior, r.isQueued p = false)
      (blocked : q.Blocked r a) (found : r.find? a = some c)
      (ran : r.park a q.side k = .ok o) :
    Ends q r k prior (.parked q ⟨a, q.side, ⟨r.nextTicket⟩⟩) o.state o.woken
  | waiting {p : Place} (queued : r.isQueued p = true) :
    Ends q r k (some p) .waiting (r.revisit p k).state []
  | gone {p : Place} (gone : r.find? p.address = none) :
    Ends q r k (some p) (.finished (.error .noSuchChannel)) r []

theorem ends_of_pursue {o : Outcome (Registry ω) ω Turn} {prior : Option Place}
    (ran : q.pursue r k = .ok o) (out : ∀ p ∈ prior, r.isQueued p = false) :
    q.Ends r k prior o.answer o.state o.woken := by
  obtain ⟨tried, attempts, fares⟩ := q.attempt_fares r
  simp only [pursue, attempts, bind, Except.bind] at ran
  obtain ⟨next, went, answer, state, woken⟩ := Outcome.of_andThen_eq_ok ran
  rw [answer, state, woken]
  cases ended : tried.answer with
  | finished result =>
    rw [ended] at went
    cases went
    rw [List.append_nil]
    exact .tried out attempts ended
  | blocked a side =>
    rw [ended] at fares went
    generalize left : tried.state = r' at fares went
    cases fares with
    | blocked blocked =>
      obtain ⟨c, found, -⟩ := blocked.find?
      cases attempts.symm.trans (attempt_of_blocked blocked)
      cases parks : r.park a q.side k with
      | error fault =>
        simp only [parks] at went
        cases went
      | ok parked =>
        have place := (Registry.joins_of_park found parks).answer
        simp only [parks] at went
        obtain ⟨last, went, answer, state, woken⟩ := Outcome.of_andThen_eq_ok went
        rw [place] at went
        cases went
        rw [answer, state, woken, List.nil_append, List.append_nil]
        exact .parked out blocked found parks

theorem woken_revisit (r : Registry ω) (p : Place) (k : ω) : (r.revisit p k).woken = [] := by
  rw [Registry.revisit]
  split
  · rfl
  · split <;> rfl

/-- A look at a request ends in one of these ways. -/
theorem ends_of_look {o : Outcome (Registry ω) ω Turn} {prior : Option Place}
    (ran : q.look r prior k = .ok o) : q.Ends r k prior o.answer o.state o.woken := by
  cases prior with
  | none => exact ends_of_pursue ran fun p member => by cases member
  | some p =>
    rw [look, advance] at ran
    obtain ⟨next, went, answer, state, woken⟩ := Outcome.of_andThen_eq_ok ran
    rw [answer, state, woken, woken_revisit, List.nil_append]
    rcases r.standing_cases p with queued | called | gone
    · obtain ⟨c, l, -, -, stands, -⟩ := Registry.revisit_of_queued queued k
      rw [stands] at went
      cases went
      exact .waiting queued
    · obtain ⟨stands, same⟩ := Registry.revisit_of_called called k
      rw [stands, same] at went
      refine ends_of_pursue went fun p' member => ?_
      cases member
      exact Registry.isQueued_eq_false_of_hasCalled called
    · obtain ⟨stands, same⟩ := Registry.revisit_of_gone gone k
      rw [stands, same] at went
      obtain ⟨last, went, answer, state, woken⟩ := Outcome.of_andThen_eq_ok went
      cases q with
      | broadcast m =>
        rw [answer, state, woken]
        refine ends_of_pursue went fun p' member => ?_
        cases member
        exact Registry.isQueued_eq_false_of_gone gone
      | _ =>
        cases went
        rw [answer, state, woken]
        exact .gone gone

end Request

end MessageBus

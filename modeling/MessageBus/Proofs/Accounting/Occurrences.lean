import MessageBus.Proofs.Accounting.Notes
import MessageBus.Proofs.OldestFirst

/-!
# What an errand is good for in the books

What becomes of channels and of places for good, is an `Occurrence`. The occurrences of an errand
are read off the registry that it finds, not off what it tells (`Errand.occurrences`). What it tells
fits them one by one: each has its counter, and each end of a channel its event. A place that was
waited at when it began, is held after it or has come to its end, and for each new place that is
held a ticket was given out and told of (`Errand.Books`).
-/

namespace MessageBus

variable {ω α β : Type}

/-- How a place stands. -/
def Registry.standing (r : Registry ω) (p : Place) : Standing :=
  if (r.find? p.address).isNone then .gone else if r.isQueued p then .queued else .called

/-- Something that came to pass on a bus. -/
inductive Occurrence where
  | opened
  /-- A channel that was open was closed. -/
  | closed (h : Handle)
  | deleted
  /-- A caller came back to its place after it was called. -/
  | resumed (p : Place)
  /-- A caller came back to its place and found the channel gone. -/
  | resumedOnClosed (p : Place) (broadcasts : Bool)
  /-- A place was given up that stood like this. -/
  | dropped (p : Place) (standing : Standing)
deriving DecidableEq

namespace Occurrence

/-- Whether a place came to its end. -/
def endsPlace : Occurrence → Bool
  | resumed _ | resumedOnClosed _ _ | dropped _ _ => true
  | opened | closed _ | deleted => false

/-- Whether a caller came back after it was called. -/
def resumes : Occurrence → Bool
  | resumed _ => true
  | _ => false

/-- Whether a caller came back and found the channel gone. -/
def resumesOnClosed : Occurrence → Bool
  | resumedOnClosed _ _ => true
  | _ => false

/-- Whether a broadcast lost the channel that held it up. -/
def losesBlocker : Occurrence → Bool
  | resumedOnClosed _ broadcasts => broadcasts
  | _ => false

/-- Whether a place was given up. -/
def drops : Occurrence → Bool
  | dropped _ _ => true
  | _ => false

/-- Whether a place was given up after it was called, while its channel was open. -/
def forwards : Occurrence → Bool
  | dropped _ .called => true
  | _ => false

/-- The counters that are raised. -/
def counted : Occurrence → List CounterKey
  | opened => [.channelsOpened]
  | resumedOnClosed _ broadcasts =>
    .resumedOnClosed :: if broadcasts then [.blockerClosed] else []
  | dropped _ .called => [.wakeupForwarded]
  | closed _ | deleted | resumed _ | dropped _ _ => []

/-- The event that is kept, with its number left open. -/
def event? : Occurrence → Option TelemetryEvent
  | closed h => some ⟨0, some h, "bus::close", "ChannelClosed", none⟩
  | deleted => some ⟨0, none, "bus::delete", "BusDeleted", none⟩
  | opened | resumed _ | resumedOnClosed _ _ | dropped _ _ => none

/-- Which occurrences raise which counters: each by one, and no other. -/
theorem count_counted (o : Occurrence) :
    o.counted.count .resumedOnClosed = (if o.resumesOnClosed then 1 else 0) ∧
      o.counted.count .wakeupForwarded = (if o.forwards then 1 else 0) ∧
      o.counted.count .blockerClosed = (if o.losesBlocker then 1 else 0) ∧
      o.counted.count .channelsOpened = (if o == .opened then 1 else 0) ∧
      o.counted.count .parked = 0 := by
  cases o with
  | resumedOnClosed p broadcasts => cases broadcasts <;> exact ⟨rfl, rfl, rfl, rfl, rfl⟩
  | dropped p standing => cases standing <;> exact ⟨rfl, rfl, rfl, rfl, rfl⟩
  | _ => exact ⟨rfl, rfl, rfl, rfl, rfl⟩

theorem count_flatMap_counted {k : CounterKey} (raises : Occurrence → Bool)
    (fits : ∀ o : Occurrence, o.counted.count k = if raises o then 1 else 0)
    (happened : List Occurrence) :
    (happened.flatMap (·.counted)).count k = happened.countP raises := by
  induction happened with
  | nil => rfl
  | cons o happened ih =>
    rw [List.flatMap_cons, List.count_append, fits, ih, List.countP_cons, Nat.add_comm]

/-- A place comes to its end in one way only. -/
theorem countP_endsPlace (happened : List Occurrence) : happened.countP (·.endsPlace) =
    happened.countP (·.resumes) + happened.countP (·.resumesOnClosed) +
      happened.countP (·.drops) := by
  induction happened with
  | nil => rfl
  | cons o happened ih =>
    simp only [List.countP_cons, ih]
    cases o <;> simp [endsPlace, resumes, resumesOnClosed, drops] <;> omega

end Occurrence

/-- What comes to pass when a caller looks at its place. -/
def Registry.onLook (r : Registry ω) (p : Place) (broadcasts : Bool) : List Occurrence :=
  match r.standing p with
  | .queued => []
  | .called => [.resumed p]
  | .gone => [.resumedOnClosed p broadcasts]

/-- Whether a request is a broadcast. -/
def Request.isBroadcast : Request → Bool
  | broadcast _ => true
  | _ => false

/-- What comes to pass by an errand. -/
def Errand.occurrences (r : Registry ω) : Errand ω → List Occurrence
  | operate (.openChannel _) => [.opened]
  | operate (.close h) => if (r.channel? h).isSome then [.closed h] else []
  | operate .delete => [.deleted]
  | look q prior _ => prior.toList.flatMap (r.onLook · q.isBroadcast)
  | revisit p _ => r.onLook p false
  | abandon p => [.dropped p (r.standing p)]
  | operate _ | park _ _ _ | glance => []

namespace Registry

variable {r : Registry ω} {p : Place}

theorem standing_of_queued (queued : r.isQueued p = true) : r.standing p = .queued := by
  obtain ⟨c, found, -⟩ := exists_of_isQueued queued
  rw [standing, found, queued]
  rfl

theorem standing_of_called (called : r.hasCalled p = true) : r.standing p = .called := by
  obtain ⟨c, found, -⟩ := hasCalled_iff.1 called
  rw [standing, found, isQueued_eq_false_of_hasCalled called]
  rfl

theorem standing_of_gone (gone : r.find? p.address = none) : r.standing p = .gone := by
  rw [standing, gone]
  rfl

theorem standing_eq_queued_iff : r.standing p = .queued ↔ r.isQueued p = true := by
  rcases r.standing_cases p with queued | called | gone
  · simp [standing_of_queued queued, queued]
  · simp [standing_of_called called, isQueued_eq_false_of_hasCalled called]
  · simp [standing_of_gone gone, isQueued_eq_false_of_gone gone]

end Registry

/-! ### Who has nothing to tell -/

/-- An outcome that tells nothing, and for which no number was given out. -/
structure Outcome.IsMute (o : Outcome (Registry ω) ω α) (r : Registry ω) : Prop where
  notes : o.notes = []
  afterwards : o.afterwards = []
  nextTicket : o.state.nextTicket = r.nextTicket
  nextId : o.state.nextId = r.nextId

/-- An outcome on one channel that tells nothing. -/
def Outcome.TellsNothing (o : Outcome (Channel ω) ω α) : Prop := o.notes = [] ∧ o.afterwards = []

namespace Channel

variable (c : Channel ω)

theorem tellsNothing_trySend (m : Message) : (c.trySend m).TellsNothing := by
  rw [trySend]
  split <;> exact ⟨rfl, rfl⟩

theorem tellsNothing_sendStep (m : Message) : (c.sendStep m).TellsNothing := by
  rw [sendStep]
  split
  · exact c.tellsNothing_trySend m
  · exact ⟨rfl, rfl⟩

theorem tellsNothing_trySendMany (ms : List Message) : (c.trySendMany ms).TellsNothing := by
  rw [trySendMany]
  split <;> exact ⟨rfl, rfl⟩

theorem tellsNothing_tryRecv : c.tryRecv.TellsNothing := by
  rw [tryRecv]
  split <;> exact ⟨rfl, rfl⟩

theorem tellsNothing_tryRecvMany {limit : Nat}
    {o : Outcome (Channel ω) ω (Except BusError (List Message))}
    (ran : c.tryRecvMany limit = .ok o) : o.TellsNothing := by
  rw [tryRecvMany] at ran
  split at ran
  · cases ran
    exact ⟨rfl, rfl⟩
  · rw [Fifo.popMany_of_le (Nat.min_le_right _ _)] at ran
    cases ran
    exact ⟨rfl, rfl⟩

theorem tellsNothing_recvManyStep {limit : Nat}
    {o : Outcome (Channel ω) ω (Except BusError (List Message))}
    (ran : c.recvManyStep limit = .ok o) : o.TellsNothing := by
  rw [recvManyStep] at ran
  cases taken : c.tryRecvMany limit with
  | error f =>
    rw [taken] at ran
    cases ran
  | ok p =>
    rw [taken] at ran
    obtain rfl := Except.ok.inj ran
    dsimp only
    split
    · exact c.tellsNothing_tryRecvMany taken
    · exact ⟨rfl, rfl⟩

end Channel

namespace Registry

variable {r : Registry ω} {h : Handle} {a : Address}
  {o : Outcome (Registry ω) ω (Except BusError α)}
  {act : Channel ω → Except Fault (Outcome (Channel ω) ω (Except BusError α))}

theorem isMute_onChannel (ran : r.onChannel h act = .ok o)
    (mute : ∀ c p, act c = .ok p → p.TellsNothing) : o.IsMute r := by
  rcases of_onChannel_eq_ok ran with rfl | ⟨c, p, -, done, rfl⟩
  · exact ⟨rfl, rfl, rfl, rfl⟩
  · exact ⟨(mute c p done).1, (mute c p done).2, rfl, rfl⟩

theorem isMute_onAddress (ran : r.onAddress a act = .ok o)
    (mute : ∀ c p, act c = .ok p → p.TellsNothing) : o.IsMute r := by
  rcases of_onAddress_eq_ok ran with rfl | ⟨c, p, -, done, rfl⟩
  · exact ⟨rfl, rfl, rfl, rfl⟩
  · exact ⟨(mute c p done).1, (mute c p done).2, rfl, rfl⟩

end Registry

theorem Outcome.IsMute.map {o : Outcome (Registry ω) ω α} {r : Registry ω} (mute : o.IsMute r)
    (f : α → β) : (o.map f).IsMute r :=
  ⟨mute.notes, mute.afterwards, mute.nextTicket, mute.nextId⟩

/-- An attempt at a request has nothing to tell. -/
theorem Request.isMute_attempt {r : Registry ω} {q : Request}
    {o : Outcome (Registry ω) ω Attempt} (ran : q.attempt r = .ok o) : o.IsMute r := by
  cases q with
  | send a m =>
    obtain ⟨p, did, rfl⟩ := Outcome.of_map_eq_ok ran
    refine (Registry.isMute_onAddress did fun c p done => ?_).map _
    cases done
    exact c.tellsNothing_sendStep m
  | sendMany a ms =>
    obtain ⟨p, did, rfl⟩ := Outcome.of_map_eq_ok ran
    refine (Registry.isMute_onAddress did fun c p done => ?_).map _
    cases done
    exact c.tellsNothing_trySendMany ms
  | recv a =>
    obtain ⟨p, did, rfl⟩ := Outcome.of_map_eq_ok ran
    refine (Registry.isMute_onAddress did fun c p done => ?_).map _
    cases done
    exact c.tellsNothing_tryRecv
  | recvMany a limit =>
    obtain ⟨p, did, rfl⟩ := Outcome.of_map_eq_ok ran
    exact (Registry.isMute_onAddress did fun c p done => c.tellsNothing_recvManyStep done).map _
  | broadcast m =>
    cases ran
    rw [Registry.attemptBroadcast]
    split
    · exact ⟨rfl, rfl, rfl, rfl⟩
    · split <;> exact ⟨rfl, rfl, rfl, rfl⟩

theorem Registry.revisit_eq_of_called {r : Registry ω} {p : Place} (called : r.hasCalled p = true)
    (k : ω) : r.revisit p k =
      { answer := .called
        state := r
        notes := [.resumed p.address.handle p.side p.ticket] } := by
  obtain ⟨c, found, out⟩ := hasCalled_iff.1 called
  have none := (WaitLine.refresh?_eq_none_iff (c.line p.side) p.ticket k).2 out
  simp [revisit, found, none]

theorem Registry.isMute_revisit {r : Registry ω} {p : Place} (queued : r.isQueued p = true)
    (k : ω) : (r.revisit p k).IsMute r := by
  obtain ⟨c, found, inside⟩ := exists_of_isQueued queued
  cases fresh : (c.line p.side).refresh? p.ticket k with
  | none => exact absurd inside ((WaitLine.refresh?_eq_none_iff _ _ _).1 fresh)
  | some l =>
    simp only [revisit, found, fresh]
    exact ⟨rfl, rfl, rfl, rfl⟩

/-! ### The books of an errand -/

/-- How what is told in an errand fits what comes to pass. -/
structure Errand.Books (e : Errand ω) (r : Registry ω) (o : Outcome (Registry ω) ω Upshot) :
    Prop where
  counted : o.notes.filterMap Note.counted? = (e.occurrences r).flatMap (·.counted)
  events : o.notes.filterMap Note.event? = (e.occurrences r).filterMap (·.event?)
  /-- Of what is told after the wakers are called, each is a new ticket. -/
  countedLater : o.afterwards.map Note.counted? =
    List.replicate (o.state.nextTicket - r.nextTicket) (some .parked)
  eventsLater : o.afterwards.filterMap Note.event? = []
  opened : o.state.nextId = r.nextId + (e.occurrences r).count .opened
  /-- A place that was held before and a ticket that is new are each held or at their end. -/
  tickets : o.state.nextTicket + e.prior?.toList.length =
    r.nextTicket + (e.occurrences r).countP (·.endsPlace) + o.answer.places.length

/-- An outcome that goes on from another one tells what both tell. -/
theorem Outcome.exists_of_andThen_eq_ok {σ : Type} {o : Outcome σ ω α} {o' : Outcome σ ω β}
    {next : α → σ → Except Fault (Outcome σ ω β)} (ran : o.andThen next = .ok o') :
    ∃ p, next o.answer o.state = .ok p ∧ o' =
      { p with
        woken := o.woken ++ p.woken
        notes := o.notes ++ p.notes
        afterwards := o.afterwards ++ p.afterwards } := by
  rw [andThen] at ran
  cases later : next o.answer o.state with
  | error fault =>
    rw [later] at ran
    cases ran
  | ok p =>
    rw [later] at ran
    exact ⟨p, rfl, (Except.ok.inj ran).symm⟩

theorem Registry.notes_park {r : Registry ω} {a : Address} {c : Channel ω} {side : Side} {k : ω}
    {o : Outcome (Registry ω) ω (Option Place)} (found : r.find? a = some c)
    (ran : r.park a side k = .ok o) :
    o.notes = [] ∧ o.afterwards = [.parked a.handle side ⟨r.nextTicket⟩] := by
  have found' : r.issue.find? a = some c := found
  rw [issue] at found'
  simp only [park, found'] at ran
  cases pushed : (c.line side).push ⟨r.nextTicket⟩ k with
  | error fault =>
    rw [pushed] at ran
    cases ran
  | ok l =>
    rw [pushed] at ran
    cases ran
    exact ⟨rfl, rfl⟩

/-- What a request that is pursued tells: nothing, unless it takes a place. -/
inductive Request.Reports (q : Request) (r : Registry ω) (o : Outcome (Registry ω) ω Turn) :
    Prop where
  | finished {result : Except BusError Value} (answer : o.answer = .finished result)
    (mute : o.IsMute r)
  | parked {a : Address} {p : Place} (answer : o.answer = .parked q p) (notes : o.notes = [])
    (afterwards : o.afterwards = [.parked a.handle q.side ⟨r.nextTicket⟩])
    (nextTicket : o.state.nextTicket = r.nextTicket + 1) (nextId : o.state.nextId = r.nextId)

theorem Request.reports {q : Request} {r : Registry ω} {k : ω} {o : Outcome (Registry ω) ω Turn}
    (ran : q.pursue r k = .ok o) : q.Reports r o := by
  obtain ⟨tried, attempts, fares⟩ := q.attempt_fares r
  have mute := isMute_attempt attempts
  simp only [pursue, attempts, bind, Except.bind] at ran
  obtain ⟨next, went, rfl⟩ := Outcome.exists_of_andThen_eq_ok ran
  cases ended : tried.answer with
  | finished result =>
    rw [ended] at went
    cases went
    refine .finished rfl ⟨?_, ?_, mute.nextTicket, mute.nextId⟩
    · rw [mute.notes, List.nil_append]
    · rw [mute.afterwards, List.nil_append]
  | blocked a side =>
    rw [ended] at fares went
    generalize left : tried.state = r' at fares went
    cases fares with
    | blocked blocked =>
      obtain ⟨c, found, -⟩ := blocked.find?
      cases parks : r.park a q.side k with
      | error fault =>
        simp only [parks] at went
        cases went
      | ok parked =>
        have joins := Registry.joins_of_park found parks
        have told := Registry.notes_park found parks
        simp only [parks] at went
        obtain ⟨last, goesOn, rfl⟩ := Outcome.exists_of_andThen_eq_ok went
        rw [joins.answer] at goesOn
        cases goesOn
        refine .parked (a := a) rfl ?_ ?_ ?_ ?_
        · simp [mute.notes, told.1]
        · simp [mute.afterwards, told.2]
        · simp only [joins.state]
          rfl
        · simp only [joins.state]
          rfl

namespace Errand

variable {r : Registry ω} {e : Errand ω} {o : Outcome (Registry ω) ω Upshot}

/-- Where no number was given out and nothing is told later, a place that was held is held still or
at its end. -/
theorem Books.of_same (later : o.afterwards = []) (nextTicket : o.state.nextTicket = r.nextTicket)
    (nextId : o.state.nextId = r.nextId)
    (counted : o.notes.filterMap Note.counted? = (e.occurrences r).flatMap (·.counted))
    (events : o.notes.filterMap Note.event? = (e.occurrences r).filterMap (·.event?))
    (unopened : (e.occurrences r).count .opened = 0)
    (ends : e.prior?.toList.length =
      (e.occurrences r).countP (·.endsPlace) + o.answer.places.length) : e.Books r o := by
  refine ⟨counted, events, ?_, ?_, ?_, ?_⟩
  · rw [later, nextTicket, Nat.sub_self]
    rfl
  · rw [later]
    rfl
  · rw [nextId, unopened, Nat.add_zero]
  · rw [nextTicket, ends, Nat.add_assoc]

theorem Books.of_mute (mute : o.IsMute r) (unseen : e.occurrences r = [])
    (held : e.prior?.toList.length = o.answer.places.length) : e.Books r o := by
  refine .of_same mute.afterwards mute.nextTicket mute.nextId ?_ ?_ ?_ ?_
  · rw [mute.notes, unseen]
    rfl
  · rw [mute.notes, unseen]
    rfl
  · rw [unseen]
    rfl
  · rw [unseen, held]
    exact (Nat.zero_add _).symm

/-- A request is pursued after some place came to its end, or without one. -/
theorem Books.of_reports {q : Request} {prior : Option Place} {k : ω} (notes : List Note)
    {p : Outcome (Registry ω) ω Turn} (reports : q.Reports r p)
    (counted : notes.filterMap Note.counted? =
      ((look q prior k).occurrences r).flatMap (·.counted))
    (events : notes.filterMap Note.event? = ((look q prior k).occurrences r).filterMap (·.event?))
    (unopened : ((look q prior k).occurrences r).count .opened = 0)
    (ends : ((look q prior k).occurrences r).countP (·.endsPlace) = prior.toList.length) :
    (look q prior k).Books r
      (Outcome.map (·.upshot r q prior) { p with notes := notes ++ p.notes }) := by
  cases reports with
  | finished answer mute =>
    constructor
    · rw [← counted]
      simp [Outcome.map, mute.notes]
    · rw [← events]
      simp [Outcome.map, mute.notes]
    · simp [Outcome.map, mute.afterwards, mute.nextTicket]
    · simp [Outcome.map, mute.afterwards]
    · rw [unopened]
      exact mute.nextId
    · rw [ends, Outcome.answer_map, Outcome.state_map, mute.nextTicket, answer]
      rfl
  | parked answer none afterwards nextTicket nextId =>
    constructor
    · rw [← counted]
      simp [Outcome.map, none]
    · rw [← events]
      simp [Outcome.map, none]
    · simp [Outcome.map, afterwards, nextTicket, Note.counted?]
    · simp [Outcome.map, afterwards, Note.event?]
    · rw [unopened]
      exact nextId
    · rw [ends, Outcome.answer_map, Outcome.state_map, nextTicket, answer]
      exact Nat.add_right_comm _ _ _

theorem books_operate {op : Operation} (ran : (operate op : Errand ω).effect r = .ok o) :
    (operate op).Books r o := by
  obtain ⟨p, did, rfl⟩ := Outcome.of_map_eq_ok ran
  have onChannel {α : Type} {h : Handle} {value : α → Value}
      {act : Channel ω → Except Fault (Outcome (Channel ω) ω (Except BusError α))}
      (did : Operation.apply.answer value (r.onChannel h act) = .ok p)
      (mute : ∀ c p, act c = .ok p → p.TellsNothing) : p.IsMute r := by
    obtain ⟨p', acted, rfl⟩ := Outcome.of_map_eq_ok did
    exact (Registry.isMute_onChannel acted mute).map _
  cases op with
  | openChannel bound =>
    cases did
    exact ⟨rfl, rfl, by simp [Outcome.map, Registry.openChannel], rfl, rfl, rfl⟩
  | close h =>
    cases did
    cases there : r.channel? h with
    | none =>
      have unseen : (operate (.close h) : Errand ω).occurrences r = [] := by
        rw [occurrences, there]
        rfl
      refine .of_mute ?_ unseen rfl
      simp only [Registry.close, there]
      exact ⟨rfl, rfl, rfl, rfl⟩
    | some c =>
      have seen : (operate (.close h) : Errand ω).occurrences r = [.closed h] := by
        rw [occurrences, there]
        rfl
      simp only [Registry.close, there]
      exact .of_same rfl rfl rfl (by rw [seen]; rfl) (by rw [seen]; rfl) (by rw [seen]; rfl)
        (by rw [seen]; rfl)
  | delete =>
    cases did
    exact .of_same rfl rfl rfl rfl rfl rfl rfl
  | trySend h m =>
    refine .of_mute ((onChannel did fun c p done => ?_).map _) rfl rfl
    cases done
    exact c.tellsNothing_trySend m
  | trySendMany h ms =>
    refine .of_mute ((onChannel did fun c p done => ?_).map _) rfl rfl
    cases done
    exact c.tellsNothing_trySendMany ms
  | tryRecv h =>
    refine .of_mute ((onChannel did fun c p done => ?_).map _) rfl rfl
    cases done
    exact c.tellsNothing_tryRecv
  | tryRecvMany h limit =>
    exact .of_mute ((onChannel did fun c p done => c.tellsNothing_tryRecvMany done).map _)
      rfl rfl
  | tryBroadcast m =>
    cases did
    refine .of_mute ?_ rfl rfl
    simp only [Registry.tryBroadcast]
    split
    · exact ⟨rfl, rfl, rfl, rfl⟩
    · split <;> exact ⟨rfl, rfl, rfl, rfl⟩
  | isOpen _ | channelCount | size _ | isEmpty _ | capacity _ | waiting _ _ =>
    cases did
    exact .of_mute ⟨rfl, rfl, rfl, rfl⟩ rfl rfl

/-- Whoever looks at its place and goes on waiting, holds it still. -/
theorem Books.of_waiting {p : Place} {k : ω} {f : Standing → Upshot} (queued : r.isQueued p = true)
    (unseen : e.occurrences r = []) (held : e.prior?.toList.length = (f .queued).places.length) :
    e.Books r ((r.revisit p k).map f) := by
  obtain ⟨c, l, -, -, stands, -⟩ := Registry.revisit_of_queued queued k
  refine .of_mute ((Registry.isMute_revisit queued k).map f) unseen ?_
  rw [Outcome.answer_map, stands, held]

theorem books_look {q : Request} {prior : Option Place} {k : ω}
    (ran : (look q prior k).effect r = .ok o) : (look q prior k).Books r o := by
  obtain ⟨turn, did, rfl⟩ := Outcome.of_map_eq_ok ran
  cases prior with
  | none => exact .of_reports [] (Request.reports did) rfl rfl rfl rfl
  | some p =>
    have seen : (look q (some p) k).occurrences r = r.onLook p q.isBroadcast :=
      List.flatMap_singleton _ _
    rw [Request.look, Request.advance] at did
    obtain ⟨next, went, rfl⟩ := Outcome.exists_of_andThen_eq_ok did
    rcases r.standing_cases p with queued | called | gone
    · obtain ⟨c, l, -, -, stands, -⟩ := Registry.revisit_of_queued queued k
      rw [Registry.onLook, Registry.standing_of_queued queued] at seen
      rw [stands] at went
      cases went
      have mute := Registry.isMute_revisit queued k
      refine .of_mute ⟨?_, ?_, mute.nextTicket, mute.nextId⟩ seen rfl
      · simp [Outcome.map, mute.notes]
      · simp [Outcome.map, mute.afterwards]
    · rw [Registry.revisit_eq_of_called called] at went ⊢
      rw [Registry.onLook, Registry.standing_of_called called] at seen
      exact .of_reports [.resumed _ _ _] (Request.reports went) (by rw [seen]; rfl)
        (by rw [seen]; rfl) (by rw [seen]; rfl) (by rw [seen]; rfl)
    · rw [Registry.revisit_eq_of_gone gone] at went ⊢
      rw [Registry.onLook, Registry.standing_of_gone gone] at seen
      obtain ⟨last, goesOn, rfl⟩ := Outcome.exists_of_andThen_eq_ok went
      -- A broadcast loses what held it up, and starts over; any other request is at its end.
      cases q with
      | broadcast m =>
        have reports : (Request.broadcast m).Reports r last := Request.reports goesOn
        exact .of_reports [.resumedOnClosed _ _, .blockerClosed] reports
          (by rw [seen]; rfl) (by rw [seen]; rfl) (by rw [seen]; rfl) (by rw [seen]; rfl)
      | _ =>
        cases goesOn
        exact .of_same rfl rfl rfl (by rw [seen]; rfl) (by rw [seen]; rfl) (by rw [seen]; rfl)
          (by rw [seen]; rfl)

/-- A bare wait keeps the books too, unless it begins at a channel that is gone. -/
theorem books_park {a : Address} {side : Side} {k : ω} (there : (r.find? a).isSome = true)
    (ran : (park a side k).effect r = .ok o) : (park a side k).Books r o := by
  obtain ⟨p, did, rfl⟩ := Outcome.of_map_eq_ok ran
  obtain ⟨c, found⟩ := Option.isSome_iff_exists.1 there
  have joins := Registry.joins_of_park found did
  obtain ⟨notes, afterwards⟩ := Registry.notes_park found did
  have next : p.state.nextTicket = r.nextTicket + 1 := by rw [joins.state]; rfl
  constructor
  · simp [Outcome.map, notes, occurrences]
  · simp [Outcome.map, notes, occurrences]
  · simp [Outcome.map, afterwards, next, Note.counted?]
  · simp [Outcome.map, afterwards, Note.event?]
  · rw [Outcome.state_map, joins.state]
    rfl
  · rw [Outcome.state_map, next, Outcome.answer_map, joins.answer]
    rfl

theorem books_revisit {p : Place} {k : ω} (ran : (revisit p k).effect r = .ok o) :
    (revisit p k).Books r o := by
  cases ran
  have seen : (revisit p k).occurrences r = r.onLook p false := rfl
  rcases r.standing_cases p with queued | called | gone
  · rw [Registry.onLook, Registry.standing_of_queued queued] at seen
    exact .of_waiting queued seen rfl
  · rw [Registry.onLook, Registry.standing_of_called called] at seen
    rw [Registry.revisit_eq_of_called called]
    exact .of_same rfl rfl rfl (by rw [seen]; rfl) (by rw [seen]; rfl) (by rw [seen]; rfl)
      (by rw [seen]; rfl)
  · rw [Registry.onLook, Registry.standing_of_gone gone] at seen
    rw [Registry.revisit_eq_of_gone gone]
    exact .of_same rfl rfl rfl (by rw [seen]; rfl) (by rw [seen]; rfl) (by rw [seen]; rfl)
      (by rw [seen]; rfl)

theorem books_abandon {p : Place} (ran : (abandon p : Errand ω).effect r = .ok o) :
    (abandon p).Books r o := by
  cases ran
  have seen : (abandon p : Errand ω).occurrences r = [.dropped p (r.standing p)] := rfl
  rcases r.standing_cases p with queued | called | gone
  · rw [Registry.standing_of_queued queued] at seen
    obtain ⟨c, found, inside⟩ := Registry.exists_of_isQueued queued
    obtain ⟨l, removed, -⟩ := WaitLine.remove?_of_mem inside
    simp only [Registry.abandon, found, removed]
    exact .of_same rfl rfl rfl (by rw [seen]; rfl) (by rw [seen]; rfl) (by rw [seen]; rfl)
      (by rw [seen]; rfl)
  · rw [Registry.standing_of_called called] at seen
    obtain ⟨c, found, out⟩ := Registry.hasCalled_iff.1 called
    simp only [Registry.abandon, found, WaitLine.remove?_of_not_mem out]
    exact .of_same rfl rfl rfl (by rw [seen]; rfl) (by rw [seen]; rfl) (by rw [seen]; rfl)
      (by rw [seen]; rfl)
  · rw [Registry.standing_of_gone gone] at seen
    simp only [Registry.abandon, gone]
    exact .of_same rfl rfl rfl (by rw [seen]; rfl) (by rw [seen]; rfl) (by rw [seen]; rfl)
      (by rw [seen]; rfl)

/-- Every errand keeps the books, except for a bare wait at a channel that is gone. -/
theorem books (ran : e.effect r = .ok o)
    (there : ∀ a side k, e = .park a side k → (r.find? a).isSome = true) : e.Books r o := by
  cases e with
  | operate op => exact books_operate ran
  | look q prior k => exact books_look ran
  | park a side k => exact books_park (there a side k rfl) ran
  | revisit p k => exact books_revisit ran
  | abandon p => exact books_abandon ran
  | glance =>
    cases ran
    exact .of_mute ⟨rfl, rfl, rfl, rfl⟩ rfl rfl

end Errand

end MessageBus

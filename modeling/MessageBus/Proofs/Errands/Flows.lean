import MessageBus.Proofs.Errands

/-!
# What errands move

An errand passes the messages of every channel that stays open, with those that it moved
(`Errand.flows`). One that is about a single channel changes no other (`Errand.find?_of_ne`).
-/

namespace MessageBus

theorem Channel.queue_join {ω : Type} (c : Channel ω) (t : Ticket) (k : ω) (side : Side) :
    (c.join t k side).queue = c.queue := by
  cases side with
  | senders => rfl
  | receivers =>
    rw [join, receiverParked]
    split <;> rfl

namespace Registry

variable {ω α : Type} {r r' : Registry ω} {a b : Address} {c c' : Channel ω} {h : Handle}
  {side : Side} {k : ω}

theorem find?_put_of_ne (found : r.find? a = some c) (same : c'.id = c.id) (other : b ≠ a) :
    (r.put a.handle c').find? b = r.find? b := by
  rw [find?_put found same, if_neg other]

/-- A registry in which at most the lines of one channel are different. -/
structure Relines (r : Registry ω) (a : Address) (r' : Registry ω) : Prop where
  nextId : r'.nextId = r.nextId
  elsewhere : ∀ b, b ≠ a → r'.find? b = r.find? b
  here : ∀ c', r'.find? a = some c' → ∃ c, r.find? a = some c ∧ c'.queue = c.queue

theorem Relines.refl (r : Registry ω) (a : Address) : r.Relines a r :=
  ⟨rfl, fun _ _ => rfl, fun c found => ⟨c, found, rfl⟩⟩

theorem Relines.put (found : r.find? a = some c) (id : c'.id = c.id) (queue : c'.queue = c.queue) :
    r.Relines a (r.put a.handle c') := by
  refine ⟨rfl, fun b other => find?_put_of_ne found id other, fun d after => ?_⟩
  rw [find?_put found id, if_pos rfl] at after
  cases after
  exact ⟨c, found, queue⟩

theorem Relines.flows (relines : r.Relines a r') : r.Flows [] r' := by
  refine flows_of_same relines.nextId fun b c' found => ?_
  by_cases same : b = a
  · subst same
    exact relines.here c' found
  · rw [relines.elsewhere b same] at found
    exact ⟨c', found, rfl⟩

theorem relines_park {o : Outcome (Registry ω) ω (Option Place)}
    (ran : r.park a side k = .ok o) : r.Relines a o.state := by
  cases found : r.find? a with
  | none =>
    cases ran.symm.trans (park_of_gone found side k)
    exact ⟨rfl, fun _ _ => rfl, fun c' there => by cases found.symm.trans there⟩
  | some c =>
    rw [(joins_of_park found ran).state]
    obtain ⟨nextId, elsewhere, here⟩ := Relines.put (r := r.issue) found
      (c.id_join ⟨r.nextTicket⟩ k side) (c.queue_join ⟨r.nextTicket⟩ k side)
    exact ⟨nextId, elsewhere, here⟩

theorem relines_revisit (r : Registry ω) (p : Place) (k : ω) :
    r.Relines p.address (r.revisit p k).state := by
  rcases r.standing_cases p with queued | called | gone
  · obtain ⟨c, l, found, -, -, state⟩ := revisit_of_queued queued k
    rw [state]
    exact .put found (c.id_setLine p.side l) (c.queue_setLine p.side l)
  · rw [(revisit_of_called called k).2]
    exact .refl r _
  · rw [(revisit_of_gone gone k).2]
    exact .refl r _

theorem relines_abandon (r : Registry ω) (p : Place) :
    r.Relines p.address (r.abandon p).state := by
  rcases r.standing_cases p with queued | called | gone
  · obtain ⟨c, l, found, -, -, state⟩ := abandon_of_queued queued
    rw [state]
    exact .put found (c.id_setLine p.side l) (c.queue_setLine p.side l)
  · obtain ⟨c, found, state⟩ := abandon_of_called called
    rw [state]
    exact .put found (c.id_wakeFirst p.side) (c.queue_wakeFirst p.side)
  · rw [abandon_of_gone gone]
    exact .refl r _

/-- An operation on the channel under a handle moves what its reply says. -/
theorem Flows.answered {value : α → Value} {transfers : Reply → List Transfer}
    {act : Channel ω → Except Fault (Outcome (Channel ω) ω (Except BusError α))}
    {o : Outcome (Registry ω) ω Reply}
    (ran : Operation.apply.answer value (r.onChannel h act) = .ok o)
    (refused : ∀ e, transfers (.refused e) = [])
    (acts : ∀ c p, r.find? ⟨h, c.id⟩ = some c → r.channel? h = some c → act c = .ok p →
      r.Flows (transfers (.ofExcept value p.answer)) (r.put h p.state)) :
    r.Flows (transfers o.answer) o.state := by
  obtain ⟨p, acted, rfl⟩ := Outcome.of_map_eq_ok ran
  rcases of_onChannel_eq_ok acted with rfl | ⟨c, p, found, done, rfl⟩
  · have none : transfers (.ofExcept value (.error .noSuchChannel)) = [] := refused _
    rw [Outcome.answer_map, none]
    exact .refl r
  · exact acts c p (find?_of_channel? found) found done

end Registry

namespace Operation

variable {ω : Type} {r : Registry ω}

/-- An operation moves what its reply says. -/
theorem flows_apply (ident : r.Identified) {op : Operation} {o : Outcome (Registry ω) ω Reply}
    (ran : op.apply r = .ok o) : r.Flows (op.transfers r o.answer) o.state := by
  cases op with
  | openChannel bound =>
    cases ran
    exact r.flows_openChannel bound
  | close h =>
    cases ran
    exact r.flows_close h
  | delete =>
    cases ran
    exact r.flows_delete
  | trySend h m =>
    refine .answered ran (fun _ => rfl) fun c p found there done => ?_
    cases done
    have flows := Registry.Flows.putSent ident found (c.passes_trySend m)
    cases answer : (c.trySend m).answer <;> rw [answer] at flows <;>
      simpa [transfers, Reply.ofExcept, Reply.ofResult, Except.map, there] using flows
  | trySendMany h ms =>
    refine .answered ran (fun _ => rfl) fun c p found there done => ?_
    cases done
    have flows := Registry.Flows.putSent ident found (c.passes_trySendMany ms)
    cases answer : (c.trySendMany ms).answer <;> rw [answer] at flows <;>
      simpa [transfers, Reply.ofExcept, Reply.ofResult, Except.map, there] using flows
  | tryRecv h =>
    refine .answered ran (fun _ => rfl) fun c p found there done => ?_
    cases done
    have flows := Registry.Flows.putReceived ident found c.passes_tryRecv
    cases answer : c.tryRecv.answer <;> rw [answer] at flows <;>
      simpa [transfers, Reply.ofExcept, Reply.ofResult, Except.map, there] using flows
  | tryRecvMany h limit =>
    refine .answered ran (fun _ => rfl) fun c p found there done => ?_
    have flows := Registry.Flows.putReceived ident found (Channel.passes_tryRecvMany done)
    cases answer : p.answer <;> rw [answer] at flows <;>
      simpa [transfers, Reply.ofExcept, Reply.ofResult, Except.map, there] using flows
  | tryBroadcast m =>
    cases ran
    simp only [Outcome.answer_map, Outcome.state_map, Registry.tryBroadcast]
    split
    · exact .refl r
    · split
      · exact Registry.flows_commitAll ident m false
      · exact .refl r
  | _ =>
    cases ran
    exact .refl r

end Operation

namespace Request

variable {ω α : Type} {q : Request} {r : Registry ω} {a : Address} {k : ω}

theorem of_ofResult_eq_finished {side : Side} {result result' : Except BusError Value}
    (ended : Attempt.ofResult a side result = .finished result') : result' = result := by
  rcases result with (_ | _ | _) | v <;> cases ended <;> rfl

/-- An attempt at one channel moves what its result says. -/
theorem flows_onAddress {side : Side} {value : α → Value}
    {act : Channel ω → Except Fault (Outcome (Channel ω) ω (Except BusError α))}
    {o : Outcome (Registry ω) ω Attempt} {result : Except BusError Value}
    (ran : (r.onAddress a act).map (Outcome.map fun done => .ofResult a side (done.map value)) =
      .ok o) (ended : o.answer = .finished result)
    (acts : ∀ c p, r.find? a = some c → act c = .ok p →
      r.Flows (whenGranted (fun v => q.transfers r (value v)) p.answer) (r.put a.handle p.state)) :
    r.Flows (whenGranted (q.transfers r) result) o.state := by
  obtain ⟨p, acted, rfl⟩ := Outcome.of_map_eq_ok ran
  rw [of_ofResult_eq_finished ended]
  rcases Registry.of_onAddress_eq_ok acted with rfl | ⟨c, p, found, done, rfl⟩
  · exact .refl r
  · have flows := acts c p found done
    cases answer : p.answer <;> rw [answer] at flows <;>
      simpa [answer, Except.map] using flows

/-- An attempt that comes to an end moves what its result says. -/
theorem flows_attempt (ident : r.Identified) {o : Outcome (Registry ω) ω Attempt}
    {result : Except BusError Value} (ran : q.attempt r = .ok o)
    (ended : o.answer = .finished result) :
    r.Flows (whenGranted (q.transfers r) result) o.state := by
  cases q with
  | send a m =>
    obtain ⟨p, acted, rfl⟩ := Outcome.of_map_eq_ok ran
    rcases Registry.of_onAddress_eq_ok acted with rfl | ⟨c, p, found, done, rfl⟩
    · cases ended
      exact .refl r
    · cases done
      have passes := c.passes_sendStep m
      cases answer : (c.sendStep m).answer <;> rw [answer] at passes <;>
        simp only [Outcome.answer_map, Outcome.answer_within, answer] at ended <;> cases ended
      have granted : c.Passes (whenGranted (fun _ : Unit => [m]) (.ok ())) []
        (c.sendStep m).state := passes
      exact .putSent ident found granted
  | sendMany a ms =>
    refine flows_onAddress ran ended fun c p found done => ?_
    cases done
    exact .putSent ident found (c.passes_trySendMany ms)
  | recv a =>
    refine flows_onAddress ran ended fun c p found done => ?_
    cases done
    exact .putReceived ident found c.passes_tryRecv
  | recvMany a limit =>
    exact flows_onAddress ran ended fun c p found done =>
      .putReceived ident found (Channel.passes_recvManyStep done)
  | broadcast m =>
    cases ran
    simp only [Outcome.answer_map, Outcome.state_map, Registry.attemptBroadcast] at ended ⊢
    cases none : r.channels.isEmpty <;> cases blocker : r.blocker? <;>
      simp only [none, blocker, Bool.false_eq_true, ite_true, ite_false, Outcome.answer_map,
        Outcome.state_map] at ended ⊢ <;> cases ended
    · exact Registry.flows_commitAll ident m true
    · exact .refl r
    · exact .refl r

/-- What is in the way of a request about one channel is that channel. -/
theorem Blocked.address_eq {b : Address} (blocked : q.Blocked r b) (own : q.address? = some a) :
    b = a := by
  cases blocked <;> cases own <;> rfl

/-- A request about one channel that is granted changes no other. -/
theorem Granted.find?_of_ne {r' : Registry ω} (granted : q.Granted r r')
    (own : q.address? = some a) {b : Address} (other : b ≠ a) : r'.find? b = r.find? b := by
  cases granted with
  | send found _ =>
    cases own
    exact Registry.find?_put_of_ne found (Channel.passes_commit _ _ _).id other
  | sendMany found _ =>
    cases own
    exact Registry.find?_put_of_ne found (Channel.passes_trySendMany _ _).id other
  | recv found _ =>
    cases own
    exact Registry.find?_put_of_ne found (Channel.passes_tryRecv _).id other
  | recvMany found _ ran =>
    cases own
    exact Registry.find?_put_of_ne found (Channel.passes_recvManyStep ran).id other
  | broadcast _ => cases own

theorem find?_attempt_of_ne {o : Outcome (Registry ω) ω Attempt} (own : q.address? = some a)
    (ran : q.attempt r = .ok o) {b : Address} (other : b ≠ a) :
    o.state.find? b = r.find? b := by
  obtain ⟨o', ran', fares⟩ := q.attempt_fares r
  cases ran.symm.trans ran'
  generalize o.answer = attempt, o.state = r' at fares
  cases fares with
  | granted granted => exact granted.find?_of_ne own other
  | groundless _ => rfl
  | blocked _ => rfl

end Request

namespace Errand

variable {ω : Type} {r : Registry ω} {e : Errand ω} {o : Outcome (Registry ω) ω Upshot}
  {a b : Address}

/-- An errand passes the messages of every channel, with those that it moved. -/
theorem flows (ident : r.Identified) (ran : e.effect r = .ok o) :
    r.Flows o.answer.transfers o.state := by
  cases e with
  | operate op =>
    obtain ⟨p, did, rfl⟩ := Outcome.of_map_eq_ok ran
    exact Operation.flows_apply ident did
  | look q prior k =>
    obtain ⟨p, did, rfl⟩ := Outcome.of_map_eq_ok ran
    have ends := Request.ends_of_look did
    simp only [Outcome.answer_map, Outcome.state_map]
    generalize p.answer = turn, p.state = r', p.woken = woken at ends
    cases ends with
    | tried _ ran ended => exact Request.flows_attempt ident ran ended
    | parked _ _ _ ran => exact (Registry.relines_park ran).flows
    | waiting _ => exact (Registry.relines_revisit r _ k).flows
    | gone _ => exact .refl r
  | park a side k =>
    obtain ⟨p, did, rfl⟩ := Outcome.of_map_eq_ok ran
    exact (Registry.relines_park did).flows
  | revisit p k =>
    cases ran
    exact (r.relines_revisit p k).flows
  | abandon p =>
    cases ran
    exact (r.relines_abandon p).flows
  | glance =>
    cases ran
    exact .refl r

/-- An errand about one channel changes no other. -/
theorem find?_of_ne (about : e.IsAbout a) (ran : e.effect r = .ok o) (other : b ≠ a) :
    o.state.find? b = r.find? b := by
  cases e with
  | operate op => exact about.elim
  | look q prior k =>
    obtain ⟨p, did, rfl⟩ := Outcome.of_map_eq_ok ran
    obtain ⟨own, from'⟩ := about
    have ends := Request.ends_of_look did
    simp only [Outcome.state_map]
    generalize p.answer = turn, p.state = r', p.woken = woken at ends
    cases ends with
    | tried _ ran ended => exact Request.find?_attempt_of_ne own ran other
    | parked _ blocked _ ran =>
      have here := blocked.address_eq own
      exact (Registry.relines_park ran).elsewhere b (here ▸ other)
    | waiting _ => exact (Registry.relines_revisit r _ k).elsewhere b (from' _ rfl ▸ other)
    | gone _ => rfl
  | park b' side k =>
    obtain ⟨p, did, rfl⟩ := Outcome.of_map_eq_ok ran
    exact (Registry.relines_park did).elsewhere b (about ▸ other)
  | revisit p k =>
    cases ran
    exact (r.relines_revisit p k).elsewhere b (about ▸ other)
  | abandon p =>
    cases ran
    exact (r.relines_abandon p).elsewhere b (about ▸ other)
  | glance =>
    cases ran
    rfl

end Errand

end MessageBus

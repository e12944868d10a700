import MessageBus.Proofs.Broadcasts.Attempts

/-!
# What is refused

An operation that is refused has done nothing: the registry is the one that it was given, and no
waker is handed out (`Outcome.DoesNothing`). This holds of every channel operation, of whatever is
built from them, and of a request that fails when it is looked at. A request can fail for one reason
only: its channel is not there, or for a broadcast no channel is.
-/

namespace MessageBus

variable {ω α β : Type}

/-- Whether nothing came of an operation: the state is the one it had, and nobody is owed a
wakeup. -/
structure Outcome.DoesNothing {σ : Type} (o : Outcome σ ω α) (s : σ) : Prop where
  state : o.state = s
  woken : o.woken = []

theorem Outcome.DoesNothing.map {σ : Type} {o : Outcome σ ω α} {s : σ} (idle : o.DoesNothing s)
    (f : α → β) : (o.map f).DoesNothing s := ⟨idle.state, idle.woken⟩

namespace Channel

variable {c : Channel ω} {e : BusError}

theorem trySend_refused {m : Message} (refused : (c.trySend m).answer = .error e) :
    (c.trySend m).DoesNothing c := by
  cases space : c.hasSpace with
  | true => cases refused.symm.trans (trySend_of_hasSpace space).1
  | false =>
    rw [trySend_of_full space]
    exact ⟨rfl, rfl⟩

theorem trySendMany_refused {ms : List Message} (refused : (c.trySendMany ms).answer = .error e) :
    e = .wouldBlock ∧ (c.trySendMany ms).DoesNothing c := by
  cases space : c.hasSpace with
  | true => cases refused.symm.trans (answer_trySendMany_of_hasSpace space)
  | false =>
    rw [trySendMany_of_full space] at refused ⊢
    exact ⟨(Except.error.inj refused).symm, rfl, rfl⟩

theorem tryRecv_refused (refused : c.tryRecv.answer = .error e) :
    e = .wouldBlock ∧ c.tryRecv.DoesNothing c := by
  rcases Nat.eq_zero_or_pos c.queue.size with empty | some
  · rw [tryRecv_of_empty empty] at refused ⊢
    exact ⟨(Except.error.inj refused).symm, rfl, rfl⟩
  · obtain ⟨⟨m, taken⟩, -⟩ := becomes_tryRecv some
    cases refused.symm.trans taken

theorem tryRecvMany_refused {limit : Nat}
    {o : Outcome (Channel ω) ω (Except BusError (List Message))} (ran : c.tryRecvMany limit = .ok o)
    (refused : o.answer = .error e) : o.DoesNothing c := by
  rcases Nat.eq_zero_or_pos c.queue.size with empty | some
  · cases ran.symm.trans (tryRecvMany_of_empty empty limit)
    exact ⟨rfl, rfl⟩
  · obtain ⟨o', ms, ran', taken, -⟩ := becomes_tryRecvMany some limit
    cases ran.symm.trans ran'
    cases refused.symm.trans taken

theorem recvManyStep_refused {limit : Nat}
    {o : Outcome (Channel ω) ω (Except BusError (List Message))}
    (ran : c.recvManyStep limit = .ok o) (refused : o.answer = .error e) :
    e = .wouldBlock ∧ o.DoesNothing c := by
  rcases Nat.eq_zero_or_pos c.queue.size with empty | some
  · cases ran.symm.trans (recvManyStep_of_empty empty limit)
    exact ⟨(Except.error.inj refused).symm, rfl, rfl⟩
  · obtain ⟨o', ms, ran', taken, -⟩ := becomes_recvManyStep some limit
    cases ran.symm.trans ran'
    cases refused.symm.trans taken

end Channel

namespace Registry

variable {r : Registry ω} {h : Handle} {a : Address} {e : BusError} {m : Message}
  {o : Outcome (Registry ω) ω (Except BusError α)}
  {act : Channel ω → Except Fault (Outcome (Channel ω) ω (Except BusError α))}

theorem onChannel_refused (ran : r.onChannel h act = .ok o) (refused : o.answer = .error e)
    (idle : ∀ c p, act c = .ok p → p.answer = .error e → p.DoesNothing c) : o.DoesNothing r := by
  rcases of_onChannel_eq_ok ran with rfl | ⟨c, p, found, done, rfl⟩
  · exact ⟨rfl, rfl⟩
  · obtain ⟨same, nobody⟩ := idle c p done refused
    refine ⟨?_, nobody⟩
    rw [Outcome.state_within, same, put_self found]

theorem onAddress_refused (ran : r.onAddress a act = .ok o) (refused : o.answer = .error e)
    (idle : ∀ c p, act c = .ok p → p.answer = .error e → e = .wouldBlock ∧ p.DoesNothing c) :
    o.DoesNothing r := by
  rcases of_onAddress_eq_ok ran with rfl | ⟨c, p, found, done, rfl⟩
  · exact ⟨rfl, rfl⟩
  · obtain ⟨-, same, nobody⟩ := idle c p done refused
    refine ⟨?_, nobody⟩
    rw [Outcome.state_within, same, put_self (channel?_of_find? found).1]

theorem tryBroadcast_refused (refused : (r.tryBroadcast m).answer = .error e) :
    (r.tryBroadcast m).DoesNothing r := by
  obtain ⟨state, woken⟩ := (r.allOrNothing_tryBroadcast m).nothing (by rw [refused]; exact nofun)
  exact ⟨state, woken⟩

theorem attemptBroadcast_refused (refused : (r.attemptBroadcast m).answer = .error e) :
    e = .noSuchChannel ∧ (r.attemptBroadcast m).DoesNothing r := by
  obtain ⟨state, woken⟩ :=
    (r.allOrNothing_attemptBroadcast m).nothing (by rw [refused]; exact nofun)
  refine ⟨?_, state, woken⟩
  rcases r.answer_attemptBroadcast m with ok | ⟨-, failed⟩ | ⟨a, blocked, -⟩
  · cases refused.symm.trans ok
  · exact Except.error.inj (refused.symm.trans failed)
  · cases refused.symm.trans blocked

end Registry

/-! ### Operations -/

namespace Operation

variable {op : Operation} {r : Registry ω} {e : BusError} {o : Outcome (Registry ω) ω Reply}

theorem of_ofExcept_eq_refused {value : α → Value} {result : Except BusError α}
    (refused : Reply.ofExcept value result = .refused e) : result = .error e := by
  cases result with
  | ok _ => cases refused
  | error _ =>
    cases refused
    rfl

theorem answer_refused {value : α → Value}
    {done : Except Fault (Outcome (Registry ω) ω (Except BusError α))}
    (ran : apply.answer value done = .ok o) (refused : o.answer = .refused e)
    (idle : ∀ p, done = .ok p → p.answer = .error e → p.DoesNothing r) : o.DoesNothing r := by
  obtain ⟨p, done, rfl⟩ := Outcome.of_map_eq_ok ran
  exact (idle p done (of_ofExcept_eq_refused refused)).map _

/-- An operation that is refused leaves the registry as it is, and wakes nobody. -/
theorem apply_refused (ran : op.apply r = .ok o) (refused : o.answer = .refused e) :
    o.DoesNothing r := by
  cases op with
  | openChannel _ | close _ | delete =>
    cases ran
    cases refused
  | isOpen _ | channelCount | size _ | isEmpty _ | capacity _ | waiting _ _ =>
    cases ran
    exact ⟨rfl, rfl⟩
  | trySend h m =>
    refine answer_refused ran refused fun p done failed =>
      Registry.onChannel_refused done failed fun c p sent failed => ?_
    cases sent
    exact Channel.trySend_refused failed
  | trySendMany h ms =>
    refine answer_refused ran refused fun p done failed =>
      Registry.onChannel_refused done failed fun c p sent failed => ?_
    cases sent
    exact (Channel.trySendMany_refused failed).2
  | tryRecv h =>
    refine answer_refused ran refused fun p done failed =>
      Registry.onChannel_refused done failed fun c p taken failed => ?_
    cases taken
    exact (Channel.tryRecv_refused failed).2
  | tryRecvMany h limit =>
    exact answer_refused ran refused fun p done failed =>
      Registry.onChannel_refused done failed fun c p taken failed =>
        Channel.tryRecvMany_refused taken failed
  | tryBroadcast m =>
    cases ran
    exact (Registry.tryBroadcast_refused (of_ofExcept_eq_refused refused)).map _

end Operation

/-! ### Requests -/

namespace Request

variable {q : Request} {r : Registry ω} {a : Address} {side : Side} {e : BusError} {k : ω}

theorem of_ofResult_eq_failed {value : α → Value} {result : Except BusError α}
    (failed : Attempt.ofResult a side (result.map value) = .finished (.error e)) :
    e = .noSuchChannel ∧ result = .error e := by
  cases result with
  | ok _ => cases failed
  | error e' =>
    cases e' with
    | noSuchChannel =>
      cases failed
      exact ⟨rfl, rfl⟩
    | wouldBlock => cases failed

/-- A request fails only for want of a channel, and then it has done nothing. -/
theorem attempt_failed {o : Outcome (Registry ω) ω Attempt} (ran : q.attempt r = .ok o)
    (failed : o.answer = .finished (.error e)) : e = .noSuchChannel ∧ o.DoesNothing r := by
  cases q with
  | send a m =>
    obtain ⟨p, done, rfl⟩ := Outcome.of_map_eq_ok ran
    rcases Registry.of_onAddress_eq_ok done with rfl | ⟨c, sent, found, acted, rfl⟩
    · cases failed
      exact ⟨rfl, rfl, rfl⟩
    · cases acted
      -- Whether the message fits or not, a send to a channel that is there does not fail.
      rw [Outcome.answer_map, Outcome.answer_within, Outcome.answer_map] at failed
      cases answer : (c.sendStep m).answer <;> rw [answer] at failed <;> cases failed
  | sendMany a ms =>
    obtain ⟨p, done, rfl⟩ := Outcome.of_map_eq_ok ran
    obtain ⟨missing, refused⟩ := of_ofResult_eq_failed failed
    refine ⟨missing, (Registry.onAddress_refused done refused fun c p sent failed => ?_).map _⟩
    cases sent
    exact Channel.trySendMany_refused failed
  | recv a =>
    obtain ⟨p, done, rfl⟩ := Outcome.of_map_eq_ok ran
    obtain ⟨missing, refused⟩ := of_ofResult_eq_failed failed
    refine ⟨missing, (Registry.onAddress_refused done refused fun c p taken failed => ?_).map _⟩
    cases taken
    exact Channel.tryRecv_refused failed
  | recvMany a limit =>
    obtain ⟨p, done, rfl⟩ := Outcome.of_map_eq_ok ran
    obtain ⟨missing, refused⟩ := of_ofResult_eq_failed failed
    exact ⟨missing, (Registry.onAddress_refused done refused fun c p taken failed =>
      Channel.recvManyStep_refused taken failed).map _⟩
  | broadcast m =>
    cases ran
    rw [Outcome.answer_map] at failed
    rcases r.answer_attemptBroadcast m with ok | ⟨-, missing⟩ | ⟨a, blocked, -⟩
    · rw [ok] at failed
      cases failed
    · rw [missing] at failed
      cases failed
      exact ⟨rfl, (Registry.attemptBroadcast_refused missing).2.map _⟩
    · rw [blocked] at failed
      cases failed

/-- However a request is looked at, if it fails it has done nothing. -/
theorem look_failed {prior : Option Place} {o : Outcome (Registry ω) ω Turn}
    (ran : q.look r prior k = .ok o) (failed : o.answer = .finished (.error e)) :
    e = .noSuchChannel ∧ o.DoesNothing r := by
  have ends := ends_of_look ran
  generalize turn : o.answer = answer at ends failed
  generalize left : o.state = state at ends
  generalize called : o.woken = woken at ends
  cases ends with
  | tried _ attempts answer =>
    cases failed
    obtain ⟨missing, same, nobody⟩ := attempt_failed attempts answer
    exact ⟨missing, left.trans same, called.trans nobody⟩
  | parked _ _ _ _ => cases failed
  | waiting _ => cases failed
  | gone _ =>
    cases failed
    exact ⟨rfl, left, called⟩

end Request

/-- A call that cannot be resolved is about a channel that is not there. -/
theorem Call.resolve_failed {call : Call} {r : Registry ω} {e : BusError}
    (failed : call.resolve r = .error e) : e = .noSuchChannel := by
  have missing {h : Handle} {make : Address → Request}
      (failed : (r.resolve h).map make = .error e) : e = .noSuchChannel := by
    rw [Registry.resolve, Registry.inspect] at failed
    cases found : r.channel? h with
    | none =>
      rw [found] at failed
      cases failed
      rfl
    | some c =>
      rw [found] at failed
      cases failed
  cases call with
  | broadcast _ => cases failed
  | _ => exact missing failed

end MessageBus

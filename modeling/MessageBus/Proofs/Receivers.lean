import MessageBus.Proofs.Queues.Runs
import MessageBus.Proofs.Replies

/-!
# Receivers are served in the order in which they wait

A message is not handed to the receiver that it wakes: the receiver takes it from the front of the
channel once it goes on, if nobody has taken it by then. Still the calls that wait at an empty
channel get the messages in the order in which they came in, as long as nobody else receives there
(`Executor.receivers_first_come_first_served`).

For each message in the channel one receiver has been called, as long as there were any, and those
who were called go on before the others (`Executor.Delivers`). So the first in the queue finds the
oldest message, and never has to wait again.
-/

namespace MessageBus

/-- Whether an errand is no operation that receives from a channel. -/
def Errand.LeavesMessages {ω : Type} (a : Address) : Errand ω → Prop
  | operate op => ¬op.TakesFrom a.handle
  | _ => True

instance {ω : Type} (a : Address) : (e : Errand ω) → Decidable (e.LeavesMessages a)
  | .operate op => inferInstanceAs (Decidable (¬op.TakesFrom a.handle))
  | .look _ _ _ | .park _ _ _ | .revisit _ _ | .abandon _ | .glance => .isTrue trivial

/-- Whether nobody receives from a channel but those who wait there, and these are left alone. -/
structure Moment.OnlySends (b : Nat) (a : Address) (m : Moment) : Prop
    extends m.LeavesLine b a .receivers where
  messages : ∀ e, m.errand? = some (b, e) → e.LeavesMessages a

instance (b : Nat) (a : Address) (m : Moment) : Decidable (m.OnlySends b a) :=
  decidable_of_iff
    (m.LeavesLine b a .receivers ∧ ∀ e, m.errand? = some (b, e) → e.LeavesMessages a)
    ⟨fun h => ⟨h.1, h.2⟩, fun h => ⟨h.toLeavesLine, h.messages⟩⟩

/-! ### What is not taken out -/

section

variable {ω : Type} {r : Registry ω} {a : Address} {c : Channel ω} {ms : List Message}

theorem receivedFrom_map_sent (id : ChannelId) (cs : List (Channel ω)) (ms : List Message) :
    receivedFrom id (cs.map (.sent ·.id ms)) = [] := by
  refine List.flatMap_eq_nil_iff.2 fun t member => ?_
  obtain ⟨c, -, rfl⟩ := List.mem_map.1 member
  rfl

theorem Registry.Identified.receivedFrom_of_ne {h : Handle} (ident : r.Identified)
    (found : r.find? a = some c) (other : h ≠ a.handle) :
    receivedFrom a.id ((r.channel? h).toList.map (.received ·.id ms)) = [] := by
  refine receivedFrom_eq_nil fun t member => ?_
  obtain ⟨c', there, rfl⟩ := List.mem_map.1 member
  intro same
  have there := Registry.find?_of_channel? (Option.mem_toList.1 there)
  exact other (congrArg Address.handle (ident.distinct _ _ _ _ there found same))

/-- An operation that does not receive from a channel takes nothing out of it. -/
theorem Operation.receivedFrom_transfers {op : Operation} (ident : r.Identified)
    (found : r.find? a = some c) (nothing : ¬op.TakesFrom a.handle) (reply : Reply) :
    receivedFrom a.id (op.transfers r reply) = [] := by
  rw [Operation.transfers.eq_def]
  split
  · exact receivedFrom_map_sent _ _ _
  · exact receivedFrom_map_sent _ _ _
  · exact ident.receivedFrom_of_ne found nothing
  · exact ident.receivedFrom_of_ne found nothing
  · exact receivedFrom_map_sent _ _ _
  · rfl

/-- Nor does a request about something else, once it went ahead. -/
theorem Request.receivedFrom_transfers {q : Request} {o : Outcome (Registry ω) ω Attempt}
    {v : Value} (ident : r.Identified) (found : r.find? a = some c) (nothing : ¬q.TakesFrom a)
    (ran : q.attempt r = .ok o) (granted : o.answer = .finished (.ok v)) :
    receivedFrom a.id (q.transfers r v) = [] := by
  have elsewhere {b : Address} {ms : List Message} (own : q.address? = some b)
      (side : q.side = .receivers) (there : ∃ c', r.find? b = some c') :
      receivedFrom a.id [.received b.id ms] = [] := by
    refine receivedFrom_eq_nil (List.forall_mem_singleton.2 fun same => nothing ⟨side, ?_⟩)
    obtain ⟨c', there⟩ := there
    rw [own, ident.distinct _ _ _ _ there found same]
  obtain ⟨o', ran', fares⟩ := q.attempt_fares r
  cases ran.symm.trans ran'
  rw [granted] at fares
  generalize o.state = r' at fares
  cases fares with
  | granted granted =>
    cases granted with
    | send _ _ => rfl
    | sendMany _ _ => cases v <;> rfl
    | recv there _ =>
      cases v with
      | message m => exact elsewhere rfl rfl ⟨_, there⟩
      | _ => rfl
    | recvMany there _ _ =>
      cases v with
      | messages ms => exact elsewhere rfl rfl ⟨_, there⟩
      | _ => rfl
    | broadcast _ => exact receivedFrom_map_sent _ _ _

/-- An errand that does not receive from a channel takes nothing out of it. -/
theorem Errand.receivedFrom_transfers {e : Errand ω} {o : Outcome (Registry ω) ω Upshot}
    (ident : r.Identified) (found : r.find? a = some c) (ran : e.effect r = .ok o)
    (nothing : ¬e.TakesFrom a) : receivedFrom a.id o.answer.transfers = [] := by
  cases e with
  | operate op =>
    obtain ⟨p, -, rfl⟩ := Outcome.of_map_eq_ok ran
    exact Operation.receivedFrom_transfers ident found nothing p.answer
  | look q prior k =>
    obtain ⟨⟨turn, r', woken, notes, afterwards⟩, did, rfl⟩ := Outcome.of_map_eq_ok ran
    have ends := Request.ends_of_look did
    cases ends with
    | @tried _ _ result _ tries answer =>
      cases result with
      | ok v => exact Request.receivedFrom_transfers ident found nothing tries answer
      | error _ => rfl
    | parked _ _ _ _ => rfl
    | waiting _ => rfl
    | gone _ => rfl
  | park b s k =>
    obtain ⟨p, -, rfl⟩ := Outcome.of_map_eq_ok ran
    rfl
  | revisit p k =>
    cases ran
    rfl
  | abandon p =>
    cases ran
    rfl
  | glance =>
    cases ran
    rfl

end

namespace Executor

variable {u : Usage} {x y : Executor} {b : Nat} {a : Address} {s : Seat} {task : Task} {w : Waker}
  {rest : List Frame} {seats served called queued : List Seat} {sent ms : List Message}
  {told : Seat → List Reply} {c d : Channel Waker} {errand : Option (Nat × Errand Waker)}
  {trail : List Moment}

/-- A channel from which nothing is taken only gets messages behind those that it holds. -/
theorem items_of_flows (ident : (x.registry b).Identified) (found : (x.registry b).find? a = some c)
    (found' : (y.registry b).find? a = some d)
    (flows : (x.registry b).Flows (x.moved errand b) (y.registry b))
    (nothing : ∀ e, errand = some (b, e) → ¬e.TakesFrom a) :
    d.queue.items = c.queue.items ++ sentTo a.id (x.moved errand b) := by
  have taken : receivedFrom a.id (x.moved errand b) = [] := by
    rw [moved, outcomeOn]
    cases entry : errand with
    | none => rfl
    | some entry' =>
      obtain ⟨b', e⟩ := entry'
      rw [Option.bind_some]
      split
      · rename_i here
        subst here
        cases carried : x.carried b' e with
        | none => rfl
        | some o =>
          exact Errand.receivedFrom_transfers ident found (effect_of_carried carried)
            (nothing e entry)
      · rfl
  generalize x.moved errand b = ts at flows taken ⊢
  cases flows with
  | kept _ each _ =>
    obtain ⟨c', there, passes⟩ := each a d found'
    cases found.symm.trans there
    have items := passes.items
    rw [taken, List.nil_append] at items
    exact items.symm
  | opened h bound _ each =>
    rcases each a d found' with before | ⟨rfl, -⟩
    · cases found.symm.trans before
      exact (List.append_nil _).symm
    · exact absurd (ident.issued _ _ found) (Nat.lt_irrefl _)

/-- How far the messages of a channel have come, of all that were put in: for each receiver that was
served there is one that it is told, or was, and the others are in the channel. Each of them has
called a receiver, as long as there were any. -/
structure Delivers (x : Executor) (b : Nat) (a : Address) (told : Seat → List Reply)
    (sent : List Message) (served called queued : List Seat) (ms : List Message) : Prop where
  queues : x.Queues b a .receivers called queued
  plain : ∀ s ∈ called ++ queued, s.request = .recv a
  channel : ∃ c, (x.registry b).find? a = some c ∧ sent = ms ++ c.queue.items ∧
    c.receivers.size = (called ++ queued).length - c.queue.size
  delivered : List.Forall₂
    (fun s m => x.Replied s.task s.index (.granted (.message m)) (told s)) served ms
  untold : ∀ s ∈ called ++ queued, told s = []

theorem Occupies.replyTo_eq_nil (occupies : x.Occupies b s task) (sound : x.Sound u) (i : Nat) :
    x.replyTo s.task i = [] := by
  rw [replyTo]
  split
  · rename_i w reply rest stack
    split
    · rename_i own
      refine (occupies.stays.not_settled sound stack (congrArg some own.1) ?_).elim
      exact fun _ suits => suits
    · rfl
  · rfl

/-- What has come to the receivers so far, at a moment of a run. -/
def DeliversIn (b : Nat) (a : Address) (seats : List Seat) (x : Executor) (trail : List Moment) :
    Prop :=
  ∃ served called queued ms, seats = served ++ called ++ queued ∧
    x.Delivers b a (fun s => repliesIn s.task s.index trail) (sentIn b a.id trail) served called
      queued ms

namespace Delivers

/-- Where nobody receives, the messages that come in call the next receivers. -/
theorem goOn {told' : Seat → List Reply} {woken queued' : List Seat}
    (delivers : x.Delivers b a told sent served called queued ms)
    (split : queued = woken ++ queued')
    (queues : y.Queues b a .receivers (called ++ woken) queued')
    (found : (x.registry b).find? a = some c) (found' : (y.registry b).find? a = some d)
    (feeds : c.Feeds d) {sent' : List Message} (items : d.queue.items = c.queue.items ++ sent')
    (delivered : ∀ s m, x.Replied s.task s.index (.granted (.message m)) (told s) →
      y.Replied s.task s.index (.granted (.message m)) (told' s))
    (untold : ∀ s ∈ called ++ queued, told' s = []) :
    y.Delivers b a told' (sent ++ sent') served (called ++ woken) queued' ms := by
  have same : called ++ woken ++ queued' = called ++ queued := by rw [split, List.append_assoc]
  obtain ⟨c', there, messages, size⟩ := delivers.channel
  cases found.symm.trans there
  refine ⟨queues, same ▸ delivers.plain, ⟨d, found', ?_, ?_⟩, ?_, same ▸ untold⟩
  · rw [messages, items, List.append_assoc]
  · obtain ⟨grows, left⟩ := feeds
    rw [same]
    omega
  · exact delivers.delivered.imp delivered

/-- The first of those who were called finds a message. -/
theorem size_pos (delivers : x.Delivers b a told sent served (s :: called) queued ms)
    (found : (x.registry b).find? a = some c) : 0 < c.queue.size := by
  obtain ⟨c', there, -, size⟩ := delivers.channel
  cases found.symm.trans there
  have line : c.receivers.size = queued.length := delivers.queues.size_line found
  rw [line, List.cons_append, List.length_cons, List.length_append] at size
  omega

/-- The first of those who were called takes the oldest message. -/
theorem serve (delivers : x.Delivers b a told sent served (s :: called) queued ms)
    (sound : x.Sound u) (underway : x.Underway) (own : w.task = s.task)
    (occupies : x.Occupies b s task)
    (moves : x.MovesOn b a .receivers w s task rest called queued) :
    ∃ woken queued' m, queued = woken ++ queued' ∧
      x.step.Delivers b a (fun s => told s ++ x.replyTo s.task s.index)
        (sent ++ sentTo a.id (x.moved x.errand? b)) (served ++ [s]) (called ++ woken) queued'
        (ms ++ [m]) := by
  have member : s ∈ s :: called ++ queued := List.mem_cons_self
  have plain := delivers.plain s member
  obtain ⟨c, there, messages, size⟩ := delivers.channel
  have pos := delivers.size_pos there
  cases moves with
  | parks blocked _ _ =>
    rw [plain] at blocked
    cases blocked with
    | recv there' empty =>
      cases there.symm.trans there'
      exact absurd empty (Nat.ne_of_gt pos)
  | @replies o result _ woken queued' ran answer split queues registry moved stack found =>
    obtain ⟨⟨m, taken⟩, becomes⟩ := Channel.becomes_tryRecv pos
    rw [plain, Request.attempt, Registry.onAddress_of_find? there rfl] at ran
    cases ran
    simp only [Outcome.map, Outcome.within, taken] at answer
    cases answer
    have passes := c.passes_tryRecv
    rw [taken, whenGranted_ok] at passes
    have items : c.queue.items = m :: c.tryRecv.state.queue.items := by
      rw [← List.append_nil c.queue.items]
      exact passes.items
    have none : sentTo a.id (x.moved x.errand? b) = [] := by
      rw [moved, plain]
      rfl
    have found' : (x.step.registry b).find? a = some c.tryRecv.state := by
      rw [registry]
      exact (Registry.find?_put there passes.id a).trans (if_pos rfl)
    have untold (s' : Seat) (member : s' ∈ s :: called ++ queued) :
        told s' ++ x.replyTo s'.task s'.index = [] := by
      obtain ⟨task, occupies⟩ := delivers.queues.seated s' member
      rw [delivers.untold s' member, occupies.replyTo_eq_nil sound, List.append_nil]
    have same : called ++ woken ++ queued' = called ++ queued := by rw [split, List.append_assoc]
    have others (s' : Seat) (member : s' ∈ called ++ woken ++ queued') :
        s' ∈ s :: called ++ queued := by
      rw [same] at member
      exact List.mem_cons_of_mem _ member
    refine ⟨woken, queued', m, split, queues, fun s' member => delivers.plain s' (others s' member),
      ⟨c.tryRecv.state, found', ?_, ?_⟩, ?_, fun s' member => untold s' (others s' member)⟩
    · rw [none, List.append_nil, messages, items, List.append_assoc, List.singleton_append]
    · have size' : c.tryRecv.state.queue.size = c.queue.size - 1 := becomes.messages
      rw [becomes.receivers, size, size', same, List.cons_append, List.length_cons]
      omega
    · refine List.rel_append (delivers.delivered.imp fun s m replied => replied.step sound underway)
        (.cons ?_ .nil)
      rw [untold s member]
      rw [own] at found
      refine .pending found occupies.position own ?_
      rw [stack]
      exact List.mem_append_right [_, _, _] List.mem_cons_self

end Delivers

/-- As long as none of those who wait goes on, nothing is taken out. -/
theorem Queues.not_takesFrom {e : Errand Waker} (queues : x.Queues b a .receivers called queued)
    (sound : x.Sound u) (sends : Moment.OnlySends b a ⟨x, none⟩)
    (others : ∀ s ∈ called ++ queued, ¬x.Proceeds s.task) (errand : x.errand? = some (b, e)) :
    ¬e.TakesFrom a := by
  have leaves := sends.errand e errand
  cases e with
  | operate op => exact sends.messages _ errand
  | look q prior k =>
    rintro ⟨side, about⟩
    obtain ⟨p, prior, here⟩ :=
      leaves side fun b' own => Option.some.inj (own.symm.trans about)
    obtain ⟨s, member, proceeds⟩ := queues.exists_proceeds sound errand leaves prior here
    exact others s member proceeds
  | _ => exact id

namespace DeliversIn

theorem step (delivers : DeliversIn b a seats x trail) (reachable : x.Reachable u)
    (deferred : x.inline = false) (sends : Moment.OnlySends b a ⟨x, none⟩) :
    DeliversIn b a seats x.step (trail ++ [⟨x, none⟩]) ∨ x.step.GivesUpAt b a .receivers := by
  obtain ⟨served, called, queued, ms, whole, delivers⟩ := delivers
  have sound := reachable.sound
  simp only [DeliversIn, repliesIn_concat, sentIn_concat]
  by_cases others : ∀ s ∈ called ++ queued, ¬x.Proceeds s.task
  · obtain ⟨c, found, -⟩ := delivers.channel
    have nothing (e : Errand Waker) : x.errand? = some (b, e) → ¬e.TakesFrom a :=
      delivers.queues.not_takesFrom sound sends others
    refine (delivers.queues.step reachable deferred sends.toLeavesLine others found).imp_left ?_
    rintro ⟨woken, queued', d, split, queues, found', feeds⟩
    have ident := reachable.arises.identified b
    refine ⟨served, called ++ woken, queued', ms, ?_, delivers.goOn split queues found found'
      (feeds rfl nothing) (items_of_flows ident found found' (flows_step ident) nothing)
      (fun s m replied => replied.step sound reachable.underway) fun s member => ?_⟩
    · rw [whole, split]
      simp only [List.append_assoc]
    · obtain ⟨task, occupies⟩ := delivers.queues.seated s member
      rw [delivers.untold s member, List.nil_append]
      exact occupies.replyTo_eq_nil sound s.index
  · simp only [not_forall, not_not] at others
    obtain ⟨s, member, w, rest, stack, own⟩ := others
    obtain ⟨task, occupies⟩ := delivers.queues.seated s member
    have plain := delivers.plain s member
    obtain ⟨called, rfl, moves⟩ := delivers.queues.movesOn sound reachable.underway
      (reachable.orderly deferred) reachable.wakers stack (own ▸ occupies.found) member own
      (by rw [plain]; rfl) (by rw [plain]; rfl)
    obtain ⟨woken, queued', m, split, delivers⟩ :=
      delivers.serve sound reachable.underway own occupies moves
    refine .inl ⟨served ++ [s], called ++ woken, queued', ms ++ [m], ?_, delivers⟩
    rw [whole, split]
    simp only [List.append_assoc, List.cons_append, List.nil_append]

theorem ask {q : Step} (delivers : DeliversIn b a seats x trail) (reachable : x.Reachable u)
    (sends : Moment.OnlySends b a ⟨x, some q⟩) (idle : x.stack = [])
    (lawful : q.Lawful u x.buses.length) :
    DeliversIn b a seats ({ x with log := [], answer := none }.ask q) (trail ++ [⟨x, some q⟩]) ∨
      GivesUpAt ({ x with log := [], answer := none }.ask q) b a .receivers := by
  obtain ⟨served, called, queued, ms, whole, delivers⟩ := delivers
  have sound := reachable.sound
  simp only [DeliversIn, repliesIn_concat, sentIn_concat]
  obtain ⟨c, found, -⟩ := delivers.channel
  have nothing (e : Errand Waker) (errand : q.errand? = some (b, e)) : ¬e.TakesFrom a := by
    obtain ⟨op, rfl⟩ := Step.exists_operation errand
    exact sends.messages _ errand
  refine (delivers.queues.ask reachable idle lawful sends.toLeavesLine found).imp_left ?_
  rintro ⟨woken, queued', d, split, queues, found', feeds⟩
  have ident := reachable.arises.identified b
  refine ⟨served, called ++ woken, queued', ms, ?_, delivers.goOn split queues found found'
    (feeds rfl nothing) (items_of_flows ident found found' (flows_ask ident q) nothing)
    (fun s m replied => ?_) fun s member => ?_⟩
  · rw [whole, split]
    simp only [List.append_assoc]
  · rw [Moment.replyTo, List.append_nil]
    exact replied.ask sound idle lawful
  · rw [delivers.untold s member]
    rfl

/-- When nobody goes on any more, the first messages have come to the first receivers. -/
theorem repliesIn_eq (delivers : DeliversIn b a seats x trail) (idle : x.stack = [])
    (ready : x.ready = []) {i : Nat} (here : seats[i]? = some s) :
    repliesIn s.task s.index trail =
      ((sentIn b a.id trail)[i]?).toList.map (.granted <| .message ·) := by
  obtain ⟨served, called, queued, ms, rfl, delivers⟩ := delivers
  have none : called = [] := by
    have next := delivers.queues.next
    rw [upcoming, idle, ready] at next
    exact List.map_eq_nil_iff.1 next.symm
  subst none
  obtain ⟨c, found, messages, size⟩ := delivers.channel
  have line : c.receivers.size = queued.length := delivers.queues.size_line found
  obtain ⟨lengths, each⟩ := List.forall₂_iff_get.1 delivers.delivered
  rw [List.append_nil] at here
  rw [messages]
  rcases Nat.lt_or_ge i served.length with early | late
  · have early' : i < ms.length := lengths ▸ early
    rw [List.getElem?_append_left early] at here
    rw [List.getElem?_append_left early', List.getElem?_eq_getElem early']
    obtain ⟨-, rfl⟩ := List.getElem?_eq_some_iff.1 here
    exact (each i early early').told_eq idle
  · rw [List.getElem?_append_right late] at here
    have member := List.mem_of_getElem? here
    have some := List.length_pos_of_mem member
    rw [List.nil_append, line] at size
    have nothing : c.queue.size = 0 := by omega
    have empty : c.queue.items = [] := List.eq_nil_of_length_eq_zero nothing
    rw [empty, List.append_nil, List.getElem?_eq_none (lengths ▸ late)]
    exact delivers.untold s member

end DeliversIn

/-- Receivers are served first come, first served. Where calls wait at an empty channel in some
order, and nobody but these receives from it, the first message that is put in from then on goes to
the first of them, the second to the second, and so on: once nobody goes on any more, each has been
told the message at its own position, or nothing if no such message has come. -/
theorem receivers_first_come_first_served (reachable : x.Reachable u) (deferred : x.inline = false)
    (wait : x.WaitInOrder b a .receivers seats) (plain : ∀ s ∈ seats, s.request = .recv a)
    (empty : ∀ c, (x.registry b).find? a = some c → c.queue.items = [])
    (run : Continuation u (Moment.OnlySends b a) x y trail) (idle : y.stack = [])
    (ready : y.ready = []) (i : Nat) (here : seats[i]? = some s) :
    repliesIn s.task s.index trail =
      ((sentIn b a.id trail)[i]?).toList.map (.granted <| .message ·) := by
  have start : DeliversIn b a seats x [] := by
    have queues := wait.queues reachable.sound
    obtain ⟨c, found, -⟩ := wait.line
    have nothing := empty c found
    refine ⟨[], [], seats, [], rfl, queues, plain, ⟨c, found, ?_, ?_⟩, .nil, fun _ _ => rfl⟩
    · rw [nothing]
      rfl
    · rw [Fifo.size, nothing]
      exact queues.size_line found
  have delivers := run.invariant reachable deferred (fun _ sends => sends.toLeavesLine) start
    (fun y trail reachable deferred sends delivers => delivers.step reachable deferred sends)
    (fun y trail s reachable _ sends idle lawful delivers =>
      delivers.ask reachable sends idle lawful)
  refine (delivers.resolve_right ?_).repliesIn_eq idle ready here
  rintro ⟨p, -, errand⟩
  rw [errand?, idle] at errand
  cases errand

/-- Three tasks begin to receive from an empty channel. -/
def threeReceivers : List Step :=
  [.act 0 (.operate (.openChannel 2)), .spawn [⟨0, .call (.recv 0)⟩] false,
    .spawn [⟨0, .call (.recv 0)⟩] false, .spawn [⟨0, .call (.recv 0)⟩] false, .run none]

/-- Three tasks wait at an empty channel. -/
def threeWaiting : Executor := ((new false).runScript threeReceivers).1

/-- The calls of the three tasks. -/
def receiverSeats : List Seat :=
  (List.range 3).map fun n => ⟨n, 0, .recv ⟨0, ⟨0⟩⟩, ⟨⟨0, ⟨0⟩⟩, .receivers, ⟨n⟩⟩⟩

/-- Four messages come in: one alone, two in a batch, and one by a broadcast. -/
def fourMessages : List Step :=
  [.act 0 (.operate (.trySend 0 5)), .spawn [⟨0, .call (.sendMany 0 [6, 7])⟩] false, .run none,
    .act 0 (.operate (.tryBroadcast 8)), .run none]

theorem three_receivers_served : ∃ y trail,
    threeWaiting.WaitInOrder 0 ⟨0, ⟨0⟩⟩ .receivers receiverSeats ∧
    Continuation .full (Moment.OnlySends 0 ⟨0, ⟨0⟩⟩) threeWaiting y trail ∧
    sentIn 0 ⟨0⟩ trail = [5, 6, 7, 8] ∧
    repliesIn 0 0 trail = [.granted (.message 5)] ∧ repliesIn 1 0 trail = [.granted (.message 6)] ∧
      repliesIn 2 0 trail = [.granted (.message 7)] := by
  have obeys : (new false).Obeys .full threeReceivers := by decide +kernel
  have reachable : threeWaiting.Reachable .full := (reachable_new .full false).runScript obeys
  have wait : threeWaiting.WaitInOrder 0 ⟨0, ⟨0⟩⟩ .receivers receiverSeats := by decide +kernel
  have empty : ∀ c ∈ (threeWaiting.registry 0).find? ⟨0, ⟨0⟩⟩, c.queue.items = [] := by
    decide +kernel
  have obeys' : threeWaiting.Obeys .full fourMessages := by decide +kernel
  have sends : ∀ m ∈ trailOfScript threeWaiting fourMessages, m.OnlySends 0 ⟨0, ⟨0⟩⟩ := by
    decide +kernel
  have run := Continuation.refl.runScript obeys' sends
  have sent : sentIn 0 ⟨0⟩ ([] ++ trailOfScript threeWaiting fourMessages) = [5, 6, 7, 8] := by
    decide +kernel
  have idle : (threeWaiting.runScript fourMessages).1.stack.isEmpty = true := by decide +kernel
  have served (i : Nat) (s : Seat) (here : receiverSeats[i]? = some s) :=
    receivers_first_come_first_served reachable (by decide +kernel) wait (by decide) empty run
      (List.isEmpty_iff.1 idle) (by decide +kernel) i here
  rw [sent] at served
  have first := served 0 _ rfl
  have second := served 1 _ rfl
  have third := served 2 _ rfl
  exact ⟨_, _, wait, run, sent, first, second, third⟩

end Executor

end MessageBus

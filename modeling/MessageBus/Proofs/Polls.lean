import MessageBus.Proofs.Ledgers
import MessageBus.Proofs.SpuriousPolls
import MessageBus.Proofs.Termination

/-!
# The waker of the latest poll

Beside the ledger of a run there is a diary: it tells who was polled, with which waker, and for each
entry that was popped the waker with which its owner was polled last (`Watched`). Whoever stands in
a line does so with the waker of the latest poll of the call or the stream that the place belongs to
(`Watched.freshest`), so it is this one that is called.
-/

namespace MessageBus

/-- Whom a place belongs to: the instruction of a task that has this index, or the stream of a
task. -/
inductive Owner where
  | call (task index : Nat)
  | stream (task : Nat)
deriving DecidableEq, Repr

def Owner.task : Owner → Nat
  | call t _ => t
  | stream t => t

/-- A poll of a call or of a stream. -/
structure Poll where
  owner : Owner
  waker : Waker
deriving DecidableEq, Repr

/-- The waker with which an owner was polled last. The latest poll comes first. -/
def latest (polls : List Poll) (o : Owner) : Option Waker :=
  (polls.find? (·.owner = o)).map (·.waker)

theorem latest_cons_self (o : Owner) (w : Waker) (polls : List Poll) :
    latest (⟨o, w⟩ :: polls) o = some w := by
  simp [latest]

theorem latest_append_of_ne {o : Owner} {first : List Poll} (other : ∀ poll ∈ first, poll.owner ≠ o)
    (polls : List Poll) : latest (first ++ polls) o = latest polls o := by
  have none : first.find? (·.owner = o) = none := by simpa using other
  rw [latest, latest, List.find?_append, none, Option.none_or]

/-- What is seen of the polls in a run. -/
structure Diary where
  /-- The polls, the latest first. -/
  polls : List Poll := []
  /-- The entries that were popped, and with which waker their owners were polled last. -/
  wakings : List (Entry × Option Waker) := []

namespace Task

/-- Whether a task that goes on looks for the next item of its stream. -/
def isAtStream (task : Task) : Bool :=
  match task.progress with
  | .fresh => task.looksAtStream
  | .collecting _ => true
  | _ => false

theorem isAtStream_iff {task : Task} : task.isAtStream = true ↔ task.IsAtStream := by
  rw [isAtStream, IsAtStream]
  cases task.progress <;> simp

/-- What is polled when a task goes on. -/
def polled (t : Nat) (task : Task) : Owner :=
  if task.isAtStream then .stream t else .call t task.position

theorem polled_of_atStream {task : Task} (atStream : task.IsAtStream) (t : Nat) :
    task.polled t = .stream t := if_pos (isAtStream_iff.2 atStream)

theorem polled_of_not_atStream {task : Task} (away : ¬task.IsAtStream) (t : Nat) :
    task.polled t = .call t task.position := if_neg fun looks => away (isAtStream_iff.1 looks)

end Task

namespace Executor

/-- The polls that are made in the next step. -/
def polls (x : Executor) : List Poll :=
  match x.stack with
  | .proceed w :: _ => ((x.tasks[w.task]?).map fun task => ⟨task.polled w.task, w⟩).toList
  | _ => []

/-- The place that an owner holds, with its bus. -/
def placeOf (x : Executor) : Owner → Option (Nat × Place)
  | .call t i =>
    (x.tasks[t]?).bind fun task => if task.position = i then task.callPlace else none
  | .stream t => (x.tasks[t]?).bind (·.streamPlace)

/-- Everybody who may hold a place. -/
def owners (x : Executor) : List Owner :=
  x.tasks.zipIdx.flatMap fun (task, t) => [.call t task.position, .stream t]

/-- Whom a place belongs to. -/
def owner? (x : Executor) (held : Nat × Place) : Option Owner :=
  x.owners.find? (x.placeOf · = some held)

/-- The entries that an errand pops, each with the waker of the latest poll of its owner. -/
def wakings (x y : Executor) (polls : List Poll) :
    Option (Nat × Errand Waker) → List (Entry × Option Waker)
  | none => []
  | some (b, e) =>
    (((x.registry b).leaving (y.registry b)).filter (!e.givesUp ·.1)).map fun entry =>
      ((b, entry), (x.owner? (b, entry.1)).bind (latest polls))

/-- The diary after the next step. -/
def diaryOfStep (x : Executor) (D : Diary) : Diary :=
  { polls := x.polls ++ D.polls
    wakings := D.wakings ++ x.wakings x.step D.polls x.errand? }

/-- The diary after a request from outside. -/
def diaryOfAsk (x : Executor) (s : Step) (D : Diary) : Diary :=
  { D with
    wakings := D.wakings ++
      x.wakings ({ x with log := [], answer := none }.ask s) D.polls s.errand? }

/-- The runs, each with its ledger and its diary. -/
inductive Watched (u : Usage) : Executor → Ledger → Diary → Prop where
  | new (inline : Bool) : Watched u (new inline) {} {}
  | step {x : Executor} {L : Ledger} {D : Diary} (watched : Watched u x L D) :
    Watched u x.step (x.ledgerOfStep L) (x.diaryOfStep D)
  | ask {x : Executor} {L : Ledger} {D : Diary} {s : Step} (watched : Watched u x L D)
      (idle : x.stack = []) (lawful : s.Lawful u x.buses.length) :
    Watched u ({ x with log := [], answer := none }.ask s) (x.ledgerOfAsk s L) (x.diaryOfAsk s D)

variable {u : Usage} {x y : Executor} {L : Ledger} {D : Diary} {b b' t : Nat} {p : Place}
  {o : Owner} {w : Waker} {task : Task} {f : Frame} {change : Task → Task}
  {frames rest : List Frame} {held : Nat × Place} {e : Errand Waker}

/-! ### Whom a place belongs to -/

theorem placeOf_call_iff {i : Nat} : x.placeOf (.call t i) = some held ↔
    ∃ task, x.tasks[t]? = some task ∧ task.position = i ∧ task.callPlace = some held := by
  rw [placeOf, Option.bind_eq_some_iff]
  refine exists_congr fun task => and_congr_right fun _ => ?_
  by_cases here : task.position = i <;> simp [here]

theorem placeOf_stream_iff : x.placeOf (.stream t) = some held ↔
    ∃ task, x.tasks[t]? = some task ∧ task.streamPlace = some held :=
  Option.bind_eq_some_iff

theorem mem_owners_of_placeOf (holds : x.placeOf o = some held) : o ∈ x.owners := by
  have member {t : Nat} {task : Task} (found : x.tasks[t]? = some task) :
      (task, t) ∈ x.tasks.zipIdx := List.mk_mem_zipIdx_iff_getElem?.2 found
  cases o with
  | call t i =>
    obtain ⟨task, found, rfl, -⟩ := placeOf_call_iff.1 holds
    exact List.mem_flatMap.2 ⟨_, member found, List.mem_cons_self⟩
  | stream t =>
    obtain ⟨task, found, -⟩ := placeOf_stream_iff.1 holds
    exact List.mem_flatMap.2 ⟨_, member found, List.mem_cons_of_mem _ List.mem_cons_self⟩

theorem mem_placesOf_of_placeOf (holds : x.placeOf o = some held) : held ∈ x.placesOf o.task := by
  cases o with
  | call t i =>
    obtain ⟨task, found, -, own⟩ := placeOf_call_iff.1 holds
    rw [Owner.task, placesOf_of_found found, Task.places, own]
    exact List.mem_append_left _ List.mem_cons_self
  | stream t =>
    obtain ⟨task, found, own⟩ := placeOf_stream_iff.1 holds
    rw [Owner.task, placesOf_of_found found, Task.places, own]
    exact List.mem_append_right _ List.mem_cons_self

theorem exists_placeOf (holds : held ∈ x.placesOf t) : ∃ o, x.placeOf o = some held := by
  obtain ⟨task, found⟩ := exists_of_mem_placesOf holds
  rw [placesOf_of_found found, Task.places, List.mem_append, Option.mem_toList,
    Option.mem_toList] at holds
  rcases holds with call | stream
  · exact ⟨.call t task.position, placeOf_call_iff.2 ⟨task, found, rfl, call⟩⟩
  · exact ⟨.stream t, placeOf_stream_iff.2 ⟨task, found, stream⟩⟩

/-- A place belongs to one owner. -/
theorem Sound.owner_eq (sound : x.Sound u) {o' : Owner} (holds : x.placeOf o = some (b, p))
    (holds' : x.placeOf o' = some (b, p)) : o' = o := by
  have same := sound.holder_eq (mem_placesOf_of_placeOf holds) (mem_placesOf_of_placeOf holds')
  -- A task does not hold a place both in its instruction and for its stream.
  have apart {t : Nat} {task : Task} (found : x.tasks[t]? = some task)
      (call : task.callPlace = some (b, p)) (stream : task.streamPlace = some (b, p)) : False := by
    have single := sound.nodup_placesOf t
    rw [placesOf_of_found found, Task.places, call, stream] at single
    exact (List.nodup_cons.1 single).1 List.mem_cons_self
  cases o with
  | call t i =>
    obtain ⟨task, found, position, own⟩ := placeOf_call_iff.1 holds
    cases o' with
    | call t' i' =>
      obtain ⟨task', found', position', -⟩ := placeOf_call_iff.1 holds'
      obtain rfl : t' = t := same
      cases found.symm.trans found'
      rw [← position, position']
    | stream t' =>
      obtain ⟨task', found', own'⟩ := placeOf_stream_iff.1 holds'
      obtain rfl : t' = t := same
      cases found.symm.trans found'
      exact (apart found own own').elim
  | stream t =>
    obtain ⟨task, found, own⟩ := placeOf_stream_iff.1 holds
    cases o' with
    | call t' i' =>
      obtain ⟨task', found', -, own'⟩ := placeOf_call_iff.1 holds'
      obtain rfl : t' = t := same
      cases found.symm.trans found'
      exact (apart found own' own).elim
    | stream t' => exact congrArg Owner.stream same

theorem Sound.owner?_eq (sound : x.Sound u) (holds : x.placeOf o = some (b, p)) :
    x.owner? (b, p) = some o := by
  rw [owner?]
  cases found : x.owners.find? (x.placeOf · = some (b, p)) with
  | none => simpa [holds] using List.find?_eq_none.1 found o (mem_owners_of_placeOf holds)
  | some o' =>
    have holds' := List.find?_some found
    rw [sound.owner_eq holds (of_decide_eq_true holds')]

/-! ### A step -/

theorem polls_of_proceed (stack : x.stack = .proceed w :: rest)
    (found : x.tasks[w.task]? = some task) : x.polls = [⟨task.polled w.task, w⟩] := by
  rw [polls, stack]
  simp only [found]
  rfl

theorem exists_of_mem_polls {poll : Poll} (member : poll ∈ x.polls) : ∃ w rest task,
    x.stack = .proceed w :: rest ∧ x.tasks[w.task]? = some task ∧
      poll = ⟨task.polled w.task, w⟩ := by
  rw [polls] at member
  split at member
  · rename_i w rest stack
    obtain ⟨task, found, rfl⟩ := Option.map_eq_some_iff.1 (Option.mem_toList.1 member)
    exact ⟨w, rest, task, stack, found, rfl⟩
  · cases member

/-- Whoever is polled and holds a place enters its bus from this place, and would leave its waker
there. -/
theorem errand?_of_polled (faithful : ∀ (t : Nat) task, x.tasks[t]? = some task → task.IsFaithful)
    {poll : Poll} (polled : poll ∈ x.polls) (holds : x.placeOf poll.owner = some (b, p)) :
    ∃ e, x.errand? = some (b, e) ∧ e.prior? = some p ∧ e.waker? = some poll.waker := by
  obtain ⟨w, rest, task, stack, found, rfl⟩ := exists_of_mem_polls polled
  have holds : x.placeOf (task.polled w.task) = some (b, p) := holds
  have goes : x.errand? = x.taskErrand? w task := by
    rw [Executor.errand?, stack]
    simp only [found, Option.bind_some]
  rw [goes]
  by_cases atStream : task.IsAtStream
  · rw [Task.polled_of_atStream atStream] at holds
    obtain ⟨task', found', own⟩ := placeOf_stream_iff.1 holds
    cases found.symm.trans found'
    obtain ⟨s, stream, place⟩ := Option.bind_eq_some_iff.1 own
    obtain ⟨p', place, same⟩ := Option.map_eq_some_iff.1 place
    cases same
    rw [taskErrand?_of_atStream atStream, stream, Option.bind_some, Stream.errand?]
    cases known : s.id with
    | none =>
      obtain ⟨_, known', -⟩ := (faithful w.task task found).stream s p stream place
      cases known.symm.trans known'
    | some id => exact ⟨_, rfl, place, rfl⟩
  · rw [Task.polled_of_not_atStream atStream] at holds
    obtain ⟨task', found', -, own⟩ := placeOf_call_iff.1 holds
    cases found.symm.trans found'
    rw [Task.callPlace] at own
    rw [taskErrand?]
    cases progress : task.progress with
    | calling b' q prior recorded =>
      rw [progress] at own
      cases prior with
      | none => cases own
      | some p' =>
        cases own
        exact ⟨_, rfl, rfl, rfl⟩
    | waiting b' p' before after =>
      rw [progress] at own
      cases own
      exact ⟨_, rfl, rfl, rfl⟩
    | _ =>
      rw [progress] at own
      cases own

/-- A change of a task that leaves it its places. -/
structure Task.KeepsSeats (task task' : Task) : Prop where
  call : task'.callPlace = task.callPlace
  stream : task'.streamPlace = task.streamPlace
  position : task'.position = task.position ∨ task.callPlace = none

theorem placeOf_of_modify (tasks : y.tasks = x.tasks.modify t change)
    (keeps : ∀ task, x.tasks[t]? = some task → Task.KeepsSeats task (change task)) (o : Owner) :
    y.placeOf o = x.placeOf o := by
  cases o with
  | call t' i =>
    rw [placeOf, placeOf, getElem?_of_modify tasks t']
    cases found : x.tasks[t']? with
    | none => rfl
    | some task =>
      rw [Option.map_some, Option.bind_some, Option.bind_some]
      split
      · rename_i same
        obtain ⟨call, -, position⟩ := keeps task (same ▸ found)
        rw [call]
        rcases position with same | none
        · rw [same]
        · rw [none, ite_self, ite_self]
      · rfl
  | stream t' =>
    rw [placeOf, placeOf, getElem?_of_modify tasks t']
    cases found : x.tasks[t']? with
    | none => rfl
    | some task =>
      rw [Option.map_some, Option.bind_some, Option.bind_some]
      split
      · rename_i same
        exact (keeps task (same ▸ found)).stream
      · rfl

theorem Quiet.keepsSeats (sound : x.Sound u) (stack : x.stack = f :: rest)
    (quiet : x.Quiet f t change frames) (found : x.tasks[t]? = some task) :
    Task.KeepsSeats task (change task) := by
  cases quiet with
  | breaksOff found' running => exact absurd running (sound.life_of_leave stack found')
  | observes found' progress =>
    cases found.symm.trans found'
    refine ⟨?_, rfl, .inl rfl⟩
    rw [Task.callPlace, Task.callPlace, progress]
  | completes _ =>
    have free := sound.settled_of_turn stack rfl found id
    exact ⟨free.symm, rfl, .inr free⟩
  | collects _ _ => exact ⟨(sound.settled_of_turn stack rfl found id).symm, rfl, .inl rfl⟩
  | yields found' fresh _ =>
    cases found.symm.trans found'
    exact ⟨(Task.callPlace_of_fresh fresh).symm, rfl, .inl rfl⟩
  | replaces replaces free =>
    have none : task.streamPlace = none := by
      rw [found] at free
      exact free
    exact ⟨rfl, (replaces.streamPlace sound stack task).trans none.symm, .inl rfl⟩
  | _ => exact ⟨rfl, rfl, .inl rfl⟩

/-- What becomes of the place of an owner in an errand on a bus: it is kept, or given up, or it is
one that a poll of this owner came to. -/
inductive SeatGoes (Polls : Waker → Prop) (b : Nat) (places : List Place)
    (was : Option (Nat × Place)) : Option (Nat × Place) → Prop where
  | kept : SeatGoes Polls b places was was
  | left : SeatGoes Polls b places was none
  | came {w : Waker} (polls : Polls w) {p : Place} (member : p ∈ places) :
    SeatGoes Polls b places was (some (b, p))

theorem Sequel.seatGoes {out : Outcome (Registry Waker) Waker Upshot} (sound : x.Sound u)
    (stack : x.stack = f :: rest) (sequel : x.Sequel f b e out t change frames)
    (found : x.tasks[t]? = some task) :
    SeatGoes (fun w => f = .proceed w ∧ w.task = t ∧ e.waker? = some w ∧ ¬task.IsAtStream) b
        out.answer.places task.callPlace (change task).callPlace ∧
      SeatGoes (fun w => f = .proceed w ∧ w.task = t ∧ e.waker? = some w ∧ task.IsAtStream) b
        out.answer.places task.streamPlace (change task).streamPlace ∧
      (change task).position = task.position := by
  cases sequel with
  | @looks w _ b q prior recorded p found' pursues ran =>
    cases found.symm.trans found'
    have away := pursues.not_isAtStream
    show SeatGoes _ b ((p.answer.stays q prior).map (·.place)) _
      (p.answer.leaves b recorded task).callPlace ∧
        SeatGoes _ b _ _ (p.answer.leaves b recorded task).streamPlace ∧
          (p.answer.leaves b recorded task).position = _
    rcases p.answer with result | ⟨q', p'⟩ | _ | q'
    · exact ⟨.left, .kept, rfl⟩
    · exact ⟨.came ⟨rfl, rfl, rfl, away⟩ (List.mem_singleton_self p'), .kept, rfl⟩
    · exact ⟨.kept, .kept, rfl⟩
    · exact ⟨.left, .kept, rfl⟩
  | @looksAtStream w _ s id p found' atStream stream known ran =>
    cases found.symm.trans found'
    show SeatGoes _ s.bus _ _ (p.answer.leavesStream s task).callPlace ∧
      SeatGoes _ s.bus ((p.answer.stays (.recv ⟨s.handle, id⟩) s.place).map (·.place)) _
        (p.answer.leavesStream s task).streamPlace ∧ (p.answer.leavesStream s task).position = _
    rcases p.answer with ⟨_ | _⟩ | ⟨q', p'⟩ | _ | q'
    · exact ⟨.kept, .left, rfl⟩
    · exact ⟨.kept, .left, rfl⟩
    · exact ⟨.kept, .came ⟨rfl, rfl, rfl, atStream⟩ (List.mem_singleton_self p'), rfl⟩
    · exact ⟨.kept, .kept, rfl⟩
    · exact ⟨.kept, .kept, rfl⟩
  | fails _ _ _ _ => exact ⟨.left, .kept, rfl⟩
  | resolves _ _ _ remembers =>
    obtain ⟨remembered, same⟩ := remembers task
    rw [same]
    exact ⟨.kept, .kept, rfl⟩
  | @parks w _ b h side known before p o found' fresh current ran answer =>
    cases found.symm.trans found'
    have away : ¬task.IsAtStream :=
      Task.not_isAtStream_of_fresh fresh (by rw [Task.looksAtStream, current])
    refine ⟨.came ⟨rfl, rfl, rfl, away⟩ ?_, .kept, rfl⟩
    rw [Outcome.answer_map, answer]
    exact List.mem_singleton_self p
  | wakes _ _ _ => exact ⟨.left, .kept, rfl⟩
  | abandons forgets =>
    cases forgets with
    | stream replaces _ _ =>
      refine ⟨.kept, ?_, rfl⟩
      rw [replaces.streamPlace sound stack task]
      exact .left
    | place _ _ =>
      show SeatGoes _ _ _ _ task.giveUpPlace.callPlace ∧
        SeatGoes _ _ _ _ task.giveUpPlace.streamPlace ∧ task.giveUpPlace.position = _
      rw [Task.giveUpPlace]
      split
      · exact ⟨.left, .kept, rfl⟩
      · exact ⟨.kept, .left, rfl⟩
  | _ => exact ⟨.kept, .kept, rfl⟩

/-- Whoever holds a place after an errand held it before, or has just come to it in a poll. -/
theorem Sequel.placeOf_cases {out : Outcome (Registry Waker) Waker Upshot} (sound : x.Sound u)
    (stack : x.stack = f :: rest) (sequel : x.Sequel f b' e out t change frames)
    (tasks : y.tasks = x.tasks.modify t change) (holds : y.placeOf o = some (b, p)) :
    x.placeOf o = some (b, p) ∨
      b' = b ∧ p ∈ out.answer.places ∧ ∃ w, e.waker? = some w ∧ x.polls = [⟨o, w⟩] := by
  cases o with
  | call t' i =>
    obtain ⟨task', found', position, own⟩ := placeOf_call_iff.1 holds
    rw [getElem?_of_modify tasks] at found'
    obtain ⟨task, found, same⟩ := Option.map_eq_some_iff.1 found'
    split at same
    · rename_i here
      subst here same
      obtain ⟨call, -, index⟩ := sequel.seatGoes sound stack found
      generalize is : (change task).callPlace = now at call own
      cases call with
      | kept => exact .inl (placeOf_call_iff.2 ⟨task, found, index ▸ position, own⟩)
      | left => cases own
      | came polls member =>
        cases own
        obtain ⟨rfl, rfl, waker, away⟩ := polls
        refine .inr ⟨rfl, member, _, waker, ?_⟩
        rw [polls_of_proceed stack found, Task.polled_of_not_atStream away, ← index, position]
    · subst same
      exact .inl (placeOf_call_iff.2 ⟨_, found, position, own⟩)
  | stream t' =>
    obtain ⟨task', found', own⟩ := placeOf_stream_iff.1 holds
    rw [getElem?_of_modify tasks] at found'
    obtain ⟨task, found, same⟩ := Option.map_eq_some_iff.1 found'
    split at same
    · rename_i here
      subst here same
      obtain ⟨-, stream, -⟩ := sequel.seatGoes sound stack found
      generalize is : (change task).streamPlace = now at stream own
      cases stream with
      | kept => exact .inl (placeOf_stream_iff.2 ⟨task, found, own⟩)
      | left => cases own
      | came polls member =>
        cases own
        obtain ⟨rfl, rfl, waker, atStream⟩ := polls
        refine .inr ⟨rfl, member, _, waker, ?_⟩
        rw [polls_of_proceed stack found, Task.polled_of_atStream atStream]
    · subst same
      exact .inl (placeOf_stream_iff.2 ⟨_, found, own⟩)

/-- If the owner of a place is polled and holds it after that too, his errand came to it again. -/
theorem Sound.came_of_polled {poll : Poll} (sound : x.Sound u)
    (faithful : ∀ (t : Nat) task, x.tasks[t]? = some task → task.IsFaithful)
    (member : poll ∈ x.polls) (before : x.placeOf poll.owner = some (b, p))
    (holds : x.step.placeOf poll.owner = some (b, p)) :
    ∃ e out w, x.errand? = some (b, e) ∧ x.carried b e = some out ∧ p ∈ out.answer.places ∧
      e.waker? = some w ∧ x.polls = [⟨poll.owner, w⟩] := by
  obtain ⟨e, errand, prior, waker⟩ := errand?_of_polled faithful member before
  obtain ⟨w, rest, task, stack, found, rfl⟩ := exists_of_mem_polls member
  have same : (task.polled w.task).task = w.task := by
    rw [Task.polled]
    split <;> rfl
  have trades := sound.trades_step
  rw [errand] at trades
  cases trades with
  | @errand _ _ out t others carried _ _ before after _ own _ =>
    obtain rfl : w.task = t := own w waker
    have after' := mem_placesOf_of_placeOf holds
    rw [prior] at before
    rw [same, after.mem_iff, List.mem_append] at after'
    rcases after' with new | old
    · obtain ⟨p', member, pair⟩ := List.mem_map.1 new
      cases pair
      exact ⟨e, out, w, errand, carried, member, waker, polls_of_proceed stack found⟩
    · -- What he held beside this place is not this place.
      have distinct := sound.nodup_placesOf w.task
      rw [before.nodup_iff] at distinct
      exact absurd old (List.nodup_cons.1 distinct).1

/-- Whoever holds a place after a step has just come to it in a poll, or he held it before and was
not polled. -/
theorem Sound.placeOf_step (sound : x.Sound u)
    (faithful : ∀ (t : Nat) task, x.tasks[t]? = some task → task.IsFaithful)
    (holds : x.step.placeOf o = some (b, p)) :
    (x.placeOf o = some (b, p) ∧ ∀ poll ∈ x.polls, poll.owner ≠ o) ∨
      ∃ e out w, x.errand? = some (b, e) ∧ x.carried b e = some out ∧ p ∈ out.answer.places ∧
        e.waker? = some w ∧ x.polls = [⟨o, w⟩] := by
  have still (before : x.placeOf o = some (b, p)) :
      (x.placeOf o = some (b, p) ∧ ∀ poll ∈ x.polls, poll.owner ≠ o) ∨
        ∃ e out w, x.errand? = some (b, e) ∧ x.carried b e = some out ∧ p ∈ out.answer.places ∧
          e.waker? = some w ∧ x.polls = [⟨o, w⟩] := by
    by_cases polled : ∃ poll ∈ x.polls, poll.owner = o
    · obtain ⟨poll, member, rfl⟩ := polled
      exact .inr (sound.came_of_polled faithful member before holds)
    · exact .inl ⟨before, fun poll member same => polled ⟨poll, member, same⟩⟩
  cases stack : x.stack with
  | nil => exact still (by rwa [step_of_stack_nil stack] at holds)
  | cons f rest =>
    have rests (tasks : x.step.tasks = x.tasks) : x.step.placeOf o = x.placeOf o := by
      cases o <;> rw [placeOf, placeOf, tasks]
    cases x.step_unfolds stack with
    | quiet _ quiet leads =>
      rw [placeOf_of_modify leads.tasks fun task => quiet.keepsSeats sound stack] at holds
      exact still holds
    | releases _ leads => exact still (rests leads.tasks ▸ holds)
    | polls _ _ _ leads _ => exact still (rests leads.tasks ▸ holds)
    | readies _ leads _ _ _ => exact still (rests leads.tasks ▸ holds)
    | drains _ _ _ leads _ => exact still (rests leads.tasks ▸ holds)
    | enters errand carried sequel leads =>
      rcases sequel.placeOf_cases sound stack leads.tasks holds with before | came
      · exact still before
      · obtain ⟨rfl, member, w, waker, polled⟩ := came
        exact .inr ⟨_, _, w, errand, carried, member, waker, polled⟩
    | fails errand failed _ _ _ _ => exact absurd failed (sound.carried errand)

/-- A place to which an errand came is that of the owner that was polled. -/
theorem Sequel.placeOf_polled {out : Outcome (Registry Waker) Waker Upshot}
    (stack : x.stack = f :: rest) (ran : e.effect (x.registry b) = .ok out)
    (sequel : x.Sequel f b e out t change frames) (tasks : y.tasks = x.tasks.modify t change)
    (member : p ∈ out.answer.places) :
    ∃ o w, x.polls = [⟨o, w⟩] ∧ e.waker? = some w ∧ y.placeOf o = some (b, p) := by
  have after {w : Waker} {task : Task} (found : x.tasks[w.task]? = some task) (own : w.task = t) :
      y.tasks[w.task]? = some (change task) := by
    rw [tasks, ← own, List.getElem?_modify_eq, found]
    rfl
  have called {w : Waker} {task : Task} (stack : x.stack = .proceed w :: rest)
      (found : x.tasks[w.task]? = some task) (own : w.task = t) (away : ¬task.IsAtStream)
      (waker : e.waker? = some w) (position : (change task).position = task.position)
      (place : (change task).callPlace = some (b, p)) :
      ∃ o w, x.polls = [⟨o, w⟩] ∧ e.waker? = some w ∧ y.placeOf o = some (b, p) := by
    refine ⟨_, w, polls_of_proceed stack found, waker, ?_⟩
    rw [Task.polled_of_not_atStream away]
    exact placeOf_call_iff.2 ⟨_, after found own, position, place⟩
  cases sequel with
  | @looks w task b q prior recorded out found pursues _ =>
    have away := pursues.not_isAtStream
    have member : p ∈ (out.answer.stays q prior).map (·.place) := member
    refine called stack found rfl away rfl ?_ ?_
    · rcases out.answer with _ | _ | _ | _ <;> rfl
    · generalize out.answer = turn at member ⊢
      rcases turn with result | ⟨q', p'⟩ | _ | q'
      · cases member
      · cases List.mem_singleton.1 member
        rfl
      · cases prior with
        | none => cases member
        | some p' =>
          cases List.mem_singleton.1 member
          exact pursues.callPlace
      · cases member
  | @looksAtStream w task s id out found atStream stream known _ =>
    have member : p ∈ (out.answer.stays (.recv ⟨s.handle, id⟩) s.place).map (·.place) := member
    refine ⟨_, w, polls_of_proceed stack found, rfl, ?_⟩
    rw [Task.polled_of_atStream atStream]
    refine placeOf_stream_iff.2 ⟨_, after found rfl, ?_⟩
    generalize out.answer = turn at member ⊢
    rcases turn with ⟨_ | _⟩ | ⟨q', p'⟩ | _ | q'
    · cases member
    · cases member
    · cases List.mem_singleton.1 member
      rfl
    · have place : s.place = some p := by
        cases place : s.place with
        | none =>
          rw [place] at member
          cases member
        | some p' =>
          rw [place] at member
          rw [List.mem_singleton.1 member]
      show task.streamPlace = _
      rw [Task.streamPlace, stream, Option.bind_some, place]
      rfl
    · cases member
  | @parks w task b h side known before p' out found fresh current _ answer =>
    rw [Outcome.answer_map, answer] at member
    cases List.mem_singleton.1 member
    exact called stack found rfl
      (Task.not_isAtStream_of_fresh fresh (by rw [Task.looksAtStream, current])) rfl rfl rfl
  | parksNowhere _ _ _ _ answer =>
    rw [Outcome.answer_map, answer] at member
    cases member
  | @waits w task b p' before after' found progress queued =>
    rw [Outcome.answer_map, queued] at member
    cases List.mem_singleton.1 member
    exact called stack found rfl (Task.not_isAtStream_of_waiting progress) rfl rfl
      (by rw [id, Task.callPlace, progress])
  | wakes _ _ away =>
    rw [Outcome.answer_map, if_neg away] at member
    cases member
  | operates _ _ _ _ | abandons _ => cases member
  | fails _ _ _ _ | resolvesStream _ _ _ | resolves _ _ _ _ =>
    cases ran
    cases member

theorem Sound.placeOf_polled {out : Outcome (Registry Waker) Waker Upshot} (sound : x.Sound u)
    (errand : x.errand? = some (b, e)) (carried : x.carried b e = some out)
    (member : p ∈ out.answer.places) :
    ∃ o w, x.polls = [⟨o, w⟩] ∧ e.waker? = some w ∧ x.step.placeOf o = some (b, p) := by
  cases stack : x.stack with
  | nil =>
    rw [Executor.errand?, stack] at errand
    cases errand
  | cons f rest =>
    obtain ⟨out', t, change, frames, carried', sequel, leads⟩ := sound.enters stack errand
    cases carried.symm.trans carried'
    exact sequel.placeOf_polled stack (effect_of_carried carried) leads.tasks member

end Executor

/-- Whoever comes to a place leaves his waker there. -/
theorem Errand.Rearranges.waker_of_places {ω : Type} {e : Errand ω} {r : Registry ω}
    {out : Outcome (Registry ω) ω Upshot} (rearranges : e.Rearranges r out) {p : Place} {k : ω}
    (single : (out.state.waiting.map (·.1)).Nodup) (member : p ∈ out.answer.places)
    (there : (p, k) ∈ out.state.waiting) : e.waker? = some k := by
  have own {p' : Place} {k' : ω} {left : List (Place × ω)} (waker : e.waker? = some k')
      (places : out.answer.places = [p'])
      (shifts : r.Shifts out.state left [(p', k')] out.woken) : e.waker? = some k := by
    rw [places] at member
    obtain rfl := List.mem_singleton.1 member
    obtain ⟨popped, stay, -, after, -⟩ := shifts
    rw [(after.map _).nodup_iff] at single
    rcases List.mem_cons.1 (after.mem_iff.1 there) with same | stays
    · cases same
      exact waker
    · exact absurd (List.mem_map_of_mem stays) (List.nodup_cons.1 single).1
  cases rearranges with
  | pops places _ _ => simp [places] at member
  | joins _ waker places shifts => exact own waker places shifts
  | renews waker places shifts => exact own waker places shifts
  | removes _ places _ => simp [places] at member

namespace Executor

variable {u : Usage} {x y : Executor} {L : Ledger} {D : Diary} {b : Nat} {p : Place}

/-! ### Runs -/

/-- Whether everybody who stands in a line does so with the waker of the latest poll of the owner of
the place. -/
def Freshest (x : Executor) (polls : List Poll) : Prop :=
  ∀ b p k, (p, k) ∈ (x.registry b).waiting →
    ∃ o, x.placeOf o = some (b, p) ∧ latest polls o = some k

theorem Freshest.step {polls : List Poll} (freshest : x.Freshest polls) (sound : x.Sound u)
    (faithful : ∀ (t : Nat) task, x.tasks[t]? = some task → task.IsFaithful) :
    x.step.Freshest (x.polls ++ polls) := by
  intro b p k there
  have queued : (x.step.registry b).isQueued p = true :=
    Registry.isQueued_iff_mem_waiting.2 (List.mem_map_of_mem there)
  have sound' := sound.step.1
  obtain ⟨t, held⟩ := mem_held_iff.1 (sound'.held_of_isQueued queued)
  obtain ⟨o, holds⟩ := exists_placeOf held
  refine ⟨o, holds, ?_⟩
  rcases sound.placeOf_step faithful holds with
    ⟨before, silent⟩ | ⟨e, out, w, errand, carried, member, waker, polled⟩
  · -- Whoever was not polled has no new entry.
    have old : (p, k) ∈ (x.registry b).waiting := by
      refine (sound.trades_step.entry_cases there).resolve_right ?_
      rintro ⟨e, out, errand, carried, -, member⟩
      obtain ⟨o', w, polled, -, holds'⟩ := sound.placeOf_polled errand carried member
      refine silent ⟨o', w⟩ (polled ▸ List.mem_singleton_self _) ?_
      exact sound'.owner_eq holds holds'
    obtain ⟨o', holds', last⟩ := freshest b p k old
    cases sound.owner_eq before holds'
    rw [latest_append_of_ne silent, last]
  · have state : x.step.registry b = out.state := by
      have trades := sound.trades_step
      rw [errand] at trades
      cases trades with
      | errand carried' here _ _ _ _ _ _ =>
        cases carried.symm.trans carried'
        exact here
    have single := (sound'.nodup_waiting b).of_map
    rw [state] at there single
    have own := (e.rearranges (effect_of_carried carried)).waker_of_places single member there
    cases waker.symm.trans own
    rw [polled]
    exact latest_cons_self o _ polls

/-- A request from outside leaves no waker in a line. -/
theorem waker?_of_ask {s : Step} {e : Errand Waker} (errand : s.errand? = some (b, e)) :
    e.waker? = none := by
  cases s with
  | act b' action =>
    cases action with
    | operate op =>
      cases errand
      rfl
    | _ => cases errand
  | _ => cases errand

theorem Freshest.ask {polls : List Poll} {s : Step} (freshest : x.Freshest polls)
    (sound : x.Sound u) (idle : x.stack = []) (lawful : s.Lawful u x.buses.length) :
    (x.ask s).Freshest polls := by
  intro b p k there
  have old : (p, k) ∈ (x.registry b).waiting := by
    refine ((sound.trades_ask idle lawful).entry_cases there).resolve_right ?_
    rintro ⟨e, out, errand, -, waker, -⟩
    cases (waker?_of_ask errand).symm.trans waker
  obtain ⟨o, holds, last⟩ := freshest b p k old
  refine ⟨o, ?_, last⟩
  cases o with
  | call t i =>
    obtain ⟨task, found, position, own⟩ := placeOf_call_iff.1 holds
    rcases sound.kept_ask idle lawful found with kept | ended
    · exact placeOf_call_iff.2 ⟨_, kept, position, own⟩
    · exact placeOf_call_iff.2 ⟨_, ended, position, own⟩
  | stream t =>
    obtain ⟨task, found, own⟩ := placeOf_stream_iff.1 holds
    rcases sound.kept_ask idle lawful found with kept | ended
    · exact placeOf_stream_iff.2 ⟨_, kept, own⟩
    · exact placeOf_stream_iff.2 ⟨_, ended, own⟩

theorem Watched.recorded (watched : Watched u x L D) : Recorded u x L := by
  induction watched with
  | new inline => exact .new inline
  | step _ ih => exact ih.step
  | ask _ idle lawful ih => exact ih.ask idle lawful

/-- Every run has its ledger and its diary. -/
theorem Reachable.exists_watched (reachable : x.Reachable u) : ∃ L D, Watched u x L D := by
  obtain ⟨inline, run⟩ := reachable
  induction run with
  | refl => exact ⟨_, _, .new inline⟩
  | tail _ next ih =>
    obtain ⟨L, D, watched⟩ := ih
    cases next with
    | step => exact ⟨_, _, watched.step⟩
    | ask idle lawful => exact ⟨_, _, watched.ask idle lawful⟩

theorem Watched.freshest (watched : Watched u x L D) : x.Freshest D.polls := by
  induction watched with
  | new inline =>
    intro b p k there
    have nothing : ((Executor.new inline).registry b).waiting = [] := by cases b <;> rfl
    rw [nothing] at there
    cases there
  | step watched ih =>
    exact ih.step watched.recorded.reachable.sound
      watched.recorded.reachable.arises.keepsTargets.faithful
  | @ask x L D s watched idle lawful ih =>
    let cleared : Executor := { x with log := [], answer := none }
    have sound : cleared.Sound u := watched.recorded.reachable.sound.cleared
    have before : cleared.Freshest D.polls := ih
    exact before.ask sound idle lawful

/-- The entries of the diary are those that the ledger has as popped. -/
theorem map_wakings (x y : Executor) (L : Ledger) (polls : List Poll)
    (errand : Option (Nat × Errand Waker)) :
    L.popped ++ (x.wakings y polls errand).map (·.1) = (L.enter x y errand).popped := by
  cases errand with
  | none => exact List.append_nil _
  | some visit =>
    rw [wakings, Ledger.enter, List.map_map]
    rfl

theorem Watched.popped (watched : Watched u x L D) : D.wakings.map (·.1) = L.popped := by
  induction watched with
  | new inline => rfl
  | @step x L D _ ih =>
    rw [diaryOfStep, List.map_append, ih]
    exact map_wakings x x.step L D.polls x.errand?
  | @ask x L D s _ _ _ ih =>
    rw [diaryOfAsk, List.map_append, ih]
    exact map_wakings x _ L D.polls s.errand?

/-- Whoever is popped is called through the waker of the latest poll. -/
theorem Freshest.wakings {polls : List Poll} (freshest : x.Freshest polls) (sound : x.Sound u)
    (errand : Option (Nat × Errand Waker)) (y : Executor) :
    ∀ waking ∈ x.wakings y polls errand, waking.2 = some waking.1.2.2 := by
  cases errand with
  | none => exact List.forall_mem_nil _
  | some visit =>
    obtain ⟨b, e⟩ := visit
    intro waking member
    obtain ⟨⟨p, k⟩, there, rfl⟩ := List.mem_map.1 member
    have stood := (List.mem_filter.1 (List.mem_filter.1 there).1).1
    obtain ⟨o, holds, last⟩ := freshest b p k stood
    show (x.owner? (b, p)).bind (latest polls) = some k
    rw [sound.owner?_eq holds, Option.bind_some, last]

theorem Watched.wakings (watched : Watched u x L D) :
    ∀ waking ∈ D.wakings, waking.2 = some waking.1.2.2 := by
  induction watched with
  | new inline => exact List.forall_mem_nil _
  | @step x L D watched ih =>
    refine fun waking member => (List.mem_append.1 member).elim (ih waking) ?_
    exact watched.freshest.wakings watched.recorded.reachable.sound x.errand? x.step waking
  | @ask x L D s watched _ _ ih =>
    refine fun waking member => (List.mem_append.1 member).elim (ih waking) ?_
    exact watched.freshest.wakings watched.recorded.reachable.sound s.errand? _ waking

/-- Polls that come too early change nothing but the waker at a place, and it is the waker of the
latest poll that is called. -/
structure KeepsPlaces (x : Executor) (L : Ledger) (D : Diary) : Prop where
  /-- A poll of a call or a stream that is still queued leaves it pending. Every bus is as before,
  but for the waker at this place, and nobody is called. -/
  spurious : ∀ w rest task b p q next, x.stack = .proceed w :: rest →
    x.tasks[w.task]? = some task → task.WaitsAt w b p q next →
    (x.registry b).isQueued p = true → x.step =
      { x with
        buses := x.buses.set b ⟨(x.registry b).renew p w, true⟩
        stack := .release b :: .wake [] :: .tell [] :: next :: rest }
  /-- A task that is suspended there, and is made to go on with any waker, is suspended again, and
  all that is left of its turn is the new waker. -/
  turn : ∀ w rest task b p q, x.stack = .poll w :: rest → x.tasks[w.task]? = some task →
    task.life = .idle → task.WaitsAt w b p q (.suspend w.task) →
    (x.registry b).isQueued p = true → settle 7 x =
      { x with
        buses := x.buses.set b ⟨(x.registry b).renew p w, false⟩
        log := .pending w.task :: .polled w.task :: x.log
        stack := rest }
  /-- Whoever stands in a line has there the waker of the latest poll of the owner of the place. -/
  freshest : x.Freshest D.polls
  /-- So had whoever was popped, at that time. -/
  popped : D.wakings.map (·.1) = L.popped ∧
    ∀ waking ∈ D.wakings, waking.2 = some waking.1.2.2
  /-- The wakers that were called or are due are those of the entries that were popped, beside those
  of tasks that let the others go first. -/
  calls : (L.called ++ (wokenIn x.log ++ x.due)).Perm (L.popped.map (·.2.2) ++ L.yielded)
  /-- A poll makes a call or a stream go on from its place exactly if the entry was popped or the
  channel is gone. -/
  goesOn : ∀ w rest task b p q next, x.stack = .proceed w :: rest →
    x.tasks[w.task]? = some task → task.WaitsAt w b p q next →
    ((b, p) ∉ x.step.placesOf w.task ↔
      p ∈ (onBus b L.popped).map (·.1) ∨ (x.registry b).find? p.address = none)

/-- In every run, polls that come too early keep the place in line, and whenever somebody is called
it is through the waker with which he was polled last. -/
theorem spurious_polls_keep_places (watched : Watched u x L D) : KeepsPlaces x L D where
  spurious _ _ _ _ _ _ _ := watched.recorded.reachable.sound.step_of_queued
  turn _ _ _ _ _ _ := watched.recorded.reachable.sound.turn_of_queued
  freshest := watched.freshest
  popped := ⟨watched.popped, watched.wakings⟩
  calls := watched.recorded.calls
  goesOn w rest task b p q next stack found waits := by
    have holds : p ∈ x.held b := mem_held_iff.2
      ⟨w.task, placesOf_of_found found ▸ waits.mem_places⟩
    have queued := watched.recorded.isQueued_iff holds
    rw [watched.recorded.reachable.sound.holds_iff_queued stack found waits, queued, not_not]
    refine ⟨.inl, fun goes => goes.elim id fun gone => ?_⟩
    by_contra stays
    rw [Registry.isQueued_eq_false_of_gone gone] at queued
    cases queued.2 stays

/-- The diary after so many small steps. -/
def diaryWhile : Nat → Executor → Diary → Diary
  | 0, _, D => D
  | fuel + 1, x, D => if x.stack.isEmpty then D else diaryWhile fuel x.step (x.diaryOfStep D)

/-- The diary after a script. -/
def diaryOfScript (x : Executor) (D : Diary) : List Step → Diary
  | [] => D
  | s :: rest =>
    let asked := { x with log := [], answer := none }.ask s
    (x.carryOut s).diaryOfScript (diaryWhile asked.enough asked (x.diaryOfAsk s D)) rest

theorem Watched.settle (watched : Watched u x L D) (fuel : Nat) :
    Watched u (settle fuel x) (ledgerWhile fuel x L) (diaryWhile fuel x D) := by
  induction fuel generalizing x L D with
  | zero => exact watched
  | succ fuel ih =>
    rw [settle_succ, ledgerWhile, diaryWhile]
    split
    · exact watched
    · exact ih watched.step

theorem Watched.runScript (watched : Watched u x L D) {script : List Step}
    (obeys : x.Obeys u script) :
    Watched u (x.runScript script).1 (x.ledgerOfScript L script) (x.diaryOfScript D script) := by
  induction script generalizing x L D with
  | nil => exact watched
  | cons s rest ih =>
    obtain ⟨idle, lawful, later⟩ := obeys
    exact ih ((watched.ask (List.isEmpty_iff.1 idle) lawful).settle _) later

/-- A receive and a stream wait in one line, and each is polled again with other wakers before two
messages come. -/
def polledInVain : List Step :=
  [.act 0 (.operate (.openChannel 2)), .spawn [⟨0, .call (.recv 0)⟩] false,
    .spawn [⟨0, .stream 0⟩, ⟨0, .next⟩] false, .run none, .poll ⟨0, 3⟩, .poll ⟨1, 4⟩, .poll ⟨0, 5⟩,
    .act 0 (.operate (.trySendMany 0 [7, 8]))]

theorem places_kept_by_receivers : ∃ L D, Watched .full ((new false).runScript polledInVain).1 L D ∧
    KeepsPlaces ((new false).runScript polledInVain).1 L D ∧
      D.wakings =
        [((0, ⟨⟨0, ⟨0⟩⟩, .receivers, ⟨0⟩⟩, ⟨0, 5⟩), some ⟨0, 5⟩),
          ((0, ⟨⟨0, ⟨0⟩⟩, .receivers, ⟨1⟩⟩, ⟨1, 4⟩), some ⟨1, 4⟩)] := by
  have obeys : (new false).Obeys .full polledInVain := by decide +kernel
  have watched := (Watched.new (u := .full) false).runScript obeys
  exact ⟨_, _, watched, spurious_polls_keep_places watched, by decide +kernel⟩

end Executor

end MessageBus

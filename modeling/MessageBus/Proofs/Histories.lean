import MessageBus.Proofs.Answers

/-!
# Delivery in order, once

The history of a bus is the list of what was moved there, one atomic operation after the other, as
their answers have it. Whatever happens on the way, each channel that is open has delivered its
messages in order and once: everything that was ever put into it is what was taken out of it and
then what it still holds.

What an answer says is what is told: to the instruction that the task is at, or to whoever asked
from outside (`Executor.TellsMoves`). So the history can be read off the replies.

A channel is meant here by its identity. A later channel under the same handle has a history of its
own, and when a channel is opened, nothing has been moved under its identity.
-/

namespace MessageBus

namespace Registry

variable {ω : Type} {r r' : Registry ω} {ts ts' : List Transfer}

/-- A history tells what the open channels of a registry hold. -/
structure Accounts (r : Registry ω) (ts : List Transfer) : Prop where
  identified : r.Identified
  items : ∀ a c, r.find? a = some c → sentTo a.id ts = receivedFrom a.id ts ++ c.queue.items
  /-- Nothing was moved under an identity that was not given out. -/
  issued : ∀ t ∈ ts, t.id.number < r.nextId

theorem accounts_empty : (empty : Registry ω).Accounts [] :=
  ⟨identified_empty, fun a c found => by simp [find?] at found, List.forall_mem_nil _⟩

/-- An atomic operation that passes its messages goes on with the history. -/
theorem Accounts.append (accounts : r.Accounts ts) (flows : r.Flows ts' r') :
    r'.Accounts (ts ++ ts') where
  identified := flows.identified accounts.identified
  items a c' found := by
    cases flows with
    | kept _ each _ =>
      obtain ⟨c, before, passes⟩ := each a c' found
      rw [sentTo_append, receivedFrom_append, accounts.items a c before, List.append_assoc,
        passes.items, List.append_assoc]
    | opened _ _ _ each =>
      rw [List.append_nil]
      rcases each a c' found with before | ⟨rfl, rfl⟩
      · exact accounts.items a c' before
      · -- Its identity is new, so nothing was moved under it.
        have others (t : Transfer) (member : t ∈ ts) : t.id ≠ ⟨r.nextId⟩ := by
          intro same
          have issued := accounts.issued t member
          rw [same] at issued
          exact Nat.lt_irrefl _ issued
        rw [sentTo_eq_nil others, receivedFrom_eq_nil others]
        rfl
  issued t member := by
    rcases List.mem_append.1 member with old | new
    · exact Nat.lt_of_lt_of_le (accounts.issued t old) flows.nextId_le
    · cases flows with
      | kept next _ about =>
        obtain ⟨a, c, found, same⟩ := about t new
        rw [next, ← same]
        exact accounts.identified.issued a c found
      | opened _ _ _ _ => cases new

end Registry

namespace Executor

variable {u : Usage} {x : Executor} {b : Nat} {w : Waker} {task : Task} {rest : List Frame}
  {op : Operation} {errand : Option (Nat × Errand Waker)} {ts : List Transfer}

/-- The runs of any kind, with what was moved on one bus. -/
inductive History (b : Nat) : Executor → List Transfer → Prop where
  | new (inline : Bool) : History b (new inline) []
  | step {x : Executor} {ts : List Transfer} (history : History b x ts) :
    History b x.step (ts ++ x.moved x.errand? b)
  | ask {x : Executor} {ts : List Transfer} (history : History b x ts) (s : Step) :
    History b ({ x with log := [], answer := none }.ask s) (ts ++ x.moved s.errand? b)

/-! ### What is moved is told -/

/-- What a step moves on a bus, and that its task is told so. A call that fails, waits or is given
up moves nothing. -/
inductive MovedFor (x : Executor) (b : Nat) : List Transfer → Prop where
  /-- An operation moves what its reply says. -/
  | operation {w rest task op o} (stack : x.stack = .proceed w :: rest)
      (found : x.tasks[w.task]? = some task) (progress : task.progress = .fresh)
      (current : task.current? = some ⟨b, .act (.operate op)⟩)
      (ran : op.apply (x.registry b) = .ok o) (told : x.IsTold w.task task.position o.answer) :
    MovedFor x b (op.transfers (x.registry b) o.answer)
  /-- A request that is granted moves what the value says. -/
  | request {w rest task q prior recorded o v} (stack : x.stack = .proceed w :: rest)
      (found : x.tasks[w.task]? = some task) (pursues : x.Pursues task b q prior recorded)
      (ran : q.look (x.registry b) prior w = .ok o) (granted : o.answer = .finished (.ok v))
      (told : x.IsTold w.task task.position (.granted v)) :
    MovedFor x b (q.transfers (x.registry b) v)
  /-- A stream takes out the item that it gives. -/
  | item {w rest task s id o m} (stack : x.stack = .proceed w :: rest)
      (found : x.tasks[w.task]? = some task) (atStream : task.IsAtStream)
      (stream : task.stream = some s) (here : s.bus = b) (known : s.id = some id)
      (ran : (Request.recv ⟨s.handle, id⟩).look (x.registry b) s.place w = .ok o)
      (granted : o.answer = .finished (.ok (.message m))) (heard : x.Hears w task (.item m)) :
    MovedFor x b [.received id [m]]

/-- Whatever is moved on a bus is told to whoever moved it. -/
structure TellsMoves (u : Usage) (x : Executor) (b : Nat) : Prop where
  /-- A step that moves anything tells its task what it moved. -/
  told : x.moved x.errand? b = [] ∨ x.MovedFor b (x.moved x.errand? b)
  /-- What a task is told that it moved was moved in that step, and nothing else was. -/
  holds : ∀ ts, x.MovedFor b ts → x.moved x.errand? b = ts
  /-- An operation that is asked for from outside moves what is answered. -/
  operates : ∀ op : Operation, x.stack = [] → b < x.buses.length → ∃ reply,
    (x.carryOut (.act b (.operate op))).answer = some reply ∧
      x.moved (Step.act b (.operate op)).errand? b = op.transfers (x.registry b) reply
  /-- Nothing is moved on a bus by asking for anything else. -/
  asks : ∀ s : Step, (∀ op, s ≠ .act b (.operate op)) → x.moved s.errand? b = []

/-- An errand that is carried out moves what it comes to. -/
theorem moved_of_errand {errand : Option (Nat × Errand Waker)} {e : Errand Waker}
    {o : Outcome (Registry Waker) Waker Upshot} (entry : errand = some (b, e))
    (carried : x.carried b e ≠ none) (ran : e.effect (x.registry b) = .ok o) :
    x.moved errand b = o.answer.transfers := by
  obtain ⟨o', carried⟩ := Option.ne_none_iff_exists'.1 carried
  cases ran.symm.trans (effect_of_carried carried)
  rw [moved, outcomeOn, entry, Option.bind_some, if_pos rfl, carried]
  rfl

theorem moved_of_outcome (none : x.outcomeOn errand b = none) : x.moved errand b = [] := by
  rw [moved, none]
  rfl

theorem errand?_of_operation (stack : x.stack = .proceed w :: rest)
    (found : x.tasks[w.task]? = some task) (progress : task.progress = .fresh)
    (current : task.current? = some ⟨b, .act (.operate op)⟩) :
    x.errand? = some (b, .operate op) := by
  rw [errand?, stack]
  simp only [found, Option.bind_some, taskErrand?, progress, current, startErrand?]

/-- A task that carries out an operation is told what came of it. -/
theorem Reachable.isTold_of_operation {o : Outcome (Registry Waker) Waker Reply}
    (reachable : x.Reachable u) (stack : x.stack = .proceed w :: rest)
    (found : x.tasks[w.task]? = some task) (progress : task.progress = .fresh)
    (current : task.current? = some ⟨b, .act (.operate op)⟩)
    (ran : op.apply (x.registry b) = .ok o) : x.IsTold w.task task.position o.answer := by
  obtain ⟨_, _, _, _, -, sequel, leads⟩ :=
    reachable.sound.enters stack (errand?_of_operation stack found progress current)
  cases sequel with
  | operates found' _ current' ran' =>
    cases found.symm.trans found'
    cases ran.symm.trans ran'
    have stack' : x.step.stack = [_, _, _] ++ .complete (.task w) o.answer :: rest := leads.stack
    have after : x.step.tasks[w.task]? = some task := by
      rw [leads.tasks, List.modify_id]
      exact found
    exact ((reachable.next .step).isTold stack' after
      (Task.callPlace_of_fresh progress)).of_step stack

/-- A task that is done with its request is told how it ended. -/
theorem Reachable.isTold_of_look {q : Request} {prior : Option Place} {recorded : Bool}
    {o : Outcome (Registry Waker) Waker Turn} {v : Value} (reachable : x.Reachable u)
    (stack : x.stack = .proceed w :: rest) (found : x.tasks[w.task]? = some task)
    (pursues : x.Pursues task b q prior recorded) (ran : q.look (x.registry b) prior w = .ok o)
    (granted : o.answer = .finished (.ok v)) : x.IsTold w.task task.position (.granted v) := by
  obtain ⟨o', recorded', ran', -, -, leads⟩ := reachable.sound.leads_of_look stack found pursues
  cases ran.symm.trans ran'
  rw [granted] at leads
  have stack' : x.step.stack = [_, _, _] ++ .complete (.task w) (.granted v) :: rest := leads.stack
  have after : x.step.tasks[w.task]? = some { task with progress := .fresh } := by
    rw [leads.tasks, List.getElem?_modify_eq, found]
    rfl
  exact ((reachable.next .step).isTold stack' after rfl).of_step stack

theorem Reachable.moved_step (reachable : x.Reachable u) (b : Nat) :
    x.moved x.errand? b = [] ∨ x.MovedFor b (x.moved x.errand? b) := by
  have idle (none : x.outcomeOn x.errand? b = none) : x.moved x.errand? b = [] :=
    moved_of_outcome none
  cases stack : x.stack with
  | nil => exact .inl (idle (by rw [outcomeOn, errand?, stack]; rfl))
  | cons f rest =>
    cases x.step_unfolds stack with
    | @enters _ b' e o _ _ _ errand carried sequel leads =>
      by_cases here : b' = b
      · subst here
        rw [moved_of_errand errand (carried ▸ Option.some_ne_none o) (effect_of_carried carried)]
        cases sequel with
        | operates found progress current ran =>
          have told := reachable.isTold_of_operation stack found progress current ran
          exact .inr (.operation stack found progress current ran told)
        | @looks w task _ q prior recorded p found pursues ran =>
          rcases answer : p.answer with ⟨_ | v⟩ | _ | _ | _
          case finished.ok =>
            have told := reachable.isTold_of_look stack found pursues ran answer
            have moved := MovedFor.request stack found pursues ran answer told
            rw [Outcome.answer_map, answer]
            exact .inr moved
          all_goals
            rw [Outcome.answer_map, answer]
            exact .inl rfl
        | @looksAtStream w task s id p found atStream stream known ran =>
          rcases answer : p.answer with ⟨_ | (_ | _ | _ | m | _)⟩ | _ | _ | _
          case finished.ok.message =>
            have stack' := leads.stack
            rw [answer] at stack'
            have heard := reachable.hears stack found atStream stream
              (yield?_of_access stack' (f := .receive w (some m)) rfl)
            have moved := MovedFor.item stack found atStream stream rfl known ran answer heard
            rw [Outcome.answer_map, answer]
            exact .inr moved
          all_goals
            rw [Outcome.answer_map, answer]
            exact .inl rfl
        | fails | resolvesStream | resolves =>
          cases effect_of_carried carried
          exact .inl rfl
        | _ => exact .inl rfl
      · refine .inl (idle ?_)
        rw [outcomeOn, errand, Option.bind_some, if_neg here]
    | fails errand failed _ _ _ _ => exact absurd failed (reachable.sound.carried errand)
    | _ none => exact .inl (idle (by rw [outcomeOn, none]; rfl))

theorem Sound.moved_eq (sound : x.Sound u) (moved : x.MovedFor b ts) :
    x.moved x.errand? b = ts := by
  have moves {e : Errand Waker} {o : Outcome (Registry Waker) Waker Upshot}
      (errand : x.errand? = some (b, e)) (ran : e.effect (x.registry b) = .ok o) :
      x.moved x.errand? b = o.answer.transfers :=
    moved_of_errand errand (sound.carried errand) ran
  cases moved with
  | @operation w _ _ op o stack found progress current ran _ =>
    rw [moves (errand?_of_operation stack found progress current) (o := o.map
      ({ transfers := op.transfers (x.registry b) · })) (by rw [Errand.effect, ran]; rfl)]
    rfl
  | @request w _ _ q prior _ o v stack found pursues ran granted _ =>
    have looked : (Errand.look q prior w).effect (x.registry b) =
        .ok (o.map (·.upshot (x.registry b) q prior)) := by
      rw [Errand.effect, ran]
      rfl
    rw [moves (pursues.errand? stack found) looked, Outcome.answer_map, granted]
    rfl
  | @item w _ _ s id o m stack found atStream stream here known ran granted _ =>
    subst here
    have looked : (Errand.look (.recv ⟨s.handle, id⟩) s.place w).effect (x.registry s.bus) =
        .ok (o.map (·.upshot (x.registry s.bus) (.recv ⟨s.handle, id⟩) s.place)) := by
      rw [Errand.effect, ran]
      rfl
    rw [moves (errand?_of_atStream stack found atStream stream known) looked, Outcome.answer_map,
      granted]
    rfl

/-- In every run that keeps to the rules, whatever is moved is told. -/
theorem Reachable.tellsMoves (reachable : x.Reachable u) (b : Nat) : x.TellsMoves u b where
  told := reachable.moved_step b
  holds _ := reachable.sound.moved_eq
  operates op idle inside := by
    obtain ⟨o, ran, -⟩ := op.apply_handles (x.registry b)
    refine ⟨o.answer, reachable.answer_carryOut idle inside ran, ?_⟩
    have free := reachable.sound.calm_of_idle idle b
    refine moved_of_errand rfl (reachable.sound.carried_of_free inside free _) ?_
      (o := o.map ({ transfers := op.transfers (x.registry b) · }))
    rw [Errand.effect, ran]
    rfl
  asks s other := by
    refine moved_of_outcome ?_
    rw [outcomeOn, Option.bind_eq_none_iff]
    intro entry errand
    cases s with
    | act b' action =>
      cases action with
      | operate op =>
        cases errand
        refine if_neg fun here => other op ?_
        obtain rfl : b' = b := here
        rfl
      | _ => cases errand
    | _ => cases errand

/-! ### What was delivered -/

theorem History.accounts (history : x.History b ts) : (x.registry b).Accounts ts := by
  induction history with
  | new inline =>
    rcases b with _ | b
    · exact Registry.accounts_empty
    · exact Registry.accounts_empty
  | step _ ih => exact ih.append (flows_step ih.identified)
  | ask _ s ih => exact ih.append (flows_ask ih.identified s)

/-- Every run has its history. -/
theorem Arises.exists_history (arises : x.Arises) (b : Nat) : ∃ ts, History b x ts := by
  obtain ⟨inline, run⟩ := arises
  induction run with
  | refl => exact ⟨[], .new inline⟩
  | tail _ follows ih =>
    obtain ⟨ts, history⟩ := ih
    cases follows with
    | step => exact ⟨_, history.step⟩
    | ask s => exact ⟨_, history.ask s⟩

/-! ### The history of a script -/

/-- What is moved on a bus until nothing is left to do, within so many small steps. -/
def movedWhile (b : Nat) : Nat → Executor → List Transfer
  | 0, _ => []
  | fuel + 1, x =>
    if x.stack.isEmpty then [] else x.moved x.errand? b ++ movedWhile b fuel x.step

/-- What a script moves on a bus. -/
def movedByScript (b : Nat) (x : Executor) : List Step → List Transfer
  | [] => []
  | s :: rest =>
    let asked := { x with log := [], answer := none }.ask s
    x.moved s.errand? b ++ movedWhile b asked.enough asked ++ movedByScript b (x.carryOut s) rest

theorem History.settle (history : History b x ts) (fuel : Nat) :
    History b (settle fuel x) (ts ++ movedWhile b fuel x) := by
  induction fuel generalizing x ts with
  | zero =>
    rw [movedWhile, List.append_nil]
    exact history
  | succ fuel ih =>
    rw [settle_succ, movedWhile]
    split
    · rw [List.append_nil]
      exact history
    · rw [← List.append_assoc]
      exact ih history.step

theorem History.runScript (history : History b x ts) (script : List Step) :
    History b (x.runScript script).1 (ts ++ movedByScript b x script) := by
  induction script generalizing x ts with
  | nil =>
    rw [movedByScript, List.append_nil]
    exact history
  | cons s rest ih =>
    rw [movedByScript, ← List.append_assoc, ← List.append_assoc]
    exact ih ((history.ask s).settle _)

/-- A channel has delivered its messages in order and once: what was put into it since it was opened
is what was taken out of it, followed by what it holds. What was put in and taken out is what was
told. -/
theorem delivers_in_order_once (history : History b x ts) :
    (∀ c ∈ (x.registry b).channels,
      sentTo c.id ts = receivedFrom c.id ts ++ c.queue.items) ∧
    ∀ u : Usage, x.Reachable u → x.TellsMoves u b := by
  refine ⟨fun c isOpen => ?_, fun u reachable => reachable.tellsMoves b⟩
  obtain ⟨h, there⟩ := Registry.mem_channels_iff.1 isOpen
  exact history.accounts.items ⟨h, c.id⟩ c (Registry.find?_of_channel? there)

/-- A batch is sent in two parts to a channel of two slots, while a stream takes one item and is
dropped, and a broadcast finds a free slot. The channel under the handle was another one before. -/
def batchAndStream : List Step :=
  [.act 0 (.operate (.openChannel 1)), .act 0 (.operate (.trySend 0 4)),
    .act 0 (.operate (.close 0)), .act 0 (.operate (.openChannel 2)),
    .spawn [⟨0, .call (.sendMany 0 [5, 6, 7])⟩, ⟨0, .call (.send 0 7)⟩] false,
    .spawn [⟨0, .stream 0⟩, ⟨0, .next⟩, ⟨0, .dropStream⟩] false, .run none,
    .act 0 (.operate (.tryRecv 0)), .act 0 (.operate (.tryBroadcast 8))]

/-- The batch is about to be sent, as far as there is space. -/
def batchGoesOn : Executor :=
  settle 2 ({ ((new false).runScript (batchAndStream.take 6)).1 with
    log := [], answer := none }.ask (.run none))

theorem batch_and_stream_delivered : (∃ ts c,
    History 0 ((new false).runScript batchAndStream).1 ts ∧
      c ∈ (((new false).runScript batchAndStream).1.registry 0).channels ∧ c.id = ⟨1⟩ ∧
      sentTo ⟨1⟩ ts = [5, 6, 7, 8] ∧ receivedFrom ⟨1⟩ ts = [5, 6] ∧ c.queue.items = [7, 8] ∧
      sentTo ⟨1⟩ ts = receivedFrom ⟨1⟩ ts ++ c.queue.items) ∧
    batchGoesOn.TellsMoves .full 0 ∧ batchGoesOn.MovedFor 0 [.sent ⟨1⟩ [5, 6]] := by
  constructor
  · have history := (History.new (b := 0) false).runScript batchAndStream
    have stands : ((((new false).runScript batchAndStream).1.registry 0).find? ⟨0, ⟨1⟩⟩).map
        (·.queue.items) = some [7, 8] := by decide +kernel
    obtain ⟨c, found, items⟩ := Option.map_eq_some_iff.1 stands
    have isOpen := Registry.mem_channels_of_find? found
    have id : c.id = ⟨1⟩ := (Registry.find?_eq_some_iff.1 found).2
    refine ⟨_, c, history, isOpen, id, by decide +kernel, by decide +kernel, items, ?_⟩
    rw [← id]
    exact (delivers_in_order_once history).1 c isOpen
  · have obeys : (new false).Obeys .full (batchAndStream.take 6) := by decide +kernel
    have idle : ((new false).runScript (batchAndStream.take 6)).1.stack.isEmpty = true := by
      decide +kernel
    have reachable : batchGoesOn.Reachable .full :=
      (((reachable_new .full false).runScript obeys).next
        (.ask (s := .run none) (List.isEmpty_iff.1 idle) trivial)).settle 2
    obtain ⟨ts, history⟩ := reachable.arises.exists_history 0
    have tells := (delivers_in_order_once history).2 .full reachable
    have moved : batchGoesOn.moved batchGoesOn.errand? 0 = [.sent ⟨1⟩ [5, 6]] := by decide +kernel
    refine ⟨tells, moved ▸ tells.told.resolve_left fun nothing => ?_⟩
    cases moved.symm.trans nothing

end Executor

end MessageBus

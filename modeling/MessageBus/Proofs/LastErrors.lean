import MessageBus.Proofs.LastErrors.Turns

/-!
# What the last error tells

The slot of the last error holds the code of the last mark of a run. A failure that is decided on a
bus wakes nobody, so it is told before anything else can be noticed, and whoever is told of it finds
it in the slot (`Executor.IsTruthful`). Whoever asks for the last error is answered what the slot
holds (`Executor.TellsLastError`).
-/

namespace MessageBus

namespace Executor

variable {x y : Executor} {t : Nat} {w : Waker} {task : Task} {i : Instruction}

/-- Whoever is told of this failure finds it in the slot, if it counts there. A task is told only of
what may come of its instruction. -/
def Finds (x : Executor) : Caller → BusError → Prop
  | .outside, e => x.lastError = e.code
  | .task w, e => ∃ i, (x.tasks[w.task]?).bind (·.current?) = some i ∧ i.deed.MayBeRefused e ∧
      (i.deed.isRecorded = true → x.lastError = e.code)

/-- Nobody is to be told of a failure, or somebody is to be told of one before anything else can be
noticed, and finds it in the slot. -/
inductive IsTruthful (x : Executor) : Prop where
  | silent (none : ∀ f ∈ x.stack, f.isRefusal = false)
  | tells {before caller e rest} (stack : x.stack = before ++ .complete caller (.refused e) :: rest)
      (mute : ∀ f ∈ before, f.isMute = true) (none : ∀ f ∈ rest, f.isRefusal = false)
      (finds : x.Finds caller e)

variable {f : Frame} {rest : List Frame} {marks : List Mark} {s : Step}

theorem isTruthful_of_tellsNoMore (none : ∀ f ∈ x.stack, f.isRefusal = false)
    (tells : x.TellsNoMore y) : y.IsTruthful := by
  refine .silent fun f member => ?_
  cases refusal : f.isRefusal with
  | false => rfl
  | true => exact refusal.symm.trans (none f (tells f member refusal))

/-- Below a frame of which something comes nobody is told of a failure. -/
theorem IsTruthful.below (truthful : x.IsTruthful) (stack : x.stack = f :: rest)
    (loud : f.isMute = false) : ∀ g ∈ rest, g.isRefusal = false := by
  cases truthful with
  | silent none => exact fun g member => none g (stack ▸ List.mem_cons_of_mem _ member)
  | @tells before _ _ _ stack' mute none _ =>
    rw [stack] at stack'
    cases before with
    | nil =>
      cases stack'
      exact none
    | cons g before =>
      obtain ⟨rfl, -⟩ := List.cons.inj stack'
      cases loud.symm.trans (mute f List.mem_cons_self)

theorem refusal?_of_none (none : ∀ f ∈ x.stack, f.isRefusal = false) : x.refusal? = .none := by
  rw [refusal?]
  split
  · rename_i b notes caller e rest stack
    have member : .complete caller (.refused e) ∈ x.stack := by
      rw [stack]
      simp
    cases none _ member
  · rfl

/-- Of a mute frame nothing comes. -/
theorem perform_of_isMute (mute : f.isMute = true) : (x.perform f).stack = x.stack ∧
    (x.perform f).tasks = x.tasks ∧ (x.perform f).lastError = x.lastError := by
  cases f with
  | release _ => exact ⟨rfl, rfl, rfl⟩
  | wake wakers =>
    cases wakers with
    | nil => exact ⟨rfl, rfl, rfl⟩
    | cons _ _ => cases mute
  | tell notes => exact ⟨(x.tell_same notes).2.2, (x.tell_same notes).2.1, lastError_tell x notes⟩
  | _ => cases mute

theorem IsTruthful.step (truthful : x.IsTruthful) (fit : x.AllFit) : x.step.IsTruthful := by
  cases stack : x.stack with
  | nil =>
    rw [step_of_stack_nil stack]
    exact truthful
  | cons f rest =>
    rw [step_of_stack_cons stack]
    cases mute : f.isMute with
    | true =>
      obtain ⟨stack', tasks, slot⟩ := perform_of_isMute (x := { x with stack := rest }) mute
      cases truthful with
      | silent none =>
        refine .silent fun g member => none g ?_
        rw [stack'] at member
        exact stack ▸ List.mem_cons_of_mem _ member
      | @tells before caller e below split mute' none finds =>
        cases before with
        | nil =>
          cases stack.symm.trans split
          cases mute
        | cons g before =>
          cases stack.symm.trans split
          refine .tells stack' (fun f member => mute' f (List.mem_cons_of_mem _ member)) none ?_
          cases caller with
          | outside => exact slot.trans finds
          | task w =>
            rw [Finds, tasks, slot]
            exact finds
    | false =>
      have none : ∀ g ∈ ({ x with stack := rest } : Executor).stack, g.isRefusal = false :=
        truthful.below stack mute
      by_cases proceeds : ∃ w, f = .proceed w
      · obtain ⟨w, rfl⟩ := proceeds
        rw [perform]
        cases found : x.tasks[w.task]? with
        | none =>
          rw [withTask_of_none (x := { x with stack := rest }) found]
          exact .silent none
        | some task =>
          rw [withTask_of_found (x := { x with stack := rest }) found]
          cases turned_proceed (x := { x with stack := rest }) found (fit _ _ found) with
          | silent silent _ _ => exact isTruthful_of_tellsNoMore none silent.tells
          | sets _ _ tells | ended _ _ _ _ tells => exact isTruthful_of_tellsNoMore none tells
          | @refused i e _ _ _ mayBe slot stack' same =>
            refine .tells (show _ = [_, _, _] ++ _ :: _ from stack') (by simp [Frame.isMute]) none
              ⟨i, same, mayBe, fun recorded => ?_⟩
            rw [slot, if_pos recorded]
      · exact isTruthful_of_tellsNoMore none
          (silent_perform _ fun w same => proceeds ⟨w, same⟩).tells

/-- Whoever is silent leaves no mark. -/
theorem marksOf_eq_nil {deed : Deed} (quiet : x.step.refusal? = none)
    (other : ∀ code, deed ≠ .act (.setLastError code))
    (streams : deed = .next ∨ deed = .tryNext ∨ deed = .collect →
      x.step.isStreaming t = x.isStreaming t) : x.marksOf t deed = [] := by
  have still (looks : deed = .next ∨ deed = .tryNext ∨ deed = .collect) :
      (x.isStreaming t && !x.step.isStreaming t) = false := by
    rw [streams looks]
    cases x.isStreaming t <;> rfl
  cases deed with
  | act action =>
    cases action with
    | operate op => simp only [marksOf, quiet, Option.toList_none, List.map_nil]
    | setLastError code => exact absurd rfl (other code)
    | _ => rfl
  | call c => simp only [marksOf, quiet, Option.toList_none, List.map_nil]
  | next => simp [marksOf, still (.inl rfl)]
  | tryNext => simp [marksOf, still (.inr (.inl rfl))]
  | collect => simp [marksOf, still (.inr (.inr rfl))]
  | _ => rfl

theorem marks_of_proceed (stack : x.stack = .proceed w :: rest)
    (found : x.tasks[w.task]? = some task) :
    x.marks = ((task.current?).map fun i => x.marksOf w.task i.deed).getD [] := by
  rw [marks, stack]
  simp only [found, Option.bind_some]
  cases task.current? <;> rfl

theorem looksAtStream_of_deed (current : task.current? = some i)
    (looks : i.deed = .next ∨ i.deed = .tryNext ∨ i.deed = .collect) :
    task.looksAtStream = true := by
  obtain ⟨b, deed⟩ := i
  rw [Task.looksAtStream, current]
  rcases looks with rfl | rfl | rfl <;> rfl

/-- What a step does to the slot is what its marks say, and they are possible. -/
def Leaves (x : Executor) (marks : List Mark) (y : Executor) : Prop :=
  y.lastError = x.lastError.marked marks ∧ ∀ m ∈ marks, m.IsPossible

theorem leaves_nothing (none : marks = []) (slot : y.lastError = x.lastError) :
    x.Leaves marks y := by
  rw [none]
  exact ⟨slot, List.forall_mem_nil _⟩

theorem leaves_one {m : Mark} (one : marks = [m]) (slot : y.lastError = m.code)
    (possible : m.IsPossible) : x.Leaves marks y := by
  rw [one]
  exact ⟨slot, List.forall_mem_singleton.2 possible⟩

/-- A task that goes on leaves the mark that it is said to leave. -/
theorem Turned.leaves (turned : ({ x with stack := rest } : Executor).Turned w task x.step)
    (stack : x.stack = .proceed w :: rest) (found : x.tasks[w.task]? = some task)
    (none : ∀ g ∈ rest, g.isRefusal = false) : x.Leaves x.marks x.step := by
  have marks := marks_of_proceed stack found
  cases turned with
  | silent silent other streams =>
    refine leaves_nothing ?_ silent.slot
    rw [marks]
    cases current : task.current? with
    | none => rfl
    | some i =>
      refine marksOf_eq_nil (refusal?_of_none fun g member => ?_) (other i current) fun looks =>
        streams (looksAtStream_of_deed current looks)
      cases refusal : g.isRefusal with
      | false => rfl
      | true => exact refusal.symm.trans (none g (silent.tells g member refusal))
  | @sets _ code current slot _ =>
    refine leaves_one (m := .set code) ?_ slot trivial
    rw [marks, current]
    rfl
  | @refused i e _ _ current mayBe slot stack' _ =>
    have refusal : x.step.refusal? = some e := by rw [refusal?, stack']
    obtain ⟨b, deed⟩ := i
    rw [current, Option.map_some, Option.getD_some] at marks
    cases deed with
    | act action =>
      cases action with
      | operate op =>
        refine leaves_one (m := .refused op e) ?_ slot mayBe
        simp only [marks, marksOf, refusal, Option.toList_some, List.map_cons, List.map_nil]
      | _ => exact mayBe.elim
    | call c =>
      refine leaves_one (m := .failed c e) ?_ slot mayBe
      simp only [marks, marksOf, refusal, Option.toList_some, List.map_cons, List.map_nil]
    | resolve h | recvFrom h => exact leaves_nothing marks slot
    | _ => exact mayBe.elim
  | ended looks was past slot _ =>
    have was : x.isStreaming w.task = true := was
    refine leaves_one (m := .ended w.task) ?_ slot trivial
    rw [marks]
    rw [Task.looksAtStream] at looks
    split at looks
    case h_4 => cases looks
    all_goals
      rename_i current
      rw [current, Option.map_some, Option.getD_some]
      simp [marksOf, was, past]

/-- The next step leaves in the slot what its mark says. -/
theorem IsTruthful.leaves_step (truthful : x.IsTruthful) (fit : x.AllFit) :
    x.Leaves x.marks x.step := by
  cases stack : x.stack with
  | nil => exact leaves_nothing (by rw [marks, stack]) (by rw [step_of_stack_nil stack])
  | cons f rest =>
    have step := step_of_stack_cons stack
    by_cases proceeds : ∃ w, f = .proceed w
    · obtain ⟨w, rfl⟩ := proceeds
      rw [perform] at step
      cases found : x.tasks[w.task]? with
      | none =>
        rw [withTask_of_none (x := { x with stack := rest }) found] at step
        exact leaves_nothing (by simp [marks, stack, found]) (by rw [step])
      | some task =>
        rw [withTask_of_found (x := { x with stack := rest }) found] at step
        have turned := turned_proceed (x := { x with stack := rest }) found (fit _ _ found)
        rw [← step] at turned
        exact turned.leaves stack found (truthful.below stack rfl)
    · have other (w : Waker) (same : f = .proceed w) : False := proceeds ⟨w, same⟩
      refine leaves_nothing ?_ (step ▸ (silent_perform _ other).slot)
      rw [marks, stack]
      split
      · rename_i same
        cases same
        exact (other _ rfl).elim
      · rfl

/-! ### What is asked for -/

theorem isTruthful_of_idle (idle : x.stack = []) : x.IsTruthful :=
  .silent (by rw [idle]; exact List.forall_mem_nil _)

/-- An operation that is asked for leaves in the slot what its mark says, and an answer that refuses
it is true. -/
theorem asks_operate (idle : x.stack = []) (b : Nat) (op : Operation) :
    (x.ask (.act b (.operate op))).IsTruthful ∧
      x.Leaves (x.marksOfAsk (.act b (.operate op))) (x.ask (.act b (.operate op))) := by
  have none : ∀ f ∈ x.stack, f.isRefusal = false := by
    rw [idle]
    exact List.forall_mem_nil _
  -- Where nothing is refused afterwards, there is no mark.
  have silently {y : Executor} (silent : x.Silent y) : y.IsTruthful ∧
      x.Leaves (y.refusal?.toList.map (.refused op)) y := by
    refine ⟨isTruthful_of_tellsNoMore none silent.tells, leaves_nothing ?_ silent.slot⟩
    rw [refusal?_of_none]
    · rfl
    · intro f member
      cases refusal : f.isRefusal with
      | false => rfl
      | true => exact refusal.symm.trans (none f (silent.tells f member refusal))
  let next (reply : Reply) (x : Executor) := (x.record reply).push [.complete .outside reply]
  have accessed := x.access_accessed b op.apply next
  have asked : x.ask (.act b (.operate op)) = x.access b op.apply next := by rw [ask, act]
  rw [marksOfAsk, asked]
  generalize x.access b op.apply next = y at accessed
  cases accessed with
  | broken fault => exact silently (silent_fail x fault)
  | @entered _ o told _ _ ran entering =>
    by_cases refused : ∃ e, o.answer = .refused e
    · obtain ⟨e, refused⟩ := refused
      have stack :
          ((next (.refused e) told).push [.release b, .wake [], .tell o.afterwards]).stack =
          [.release b, .wake [], .tell o.afterwards, .complete .outside (.refused e)] := by
        show _ :: _ :: _ :: _ :: told.stack = _
        rw [entering.stack, idle]
      rw [refused, (Operation.apply_refused ran refused).woken]
      refine ⟨.tells (show _ = [_, _, _] ++ _ :: _ from stack) (by simp [Frame.isMute])
        (List.forall_mem_nil _) rfl, leaves_one (m := .refused op e) ?_ rfl
          (Operation.mayBeRefused ran refused)⟩
      rw [refusal?, stack]
      rfl
    · obtain ⟨slot, granted⟩ := Reply.slot_of_granted (fun e same => refused ⟨e, same⟩)
        told.lastError .outside
      exact silently (entering.silent slot rfl granted)

/-- What is asked for leaves in the slot what its mark says, and an answer that refuses it is
true. -/
theorem asks (idle : x.stack = []) (s : Step) :
    (x.ask s).IsTruthful ∧ x.Leaves (x.marksOfAsk s) (x.ask s) := by
  have none : ∀ f ∈ x.stack, f.isRefusal = false := by
    rw [idle]
    exact List.forall_mem_nil _
  have silently (unmarked : x.marksOfAsk s = []) (silent : x.Silent (x.ask s)) :
      (x.ask s).IsTruthful ∧ x.Leaves (x.marksOfAsk s) (x.ask s) :=
    ⟨isTruthful_of_tellsNoMore none silent.tells, leaves_nothing unmarked silent.slot⟩
  cases s with
  | act b action =>
    cases action with
    | operate op => exact asks_operate idle b op
    | setLastError code =>
      refine ⟨.silent ?_, leaves_one (m := .set code) rfl rfl trivial⟩
      show ∀ f ∈ _ :: x.stack, f.isRefusal = false
      exact List.forall_mem_cons.2 ⟨rfl, none⟩
    | drop t => exact silently rfl (silent_act x b .outside (a := .drop t) (by simp) (by simp))
    | describe | describeInUse | dump | lastError =>
      exact silently rfl (silent_of_one _ rfl rfl rfl)
  | addBus | spawn _ _ | report => exact silently rfl (silent_of_same rfl rfl)
  | run limit => exact silently rfl (silent_of_one _ rfl rfl rfl)
  | poll w =>
    refine silently rfl ?_
    rw [ask]
    split
    · exact silent_of_stack [_, _] rfl rfl (by simp [Frame.isRefusal])
    · exact silent_of_same rfl rfl
  | dropInUse b t =>
    refine silently rfl ?_
    let taken : Executor := { x with buses := x.buses.modify b ({ · with inUse := true }) }
    show x.Silent (taken.dropTask t fun dropped =>
      [.release b, .complete .outside (.plain (.flag dropped))])
    have takes : x.Silent taken := silent_of_same rfl rfl
    exact takes.trans (silent_dropTask taken t fun _ => by simp [Frame.isRefusal])

/-! ### Runs -/

theorem Marked.arises {marks : List Mark} (marked : Marked x marks) : x.Arises := by
  induction marked with
  | new inline => exact arises_new inline
  | step _ ih => exact ih.follows .step
  | ask _ _ s ih => exact ih.follows (.ask s)

theorem Marked.isTruthful {marks : List Mark} (marked : Marked x marks) : x.IsTruthful := by
  induction marked with
  | new inline => exact isTruthful_of_idle rfl
  | step marked ih => exact ih.step marked.arises.allFit
  | @ask x _ _ idle s _ => exact (asks (x := { x with log := [], answer := none }) idle s).1

/-- What is left in the slot is what the marks of the run say, and they are possible. -/
theorem Marked.leaves {marks : List Mark} (marked : Marked x marks) :
    x.lastError = ErrorCode.none.marked marks ∧ ∀ m ∈ marks, m.IsPossible := by
  induction marked with
  | new inline => exact ⟨rfl, List.forall_mem_nil _⟩
  | step marked ih =>
    obtain ⟨slot, possible⟩ := marked.isTruthful.leaves_step marked.arises.allFit
    rw [ErrorCode.marked_append, ← ih.1]
    exact ⟨slot, List.forall_mem_append.2 ⟨ih.2, possible⟩⟩
  | @ask x _ _ idle s ih =>
    obtain ⟨slot, possible⟩ := (asks (x := { x with log := [], answer := none }) idle s).2
    rw [ErrorCode.marked_append, ← ih.1]
    exact ⟨slot, List.forall_mem_append.2 ⟨ih.2, possible⟩⟩

/-- The marks that are left until nothing is left to do, within so many small steps. -/
def marksWhile : Nat → Executor → List Mark
  | 0, _ => []
  | fuel + 1, x => if x.stack.isEmpty then [] else x.marks ++ marksWhile fuel x.step

/-- The marks that a script leaves. -/
def marksOfScript (x : Executor) : List Step → List Mark
  | [] => []
  | s :: script =>
    let cleared := { x with log := [], answer := none }
    let asked := cleared.ask s
    cleared.marksOfAsk s ++ marksWhile asked.enough asked ++ marksOfScript (x.carryOut s) script

theorem Marked.settle {marks : List Mark} (marked : Marked x marks) (fuel : Nat) :
    Marked (settle fuel x) (marks ++ marksWhile fuel x) := by
  induction fuel generalizing x marks with
  | zero =>
    rw [marksWhile, List.append_nil]
    exact marked
  | succ fuel ih =>
    rw [settle_succ, marksWhile]
    split
    · rw [List.append_nil]
      exact marked
    · rw [← List.append_assoc]
      exact ih marked.step

theorem Marked.runScript {u : Usage} {marks : List Mark} (marked : Marked x marks)
    {script : List Step} (obeys : x.Obeys u script) :
    Marked (x.runScript script).1 (marks ++ marksOfScript x script) := by
  induction script generalizing x marks with
  | nil =>
    rw [marksOfScript, List.append_nil]
    exact marked
  | cons s script ih =>
    obtain ⟨idle, -, later⟩ := obeys
    rw [marksOfScript, ← List.append_assoc, ← List.append_assoc]
    exact ih ((marked.ask (List.isEmpty_iff.1 idle) s).settle _) later

/-! ### Asking for the last error -/

/-- Whoever asks for the last error is answered this code, and nothing else happens. -/
structure TellsLastError (x : Executor) (code : ErrorCode) : Prop where
  /-- A task that asks is told, and goes on. -/
  task : ∀ w rest task b, x.stack = .proceed w :: rest → x.tasks[w.task]? = some task →
    task.progress = .fresh → task.current? = some ⟨b, .act .lastError⟩ →
      settle 2 x = { x with
        stack := .proceed w :: rest
        tasks := x.tasks.set w.task (task.advance (.code code))
        log := .completed w.task task.position (.code code) :: x.log }
  /-- So is whoever asks from outside. -/
  outside : ∀ b, x.stack = [] →
    x.carryOut (.act b .lastError) = { x with log := [], answer := some (.code code) }

theorem tellsLastError (x : Executor) : x.TellsLastError x.lastError where
  task w rest task b stack found fresh current := by
    let told : Executor := { x with stack := .complete (.task w) (.code x.lastError) :: rest }
    have asked : x.step = told := by
      have found' : ({ x with stack := rest } : Executor).tasks[w.task]? = some task := found
      rw [step_of_stack_cons stack, perform, withTask_of_found found', proceed, fresh]
      simp only [current, start]
      rfl
    have stack' : x.step.stack = .complete (.task w) (.code x.lastError) :: rest := by rw [asked]
    rw [settle_of_stack_cons stack, settle_of_stack_cons stack', settle, asked,
      step_of_stack_cons (x := told) rfl, perform]
    have found' : ({ told with stack := rest } : Executor).tasks[w.task]? = some task := found
    rw [withTask_of_found found']
    simp only [push, modifyTask, happen, told, modify_of_getElem? found]
    rfl
  outside b idle := by
    let told : Executor :=
      { x with log := [], answer := none, stack := [.complete .outside (.code x.lastError)] }
    have asked : ({ x with log := [], answer := none } : Executor).ask (.act b .lastError) =
        told := by
      rw [ask, act, push, idle]
      rfl
    have some : 0 < told.enough := Nat.mul_pos (by decide) (Nat.pow_pos (by omega))
    obtain ⟨fuel, enough⟩ := Nat.exists_eq_add_of_lt some
    rw [carryOut, asked, enough, Nat.zero_add, settle_of_stack_cons (x := told) rfl,
      step_of_stack_cons (x := told) rfl, perform, settle_of_stack_nil rfl, respond]
    simp only [told, idle]
    rfl

/-- The last error is the code of the latest mark of a run: of what was set, refused or failed last,
or of the latest end of a stream, and this is what whoever asks for it is answered. Operations are
refused and calls fail only for the reasons that they have, so that nobody who may wait is told that
he would have to. And whoever is told of a failure that counts finds it in the slot. -/
theorem last_error_tells_latest_failure {marks : List Mark} (marked : Marked x marks) :
    x.lastError = ErrorCode.none.marked marks ∧ x.TellsLastError (ErrorCode.none.marked marks) ∧
      (∀ m ∈ marks, m.IsPossible) ∧
      ∀ caller e rest, x.stack = .complete caller (.refused e) :: rest → x.Finds caller e := by
  obtain ⟨slot, possible⟩ := marked.leaves
  refine ⟨slot, slot ▸ x.tellsLastError, possible, fun caller e rest stack => ?_⟩
  cases marked.isTruthful with
  | silent none =>
    have refusal := none (.complete caller (.refused e)) (stack ▸ List.mem_cons_self)
    cases refusal
  | @tells before _ _ _ split mute _ finds =>
    rw [stack] at split
    cases before with
    | nil =>
      cases split
      exact finds
    | cons f before =>
      cases split
      cases mute _ List.mem_cons_self

/-- An operation is refused from outside and from within a task. A stream gives an item and comes to
its end, while the slot was cleared, and is looked at once more. A call fails, a receive from the
channel that was closed fails as well, and a send is held up. -/
def failuresOfAllKinds : List Step :=
  [.act 0 (.operate (.tryRecv 0)), .act 0 (.operate (.openChannel 1)),
    .act 0 (.operate (.trySend 0 5)), .act 0 (.operate (.trySend 0 6)),
    .spawn [⟨0, .stream 0⟩, ⟨0, .next⟩, ⟨0, .next⟩, ⟨0, .next⟩, ⟨0, .resolve 7⟩] false,
    .spawn [⟨0, .resolve 0⟩, ⟨0, .call (.recv 0)⟩, ⟨0, .recvFrom 0⟩, ⟨0, .call (.recv 7)⟩] false,
    .run none, .act 0 (.setLastError .none), .act 0 (.operate (.close 0)), .run none]

theorem failures_of_all_kinds_told : ∃ x marks, Marked x marks ∧
    marks = [.refused (.tryRecv 0) .noSuchChannel, .refused (.trySend 0 6) .wouldBlock,
      .set .none, .ended 0, .failed (.recv 0) .noSuchChannel, .failed (.recv 7) .noSuchChannel] ∧
    x.lastError = ErrorCode.none.marked marks ∧ x.lastError = .noSuchChannel ∧
    x.carryOut (.act 0 .lastError) =
      { x with log := [], answer := some (.code .noSuchChannel) } := by
  have obeys : (new true).Obeys .full failuresOfAllKinds := by decide +kernel
  have marked := (Marked.new true).runScript obeys
  have marks : [] ++ marksOfScript (new true) failuresOfAllKinds =
      [.refused (.tryRecv 0) .noSuchChannel, .refused (.trySend 0 6) .wouldBlock,
        .set .none, .ended 0, .failed (.recv 0) .noSuchChannel,
        .failed (.recv 7) .noSuchChannel] := by decide +kernel
  have idle : ((new true).runScript failuresOfAllKinds).1.stack.isEmpty = true := by decide +kernel
  obtain ⟨slot, answers, -⟩ := last_error_tells_latest_failure marked
  have asked := answers.outside 0 (List.isEmpty_iff.1 idle)
  refine ⟨_, _, marked, marks, slot, ?_, ?_⟩
  · rw [slot, marks]
    rfl
  · rw [asked, marks]
    rfl

end Executor

end MessageBus

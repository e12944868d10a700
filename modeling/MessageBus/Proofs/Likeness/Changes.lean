import MessageBus.Proofs.Accesses
import MessageBus.Proofs.Likeness

/-!
# What leaves executors alike

One lemma for each way in which an executor is changed: frames are pushed, a task is changed, the
slot is set, a bus is entered. Each asks only for what was changed to correspond.
-/

namespace MessageBus.Executor

variable {L : Likeness} {differs : Nat → Nat → Prop} {asked : Prop} {x y : Executor} {t b : Nat}
  {f f' : Frame} {α : Type}

theorem Alike.found (alike : x.Alike L differs asked y) {task : Task}
    (found : x.tasks[t]? = some task) :
    ∃ task', y.tasks[t]? = some task' ∧ L.Tasks t task task' := by
  have tasks := alike.tasks t
  rw [found] at tasks
  generalize y.tasks[t]? = there at tasks ⊢
  cases tasks with
  | some tasks => exact ⟨_, rfl, tasks⟩

theorem Alike.missing (alike : x.Alike L differs asked y) (missing : x.tasks[t]? = none) :
    y.tasks[t]? = none := by
  have tasks := alike.tasks t
  rw [missing] at tasks
  generalize y.tasks[t]? = there at tasks ⊢
  cases tasks
  rfl

theorem Alike.idle (alike : x.Alike L differs asked y) (idle : x.stack = []) : y.stack = [] := by
  have frames := alike.stack
  rw [idle] at frames
  exact List.forall₂_nil_left_iff.1 frames

/-- What is asked of a task is asked of the one that corresponds to it. -/
theorem Alike.map_getD (alike : x.Alike L differs asked y) (look : Task → Bool)
    (same : ∀ task task', L.Tasks t task task' → look task' = look task) :
    ((y.tasks[t]?).map look).getD false = ((x.tasks[t]?).map look).getD false := by
  cases found : x.tasks[t]? with
  | none => rw [alike.missing found]
  | some task =>
    obtain ⟨task', found', tasks⟩ := alike.found found
    rw [found', Option.map_some, Option.map_some, same task task' tasks]

theorem Alike.length_tasks (alike : x.Alike L differs asked y) :
    y.tasks.length = x.tasks.length := by
  refine Nat.le_antisymm ?_ ?_
  · exact List.getElem?_eq_none_iff.1 (alike.missing (List.getElem?_eq_none (Nat.le_refl _)))
  · refine Nat.le_of_not_lt fun less => ?_
    obtain ⟨_, found, -⟩ := alike.found (List.getElem?_eq_getElem less)
    exact absurd (List.getElem?_eq_some_iff.1 found).1 (Nat.lt_irrefl _)

theorem Alike.length_buses (alike : x.Alike L differs asked y) :
    y.buses.length = x.buses.length := by
  refine Nat.le_antisymm ?_ ?_
  · have beyond := alike.buses x.buses.length
    rw [List.getElem?_eq_none (Nat.le_refl _)] at beyond
    refine List.getElem?_eq_none_iff.1 ?_
    generalize y.buses[x.buses.length]? = there at beyond ⊢
    cases beyond
    rfl
  · have beyond := alike.buses y.buses.length
    rw [List.getElem?_eq_none (l := y.buses) (Nat.le_refl _)] at beyond
    refine List.getElem?_eq_none_iff.1 ?_
    generalize x.buses[y.buses.length]? = there at beyond ⊢
    cases beyond
    rfl

theorem Alike.isInUse (alike : x.Alike L differs asked y) (b : Nat) :
    y.isInUse b = x.isInUse b := by
  have buses := alike.buses b
  rw [Executor.isInUse, Executor.isInUse]
  generalize x.buses[b]? = before at buses ⊢
  generalize y.buses[b]? = after at buses ⊢
  cases buses with
  | none => rfl
  | some buses => exact congrArg (fun inUse => (some inUse).getD false) buses.inUse

theorem Alike.hasFailed (alike : x.Alike L differs asked y) : y.hasFailed = x.hasFailed := by
  have answer := alike.answer
  rw [Executor.hasFailed, Executor.hasFailed]
  generalize x.answer = before at answer ⊢
  generalize y.answer = after at answer ⊢
  cases answer with
  | none => rfl
  | some replies => cases replies <;> rfl

/-! ### Frames, events and answers -/

theorem Alike.push (alike : x.Alike L differs asked y) {frames frames' : List Frame}
    (same : List.Forall₂ (Frame.Alike (Caller.MayDiffer x.tasks differs asked)) frames frames') :
    (x.push frames).Alike L differs asked (y.push frames') :=
  { alike with stack := List.rel_append same alike.stack }

theorem Alike.pushSame (alike : x.Alike L differs asked y) (frames : List Frame) :
    (x.push frames).Alike L differs asked (y.push frames) :=
  alike.push (List.forall₂_same.2 fun f _ => .same f)

theorem Alike.happen (alike : x.Alike L differs asked y) {e e' : Event}
    (events : e.Alike differs e') (traced : e.isTrace = e'.isTrace) :
    (x.happen e).Alike L differs asked (y.happen e') := by
  refine { alike with seen := ?_ }
  show List.Forall₂ _ ((e :: x.log).filter _) ((e' :: y.log).filter _)
  rw [List.filter_cons, List.filter_cons, traced]
  split
  · exact .cons events alike.seen
  · exact alike.seen

theorem Alike.happenSame (alike : x.Alike L differs asked y) (e : Event) :
    (x.happen e).Alike L differs asked (y.happen e) := alike.happen (.same e) rfl

theorem Alike.respond (alike : x.Alike L differs asked y) {reply reply' : Reply}
    (replies : reply.Alike asked reply') :
    (x.respond reply).Alike L differs asked (y.respond reply') := by
  refine { alike with answer := ?_ }
  have answer := alike.answer
  show Option.Rel _ (x.answer.orElse _) (y.answer.orElse _)
  generalize x.answer = before at answer ⊢
  generalize y.answer = after at answer ⊢
  cases answer with
  | none => exact .some replies
  | some before => exact .some before

theorem Alike.respondSame (alike : x.Alike L differs asked y) (reply : Reply) :
    (x.respond reply).Alike L differs asked (y.respond reply) := alike.respond (.same reply)

theorem Alike.record (alike : x.Alike L differs asked y) {may : Prop} {reply reply' : Reply}
    (replies : reply.Alike may reply') :
    (x.record reply).Alike L differs asked (y.record reply') := by
  refine { alike with slot := ?_ }
  show y.lastError.afterReply reply' = x.lastError.afterReply reply
  rw [alike.slot, replies.afterReply]

theorem Alike.recordSame (alike : x.Alike L differs asked y) (reply : Reply) :
    (x.record reply).Alike L differs asked (y.record reply) :=
  alike.record (Reply.Alike.same reply : reply.Alike False reply)

theorem Alike.setSlot (alike : x.Alike L differs asked y) (code : ErrorCode) :
    ({ x with lastError := code } : Executor).Alike L differs asked { y with lastError := code } :=
  { alike with slot := rfl }

theorem Alike.setReady (alike : x.Alike L differs asked y) (ready : List Nat) :
    ({ x with ready } : Executor).Alike L differs asked { y with ready } :=
  { alike with ready := rfl }

/-- What observers are told is told to nobody else. -/
theorem seen_tell (x : Executor) (notes : List Note) :
    (x.tell notes).seen = x.seen ∧ (x.tell notes).inline = x.inline ∧
      (x.tell notes).ready = x.ready ∧ (x.tell notes).answer = x.answer := by
  induction notes generalizing x with
  | nil => exact ⟨rfl, rfl, rfl, rfl⟩
  | cons n notes ih =>
    obtain ⟨seen, inline, ready, answer⟩ := ih (x.tellOne n)
    have one : (x.tellOne n).seen = x.seen ∧ (x.tellOne n).inline = x.inline ∧
        (x.tellOne n).ready = x.ready ∧ (x.tellOne n).answer = x.answer := by
      rw [tellOne]
      split <;> exact ⟨rfl, rfl, rfl, rfl⟩
    exact ⟨seen.trans one.1, inline.trans one.2.1, ready.trans one.2.2.1,
      answer.trans one.2.2.2⟩

theorem Alike.tell (alike : x.Alike L differs asked y) (notes notes' : List Note) :
    (x.tell notes).Alike L differs asked (y.tell notes') := by
  obtain ⟨seen, inline, ready, answer⟩ := x.seen_tell notes
  obtain ⟨seen', inline', ready', answer'⟩ := y.seen_tell notes'
  obtain ⟨buses, tasks, stack⟩ := x.tell_same notes
  obtain ⟨buses', tasks', stack'⟩ := y.tell_same notes'
  constructor
  · rw [inline, inline', alike.inline]
  · rw [buses, buses']
    exact alike.buses
  · rw [tasks, tasks']
    exact alike.tasks
  · rw [ready, ready', alike.ready]
  · rw [lastError_tell, lastError_tell, alike.slot]
  · rw [seen, seen']
    exact alike.seen
  · rw [stack, stack', tasks]
    exact alike.stack
  · rw [answer, answer']
    exact alike.answer

theorem Alike.fail (alike : x.Alike L differs asked y) (fault : Fault) :
    (x.fail fault).Alike L differs asked (y.fail fault) := by
  refine Alike.respondSame (x := { x with stack := x.stack.filter (·.clearsAway) })
    (y := { y with stack := y.stack.filter (·.clearsAway) }) { alike with stack := ?_ } _
  exact List.rel_filter (fun _ _ frames => by simp only [frames.clearsAway]) alike.stack

/-! ### Tasks -/

/-- Both tasks change. A reply that may differ still may, if the task is at the same instruction. -/
theorem Alike.modifyTask (alike : x.Alike L differs asked y) {change change' : Task → Task}
    (tasks : ∀ task task', x.tasks[t]? = some task → L.Tasks t task task' →
      L.Tasks t (change task) (change' task'))
    (position : (∀ task, (change task).position = task.position) ∨
      ∀ w reply, .complete (.task w) reply ∈ x.stack → w.task ≠ t) :
    (x.modifyTask t change).Alike L differs asked (y.modifyTask t change') := by
  have kept (t' : Nat) : (x.modifyTask t change).tasks[t']? =
      (x.tasks[t']?).map fun task => if t = t' then change task else task := by
    show (x.tasks.modify t change)[t']? = _
    rw [List.getElem?_modify]
    split <;> simp
  refine { alike with tasks := fun t' => ?_, stack := ?_ }
  · rw [kept t']
    have kept' : (y.modifyTask t change').tasks[t']? =
        (y.tasks[t']?).map fun task => if t = t' then change' task else task := by
      show (y.tasks.modify t change')[t']? = _
      rw [List.getElem?_modify]
      split <;> simp
    rw [kept']
    cases found : x.tasks[t']? with
    | none =>
      rw [alike.missing found]
      exact .none
    | some task =>
      obtain ⟨task', found', like⟩ := alike.found found
      rw [found']
      refine .some ?_
      dsimp only
      by_cases own : t = t'
      · subst own
        rw [if_pos rfl, if_pos rfl]
        exact tasks task task' found like
      · rw [if_neg own, if_neg own]
        exact like
  · have frames (f : Frame) (member : f ∈ x.stack) (caller : Caller) (reply : Reply)
        (is : f = .complete caller reply) (before : caller.MayDiffer x.tasks differs asked) :
        caller.MayDiffer (x.modifyTask t change).tasks differs asked := by
      cases caller with
      | outside => exact before
      | task w =>
        obtain ⟨task, found, may⟩ := before
        refine ⟨_, (kept w.task).trans (by rw [found]; rfl), ?_⟩
        split
        · rename_i own
          rcases position with same | others
          · rw [same]
            exact may
          · exact absurd own.symm (others w reply (is ▸ member))
        · exact may
    show List.Forall₂ _ x.stack y.stack
    have both := (List.forall₂_and_left _ _).2 ⟨frames, alike.stack⟩
    exact both.imp fun f f' ⟨may, like⟩ => like.mono may

/-- A task keeps what it keeps, at the same instruction. -/
theorem Alike.keep (alike : x.Alike L differs asked y) {progress progress' : Progress}
    (kept : L.Progresses t progress progress') :
    (x.keep t progress).Alike L differs asked (y.keep t progress') :=
  alike.modifyTask (fun _ _ _ tasks => tasks.keep kept) (.inl fun _ => rfl)

theorem Alike.setStream (alike : x.Alike L differs asked y) {stream stream' : Option Stream}
    (streams : Option.Rel L.Streams stream stream') :
    (x.modifyTask t ({ · with stream })).Alike L differs asked
      (y.modifyTask t ({ · with stream := stream' })) :=
  alike.modifyTask (fun _ _ _ tasks => tasks.withStream streams) (.inl fun _ => rfl)

theorem Alike.setLife (alike : x.Alike L differs asked y) (life : Life) :
    (x.modifyTask t ({ · with life })).Alike L differs asked (y.modifyTask t ({ · with life })) :=
  alike.modifyTask (fun _ _ _ tasks => tasks.withLife life) (.inl fun _ => rfl)

theorem Alike.withTask (alike : x.Alike L differs asked y) {f f' : Task → Executor}
    (does : ∀ task task', x.tasks[t]? = some task → L.Tasks t task task' →
      (f task).Alike L differs asked (f' task')) :
    (x.withTask t f).Alike L differs asked (y.withTask t f') := by
  rw [Executor.withTask, Executor.withTask]
  cases found : x.tasks[t]? with
  | none =>
    rw [alike.missing found]
    exact alike
  | some task =>
    obtain ⟨task', found', tasks⟩ := alike.found found
    rw [found']
    exact does task task' found tasks

/-! ### Buses -/

theorem Alike.registry (alike : x.Alike L differs asked y) (inside : b < x.buses.length) :
    L.registry b (x.registry b) (y.registry b) := by
  have buses := alike.buses b
  rw [List.getElem?_eq_getElem inside] at buses
  rw [Executor.registry, Executor.registry, List.getElem?_eq_getElem inside]
  generalize y.buses[b]? = after at buses ⊢
  cases buses with
  | some buses => exact buses.registry

/-- Both buses are described by the same summary. -/
theorem Alike.summary (alike : x.Alike L differs asked y) (b : Nat) :
    y.summary b = x.summary b := by
  have buses := alike.buses b
  rw [Executor.summary, Executor.summary]
  generalize x.buses[b]? = before at buses ⊢
  generalize y.buses[b]? = after at buses ⊢
  cases buses with
  | none => rfl
  | some buses => exact (L.summary buses.registry _).trans (by rw [buses.inUse])

theorem Alike.setInUse (alike : x.Alike L differs asked y) (inUse : Bool) :
    ({ x with buses := x.buses.modify b ({ · with inUse }) } : Executor).Alike L differs asked
      { y with buses := y.buses.modify b ({ · with inUse }) } := by
  refine { alike with buses := fun b' => ?_ }
  have buses := alike.buses b'
  show Option.Rel _ (x.buses.modify b _)[b']? (y.buses.modify b _)[b']?
  rw [List.getElem?_modify, List.getElem?_modify]
  generalize x.buses[b']? = before at buses ⊢
  generalize y.buses[b']? = after at buses ⊢
  cases buses with
  | none => split <;> exact .none
  | some buses =>
    split
    · exact .some ⟨buses.registry, rfl⟩
    · exact .some buses

/-- Both enter a bus, where the same is carried out, and go on alike. -/
theorem Alike.access (alike : x.Alike L differs asked y)
    {f f' : Registry Waker → Except Fault (Outcome (Registry Waker) Waker α)}
    {next next' : α → Executor → Executor} {answers : α → α → Prop}
    (ran : ∃ o o', f (x.registry b) = .ok o ∧ f' (y.registry b) = .ok o' ∧
      o.Alike (L.registry b) answers o')
    (goesOn : ∀ a a' z z', z.tasks = x.tasks → z.Alike L differs asked z' → answers a a' →
      (next a z).Alike L differs asked (next' a' z')) :
    (x.access b f next).Alike L differs asked (y.access b f' next') := by
  have buses := alike.buses b
  cases there : x.buses[b]? with
  | none =>
    rw [there] at buses
    have there' : y.buses[b]? = none := by
      generalize y.buses[b]? = after at buses ⊢
      cases buses
      rfl
    rw [Executor.access, there, Executor.access, there']
    exact alike.fail _
  | some bus =>
    rw [there] at buses
    obtain ⟨bus', there', like⟩ : ∃ bus', y.buses[b]? = some bus' ∧ L.Buses b bus bus' := by
      generalize y.buses[b]? = after at buses ⊢
      cases buses with
      | some like => exact ⟨_, rfl, like⟩
    cases inUse : bus.inUse with
    | true =>
      have inUse' := like.inUse.trans inUse
      rw [Executor.access, there, Executor.access, there']
      simp only [inUse, inUse', ite_true]
      exact alike.fail _
    | false =>
      have inUse' := like.inUse.trans inUse
      obtain ⟨o, o', done, done', outcome⟩ := ran
      rw [registry_of_bus there] at done
      rw [registry_of_bus there'] at done'
      rw [access_of_ran there inUse done, access_of_ran there' inUse' done']
      have entered : ({ x with buses := x.buses.set b ⟨o.state, true⟩ } : Executor).Alike L
          differs asked { y with buses := y.buses.set b ⟨o'.state, true⟩ } := by
        refine { alike with buses := fun b' => ?_ }
        show Option.Rel _ (x.buses.set b _)[b']? (y.buses.set b _)[b']?
        rw [List.getElem?_set, List.getElem?_set, alike.length_buses]
        split
        · rename_i own
          subst own
          split
          · exact .some ⟨outcome.state, rfl⟩
          · exact .none
        · exact alike.buses b'
      have told := entered.tell o.notes o'.notes
      have same := (tell_same { x with buses := x.buses.set b ⟨o.state, true⟩ } o.notes).2.1
      refine (goesOn _ _ _ _ same told outcome.answer).push ?_
      refine .cons (.same _) (.cons ?_ (.cons (.tell _ _) .nil))
      rw [outcome.woken]
      exact .same _

end MessageBus.Executor

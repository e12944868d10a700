import MessageBus.Proofs.Unfolding

/-!
# How a task goes on

Whatever a task does when it goes on is in the list of what a step can do. An access to a bus is on
an errand and has a sequel for every answer; there is one lemma for each way in which a task enters
a bus, and one for the instructions.
-/

namespace MessageBus.Executor

variable {α : Type} {x y : Executor} {w : Waker} {b t : Nat} {e : Errand Waker} {p : Place}
  {task : Task} {change : Task → Task} {f : Frame} {frames frames' rest below : List Frame}

theorem wokenIn_tell (x : Executor) (notes : List Note) :
    wokenIn (x.tell notes).log = wokenIn x.log ∧ (x.tell notes).ready = x.ready ∧
      (x.tell notes).inline = x.inline := by
  induction notes generalizing x with
  | nil => exact ⟨rfl, rfl, rfl⟩
  | cons n notes ih =>
    have one : wokenIn (x.tellOne n).log = wokenIn x.log ∧ (x.tellOne n).ready = x.ready ∧
        (x.tellOne n).inline = x.inline := by
      rw [tellOne]
      split <;> exact ⟨rfl, rfl, rfl⟩
    obtain ⟨calls, ready, inline⟩ := ih (x.tellOne n)
    exact ⟨calls.trans one.1, ready.trans one.2.1, inline.trans one.2.2⟩

/-- What is done next changes one task at most, and puts frames on the stack. -/
def Leading (go : Executor → Executor) (t : Nat) (change : Task → Task) (frames : List Frame) :
    Prop :=
  ∀ x : Executor, x.Leads (go x) x.buses (x.tasks.modify t change) (frames ++ x.stack)

theorem Leading.leads {go : Executor → Executor} (leading : Leading go t change frames)
    (x : Executor) (rest : List Frame) :
    x.Leads (go { x with stack := rest }) x.buses (x.tasks.modify t change) (frames ++ rest) := by
  obtain ⟨buses, tasks, stack, ready, inline, calls⟩ := leading { x with stack := rest }
  exact ⟨buses, tasks, stack, ready, inline, calls⟩

theorem leading_push (t : Nat) (frames : List Frame) : Leading (·.push frames) t id frames :=
  fun x => ⟨rfl, (List.modify_id t x.tasks).symm, rfl, rfl, rfl, rfl⟩

theorem leading_takeTurn (w : Waker) (b : Nat) (recorded : Bool) (turn : Turn) :
    Leading (takeTurn w b recorded turn) w.task (turn.leaves b recorded) [turn.frame w] := by
  intro x
  obtain ⟨buses, tasks, stack⟩ := does_takeTurn w b recorded turn x
  refine ⟨buses, tasks, stack, ?_, ?_, ?_⟩
  all_goals rcases turn with _ | _ | _ | _ <;> cases recorded <;> rfl

theorem leading_takeStreamTurn (w : Waker) (s : Stream) (ifPending : Frame) (turn : Turn) :
    Leading (takeStreamTurn w s ifPending turn) w.task (turn.leavesStream s)
      [turn.streamFrame w ifPending] := by
  intro x
  obtain ⟨buses, tasks, stack⟩ := does_takeStreamTurn w s ifPending turn x
  refine ⟨buses, tasks, stack, ?_, ?_, ?_⟩
  all_goals rcases turn with ⟨_ | _⟩ | _ | _ | _ <;> rfl

/-- An access to a bus is on an errand, and goes on from what it came to. -/
theorem unfolds_access {g : Registry Waker → Except Fault (Outcome (Registry Waker) Waker α)}
    {next : α → Executor → Executor} (upshot : α → Upshot) (change : α → Task → Task)
    (frames : α → List Frame) {frames' : α → List Frame} (errand : x.errand? = some (b, e))
    (final : below = rest ∨ ∃ t, below = .vacate t :: rest)
    (same : e.effect (x.registry b) = (g (x.registry b)).map (Outcome.map upshot))
    (leading : ∀ o, g (x.registry b) = .ok o →
      Leading (next o.answer) t (change o.answer) (frames' o.answer))
    (stack : ∀ a, frames' a ++ below = frames a ++ rest)
    (sequel : ∀ o, g (x.registry b) = .ok o →
      x.Sequel f b e (o.map upshot) t (change o.answer) (frames o.answer)) :
    x.Unfolds rest (({ x with stack := below } : Executor).access b g next) f := by
  have failing (failed : x.carried b e = none) (fault : Fault) :
      x.Unfolds rest (({ x with stack := below } : Executor).fail fault) f :=
    .fails errand failed rfl rfl (.inl rfl) fun g member => by
      have member : g ∈ below := (List.mem_filter.1 member).1
      rcases final with rfl | ⟨t, rfl⟩
      · exact .inl member
      · rcases List.mem_cons.1 member with rfl | later
        · exact .inr trivial
        · exact .inl later
  rw [access]
  cases there : x.buses[b]? with
  | none => exact failing (by rw [carried, there]; rfl) _
  | some bus =>
    have registry := registry_of_bus there
    cases inUse : bus.inUse
    · simp only [inUse, Bool.false_eq_true, ite_false]
      rw [registry] at same leading sequel
      cases ran : g bus.registry with
      | error fault =>
        rw [ran] at same
        exact failing (by simp [carried, there, inUse, same, Except.map, Except.toOption]) fault
      | ok o =>
        rw [ran] at same
        have carried : x.carried b e = some (o.map upshot) := by
          simp [carried, there, inUse, same, Except.map, Except.toOption]
        refine .enters errand carried (sequel o ran) ?_
        let entered : Executor := { x with stack := below, buses := x.buses.set b ⟨o.state, true⟩ }
        obtain ⟨buses, tasks, stack'⟩ := entered.tell_same o.notes
        obtain ⟨calls, ready, inline⟩ := entered.wokenIn_tell o.notes
        have leads := leading o ran (entered.tell o.notes)
        refine ⟨leads.buses.trans buses, leads.tasks.trans ?_, ?_, leads.ready.trans ready,
          leads.inline.trans inline, leads.calls.trans calls⟩
        · rw [tasks]
        · rw [← stack o.answer]
          exact congrArg (_ :: _ :: _ :: ·) (leads.stack.trans (by rw [stack']))
    · simp only [inUse, ite_true]
      exact failing (by simp [carried, there, inUse]) _

theorem Forgets.isFinal (forgets : x.Forgets f b p t change frames) {g : Frame}
    (member : g ∈ frames) : g.IsFinal := by
  cases forgets with
  | stream replaces _ _ =>
    cases List.mem_singleton.1 member
    cases replaces <;> exact trivial
  | place _ _ =>
    cases List.mem_singleton.1 member
    exact trivial

/-- A place is given up on an errand, unless its bus is in use. -/
theorem unfolds_giveUp {forget : Executor → Executor} (errand : x.errand? = some (b, .abandon p))
    (final : below = rest ∨ ∃ t, below = .vacate t :: rest)
    (forgets : x.Forgets f b p t change frames) (leading : Leading forget t change frames')
    (stack : frames' ++ below = frames ++ rest) :
    x.Unfolds rest (({ x with stack := below } : Executor).giveUp b p forget) f := by
  rw [giveUp]
  cases inUse : ({ x with stack := below } : Executor).isInUse b
  · have same : (Errand.abandon p : Errand Waker).effect (x.registry b) =
        (Except.ok ((x.registry b).abandon p)).map (Outcome.map fun _ => {}) := rfl
    rw [if_neg Bool.false_ne_true]
    refine unfolds_access (fun _ => {}) (fun _ => change) (fun _ => frames) errand final same
      (fun _ _ => leading)
      (fun _ => stack) fun o ran => ?_
    cases ran
    exact .abandons forgets
  · have failed : x.carried b (.abandon p) = none := by
      have there : x.isInUse b = true := inUse
      rw [isInUse] at there
      rw [carried]
      cases bus : x.buses[b]? with
      | none => rfl
      | some bus' =>
        rw [bus] at there
        have there : bus'.inUse = true := there
        simp [there]
    have leads := leading { x with stack := below }
    have ends (g : Frame) (member : g ∈ frames' ++ below) : g ∈ rest ∨ g.IsFinal := by
      rw [stack, List.mem_append] at member
      exact member.symm.imp_right forgets.isFinal
    rw [if_pos rfl]
    split
    · exact .fails errand failed leads.buses leads.calls
        (.inr ⟨p, t, change, frames, rfl, forgets, leads.tasks⟩) fun g member =>
          ends g (leads.stack ▸ member)
    · exact .fails errand failed leads.buses leads.calls
        (.inr ⟨p, t, change, frames, rfl, forgets, leads.tasks⟩) fun g member =>
          ends g (leads.stack ▸ (List.mem_filter.1 member).1)

theorem unfolds_replaceStream {stream : Option Stream} {next : Frame}
    (errand : x.errand? = (x.tasks[t]?).bind (·.streamErrand?))
    (replaces : x.Replaces f t stream next) :
    x.Unfolds rest (({ x with stack := rest } : Executor).replaceStream t stream [next]) f := by
  have leading : Leading (fun x => (x.modifyTask t ({ · with stream })).push [next]) t
      ({ · with stream }) [next] := fun x => ⟨rfl, rfl, rfl, rfl, rfl, rfl⟩
  rw [replaceStream]
  cases holds : (x.tasks[t]?).bind (·.streamPlace) with
  | none =>
    have none : x.errand? = none := by
      rw [errand]
      cases found : x.tasks[t]? with
      | none => rfl
      | some task =>
        rw [found] at holds
        have free : task.streamPlace = none := holds
        simp [Task.streamErrand?, free]
    exact .quiet none (.replaces replaces holds) (leading.leads x rest)
  | some held =>
    obtain ⟨task, found, holds'⟩ := Option.bind_eq_some_iff.1 holds
    refine unfolds_giveUp ?_ (.inl rfl) (.stream replaces found holds') leading rfl
    rw [errand, found, Option.bind_some, Task.streamErrand?, holds']
    rfl

/-- A task that looks for the next item of its stream. -/
theorem unfolds_pollStream (found : x.tasks[w.task]? = some task) (settled : task.callPlace = none)
    (atStream : task.IsAtStream) (errand : x.errand? = task.stream.bind (·.errand? w)) :
    x.Unfolds rest (({ x with stack := rest } : Executor).pollStream w task) (.proceed w) := by
  cases stream : task.stream with
  | none =>
    rw [stream] at errand
    rw [pollStream]
    simp only [stream]
    exact .quiet errand (.replies rfl ⟨task, found, settled, .inr (.inl ⟨stream, atStream⟩)⟩)
      ((leading_push w.task [.complete (.task w) .noStream]).leads x rest)
  | some s =>
    rw [stream] at errand
    rw [pollStream]
    simp only [stream]
    cases known : s.id with
    | none =>
      rw [Option.bind_some, Stream.errand?, known] at errand
      exact .quiet errand (.streamEnds found atStream stream known)
        ((leading_push w.task [.receive w none]).leads x rest)
    | some id =>
      have looks : x.errand? = some (s.bus, .look (.recv ⟨s.handle, id⟩) s.place w) := by
        rw [errand, Option.bind_some, Stream.errand?, known]
        rfl
      have access (g : Registry Waker → Except Fault (Outcome (Registry Waker) Waker Turn))
          (same : ∀ r, g r = (Request.recv ⟨s.handle, id⟩).look r s.place w) :
          x.Unfolds rest (({ x with stack := rest } : Executor).access s.bus g
            (takeStreamTurn w s (task.ifPending w))) (.proceed w) := by
        refine unfolds_access (·.upshot (x.registry s.bus) (.recv ⟨s.handle, id⟩) s.place)
          (fun turn task => turn.leavesStream s task)
          (fun turn => [turn.streamFrame w (task.ifPending w)]) looks (.inl rfl)
          (by rw [Errand.effect, same])
          (fun o _ => leading_takeStreamTurn w s (task.ifPending w) o.answer) (fun _ => rfl)
          fun o ran => ?_
        rw [same] at ran
        exact .looksAtStream found atStream stream known ran
      cases place : s.place with
      | none =>
        exact access _ fun r => by rw [place]; rfl
      | some p =>
        exact access _ fun r => by rw [place]; rfl

/-- A task that looks at a request. -/
theorem unfolds_look {q : Request} {prior : Option Place} {recorded : Bool}
    (found : x.tasks[w.task]? = some task) (pursues : x.Pursues task b q prior recorded)
    (errand : x.errand? = some (b, .look q prior w))
    {g : Registry Waker → Except Fault (Outcome (Registry Waker) Waker Turn)}
    (same : g (x.registry b) = q.look (x.registry b) prior w) :
    x.Unfolds rest (({ x with stack := rest } : Executor).access b g (takeTurn w b recorded))
      (.proceed w) :=
  unfolds_access (·.upshot (x.registry b) q prior) (fun turn task => turn.leaves b recorded task)
    (fun turn => [turn.frame w]) errand (.inl rfl) (by rw [Errand.effect, same])
    (fun o _ => leading_takeTurn w b recorded o.answer) (fun _ => rfl)
    fun _ ran => .looks found pursues (same ▸ ran)

/-- A task that begins a bare wait. -/
theorem unfolds_park {h : Handle} {side : Side} {id : ChannelId} {before : String}
    (found : x.tasks[w.task]? = some task) (fresh : task.progress = .fresh)
    (current : task.current? = some ⟨b, .wait h side⟩)
    (errand : x.errand? = some (b, .park ⟨h, id⟩ side w)) :
    x.Unfolds rest (({ x with stack := rest } : Executor).access b
      (fun r => r.park ⟨h, id⟩ side w) fun place x =>
        match place with
        | none => x.push [.conclude w before [] b ⟨h, id⟩ side (.error .noSuchChannel)]
        | some p =>
          (x.keep w.task (.waiting b p before [])).push [.observe w.task, .suspend w.task])
      (.proceed w) := by
  let change (place : Option Place) (task : Task) : Task :=
    match place with
    | none => task
    | some p => { task with progress := .waiting b p before [] }
  let frames (place : Option Place) : List Frame :=
    match place with
    | none => [.conclude w before [] b ⟨h, id⟩ side (.error .noSuchChannel)]
    | some p => [.observe w.task, .suspend w.task]
  refine unfolds_access (t := w.task) ({ places := ·.toList }) change frames errand
    (.inl rfl) rfl (fun o _ => ?_) (fun _ => rfl) fun o ran => ?_
  · cases o.answer with
    | none => exact leading_push w.task _
    | some p => exact fun x => ⟨rfl, rfl, rfl, rfl, rfl, rfl⟩
  · cases answer : o.answer with
    | none => exact .parksNowhere found fresh current ran answer
    | some p => exact .parks found fresh current ran answer

/-- A task that looks at its bare wait. -/
theorem unfolds_revisit {before : String} {after : List String}
    (found : x.tasks[w.task]? = some task) (progress : task.progress = .waiting b p before after)
    (errand : x.errand? = some (b, .revisit p w)) :
    let leave (result : Except BusError Unit) (x : Executor) : Executor :=
      (x.keep w.task .fresh).push [.conclude w before after b p.address p.side result]
    x.Unfolds rest (({ x with stack := rest } : Executor).access b (fun r => .ok (r.revisit p w))
      fun standing x =>
        match standing with
        | .queued => x.push [.observe w.task, .suspend w.task]
        | .called => leave (.ok ()) x
        | .gone => leave (.error .noSuchChannel) x) (.proceed w) := by
  intro leave
  let change (standing : Standing) (task : Task) : Task :=
    match standing with
    | .queued => task
    | _ => { task with progress := .fresh }
  let frames (standing : Standing) : List Frame :=
    match standing with
    | .queued => [.observe w.task, .suspend w.task]
    | .called => [.conclude w before after b p.address p.side (.ok ())]
    | .gone => [.conclude w before after b p.address p.side (.error .noSuchChannel)]
  refine unfolds_access (t := w.task) ({ places := if · = .queued then [p] else [] }) change frames
    errand (.inl rfl) rfl (fun o _ => ?_) (fun _ => rfl) fun o ran => ?_
  · cases o.answer with
    | queued => exact leading_push w.task _
    | called => exact fun x => ⟨rfl, rfl, rfl, rfl, rfl, rfl⟩
    | gone => exact fun x => ⟨rfl, rfl, rfl, rfl, rfl, rfl⟩
  · cases ran
    cases answer : ((x.registry b).revisit p w).answer with
    | queued => exact .waits found progress answer
    | called => exact .wakes found progress (by rw [answer]; exact nofun)
    | gone => exact .wakes found progress (by rw [answer]; exact nofun)

/-- A task that is over gives up the first of its places. -/
theorem unfolds_vacate (found : x.tasks[t]? = some task) (errand : x.errand? = task.placeErrand?) :
    x.Unfolds rest (({ x with stack := rest } : Executor).vacate t task) (.vacate t) := by
  rw [Task.placeErrand?] at errand
  rw [vacate]
  cases places : task.places with
  | nil =>
    rw [places] at errand
    refine .quiet errand (.passes fun task' there => ?_) ?_
    · cases found.symm.trans there
      exact places
    · rw [List.modify_id]
      exact ⟨rfl, rfl, rfl, rfl, rfl, rfl⟩
  | cons held later =>
    obtain ⟨b, p⟩ := held
    rw [places] at errand
    have leading : Leading (·.modifyTask t (·.giveUpPlace)) t (·.giveUpPlace) [] :=
      fun x => ⟨rfl, rfl, rfl, rfl, rfl, rfl⟩
    exact unfolds_giveUp errand (.inr ⟨t, rfl⟩) (.place found places) leading rfl

/-! ### Instructions that begin -/

/-- A task that begins may come to a reply at once, unless it looks at its stream or lets the others
go first. -/
theorem Task.isPrompt_of_current {i : Instruction} (fresh : task.progress = .fresh)
    (current : task.current? = some i) (away : task.looksAtStream = false)
    (other : i.deed ≠ .yield) : task.IsPrompt :=
  .inr (.inr ⟨fresh, away, by simp [Task.yields, current, other], i, current⟩)

section

variable {i : Instruction}

theorem unfolds_reply (found : x.tasks[w.task]? = some task) (fresh : task.progress = .fresh)
    (current : task.current? = some i) (away : task.looksAtStream = false)
    (other : i.deed ≠ .yield) (none : x.errand? = none) (reply : Reply) :
    x.Unfolds rest (({ x with stack := rest } : Executor).push [.complete (.task w) reply])
      (.proceed w) :=
  .quiet none (.replies rfl ⟨task, found, by rw [Task.callPlace, fresh],
    Task.isPrompt_of_current fresh current away other⟩) ((leading_push w.task _).leads x rest)

/-- A task that does what can also be asked for from outside. -/
theorem unfolds_act {action : Action} (found : x.tasks[w.task]? = some task)
    (fresh : task.progress = .fresh) (current : task.current? = some ⟨b, .act action⟩)
    (errand : x.errand? = x.startErrand? w task ⟨b, .act action⟩) :
    x.Unfolds rest (({ x with stack := rest } : Executor).start w task ⟨b, .act action⟩)
      (.proceed w) := by
  have away : task.looksAtStream = false := by rw [Task.looksAtStream, current]
  have replies (none : x.errand? = none) (reply : Reply) :
      x.Unfolds rest (({ x with stack := rest } : Executor).push [.complete (.task w) reply])
        (.proceed w) := unfolds_reply found fresh current away nofun none reply
  cases action with
  | operate op =>
    let next (reply : Reply) (x : Executor) := (x.record reply).push [.complete (.task w) reply]
    have leading (reply : Reply) :
        Leading (next reply) w.task id [.complete (.task w) reply] :=
      fun x => ⟨rfl, (List.modify_id w.task x.tasks).symm, rfl, rfl, rfl, rfl⟩
    show x.Unfolds rest (({ x with stack := rest } : Executor).access b op.apply next) _
    exact unfolds_access ({ transfers := op.transfers (x.registry b) · }) (fun _ => id)
      (fun reply => [.complete (.task w) reply]) errand (.inl rfl) rfl
      (fun o _ => leading o.answer) (fun _ => rfl) fun _ ran => .operates found fresh current ran
  | setLastError code =>
    exact .quiet errand (.replies rfl ⟨task, found, by rw [Task.callPlace, fresh],
      Task.isPrompt_of_current fresh current away nofun⟩)
      ⟨rfl, (List.modify_id w.task x.tasks).symm, rfl, rfl, rfl, rfl⟩
  | drop t =>
    show x.Unfolds rest (({ x with stack := rest } : Executor).dropTask t
      fun dropped => [.complete (.task w) (.plain (.flag dropped))]) _
    rw [dropTask]
    cases found' : ({ x with stack := rest } : Executor).tasks[t]? with
    | none => exact replies errand _
    | some other =>
      cases life : other.isIdle
      · simp only [life, Bool.false_eq_true, ite_false]
        exact replies errand _
      · simp only [life, ite_true]
        have idle : other.life = .idle := by simpa [Task.isIdle] using life
        exact .quiet errand (.drops found fresh current found' idle)
          ⟨rfl, rfl, rfl, rfl, rfl, rfl⟩
  | _ => exact replies errand _

/-- A task that begins a call looks at the request that it comes to, or fails at once. -/
theorem unfolds_call {c : Call} (found : x.tasks[w.task]? = some task)
    (fresh : task.progress = .fresh) (current : task.current? = some ⟨b, .call c⟩)
    (errand : x.errand? = x.startErrand? w task ⟨b, .call c⟩) :
    x.Unfolds rest (({ x with stack := rest } : Executor).start w task ⟨b, .call c⟩)
      (.proceed w) := by
  show x.Unfolds rest (({ x with stack := rest } : Executor).access b (fun r => c.start r w)
    (takeTurn w b true)) _
  rw [startErrand?] at errand
  cases resolved : c.resolve (x.registry b) with
  | ok q =>
    simp only [resolved] at errand
    have started : c.start (x.registry b) w = q.look (x.registry b) none w := by
      rw [Call.start, resolved]
      rfl
    exact unfolds_look found (.call fresh current resolved) errand started
  | error e =>
    simp only [resolved] at errand
    have started : (fun r => c.start r w) (x.registry b) =
        .ok { answer := .finished (.error e), state := x.registry b } := by
      simp only [Call.start, resolved]
    have same : (Errand.glance : Errand Waker).effect (x.registry b) =
        ((fun r => c.start r w) (x.registry b)).map (Outcome.map fun _ => {}) := by
      rw [started]
      rfl
    refine unfolds_access (fun _ => {}) (fun turn task => turn.leaves b true task)
      (fun turn => [turn.frame w]) errand (.inl rfl) same
      (fun o _ => leading_takeTurn w b true o.answer) (fun _ => rfl) fun o ran => ?_
    cases started.symm.trans ran
    exact .fails found fresh current resolved

/-- A task that resolves a handle remembers what it finds. -/
theorem unfolds_resolve {h : Handle} (found : x.tasks[w.task]? = some task)
    (fresh : task.progress = .fresh) (current : task.current? = some ⟨b, .resolve h⟩)
    (errand : x.errand? = x.startErrand? w task ⟨b, .resolve h⟩) :
    x.Unfolds rest (({ x with stack := rest } : Executor).start w task ⟨b, .resolve h⟩)
      (.proceed w) := by
  rw [start]
  cases resolved : (x.registry b).resolve h with
  | error e =>
    refine unfolds_access (fun _ => {}) (fun _ => id)
      (fun _ => [.complete (.task w) (.refused e)]) errand (.inl rfl) rfl
      (fun o ran => ?_) (fun _ => rfl)
      fun o ran => .resolves found fresh current fun task => ⟨task.remembered, rfl⟩
    cases ran
    rw [resolved]
    exact leading_push w.task _
  | ok a =>
    refine unfolds_access (fun _ => {}) (fun _ => ({ · with remembered := some a.id }))
      (fun _ => [.complete (.task w) (.granted (.number a.id.number))]) errand (.inl rfl) rfl
      (fun o ran => ?_) (fun _ => rfl)
      fun o ran => .resolves found fresh current fun task => ⟨some a.id, rfl⟩
    cases ran
    rw [resolved]
    exact fun x => ⟨rfl, rfl, rfl, rfl, rfl, rfl⟩

/-- A task that is to begin an instruction. -/
theorem unfolds_start (found : x.tasks[w.task]? = some task) (fresh : task.progress = .fresh)
    (current : task.current? = some i) (errand : x.errand? = x.startErrand? w task i) :
    x.Unfolds rest (({ x with stack := rest } : Executor).start w task i) (.proceed w) := by
  obtain ⟨b, deed⟩ := i
  have replies (away : task.looksAtStream = false) (other : deed ≠ .yield)
      (none : x.errand? = none) (reply : Reply) :
      x.Unfolds rest (({ x with stack := rest } : Executor).push [.complete (.task w) reply])
        (.proceed w) := unfolds_reply found fresh current away other none reply
  have polls (atStream : task.looksAtStream = true)
      (errand : x.errand? = task.stream.bind (·.errand? w)) :
      x.Unfolds rest (({ x with stack := rest } : Executor).pollStream w task) (.proceed w) :=
    unfolds_pollStream found (by rw [Task.callPlace, fresh]) (.inl ⟨fresh, atStream⟩) errand
  cases deed with
  | act action => exact unfolds_act found fresh current errand
  | call c => exact unfolds_call found fresh current errand
  | yield =>
    exact .quiet errand (.yields found fresh current) ⟨rfl, rfl, rfl, rfl, rfl, rfl⟩
  | stream h =>
    rw [start]
    refine unfolds_access (fun _ => {}) (fun _ => id)
      (fun a => [.adopt w ⟨b, h, a.map (·.id), none⟩]) errand (.inl rfl) rfl
      (fun o _ => leading_push w.task _) (fun _ => rfl) fun o ran => ?_
    cases ran
    exact .resolvesStream found fresh current
  | next | tryNext | collect => exact polls (by simp [Task.looksAtStream, current]) errand
  | hasEnded | describeStream =>
    rw [start]
    cases task.stream <;> exact replies (by simp [Task.looksAtStream, current]) (by simp) errand _
  | dropStream =>
    refine unfolds_replaceStream ?_ (.drops found fresh current)
    rw [found]
    exact errand
  | resolve h => exact unfolds_resolve found fresh current errand
  | recvFrom h =>
    rw [start]
    rw [startErrand?] at errand
    cases remembered : task.remembered with
    | none =>
      rw [remembered] at errand
      exact replies (by simp [Task.looksAtStream, current]) (by simp) errand _
    | some id =>
      rw [remembered] at errand
      exact unfolds_look found (.recvFrom fresh current remembered) errand rfl
  | wait h side =>
    rw [start]
    rw [startErrand?] at errand
    cases remembered : task.remembered with
    | none =>
      rw [remembered] at errand
      exact replies (by simp [Task.looksAtStream, current]) (by simp) errand _
    | some id =>
      rw [remembered] at errand
      exact unfolds_park found fresh current errand

end

/-- A task that goes on with its instruction. -/
theorem unfolds_proceed (found : x.tasks[w.task]? = some task)
    (errand : x.errand? = x.taskErrand? w task) :
    x.Unfolds rest (({ x with stack := rest } : Executor).proceed w task) (.proceed w) := by
  rw [taskErrand?] at errand
  rw [proceed]
  cases progress : task.progress with
  | fresh =>
    simp only [progress] at errand ⊢
    cases current : task.current? with
    | none =>
      simp only [current] at errand ⊢
      refine unfolds_replaceStream ?_ (.ends found progress current)
      rw [found]
      exact errand
    | some i =>
      simp only [current] at errand ⊢
      exact unfolds_start found progress current errand
  | calling b q prior recorded =>
    simp only [progress] at errand
    cases prior with
    | none => exact unfolds_look found (.calling progress) errand rfl
    | some p => exact unfolds_look found (.calling progress) errand rfl
  | yielded =>
    simp only [progress] at errand
    have settled : task.callPlace = none := by rw [Task.callPlace, progress]
    exact .quiet errand (.replies rfl ⟨task, found, settled, .inl progress⟩)
      ((leading_push w.task _).leads x rest)
  | collecting items =>
    simp only [progress] at errand
    have settled : task.callPlace = none := by rw [Task.callPlace, progress]
    exact unfolds_pollStream found settled (.inr ⟨items, progress⟩) errand
  | waiting b p before after =>
    simp only [progress] at errand
    exact unfolds_revisit found progress errand

end MessageBus.Executor

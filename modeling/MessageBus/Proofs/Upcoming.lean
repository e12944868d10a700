import MessageBus.Proofs.Stories
import MessageBus.Proofs.Deferred

/-!
# The order in which tasks go on

Where wakeups are deferred, the tasks that are about to go on form one queue
(`Executor.upcoming`): first the one that has its turn, then the ready list, then those whose wakers
are still to be called. A task leaves this queue at its front, when it goes on, and whoever is woken
joins it at its end (`Orderly.upcoming_step`, `Orderly.upcoming_ask`).

This needs an order on the stack (`Executor.Orderly`): wakers wait to be called only right under the
end of an access, so nobody goes on before they are; and ready tasks are looked for, and turns
begin, only when no other turn is going on.
-/

namespace MessageBus

namespace Frame

/-- The task that a frame makes go on at once. -/
def begins : Frame → List Nat
  | .poll w => [w.task]
  | .proceed w => [w.task]
  | _ => []

/-- The tasks that a frame makes ready. -/
def readies : Frame → List Nat
  | .wake wakers => wakers.map (·.task)
  | _ => []

/-- Whether a frame belongs to what was asked from outside. -/
def IsOuter : Frame → Prop
  | .drain _ _ => True
  | .verdict _ => True
  | _ => False

/-- Whether a frame is one of a turn, or of what a turn leaves to be done, apart from the wakers
that are to be called. -/
def IsOfTurn : Frame → Prop
  | .release _ => False
  | .wake _ => False
  | .poll _ => False
  | .drain _ _ => False
  | .verdict _ => False
  | _ => True

/-- Whether a frame may rest on another one. -/
structure MayRest (f g : Frame) : Prop where
  inner : ¬f.IsOuter
  begins : ∀ w, f = .poll w → g.IsOuter
  readies : (∀ b, f ≠ .release b) → g.readies = []

variable {f g : Frame}

theorem IsOuter.turn_eq_none (outer : f.IsOuter) : f.turn? = none := by
  cases f with
  | drain _ _ => rfl
  | verdict _ => rfl
  | _ => exact outer.elim

theorem IsOfTurn.readies_eq_nil (within : f.IsOfTurn) : f.readies = [] := by
  cases f with
  | wake _ => exact within.elim
  | _ => rfl

theorem IsOfTurn.mayRest (within : f.IsOfTurn) (silent : g.readies = []) : f.MayRest g := by
  refine ⟨fun outer => ?_, fun w same => ?_, fun _ => silent⟩
  · cases f with
    | drain _ _ => exact within
    | verdict _ => exact within
    | _ => exact outer
  · rw [same] at within
    exact within.elim

theorem mayRest_wake {wakers : List Waker} (silent : g.readies = []) :
    (Frame.wake wakers).MayRest g :=
  ⟨id, (fun w same => by cases same), fun _ => silent⟩

theorem mayRest_release {b : Nat} : (Frame.release b).MayRest g :=
  ⟨id, (fun w same => by cases same), fun other => absurd rfl (other b)⟩

end Frame

namespace Executor

variable {u : Usage} {x y : Executor} {f : Frame} {t b : Nat} {task : Task} {w : Waker}
  {e : Errand Waker} {o : Outcome (Registry Waker) Waker Upshot} {change : Task → Task}
  {frames rest : List Frame}

/-! ### The order on the stack -/

/-- Whether wakers are called before anybody else goes on, and turns begin one after the other. -/
def Orderly (x : Executor) : Prop := x.stack.Pairwise Frame.MayRest

/-- What a step puts on the stack without entering a bus: frames of the turn, or the task lets the
others go first. -/
theorem Quiet.within (quiet : x.Quiet f t change frames) : (∀ g ∈ frames, g.IsOfTurn) ∨
    ∃ w, f = .proceed w ∧ frames = [.wake [w], .suspend w.task] := by
  cases quiet with
  | yields _ _ _ => exact .inr ⟨_, rfl, rfl⟩
  | replaces replaces _ => cases replaces <;> simp [Frame.IsOfTurn]
  | _ => simp [Frame.IsOfTurn]

theorem Sequel.within (sequel : x.Sequel f b e o t change frames) : ∀ g ∈ frames, g.IsOfTurn := by
  cases sequel with
  | @looks _ _ _ _ _ _ p _ _ _ =>
    rcases p.answer with _ | _ | _ | _ <;> simp [Turn.frame, Frame.IsOfTurn]
  | @looksAtStream w task _ _ p _ _ _ _ _ =>
    have pending : (task.ifPending w).IsOfTurn := by
      rw [Task.ifPending]
      split <;> trivial
    refine List.forall_mem_singleton.2 ?_
    rcases p.answer with ⟨_ | _⟩ | _ | _ | _
    exacts [trivial, trivial, pending, pending, trivial]
  | abandons forgets =>
    cases forgets with
    | stream replaces _ _ => cases replaces <;> simp [Frame.IsOfTurn]
    | place _ _ => simp [Frame.IsOfTurn]
  | _ => simp [Frame.IsOfTurn]

/-- Frames of a turn may rest on whatever calls no wakers. -/
theorem pairwise_mayRest_append (within : ∀ g ∈ frames, g.IsOfTurn)
    (below : rest.Pairwise Frame.MayRest) (silent : ∀ g ∈ rest, g.readies = []) :
    (frames ++ rest).Pairwise Frame.MayRest := by
  induction frames with
  | nil => exact below
  | cons f frames ih =>
    obtain ⟨first, others⟩ := List.forall_mem_cons.1 within
    refine List.pairwise_cons.2 ⟨fun g member => first.mayRest ?_, ih others⟩
    rcases List.mem_append.1 member with above | later
    · exact (others g above).readies_eq_nil
    · exact silent g later

/-- The frames that end an access lie on those that go on from it. -/
theorem pairwise_mayRest_access {wakers : List Waker} {notes : List Note}
    (within : ∀ g ∈ frames, g.IsOfTurn) (below : rest.Pairwise Frame.MayRest)
    (silent : ∀ g ∈ rest, g.readies = []) :
    (.release b :: .wake wakers :: .tell notes :: (frames ++ rest)).Pairwise Frame.MayRest := by
  have later : ∀ g ∈ .tell notes :: (frames ++ rest), g.readies = [] := by
    refine List.forall_mem_cons.2 ⟨rfl, fun g member => ?_⟩
    exact (List.mem_append.1 member).elim (fun above => (within g above).readies_eq_nil) (silent g)
  have tell : (Frame.tell notes).IsOfTurn := trivial
  refine List.pairwise_cons.2 ⟨fun g _ => Frame.mayRest_release, ?_⟩
  refine List.pairwise_cons.2 ⟨fun g member => Frame.mayRest_wake (later g member), ?_⟩
  show ((.tell notes :: frames) ++ rest).Pairwise Frame.MayRest
  exact pairwise_mayRest_append
    (List.forall_mem_cons.2 ⟨tell, within⟩) below silent

/-- Only the end of an access rests on wakers that are to be called. -/
theorem Orderly.silent (orderly : x.Orderly) (stack : x.stack = f :: rest)
    (other : ∀ b, f ≠ .release b) : ∀ g ∈ rest, g.readies = [] := by
  rw [Orderly, stack] at orderly
  exact fun g member => ((List.pairwise_cons.1 orderly).1 g member).readies other

theorem Orderly.below (orderly : x.Orderly) (stack : x.stack = f :: rest) :
    rest.Pairwise Frame.MayRest := by
  rw [Orderly, stack] at orderly
  exact (List.pairwise_cons.1 orderly).2

/-- What was asked from outside rests on nothing. -/
theorem Orderly.rest_eq_nil (orderly : x.Orderly) (stack : x.stack = f :: rest)
    (outer : f.IsOuter) : rest = [] := by
  rw [Orderly, stack] at orderly
  cases rest with
  | nil => rfl
  | cons g rest =>
    exact absurd outer ((List.pairwise_cons.1 orderly).1 g List.mem_cons_self).inner

/-- When a turn begins, no other turn is going on. -/
theorem Orderly.turn_of_poll (orderly : x.Orderly) (stack : x.stack = .poll w :: rest)
    {g : Frame} (member : g ∈ x.stack) : g.turn? = none := by
  rw [Orderly, stack] at orderly
  rw [stack] at member
  rcases List.mem_cons.1 member with rfl | later
  · rfl
  · exact (((List.pairwise_cons.1 orderly).1 g later).begins w rfl).turn_eq_none

theorem ne_release_of_errand {entry : Nat × Errand Waker} (errand : x.errand? = some entry)
    (stack : x.stack = f :: rest) (b : Nat) : f ≠ .release b := by
  rintro rfl
  rw [errand?, stack] at errand
  cases errand

theorem Quiet.ne_release (quiet : x.Quiet f t change frames) (some : frames ≠ []) (b : Nat) :
    f ≠ .release b := by
  rintro rfl
  cases quiet with
  | passes idle => exact idle
  | replies own _ => cases own
  | replaces replaces _ => cases replaces

theorem Orderly.step (orderly : x.Orderly) (sound : x.Sound u) (deferred : x.inline = false) :
    x.step.Orderly := by
  cases stack : x.stack with
  | nil => rwa [step_of_stack_nil stack]
  | cons f rest =>
    have below := orderly.below stack
    have wakes {w : Waker} {later : List Waker} (waking : f = .wake (w :: later)) :
        x.step.Orderly := by
      subst waking
      have silent := orderly.silent stack fun b same => by cases same
      rw [Orderly, step_wake_of_deferred deferred stack]
      exact List.pairwise_cons.2 ⟨fun g member => Frame.mayRest_wake (silent g member), below⟩
    cases x.step_unfolds stack with
    | @quiet f t change frames _ quiet leads =>
      rw [Orderly, leads.stack]
      cases frames with
      | nil => exact below
      | cons g frames =>
        have silent := orderly.silent stack (quiet.ne_release (List.cons_ne_nil _ _))
        rcases quiet.within with within | ⟨w, -, same⟩
        · exact pairwise_mayRest_append within below silent
        · cases same
          have suspend : (Frame.suspend w.task).IsOfTurn := trivial
          refine List.pairwise_cons.2 ⟨fun g member => Frame.mayRest_wake ?_,
            pairwise_mayRest_append (List.forall_mem_singleton.2 suspend) below silent⟩
          exact (List.mem_cons.1 member).elim (fun same => same ▸ rfl) (silent g)
    | releases _ leads =>
      rw [Orderly, leads.stack]
      exact below
    | polls _ _ _ _ _ => exact wakes rfl
    | readies _ _ _ _ _ => exact wakes rfl
    | drains _ _ alive leads _ =>
      obtain rfl := orderly.rest_eq_nil stack trivial
      rw [Orderly, show x.step.stack = _ from leads.stack]
      rcases alive with rfl | ⟨rfl, -⟩
      · refine List.pairwise_cons.2 ⟨List.forall_mem_singleton.2 ?_, List.pairwise_singleton _ _⟩
        exact ⟨id, fun _ _ => trivial, fun _ => rfl⟩
      · exact List.pairwise_singleton _ _
    | enters errand _ sequel leads =>
      rw [Orderly, leads.stack]
      exact pairwise_mayRest_access sequel.within below
        (orderly.silent stack (ne_release_of_errand errand stack))
    | fails errand failed _ _ _ _ => exact absurd failed (sound.carried errand)

theorem Orderly.ask (sound : x.Sound u) (idle : x.stack = []) {s : Step}
    (lawful : s.Lawful u x.buses.length) : (x.ask s).Orderly := by
  have within (frames : List Frame) (stack : (x.ask s).stack = frames ++ x.stack)
      (within : ∀ g ∈ frames, g.IsOfTurn) : (x.ask s).Orderly := by
    rw [Orderly, stack, idle]
    exact pairwise_mayRest_append within .nil (List.forall_mem_nil _)
  cases x.ask_asked s with
  | answers _ answer leads =>
    refine within _ leads.stack ?_
    rcases answer with rfl | ⟨reply, rfl⟩
    · exact List.forall_mem_nil _
    · exact List.forall_mem_singleton.2 trivial
  | runs leads =>
    rw [Orderly, leads.stack, idle]
    exact List.pairwise_singleton _ _
  | polls _ _ leads =>
    rw [Orderly, leads.stack, idle]
    refine List.pairwise_cons.2 ⟨List.forall_mem_singleton.2 ?_, List.pairwise_singleton _ _⟩
    exact ⟨id, fun _ _ => trivial, fun _ => rfl⟩
  | drops _ _ leads => exact within [_, _] leads.stack (by simp [Frame.IsOfTurn])
  | dropsInUse _ _ _ => exact lawful.elim
  | adds leads => exact within [] leads.stack (List.forall_mem_nil _)
  | spawns leads _ => exact within [] leads.stack (List.forall_mem_nil _)
  | @operates _ _ o _ _ leads =>
    have within : ∀ g ∈ [Frame.complete .outside o.answer], g.IsOfTurn :=
      List.forall_mem_singleton.2 trivial
    rw [Orderly, leads.stack, idle]
    exact pairwise_mayRest_access within .nil (List.forall_mem_nil _)
  | fails failed _ _ _ =>
    exact absurd failed (sound.carried_of_free lawful (sound.calm_of_idle idle _) _)

/-! ### Deferred wakeups in a run -/

theorem inline_step (sound : x.Sound u) : x.step.inline = x.inline := by
  cases stack : x.stack with
  | nil => rw [step_of_stack_nil stack]
  | cons f rest =>
    cases x.step_unfolds stack with
    | quiet _ _ leads => exact leads.inline
    | releases _ leads => exact leads.inline
    | polls _ _ _ leads _ => exact leads.inline
    | readies _ leads _ _ _ => exact leads.inline
    | drains _ _ _ leads _ => exact leads.inline
    | enters _ _ _ leads => exact leads.inline
    | fails errand failed _ _ _ _ => exact absurd failed (sound.carried errand)

theorem inline_ask (sound : x.Sound u) (idle : x.stack = []) {s : Step}
    (lawful : s.Lawful u x.buses.length) : (x.ask s).inline = x.inline := by
  cases x.ask_asked s with
  | answers _ _ leads => exact leads.inline
  | runs leads => exact leads.inline
  | polls _ _ leads => exact leads.inline
  | drops _ _ leads => exact leads.inline
  | dropsInUse _ _ _ => exact lawful.elim
  | adds leads => exact leads.inline
  | spawns leads _ => exact leads.inline
  | operates _ _ leads => exact leads.inline
  | fails failed _ _ _ =>
    exact absurd failed (sound.carried_of_free lawful (sound.calm_of_idle idle _) _)

theorem Next.inline_eq (next : x.Next u y) (sound : x.Sound u) : y.inline = x.inline := by
  cases next with
  | step => exact inline_step sound
  | ask idle lawful => exact inline_ask sound.cleared idle lawful

/-- With deferred wakeups, a run keeps the order on the stack. -/
theorem Reachable.orderly (reachable : x.Reachable u) (deferred : x.inline = false) :
    x.Orderly := by
  obtain ⟨inline, run⟩ := reachable
  induction run with
  | refl => exact .nil
  | @tail y z run next ih =>
    have sound := Reachable.sound ⟨inline, run⟩
    have earlier : y.inline = false := (next.inline_eq sound).symm.trans deferred
    cases next with
    | step => exact (ih earlier).step sound earlier
    | ask idle lawful => exact .ask sound.cleared idle lawful

/-! ### The queue of those who go on -/

/-- The tasks that are about to go on, in order. -/
def upcoming (x : Executor) : List Nat :=
  x.stack.flatMap (·.begins) ++ x.ready ++ x.stack.flatMap (·.readies)

/-- The tasks that are woken by an errand, in order. -/
def owed (x : Executor) (errand : Option (Nat × Errand Waker)) : List Nat :=
  ((errand.bind fun entry => x.carried entry.1 entry.2).map (·.woken.map (·.task))).getD []

/-- Whether a task waits in a call, or goes on with it or is suspended in it in the middle of a
turn. -/
structure Stays (x : Executor) (t : Nat) (task : Task) : Prop where
  found : x.tasks[t]? = some task
  holds : task.callPlace ≠ none
  life : task.life = .idle ∨ ∃ f ∈ x.stack, f.turn? = some t

theorem Stays.alive (stays : x.Stays t task) (sound : x.Sound u) : task.life ≠ .ended := by
  intro ended
  rcases stays.life with idle | ⟨f, member, own⟩
  · cases idle.symm.trans ended
  · cases (sound.life_of_turn member own stays.found).symm.trans ended

/-- A frame that comes after a call is none of a task that is still in it. -/
theorem Stays.not_settled (stays : x.Stays t task) (sound : x.Sound u) (stack : x.stack = f :: rest)
    (own : f.turn? = some t)
    (settled : ∀ task : Task, f.Suits x.buses.length task → task.callPlace = none) : False := by
  obtain ⟨task', _, -, turn⟩ := sound.inTurn stack own
  cases stays.found.symm.trans turn.found
  exact stays.holds (settled task turn.suits)

section

variable {P : Nat → Bool}

theorem filter_upcoming (frames : List Frame) (stack : x.stack = frames ++ rest) :
    x.upcoming.filter P = (frames.flatMap (·.begins)).filter P ++
      (rest.flatMap (·.begins)).filter P ++ x.ready.filter P ++
      ((frames.flatMap (·.readies)).filter P ++ (rest.flatMap (·.readies)).filter P) := by
  simp [upcoming, stack]

theorem filter_upcoming_access {wakers : List Waker} {notes : List Note}
    (stack : x.stack = .release b :: .wake wakers :: .tell notes :: (frames ++ rest)) :
    x.upcoming.filter P = (frames.flatMap (·.begins)).filter P ++
      (rest.flatMap (·.begins)).filter P ++ x.ready.filter P ++
      ((wakers.map (·.task)).filter P ++ ((frames.flatMap (·.readies)).filter P ++
        (rest.flatMap (·.readies)).filter P)) := by
  have begins : x.stack.flatMap (·.begins) = (frames ++ rest).flatMap (·.begins) := by
    rw [stack]
    rfl
  have readies : x.stack.flatMap (·.readies) =
      wakers.map (·.task) ++ (frames ++ rest).flatMap (·.readies) := by
    rw [stack]
    rfl
  rw [upcoming, begins, readies]
  simp

/-- Without an access, the tasks that are about to go on are the same before and after a step,
apart from the one whose turn it is. -/
theorem Quiet.filter_eq (quiet : x.Quiet f t change frames) (sound : x.Sound u)
    (orderly : x.Orderly) (stack : x.stack = f :: rest)
    (stays : ∀ t, P t = true → ∃ task, x.Stays t task)
    (others : ∀ w, f = .proceed w → P w.task = false) :
    (frames.flatMap (·.begins)).filter P = f.begins.filter P ∧
      (frames.flatMap (·.readies)).filter P = f.readies.filter P := by
  have foreign (w : Waker) (out : P w.task = false) : [w.task].filter P = [] := by
    simp [out]
  have settled {w : Waker} (own : f.turn? = some w.task)
      (settled : ∀ task : Task, f.Suits x.buses.length task → task.callPlace = none) :
      P w.task = false := by
    rw [← Bool.not_eq_true]
    intro within
    obtain ⟨task, stays⟩ := stays _ within
    exact stays.not_settled sound stack own settled
  cases quiet with
  | passes idle =>
    cases f with
    | poll w =>
      refine ⟨(foreign w ?_).symm, rfl⟩
      rw [← Bool.not_eq_true]
      intro within
      obtain ⟨task, found, -, life⟩ := stays _ within
      rcases life with rests | ⟨g, member, own⟩
      · exact idle task found rests
      · cases own.symm.trans (orderly.turn_of_poll stack member)
    | proceed w => exact ⟨(foreign w (others w rfl)).symm, rfl⟩
    | wake wakers =>
      obtain rfl : wakers = [] := idle
      exact ⟨rfl, rfl⟩
    | _ => exact ⟨rfl, rfl⟩
  | completes _ => exact ⟨foreign _ (settled rfl fun _ suits => suits), rfl⟩
  | collects _ _ => exact ⟨foreign _ (settled rfl fun _ suits => suits), rfl⟩
  | @replies f w reply own prompt =>
    cases f with
    | proceed w' => exact ⟨(foreign w' (others w' rfl)).symm, rfl⟩
    | receive _ _ => exact ⟨rfl, rfl⟩
    | conclude _ _ _ _ _ _ _ => exact ⟨rfl, rfl⟩
    | _ => exact prompt.elim
  | yields _ _ _ => exact ⟨(foreign _ (others _ rfl)).symm, foreign _ (others _ rfl)⟩
  | streamEnds _ _ _ _ => exact ⟨(foreign _ (others _ rfl)).symm, rfl⟩
  | drops _ _ _ _ _ => exact ⟨(foreign _ (others _ rfl)).symm, rfl⟩
  | replaces replaces _ =>
    cases replaces with
    | ends _ _ _ => exact ⟨(foreign _ (others _ rfl)).symm, rfl⟩
    | drops _ _ _ => exact ⟨(foreign _ (others _ rfl)).symm, rfl⟩
    | adopts => exact ⟨rfl, rfl⟩
  | _ => exact ⟨rfl, rfl⟩

/-- Nobody who waits goes on but whoever has his turn. -/
theorem Sequel.filter_eq (sequel : x.Sequel f b e o t change frames)
    (others : ∀ w, f = .proceed w → P w.task = false) :
    (frames.flatMap (·.begins)).filter P = [] ∧ f.begins.filter P = [] := by
  have foreign (w : Waker) (out : P w.task = false) : [w.task].filter P = [] := by
    simp [out]
  cases sequel with
  | @looks w _ _ _ _ _ p _ _ _ =>
    have own := foreign w (others w rfl)
    refine ⟨?_, own⟩
    rcases p.answer with _ | _ | _ | _
    exacts [rfl, rfl, rfl, own]
  | @looksAtStream w task _ _ p _ _ _ _ _ =>
    have own := foreign w (others w rfl)
    have pending : (task.ifPending w).begins = [] := by
      rw [Task.ifPending]
      split <;> rfl
    refine ⟨?_, own⟩
    rcases p.answer with ⟨_ | _⟩ | _ | _ | _
    · rfl
    · rfl
    · simp [Turn.streamFrame, pending]
    · simp [Turn.streamFrame, pending]
    · exact own
  | abandons forgets =>
    cases forgets with
    | stream replaces _ _ =>
      cases replaces with
      | ends _ _ _ => exact ⟨rfl, foreign _ (others _ rfl)⟩
      | drops _ _ _ => exact ⟨rfl, foreign _ (others _ rfl)⟩
      | adopts => exact ⟨rfl, rfl⟩
    | place _ _ => exact ⟨rfl, rfl⟩
  | _ => exact ⟨rfl, foreign _ (others _ rfl)⟩

theorem owed_of_none : x.owed none = [] := rfl

theorem owed_of_carried (carried : x.carried b e = some o) :
    x.owed (some (b, e)) = o.woken.map (·.task) := by
  rw [owed, Option.bind_some, carried]
  rfl

theorem readied_cases (x : Executor) (w : Waker) :
    x.readied w = x.ready ++ [w.task] ∨ x.readied w = x.ready ∧
      ((∀ task, x.tasks[w.task]? = some task → task.life = .ended) ∨ w.task ∈ x.ready) := by
  rw [readied]
  split
  · exact .inl rfl
  · rename_i out
    refine .inr ⟨rfl, ?_⟩
    by_cases ready : w.task ∈ x.ready
    · exact .inr ready
    · refine .inl fun task found => ?_
      simpa [found, ready, Task.isAlive] using out

theorem flatMap_readies (silent : ∀ g ∈ frames, g.readies = []) :
    frames.flatMap (·.readies) = [] := List.flatMap_eq_nil_iff.2 silent

theorem readies_of_errand {entry : Nat × Errand Waker} (errand : x.errand? = some entry)
    (stack : x.stack = f :: rest) : f.readies = [] := by
  cases f with
  | wake _ =>
    rw [errand?, stack] at errand
    cases errand
  | _ => rfl

/-- A waker is called of somebody who was to be woken next. -/
theorem filter_upcoming_wake {later : List Waker} (sound : x.Sound u)
    (deferred : x.inline = false) (stays : ∀ t, P t = true → ∃ task, x.Stays t task)
    (once : (x.upcoming.filter P).Nodup) (stack : x.stack = .wake (w :: later) :: rest) :
    x.step.upcoming.filter P = x.upcoming.filter P := by
  have step := step_wake_of_deferred deferred stack
  have before := filter_upcoming (P := P) [.wake (w :: later)] stack
  have stack' : x.step.stack = [.wake later] ++ rest := by
    rw [step]
    rfl
  have after := filter_upcoming (P := P) _ stack'
  have ready : x.step.ready = x.readied w := by rw [step]
  rw [after, ready]
  cases within : P w.task with
  | false =>
    rcases x.readied_cases w with joins | ⟨stays, -⟩
    · simp [before, joins, Frame.begins, Frame.readies, within]
    · simp [before, stays, Frame.begins, Frame.readies, within]
  | true =>
    rcases x.readied_cases w with joins | ⟨-, out⟩
    · simp [before, joins, Frame.begins, Frame.readies, within]
    · exfalso
      obtain ⟨task, stays⟩ := stays _ within
      rcases out with ended | there
      · exact stays.alive sound (ended task stays.found)
      · rw [before, List.nodup_append] at once
        refine once.2.2 w.task ?_ w.task ?_ rfl
        · exact List.mem_append_right _ (List.mem_filter.2 ⟨there, within⟩)
        · simp [Frame.readies, within]

/-- In a step, those who wait keep their order among those who are about to go on, and whoever of
them is woken joins at the end. -/
theorem Orderly.upcoming_step (orderly : x.Orderly) (sound : x.Sound u)
    (deferred : x.inline = false) (stays : ∀ t, P t = true → ∃ task, x.Stays t task)
    (others : ∀ w rest, x.stack = .proceed w :: rest → P w.task = false)
    (once : (x.upcoming.filter P).Nodup) :
    x.step.upcoming.filter P = x.upcoming.filter P ++ (x.owed x.errand?).filter P := by
  have kept {y : Executor} (none : x.errand? = none)
      (same : y.upcoming.filter P = x.upcoming.filter P) :
      y.upcoming.filter P = x.upcoming.filter P ++ (x.owed x.errand?).filter P := by
    rw [same, none, owed_of_none, List.filter_nil, List.append_nil]
  cases stack : x.stack with
  | nil =>
    rw [step_of_stack_nil stack]
    exact kept (by rw [errand?, stack]) rfl
  | cons f rest =>
    have own : ∀ w, f = .proceed w → P w.task = false := by
      rintro w rfl
      exact others w rest stack
    have before := filter_upcoming (P := P) [f] stack
    cases x.step_unfolds stack with
    | quiet none quiet leads =>
      refine kept none ?_
      obtain ⟨begins, readies⟩ := quiet.filter_eq sound orderly stack stays own
      rw [filter_upcoming _ leads.stack, before, begins, readies, leads.ready]
      simp
    | releases none leads =>
      refine kept none ?_
      rw [filter_upcoming [] leads.stack, before, leads.ready]
      rfl
    | polls none _ _ _ _ => exact kept none (filter_upcoming_wake sound deferred stays once stack)
    | readies none _ _ _ _ =>
      exact kept none (filter_upcoming_wake sound deferred stays once stack)
    | @drains _ _ t later frames _ _ none ready alive leads ready' =>
      refine kept none ?_
      obtain rfl := orderly.rest_eq_nil stack trivial
      have stack' : x.step.stack = frames ++ [_] := leads.stack
      rw [filter_upcoming _ stack', before, ready, ready']
      rcases alive with rfl | ⟨rfl, ended⟩
      · simp [Frame.begins, Frame.readies, List.filter_cons]
        split <;> rfl
      · have out : P t = false := by
          rw [← Bool.not_eq_true]
          intro within
          obtain ⟨task, stays⟩ := stays _ within
          exact stays.alive sound (ended task stays.found)
        simp [Frame.begins, Frame.readies, out]
    | @enters _ b e o _ _ frames errand carried sequel leads =>
      obtain ⟨begins, begins'⟩ := sequel.filter_eq own
      have silent := flatMap_readies
        (orderly.silent stack (ne_release_of_errand errand stack))
      have silent' := flatMap_readies fun g member => (sequel.within g member).readies_eq_nil
      have after := filter_upcoming_access (P := P) (x := x.step) leads.stack
      have before : x.upcoming.filter P = f.begins.filter P ++ (rest.flatMap (·.begins)).filter P ++
          x.ready.filter P ++ (f.readies.filter P ++ (rest.flatMap (·.readies)).filter P) := by
        simpa using before
      rw [after, before, errand, owed_of_carried carried, leads.ready, begins, begins', silent,
        silent', readies_of_errand errand stack]
      simp
    | fails errand failed _ _ _ _ => exact absurd failed (sound.carried errand)

/-- So it is with a request from outside, if nobody is told to go on. -/
theorem upcoming_ask (sound : x.Sound u) (idle : x.stack = []) {s : Step}
    (lawful : s.Lawful u x.buses.length) (stays : ∀ t, P t = true → ∃ task, x.Stays t task)
    (other : ∀ w, s ≠ .poll w) :
    (x.ask s).upcoming.filter P = x.upcoming.filter P ++ (x.owed s.errand?).filter P := by
  have before : x.upcoming.filter P = x.ready.filter P := by simp [upcoming, idle]
  have kept (frames : List Frame) (none : s.errand? = none)
      (stack : (x.ask s).stack = frames ++ x.stack) (ready : (x.ask s).ready = x.ready)
      (silent : ∀ g ∈ frames, g.begins = [] ∧ g.readies = []) :
      (x.ask s).upcoming.filter P = x.upcoming.filter P ++ (x.owed s.errand?).filter P := by
    rw [filter_upcoming _ stack, before, none, owed_of_none, ready, idle,
      List.flatMap_eq_nil_iff.2 fun g member => (silent g member).1,
      List.flatMap_eq_nil_iff.2 fun g member => (silent g member).2]
    simp
  cases x.ask_asked s with
  | answers none answer leads =>
    refine kept _ none leads.stack leads.ready ?_
    rcases answer with rfl | ⟨reply, rfl⟩
    · exact List.forall_mem_nil _
    · exact List.forall_mem_singleton.2 ⟨rfl, rfl⟩
  | runs leads =>
    exact kept [_] rfl leads.stack leads.ready (List.forall_mem_singleton.2 ⟨rfl, rfl⟩)
  | @polls w _ _ _ _ => exact absurd rfl (other w)
  | drops _ _ leads =>
    exact kept [_, _] rfl leads.stack leads.ready
      (List.forall_mem_cons.2 ⟨⟨rfl, rfl⟩, List.forall_mem_singleton.2 ⟨rfl, rfl⟩⟩)
  | dropsInUse _ _ _ => exact lawful.elim
  | adds leads => exact kept [] rfl leads.stack leads.ready (List.forall_mem_nil _)
  | @spawns program stopsOnError leads ready =>
    have out : P x.tasks.length = false := by
      rw [← Bool.not_eq_true]
      intro within
      obtain ⟨task, stays⟩ := stays _ within
      exact absurd (List.getElem?_eq_some_iff.1 stays.found).1 (Nat.lt_irrefl _)
    have stack : (x.ask (.spawn program stopsOnError)).stack = [] ++ x.stack := leads.stack
    rw [filter_upcoming _ stack, before, ready, idle]
    simp [owed_of_none, Step.errand?, out]
  | @operates b op o _ carried leads =>
    have stack : (x.ask (.act b (.operate op))).stack = .release b :: .wake o.woken ::
        .tell o.afterwards :: ([.complete .outside o.answer] ++ x.stack) := leads.stack
    rw [filter_upcoming_access stack, before, Step.errand?, owed_of_carried carried, leads.ready,
      idle]
    simp [Frame.begins, Frame.readies]
  | fails failed _ _ _ =>
    exact absurd failed (sound.carried_of_free lawful (sound.calm_of_idle idle _) _)

end

/-- Whoever has his turn leaves the front, and those who are woken by his access join at the end. -/
theorem Orderly.upcoming_access {wakers : List Waker} {notes : List Note} (orderly : x.Orderly)
    (stack : x.stack = .proceed w :: rest) (begins : f.begins = []) (readies : f.readies = [])
    (stack' : y.stack = .release b :: .wake wakers :: .tell notes :: f :: rest)
    (ready : y.ready = x.ready) :
    ∃ later, x.upcoming = w.task :: later ∧ y.upcoming = later ++ wakers.map (·.task) := by
  have silent := flatMap_readies (orderly.silent stack fun b same => by cases same)
  refine ⟨rest.flatMap (·.begins) ++ x.ready, ?_, ?_⟩
  · have front : x.stack.flatMap (·.begins) = w.task :: rest.flatMap (·.begins) := by
      rw [stack]
      rfl
    have back : x.stack.flatMap (·.readies) = rest.flatMap (·.readies) := by
      rw [stack]
      rfl
    rw [upcoming, front, back, silent]
    simp
  · have front : y.stack.flatMap (·.begins) = f.begins ++ rest.flatMap (·.begins) := by
      rw [stack']
      rfl
    have back : y.stack.flatMap (·.readies) =
        wakers.map (·.task) ++ (f.readies ++ rest.flatMap (·.readies)) := by
      rw [stack']
      rfl
    rw [upcoming, front, back, begins, readies, silent, ready]
    simp

end Executor

end MessageBus

import MessageBus.Proofs.Attendance.Runs
import MessageBus.Proofs.LeavingOut.Turns
import MessageBus.Proofs.Stories
import MessageBus.Proofs.Successions

/-!
# With and without a caller

A caller that went to wait is in its line or was woken, until it is dropped; then it is in no line
any more, and its task is over (`Absentee.HasCome`). As long as it is not woken, an executor goes on
in the same way without it. Where the caller looks at its place or gives it up, that takes some
steps in which the other does nothing (`Absentee.Trails`).
-/

namespace MessageBus.Absentee

open Executor

variable {m : Absentee} {differs : Nat → Nat → Prop} {asked : Prop} {x y : Executor} {u : Usage}
  {w : Waker} {task : Task} {rest : List Frame} {p : Place} {b : Nat} {e : Errand Waker}

/-! ### How long a caller waits -/

/-- A caller that is in its line waits until it is to give up its place. -/
theorem IsIn.step (sound : x.Sound u) (isIn : m.IsIn x)
    (queued : (x.registry m.bus).isQueued m.place = true) :
    (∃ rest, x.stack = .vacate m.task :: rest) ∨ m.IsIn x.step := by
  obtain ⟨task, found, waits⟩ := isIn
  show _ ∨ ∃ task', x.step.tasks[m.task]? = some task' ∧ task'.progress = m.progress
  generalize m.task = t at found ⊢
  refine sound.kept_of_changes found waits (fun f rest change frames stack quiet => ?_)
    fun f rest b e o change frames stack _ sequel => ?_
  · exact (quiet.progress_eq sound stack found waits).trans waits
  · have begun {task' : Task} {progress : Progress} (found' : x.tasks[t]? = some task')
        (other : task'.progress = progress) : m.progress = progress := by
      cases found.symm.trans found'
      exact waits.symm.trans other
    cases sequel with
    | looks found' pursues ran =>
      refine .inr ?_
      cases pursues with
      | calling calls =>
        cases begun found' calls
        cases (Request.look_of_queued (sound.balanced m.bus) queued m.request _).symm.trans ran
        exact waits
      | call fresh _ _ => cases begun found' fresh
      | recvFrom fresh _ _ => cases begun found' fresh
    | looksAtStream found' atStream _ _ _ =>
      rcases atStream with ⟨fresh, -⟩ | ⟨items, collecting⟩
      · cases begun found' fresh
      · cases begun found' collecting
    | operates _ _ _ _ => exact .inr waits
    | fails found' fresh _ _ => cases begun found' fresh
    | resolvesStream _ _ _ => exact .inr waits
    | resolves found' fresh _ _ => cases begun found' fresh
    | parks found' fresh _ _ _ => cases begun found' fresh
    | parksNowhere _ _ _ _ _ => exact .inr waits
    | waits _ _ _ => exact .inr waits
    | wakes found' waiting _ => cases begun found' waiting
    | abandons forgets =>
      cases forgets with
      | stream _ _ _ => exact .inr waits
      | place _ _ => exact .inl ⟨rest, stack⟩

/-- A caller waits as well after a request. -/
theorem IsIn.ask (sound : x.Sound u) (isIn : m.IsIn x) (idle : x.stack = []) {s : Step}
    (lawful : s.Lawful u x.buses.length) :
    m.IsIn (({ x with log := [], answer := none } : Executor).ask s) := by
  obtain ⟨task, found, waits⟩ := isIn
  rcases sound.cleared.kept_ask idle lawful found with after | after
  · exact ⟨_, after, waits⟩
  · exact ⟨_, after, waits⟩

/-- A caller that waits no more: its task is over, and nobody is in a line with its ticket. -/
structure IsGone (m : Absentee) (x : Executor) : Prop where
  ended : ∃ task, x.tasks[m.task]? = some task ∧ task.life = .ended
  out : ∀ p : Place, p.ticket = m.place.ticket → (x.registry m.bus).isQueued p = false

/-- A caller that has gone to wait: its ticket was given out, and if it is in a line for messages,
that channel has slots. It waits, or is gone. -/
structure HasCome (m : Absentee) (x : Executor) : Prop where
  issued : m.place.ticket.number < (x.registry m.bus).nextTicket
  roomy : m.place.side = .receivers → (x.registry m.bus).isQueued m.place = true →
    ∀ c, (x.registry m.bus).find? m.place.address = some c → 0 < c.capacity
  gone : ¬m.IsIn x → m.IsGone x

theorem HasCome.inside (came : m.HasCome x) : m.bus < x.buses.length := by
  by_contra beyond
  have issued := came.issued
  rw [registry, List.getElem?_eq_none (Nat.le_of_not_lt beyond)] at issued
  exact Nat.not_lt_zero _ issued

theorem IsIn.held (isIn : m.IsIn x) : m.place ∈ x.held m.bus := by
  obtain ⟨task, found, waits⟩ := isIn
  refine mem_held_iff.2 ⟨m.task, ?_⟩
  rw [placesOf_of_found found, places_of_waits waits]
  exact List.mem_cons_self

/-- Nobody is in a line with the ticket of the caller but the caller, at its place. -/
theorem HasCome.eq_place (came : m.HasCome x) (sound : x.Sound u)
    (queued : (x.registry m.bus).isQueued p = true) (own : p.ticket = m.place.ticket) :
    m.IsIn x ∧ p = m.place := by
  by_cases isIn : m.IsIn x
  · exact ⟨isIn, sound.place_eq isIn.held (sound.held_of_isQueued queued) own⟩
  · cases queued.symm.trans ((came.gone isIn).out p own)

/-- Whoever has gone to wait has come. -/
theorem Arrives.hasCome (arrives : m.Arrives x w rest task) (reachable : x.Reachable u) :
    m.HasCome x.step where
  issued := (reachable.next .step).sound.ticket_lt arrives.waits.held
  roomy receives queued c' after := by
    obtain ⟨c, before, same⟩ := Next.step.capacity reachable.sound queued after
    exact same ▸ arrives.roomy receives c before
  gone out := absurd arrives.waits out

/-- Where the caller is gone, its ticket is in no line. -/
theorem IsGone.not_mem_tickets (gone : m.IsGone x) {h : Handle} {c : Channel Waker}
    (found : (x.registry m.bus).channel? h = some c) (side : Side) :
    m.place.ticket ∉ c.tickets side := by
  intro inside
  have queued := (Registry.isQueued_of_find? (p := ⟨⟨h, c.id⟩, side, m.place.ticket⟩)
    (Registry.find?_of_channel? found)).2 inside
  cases queued.symm.trans (gone.out _ rfl)

/-- A caller that has given up its place is in its line no more. -/
theorem IsIn.isQueued_of_vacate (sound : x.Sound u) (isIn : m.IsIn x)
    (queued : (x.registry m.bus).isQueued m.place = true)
    (stack : x.stack = .vacate m.task :: rest) :
    (x.step.registry m.bus).isQueued m.place = false := by
  obtain ⟨task, found, waits⟩ := isIn
  have errand : x.errand? = some (m.bus, .abandon m.place) := by
    rw [errand?, stack]
    simp only [found, Option.bind_some, Task.placeErrand?, places_of_waits waits,
      List.head?_cons, Option.map_some]
  obtain ⟨_, _, _, _, carried, -, leads⟩ := sound.enters stack errand
  have inside := inside_of_carried carried
  cases effect_of_carried carried
  rw [registry_set_self inside leads.buses]
  exact Registry.isQueued_abandon_self (sound.balanced m.bus) queued

/-- A caller that is not woken waits after a step, or is gone. -/
theorem IsIn.isIn_or_isGone (isIn : m.IsIn x) (came : m.HasCome x) (reachable : x.Reachable u)
    (queued : (x.registry m.bus).isQueued m.place = true) :
    m.IsIn x.step ∨ m.IsGone x.step := by
  have sound := reachable.sound
  rcases isIn.step sound queued with ⟨rest, stack⟩ | still
  · obtain ⟨task, found, waits⟩ := isIn
    have ended := reachable.underway.vacates m.task (stack ▸ List.mem_cons_self) task found
    obtain ⟨task', found', -, stays⟩ := sound.kept_step found
    refine .inr ⟨⟨task', found', stays ended⟩, fun p own => ?_⟩
    rw [← Bool.not_eq_true]
    intro after
    have before := (Next.step.succeeds reachable m.bus).queued p (own ▸ came.issued) after
    obtain ⟨isIn, rfl⟩ := came.eq_place sound before own
    cases after.symm.trans (isIn.isQueued_of_vacate sound queued stack)
  · exact .inl still

/-- Whoever is gone stays gone. -/
theorem IsGone.next (gone : m.IsGone x) (reachable : x.Reachable u)
    (issued : m.place.ticket.number < (x.registry m.bus).nextTicket) (next : x.Next u y) :
    m.IsGone y where
  ended := by
    obtain ⟨task, found, ended⟩ := gone.ended
    cases next with
    | step =>
      obtain ⟨task', found', -, stays⟩ := reachable.sound.kept_step found
      exact ⟨task', found', stays ended⟩
    | ask idle lawful =>
      rcases reachable.sound.cleared.kept_ask idle lawful found with after | after
      · exact ⟨_, after, ended⟩
      · exact ⟨_, after, rfl⟩
  out p own := by
    rw [← Bool.not_eq_true]
    intro after
    have before := (next.succeeds reachable m.bus).queued p (own ▸ issued) after
    cases before.symm.trans (gone.out p own)

/-- A caller that is not woken has come also after the next step or request. -/
theorem HasCome.next (came : m.HasCome x) (reachable : x.Reachable u) (uncalled : m.IsUncalled x)
    (next : x.Next u y) : m.HasCome y where
  issued := Nat.lt_of_lt_of_le came.issued (next.succeeds reachable m.bus).issues
  roomy receives queued c' after := by
    have before := (next.succeeds reachable m.bus).queued _ came.issued queued
    obtain ⟨c, there, same⟩ := next.capacity reachable.sound queued after
    exact same ▸ came.roomy receives before c there
  gone out := by
    by_cases isIn : m.IsIn x
    · cases next with
      | step =>
        exact (isIn.isIn_or_isGone came reachable (uncalled isIn)).resolve_left out
      | ask idle lawful => exact absurd (isIn.ask reachable.sound idle lawful) out
    · exact (came.gone isIn).next reachable came.issued next

/-! ### What others do meanwhile -/

theorem HasCome.hides (came : m.HasCome x) (sound : x.Sound u) :
    (x.registry m.bus).Hides m.place.ticket where
  channel h c found :=
    { single := fun side =>
        (sound.balanced m.bus).single _ c side (Registry.find?_of_channel? found)
      roomy := fun inside => by
        have there := Registry.find?_of_channel? found
        obtain ⟨isIn, same⟩ := came.eq_place sound
          (p := ⟨⟨h, c.id⟩, .receivers, m.place.ticket⟩)
          ((Registry.isQueued_of_find? there).2 inside) rfl
        refine came.roomy (by rw [← same]) ?_ c ?_
        · rw [← same]
          exact (Registry.isQueued_of_find? there).2 inside
        · rw [← same]
          exact there }
  issued := came.issued

/-- A bus on which the caller is still in its line keeps it there. -/
theorem HasCome.keeps (came : m.HasCome x) (sound : x.Sound u) {r' : Registry Waker}
    (stays : m.IsIn x → r'.isQueued m.place = true) :
    (x.registry m.bus).Keeps r' m.place.ticket := by
  intro h c found side inside
  obtain ⟨isIn, same⟩ := came.eq_place sound (p := ⟨⟨h, c.id⟩, side, m.place.ticket⟩)
    ((Registry.isQueued_of_find? (Registry.find?_of_channel? found)).2 inside) rfl
  obtain ⟨c', found', inside'⟩ := Registry.exists_of_isQueued (stays isIn)
  rw [← same] at found' inside'
  exact ⟨c', (Registry.channel?_of_find? found').1, inside'⟩

/-- What is done on a bus comes to the same without a caller that stays in its line. -/
theorem HasCome.served_of_effect (came : m.HasCome x) (sound : x.Sound u)
    (alike : x.Alike m.likeness differs asked y) (inside : b < x.buses.length)
    {o : Outcome (Registry Waker) Waker Upshot} (effect : e.effect (x.registry b) = .ok o)
    (stays : b = m.bus → m.IsIn x → o.state.isQueued m.place = true) :
    x.Served m.likeness (m.IsIn x) y b e := by
  refine ⟨⟨o, effect⟩, serves (alike.registry inside) (fun own => ?_) (fun own out h c found => ?_)
    fun own o' effect' => ?_⟩
  · exact own ▸ came.hides sound
  · exact (came.gone out).not_mem_tickets (own ▸ found)
  · cases effect.symm.trans effect'
    subst own
    exact came.keeps sound (stays rfl)

theorem HasCome.served (came : m.HasCome x) (sound : x.Sound u)
    (alike : x.Alike m.likeness differs asked y) (stays : m.IsIn x → m.IsIn x.step)
    (uncalled : m.IsUncalled x.step) (errand : x.errand? = some (b, e)) :
    x.Served m.likeness (m.IsIn x) y b e := by
  obtain ⟨f, rest, stack⟩ : ∃ f rest, x.stack = f :: rest := by
    cases stack : x.stack with
    | nil =>
      rw [errand?, stack] at errand
      cases errand
    | cons f rest => exact ⟨f, rest, rfl⟩
  obtain ⟨o, _, _, _, carried, -, leads⟩ := sound.enters stack errand
  have inside := inside_of_carried carried
  refine came.served_of_effect sound alike inside (effect_of_carried carried) fun own isIn => ?_
  subst own
  have queued := uncalled (stays isIn)
  rw [registry_set_self inside leads.buses] at queued
  exact queued

/-! ### Side by side -/

/-- An executor will have got to where another one is without the caller. -/
def Trails (m : Absentee) (differs : Nat → Nat → Prop) (asked : Prop) (x y : Executor) : Prop :=
  ∃ n, (Executor.step^[n] x).Alike m.likeness differs asked y

theorem trails_of_alike (alike : x.Alike m.likeness differs asked y) :
    m.Trails differs asked x y := ⟨0, alike⟩

/-- Where nothing is left to do, it has got there. -/
theorem Trails.alike (trails : m.Trails differs asked x y) (idle : x.stack = []) :
    x.Alike m.likeness differs asked y := by
  obtain ⟨n, alike⟩ := trails
  rwa [Function.iterate_fixed (step_of_stack_nil idle)] at alike

theorem Arrives.trails (arrives : m.Arrives x w rest task) (sound : x.Sound u) :
    m.Trails differs False x.step (x.stepWithout m.task) := ⟨3, arrives.alike sound⟩

/-- Without a caller that is not woken, a step is taken as well, or it was nothing to the others. -/
theorem Trails.step (trails : m.Trails differs asked x y) (came : m.HasCome x) (sound : x.Sound u)
    (uncalled : m.IsUncalled x) (shows : x.LetsDiffer (m.IsIn x) differs)
    (later : m.IsUncalled x.step) :
    m.Trails differs asked x.step y ∨ m.Trails differs asked x.step (y.stepWithout m.task) := by
  obtain ⟨_ | n, alike⟩ := trails
  · have alike : x.Alike m.likeness differs asked y := alike
    by_cases proceeds : x.Proceeds m.task
    · obtain ⟨w, rest, stack, own⟩ := proceeds
      have isIn : m.IsIn x := by
        by_contra out
        obtain ⟨task, found, ended⟩ := (came.gone out).ended
        have running := sound.life_of_turn (f := .proceed w) (stack ▸ List.mem_cons_self)
          (congrArg some own) found
        cases ended.symm.trans running
      exact .inr ⟨3, isIn.looks sound alike (uncalled isIn) stack own⟩
    by_cases vacates : m.IsIn x ∧ ∃ rest, x.stack = .vacate m.task :: rest
    · obtain ⟨isIn, rest, stack⟩ := vacates
      exact .inl ⟨3, isIn.vacates sound alike (uncalled isIn) stack⟩
    · have stays (isIn : m.IsIn x) : m.IsIn x.step :=
        (isIn.step sound (uncalled isIn)).resolve_left fun vacate => vacates ⟨isIn, vacate⟩
      rw [stepWithout_of_others fun others => proceeds (alike.proceeds others)]
      refine .inr ⟨0, alike.step sound ?_ shows fun b e => came.served sound alike stays later⟩
      rintro f rest t task stack turn found ⟨rfl, waits⟩
      rcases turn with ⟨w, rfl, own⟩ | rfl
      · exact proceeds ⟨w, rest, stack, own⟩
      · exact vacates ⟨⟨task, found, waits⟩, rest, stack⟩
  · rw [Function.iterate_succ_apply] at alike
    exact .inl ⟨n, alike⟩

/-- Whatever is asked for, the same is answered without a caller that is not woken. -/
theorem HasCome.ask (came : m.HasCome x) (sound : x.Sound u)
    (alike : x.Alike m.likeness differs asked y) (idle : x.stack = []) {s : Step}
    (lawful : s.Lawful u x.buses.length)
    (later : m.IsUncalled (({ x with log := [], answer := none } : Executor).ask s)) :
    (({ x with log := [], answer := none } : Executor).ask s).Alike m.likeness differs
      (s.sight.Shows (m.IsIn x)) (({ y with log := [], answer := none } : Executor).ask s) := by
  refine alike.ask idle s (fun adds => ?_) fun b e errand => ?_
  · exact (leftOut_of_ne (Nat.ne_of_gt came.inside) _).symm
  · cases s with
    | act b action =>
      cases action with
      | operate op =>
        cases errand
        obtain ⟨o, carried⟩ := Option.ne_none_iff_exists'.1
          (sound.cleared.carried_of_free lawful (sound.calm_of_idle idle b) (.operate op))
        refine came.served_of_effect sound alike lawful (effect_of_carried carried)
          fun own isIn => ?_
        subst own
        have queued := later (isIn.ask sound idle lawful)
        rw [registry_ask, Step.errand?, outcomeOn, Option.bind_some, if_pos rfl, carried] at queued
        exact queued
      | _ => cases errand
    | _ => cases errand

end MessageBus.Absentee

import MessageBus.Proofs.Holders

/-!
# Woken tasks are attended to

A task that holds a place is queued there, or else it was woken: then it is on the ready list, or a
frame is on the stack that makes it go on (`Attentive.attended`). For this the waker of an entry has
to be one of the task that holds the place, no poll may come too early to be of use, and a task that
goes on has to look at every place that it holds. The last is not so if a task looks at its stream
only once and goes on with something else while the receive is in flight.
-/

namespace MessageBus

namespace Frame

/-- Whether a frame makes a task go on. -/
def Attends (t : Nat) : Frame → Prop
  | .wake wakers => ∃ w ∈ wakers, w.task = t
  | .poll w => w.task = t
  | .proceed w => w.task = t
  | _ => False

/-- Whether a task stays in its instruction with this frame of its turn. -/
def Continues : Frame → Prop
  | .proceed _ => True
  | .suspend _ => True
  | _ => False

/-- Whether a frame neither makes a task begin its turn nor looks for a ready one. -/
def IsInner : Frame → Prop
  | .poll _ => False
  | .drain _ _ => False
  | _ => True

/-- Whether a frame may be above another. A task begins its turn at once, and nobody looks for ready
ones in the middle of a turn. -/
def MayCover (f g : Frame) : Prop :=
  (∀ w, g ≠ .poll w) ∧ ∀ limit polled, f = .drain limit polled → ∀ t, g ≠ .leave t

theorem IsInner.mayCover {f g : Frame} (inner : f.IsInner) (other : ∀ w, g ≠ .poll w) :
    f.MayCover g := by
  refine ⟨other, fun limit polled same => ?_⟩
  rw [same] at inner
  exact inner.elim

theorem IsInner.ne_poll {f : Frame} (inner : f.IsInner) (w : Waker) : f ≠ .poll w := by
  rintro rfl
  exact inner

end Frame

namespace Executor

variable {u : Usage} {x y : Executor} {f : Frame} {t b : Nat} {p : Place} {task : Task}
  {w : Waker} {e : Errand Waker} {errand : Option (Nat × Errand Waker)}

/-- Whether a task is ready or about to go on. -/
def Attends (x : Executor) (t : Nat) : Prop := t ∈ x.ready ∨ ∃ f ∈ x.stack, f.Attends t

/-- Whether a task with a receive of its stream in flight is at an instruction that waits for it, in
the middle of a turn as well. -/
def KeepsToStream (x : Executor) (t : Nat) : Prop :=
  ∀ task, x.tasks[t]? = some task → task.streamPlace ≠ none →
    task.IsAtStream ∧ ∀ f ∈ x.stack, f.turn? = some t → f.Continues

/-- Nobody who was woken is forgotten. -/
structure Attentive (x : Executor) : Prop where
  /-- The waker of an entry is one of the task that holds the place. -/
  wakers : ∀ b p k, (p, k) ∈ (x.registry b).waiting → (b, p) ∈ x.placesOf k.task
  running : ∀ (t : Nat) task, x.tasks[t]? = some task → task.life = .running → .leave t ∈ x.stack
  tidy : x.stack.Pairwise Frame.MayCover
  polled : ∀ w, .poll w ∈ x.stack → ∀ task, x.tasks[w.task]? = some task → task.life ≠ .running
  streams : ∀ t, x.KeepsToStream t
  /-- Whoever holds a place and is not over is queued there or attended to. -/
  attended : ∀ (t : Nat) task, x.tasks[t]? = some task → task.life ≠ .ended →
    ∀ b p, (b, p) ∈ task.places → (x.registry b).isQueued p = true ∨ x.Attends t

/-- No task is told to look at its stream only once. Tasks that are over are still there, so this is
about everything that was ever spawned. -/
def NeverPeeks (x : Executor) : Prop := ∀ task ∈ x.tasks, ∀ i ∈ task.program, i.deed ≠ .tryNext

/-! ### The wakers of entries -/

/-- Wakers stay with the tasks that hold the places. -/
theorem Trades.wakers (trades : x.Trades y errand) (sound : x.Sound u) (sound' : y.Sound u)
    (wakers : ∀ b p k, (p, k) ∈ (x.registry b).waiting → (b, p) ∈ x.placesOf k.task)
    (b : Nat) (p : Place) (k : Waker) (there : (p, k) ∈ (y.registry b).waiting) :
    (b, p) ∈ y.placesOf k.task := by
  cases trades with
  | idle registry places =>
    rw [registry b] at there
    rw [places]
    exact wakers b p k there
  | @errand b' e o t others carried here elsewhere before after beside own _ =>
    -- An entry that was there before is for the same task, if the place is held still.
    have kept (old : (p, k) ∈ (x.registry b).waiting)
        (prior : k.task = t → (b, p) ∉ e.prior?.toList.map (b', ·)) :
        (b, p) ∈ y.placesOf k.task := by
      have holds := wakers b p k old
      by_cases same : k.task = t
      · have prior := prior same
        rw [same] at holds ⊢
        rw [before.mem_iff, List.mem_append] at holds
        exact after.mem_iff.2 (List.mem_append_right _ (holds.resolve_left prior))
      · rw [beside _ same]
        exact holds
    by_cases bus : b = b'
    · subst bus
      rw [here] at there
      rcases (e.rearranges (effect_of_carried carried)).origin there with old | ⟨waker, new⟩
      · by_cases same : k.task = t
        · -- Somebody holds the place after the errand, and before it was this task.
          have queued : (y.registry b).isQueued p = true := by
            rw [here]
            exact Registry.isQueued_iff_mem_waiting.2 (List.mem_map_of_mem there)
          obtain ⟨t', holds⟩ := mem_held_iff.1 (sound'.held_of_isQueued queued)
          by_cases own : t' = t
          · rw [same, ← own]
            exact holds
          · rw [beside t' own] at holds
            rw [sound.holder_eq holds (wakers b p k old), beside t' own]
            exact holds
        · exact kept old fun own => absurd own same
      · rw [own k waker]
        exact after.mem_iff.2 (List.mem_append_left _ (List.mem_map_of_mem new))
    · rw [elsewhere b bus] at there
      refine kept there fun _ member => ?_
      obtain ⟨p', -, same⟩ := List.mem_map.1 member
      exact bus (congrArg Prod.fst same).symm

/-- Whoever is not queued any more was not before, or is about to be woken. An errand comes from no
such place. -/
theorem Trades.lapsed (trades : x.Trades y errand) (sound : x.Sound u)
    (wakers : ∀ b p k, (p, k) ∈ (x.registry b).waiting → (b, p) ∈ x.placesOf k.task)
    (holds : (b, p) ∈ y.placesOf t) (out : (y.registry b).isQueued p = false) :
    ((b, p) ∈ x.placesOf t ∧ (x.registry b).isQueued p = false ∧
      ∀ b' e, errand = some (b', e) → e.prior? = some p → b' ≠ b) ∨
    ∃ f ∈ y.stack, f.Attends t := by
  cases trades with
  | idle registry places =>
    rw [places] at holds
    rw [registry] at out
    exact .inl ⟨holds, out, nofun⟩
  | @errand b' e o t' others carried here elsewhere before after beside own wakes =>
    have ran := effect_of_carried carried
    have held : (b, p) ∈ x.placesOf t ∧ (e.prior? = some p → b' ≠ b) := by
      by_cases same : t = t'
      · subst same
        rw [after.mem_iff, List.mem_append] at holds
        rcases holds with new | old
        · obtain ⟨p', member, same⟩ := List.mem_map.1 new
          cases same
          rw [here, (e.rearranges ran).queued member] at out
          cases out
        · refine ⟨before.mem_iff.2 (List.mem_append_right _ old), fun prior bus => ?_⟩
          have distinct := sound.nodup_placesOf t
          rw [before.nodup_iff, prior, bus] at distinct
          exact (List.nodup_cons.1 distinct).1 old
      · rw [beside t same] at holds
        refine ⟨holds, fun prior bus => same ?_⟩
        have own : (b, p) ∈ x.placesOf t' := by
          rw [before.mem_iff, prior, bus]
          exact List.mem_append_left _ List.mem_cons_self
        exact sound.holder_eq own holds
    obtain ⟨holds, notPrior⟩ := held
    cases queued : (x.registry b).isQueued p with
    | false =>
      refine .inl ⟨holds, rfl, fun b'' e' same prior => ?_⟩
      cases same
      exact notPrior prior
    | true =>
      -- The entry is gone, so its waker is handed out.
      have bus : b = b' := by
        by_contra other
        rw [elsewhere b other, queued] at out
        cases out
      subst bus
      rw [here] at out
      obtain ⟨⟨p', k⟩, there, same⟩ :=
        List.mem_map.1 (Registry.mem_leaving_iff.2 ⟨queued, out⟩)
      have same : p' = p := same
      subst same
      have stays : e.givesUp p' = false := by
        rw [← Bool.not_eq_true]
        intro gives
        cases e with
        | abandon p'' =>
          rw [of_decide_eq_true gives] at notPrior
          exact notPrior rfl rfl
        | _ => cases gives
      have woken : k ∈ o.woken := by
        refine (e.wakes_leaving (sound.balanced b) ran).mem_iff.1 ?_
        exact List.mem_map_of_mem (a := (p', k)) (List.mem_filter.2 ⟨there, by simp [stays]⟩)
      have task : k.task = t :=
        sound.holder_eq holds (wakers b p' k (List.mem_filter.1 there).1)
      exact .inr ⟨_, wakes, k, woken, task⟩

end Executor

end MessageBus

import MessageBus.Executor.Step

/-!
# The order on the stack

A task that is in the middle of a turn has two frames on the stack, one right above the other: what
it does next, and its `leave`. Whatever lies above these two belongs to somebody else and is carried
out first. So a turn ends before its `leave` is reached, and no turn is ever broken off there.
-/

namespace MessageBus

/-- The task whose turn goes on with a frame. -/
def Frame.turn? : Frame → Option Nat
  | .proceed w => some w.task
  | .suspend t => some t
  | .complete (.task w) _ => some w.task
  | .receive w _ => some w.task
  | .adopt w _ => some w.task
  | .conclude w _ _ _ _ _ _ => some w.task
  | .finish t => some t
  | _ => none

/-- Whether a frame belongs to no turn. -/
def Frame.IsAside : Frame → Prop
  | .leave _ => False
  | f => f.turn? = none

/-- Whether a frame is of no turn, gives no bus free, and takes no place from a task. -/
def Frame.IsPlain : Frame → Prop
  | .leave _ => False
  | .release _ => False
  | .vacate _ => False
  | f => f.turn? = none

namespace Frame

variable {f : Frame} {t b : Nat}

theorem IsAside.turn_eq_none (aside : f.IsAside) : f.turn? = none := by
  cases f with
  | leave _ => exact aside.elim
  | _ => exact aside

theorem IsPlain.isAside (plain : f.IsPlain) : f.IsAside := by
  cases f with
  | leave _ => exact plain
  | release _ => exact plain.elim
  | vacate _ => exact plain.elim
  | _ => exact plain

theorem IsPlain.ne_release (plain : f.IsPlain) : f ≠ .release b := by
  rintro rfl
  exact plain

theorem IsPlain.ne_vacate (plain : f.IsPlain) : f ≠ .vacate t := by
  rintro rfl
  exact plain

/-- A frame of a turn is not one of nobody's. -/
theorem not_isAside_of_turn (own : f.turn? = some t) : ¬f.IsAside := by
  intro aside
  cases own.symm.trans aside.turn_eq_none

end Frame

/-- What holds of a task while one of its frames is next: the reply to an instruction comes after
its place was given up. There are `n` buses. -/
def Frame.Suits (n : Nat) (task : Task) : Frame → Prop
  | .complete _ _ => task.callPlace = none
  | .receive _ _ => task.callPlace = none
  | .adopt _ s => task.callPlace = none ∧ s.bus < n ∧ s.place = none
  | .conclude _ _ _ _ _ _ _ => task.callPlace = none
  | .finish _ => task.places = []
  | _ => True

/-- What a frame asks of its task is only that places were given up. -/
theorem Frame.Suits.imp {n : Nat} {task task' : Task} {f : Frame} (suits : f.Suits n task)
    (call : task.callPlace = none → task'.callPlace = none)
    (all : task.places = [] → task'.places = []) : f.Suits n task' := by
  cases f with
  | complete _ _ => exact call suits
  | receive _ _ => exact call suits
  | adopt _ _ => exact ⟨call suits.1, suits.2⟩
  | conclude _ _ _ _ _ _ _ => exact call suits
  | finish _ => exact all suits
  | _ => trivial

/-- A stack on which every task that is running is about to go on with its turn. -/
inductive Stacked (n : Nat) (tasks : List Task) : List Frame → Prop where
  | nil : Stacked n tasks []
  | aside {f rest} (aside : f.IsAside) (below : Stacked n tasks rest) : Stacked n tasks (f :: rest)
  | turn {f t task rest} (own : f.turn? = some t) (found : tasks[t]? = some task)
      (running : task.life = .running) (suits : f.Suits n task) (once : .leave t ∉ rest)
      (below : Stacked n tasks rest) :
    Stacked n tasks (f :: .leave t :: rest)

namespace Stacked

variable {n t : Nat} {tasks : List Task} {f : Frame} {frames rest : List Frame}

theorem asides (asides : ∀ f ∈ frames, f.IsAside) (below : Stacked n tasks rest) :
    Stacked n tasks (frames ++ rest) := by
  induction frames with
  | nil => exact below
  | cons f frames ih =>
    have first := asides f List.mem_cons_self
    exact .aside first (ih fun g member => asides g (List.mem_cons_of_mem _ member))

/-- A task whose turn has begun is running. -/
theorem running (stacked : Stacked n tasks rest) (begun : .leave t ∈ rest) :
    ∃ task, tasks[t]? = some task ∧ task.life = .running := by
  induction stacked with
  | nil => cases begun
  | aside aside _ ih =>
    rcases List.mem_cons.1 begun with rfl | later
    · exact absurd aside id
    · exact ih later
  | turn own found running _ _ _ ih =>
    rcases List.mem_cons.1 begun with rfl | later
    · cases own
    · rcases List.mem_cons.1 later with same | later
      · cases same
        exact ⟨_, found, running⟩
      · exact ih later

/-- A change to a task matters to its own turn only. -/
theorem set {task task' : Task} (stacked : Stacked n tasks rest) (found : tasks[t]? = some task)
    (same : .leave t ∈ rest → task'.life = task.life ∧
      ∀ f : Frame, f.Suits n task → f.Suits n task') :
    Stacked n (tasks.set t task') rest := by
  obtain ⟨inside, -⟩ := List.getElem?_eq_some_iff.1 found
  induction stacked with
  | nil => exact .nil
  | aside aside _ ih => exact .aside aside (ih fun later => same (List.mem_cons_of_mem _ later))
  | @turn f t' old rest own found' running suits once _ ih =>
    have below := ih fun later => same (List.mem_cons_of_mem _ (List.mem_cons_of_mem _ later))
    by_cases own' : t = t'
    · subst own'
      cases found.symm.trans found'
      obtain ⟨life, suit⟩ := same (List.mem_cons_of_mem _ List.mem_cons_self)
      exact .turn own (List.getElem?_set_self inside) (life.trans running) (suit f suits) once below
    · have kept : (tasks.set t task')[t']? = some old := by
        rw [List.getElem?_set_ne own']
        exact found'
      exact .turn own kept running suits once below

/-- A frame of a turn lies above the one that leaves it. -/
theorem leave_of_turn (stacked : Stacked n tasks rest) (member : f ∈ rest)
    (own : f.turn? = some t) : .leave t ∈ rest := by
  induction stacked with
  | nil => cases member
  | aside aside _ ih =>
    rcases List.mem_cons.1 member with rfl | later
    · exact absurd aside (Frame.not_isAside_of_turn own)
    · exact List.mem_cons_of_mem _ (ih later)
  | turn own' _ _ _ _ _ ih =>
    rcases List.mem_cons.1 member with rfl | later
    · cases own.symm.trans own'
      exact List.mem_cons_of_mem _ List.mem_cons_self
    · rcases List.mem_cons.1 later with rfl | later
      · cases own
      · exact List.mem_cons_of_mem _ (List.mem_cons_of_mem _ (ih later))

end Stacked

/-- The stack between two steps: either every task that is running goes on with its turn, or the
last turn has just ended and is left next. -/
def InOrder (n : Nat) (tasks : List Task) (stack : List Frame) : Prop :=
  Stacked n tasks stack ∨ ∃ t task rest, stack = .leave t :: rest ∧ tasks[t]? = some task ∧
    task.life ≠ .running ∧ Stacked n tasks rest

/-- Below a frame that is of no turn, the stack is in order. -/
theorem InOrder.below {n : Nat} {tasks : List Task} {f : Frame} {rest : List Frame}
    (order : InOrder n tasks (f :: rest)) (aside : f.IsAside) : Stacked n tasks rest := by
  rcases order with stacked | ⟨_, _, _, same, _⟩
  · cases stacked with
    | aside _ below => exact below
    | turn own _ _ _ _ _ => exact absurd aside (Frame.not_isAside_of_turn own)
  · cases same
    exact aside.elim

end MessageBus

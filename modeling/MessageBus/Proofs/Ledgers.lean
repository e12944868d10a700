import MessageBus.Proofs.Calls
import MessageBus.Proofs.Holders

/-!
# Entries and the places of tasks

The ledger of a run tells what became of the entries in its lines: which were made, which were
popped to be woken, and which were taken out by whoever gave up the place. It is written from what
is seen in the lines before and after a step, and beside that it counts the calls of wakers.

The entries in the lines are for the places that tasks hold and from which nobody was popped, one
for each. No entry is made twice, or leaves its line twice, and its waker is called once if it is
popped, and never if it is taken out (`entries_correspond_to_places`).
-/

namespace MessageBus

/-- An entry in the line of a bus: the bus, the place and the waker. -/
abbrev Entry : Type := Nat × Place × Waker

/-- What became of the entries of a run. -/
structure Ledger where
  /-- The places for which entries were made, with their buses. -/
  made : List (Nat × Place) := []
  /-- The entries that left their lines to be woken. -/
  popped : List Entry := []
  /-- The entries that left their lines when their places were given up. -/
  removed : List Entry := []
  /-- The wakers that were called before the log was begun. -/
  called : List Waker := []
  /-- The wakers of tasks that let the others go first. -/
  yielded : List Waker := []

/-- Enters what is seen after an errand. An entry that is gone was popped, unless the errand was to
give up its place. -/
def Ledger.enter (L : Ledger) (x y : Executor) : Option (Nat × Errand Waker) → Ledger
  | none => L
  | some (b, e) =>
    let gone := (x.registry b).leaving (y.registry b)
    let new := (y.registry b).leaving (x.registry b)
    { L with
      made := L.made ++ (new.map (·.1)).map (b, ·)
      popped := L.popped ++ (gone.filter (!e.givesUp ·.1)).map (b, ·)
      removed := L.removed ++ (gone.filter (e.givesUp ·.1)).map (b, ·) }

namespace Executor

variable {u : Usage} {resumed : Nat → Request → Place → Prop} {x y : Executor} {L : Ledger}
  {b : Nat} {p : Place} {errand : Option (Nat × Errand Waker)}

/-- The ledger after the next step. -/
def ledgerOfStep (x : Executor) (L : Ledger) : Ledger :=
  { L.enter x x.step x.errand? with yielded := L.yielded ++ x.yielding }

/-- The ledger after a request from outside, with which a new log is begun. -/
def ledgerOfAsk (x : Executor) (s : Step) (L : Ledger) : Ledger :=
  { L.enter x ({ x with log := [], answer := none }.ask s) s.errand? with
    called := L.called ++ wokenIn x.log }

/-- The runs, each with its ledger. -/
inductive Recorded (u : Usage) : Executor → Ledger → Prop where
  | new (inline : Bool) : Recorded u (new inline) {}
  | step {x : Executor} {L : Ledger} (recorded : Recorded u x L) :
    Recorded u x.step (x.ledgerOfStep L)
  | ask {x : Executor} {L : Ledger} {s : Step} (recorded : Recorded u x L) (idle : x.stack = [])
      (lawful : s.Lawful u x.buses.length) :
    Recorded u ({ x with log := [], answer := none }.ask s) (x.ledgerOfAsk s L)

/-! ### One bus -/

/-- What a ledger has of the entries on one bus. -/
structure Tallies (x : Executor) (L : Ledger) (b : Nat) : Prop where
  fates : ((onBus b L.popped ++ onBus b L.removed ++ (x.registry b).waiting).map (·.1)).Perm
    (onBus b L.made)
  once : ((onBus b L.made).map (·.ticket)).Nodup
  issued : ∀ p ∈ onBus b L.made, p.ticket.number < (x.registry b).nextTicket
  held : ∀ p ∈ x.held b, p ∈ onBus b L.made ∧ p ∉ (onBus b L.removed).map (·.1)

theorem Tallies.new (inline : Bool) (b : Nat) : Tallies (new inline) {} b := by
  have nothing : ((Executor.new inline).registry b).waiting = [] := by cases b <;> rfl
  refine ⟨?_, List.nodup_nil, List.forall_mem_nil _, List.forall_mem_nil _⟩
  rw [nothing]
  exact .refl _

/-- An entry that is new has a ticket that was not given out before. -/
theorem Goes.new_ticket (goes : Goes u resumed x y) (sound : x.Sound u) (sound' : y.Sound u)
    (new : p ∈ ((y.registry b).leaving (x.registry b)).map (·.1)) :
    p ∈ y.held b ∧ (x.registry b).nextTicket ≤ p.ticket.number := by
  obtain ⟨queued, out⟩ := Registry.mem_leaving_iff.1 new
  have holds := sound'.held_of_isQueued queued
  refine ⟨holds, ((goes.issues b).2 p holds).resolve_left fun old => ?_⟩
  cases out.symm.trans (goes.queued sound old queued)

/-- Entries that were popped or taken out were made, and no more stand in the lines. -/
theorem Tallies.mem_made (tallies : Tallies x L b) :
    p ∈ onBus b L.made ↔ p ∈ (onBus b L.popped).map (·.1) ∨ p ∈ (onBus b L.removed).map (·.1) ∨
      (x.registry b).isQueued p = true := by
  rw [← tallies.fates.mem_iff, List.map_append, List.map_append, List.mem_append, List.mem_append,
    or_assoc, Registry.isQueued_iff_mem_waiting]

/-- Every entry that was made is still in its line, or popped, or taken out. -/
theorem Tallies.fates_enter (tallies : Tallies x L b) (sound : x.Sound u) (sound' : y.Sound u)
    (e : Errand Waker) :
    ((onBus b (L.enter x y (some (b, e))).popped ++ onBus b (L.enter x y (some (b, e))).removed ++
      (y.registry b).waiting).map (·.1)).Perm (onBus b (L.enter x y (some (b, e))).made) := by
  let gone := (x.registry b).leaving (y.registry b)
  let new := (y.registry b).leaving (x.registry b)
  let popped := gone.filter (!e.givesUp ·.1)
  let removed := gone.filter (e.givesUp ·.1)
  have parts : (popped ++ removed).Perm gone :=
    List.perm_append_comm.trans (List.filter_append_perm (e.givesUp ·.1) gone)
  have whole : ((gone ++ (y.registry b).waiting).map (·.1)).Perm
      (((x.registry b).waiting ++ new).map (·.1)) := by
    rw [List.map_append, List.map_append]
    exact Registry.leaving_perm (sound.nodup_waiting b).of_map (sound'.nodup_waiting b).of_map
  have grouped : (onBus b L.popped ++ popped ++ (onBus b L.removed ++ removed) ++
      (y.registry b).waiting).Perm
        (onBus b L.popped ++ onBus b L.removed ++ (gone ++ (y.registry b).waiting)) := by
    simp only [List.append_assoc]
    refine .append_left _ ((List.perm_append_comm_assoc _ _ _).trans (.append_left _ ?_))
    rw [← List.append_assoc]
    exact parts.append_right _
  simp only [Ledger.enter, onBus_append, onBus_map_self]
  refine (grouped.map _).trans ?_
  rw [List.map_append]
  refine (whole.append_left _).trans ?_
  rw [← List.map_append, ← List.append_assoc, List.map_append]
  exact tallies.fates.append_right _

/-- A place that was given up is held no more. -/
theorem Trades.not_mem_removed {e : Errand Waker} (trades : x.Trades y (some (b, e)))
    (sound : x.Sound u) (holds : p ∈ y.held b) :
    p ∉ (((x.registry b).leaving (y.registry b)).filter (e.givesUp ·.1)).map (·.1) := by
  intro member
  obtain ⟨entry, there, rfl⟩ := List.mem_map.1 member
  obtain ⟨-, gives⟩ := List.mem_filter.1 there
  cases e with
  | abandon p' =>
    rw [← of_decide_eq_true gives] at holds
    cases trades with
    | @errand _ _ o t others carried _ _ before after beside _ _ =>
      have nothing : o.answer.places = [] := by
        cases effect_of_carried carried
        rfl
      have prior : (x.placesOf t).Perm ((b, p') :: others) := before
      rw [nothing] at after
      obtain ⟨t', holds⟩ := mem_held_iff.1 holds
      by_cases same : t' = t
      · subst same
        have distinct := sound.nodup_placesOf t'
        rw [prior.nodup_iff, List.nodup_cons] at distinct
        exact distinct.1 (after.mem_iff.1 holds)
      · have own : (b, p') ∈ x.placesOf t := prior.mem_iff.2 List.mem_cons_self
        exact same (sound.holder_eq own (beside t' same ▸ holds))
  | _ => cases gives

/-- What is entered about other buses changes nothing for a bus that stays as it is. -/
theorem Tallies.beside {L' : Ledger} (tallies : Tallies x L b) (sound : x.Sound u)
    (trades : x.Trades y errand) (registry : y.registry b = x.registry b)
    (made : onBus b L'.made = onBus b L.made) (popped : onBus b L'.popped = onBus b L.popped)
    (removed : onBus b L'.removed = onBus b L.removed) : Tallies y L' b where
  fates := by
    rw [made, popped, removed, registry]
    exact tallies.fates
  once := by
    rw [made]
    exact tallies.once
  issued := by
    rw [made, registry]
    exact tallies.issued
  held p holds := by
    rw [made, removed]
    refine tallies.held p ((trades.held_or_queued holds).elim id fun queued => ?_)
    exact sound.held_of_isQueued (registry ▸ queued)

/-- An errand on a bus leaves behind lines as the ledger has them. -/
theorem Tallies.enter_here {e : Errand Waker} (tallies : Tallies x L b) (sound : x.Sound u)
    (sound' : y.Sound u) (goes : Goes u resumed x y) (trades : x.Trades y (some (b, e))) :
    Tallies y (L.enter x y (some (b, e))) b := by
  have new := fun p => goes.new_ticket (p := p) (b := b) sound sound'
  -- The tickets of what was made before are smaller.
  have fresh {p p' : Place} (old : p ∈ onBus b L.made)
      (member : p' ∈ ((y.registry b).leaving (x.registry b)).map (·.1)) :
      p.ticket.number < p'.ticket.number :=
    Nat.lt_of_lt_of_le (tallies.issued p old) (new p' member).2
  have made : onBus b (L.enter x y (some (b, e))).made =
      onBus b L.made ++ ((y.registry b).leaving (x.registry b)).map (·.1) := by
    rw [Ledger.enter, onBus_append, onBus_map_self]
  refine ⟨tallies.fates_enter sound sound' e, ?_, fun p member => ?_, fun p holds => ?_⟩
  · rw [made, List.map_append, List.nodup_append]
    refine ⟨tallies.once, ?_, ?_⟩
    · exact (sound'.nodup_waiting b).sublist ((List.filter_sublist.map _).map _)
    · intro i old j member
      obtain ⟨p, there, rfl⟩ := List.mem_map.1 old
      obtain ⟨p', there', rfl⟩ := List.mem_map.1 member
      exact fun same => Nat.ne_of_lt (fresh there there') (congrArg Ticket.number same)
  · rw [made, List.mem_append] at member
    rcases member with old | member
    · exact Nat.lt_of_lt_of_le (tallies.issued p old) (goes.issues b).1
    · exact sound'.ticket_lt (new p member).1
  · have kept := trades.not_mem_removed sound holds
    rw [made, Ledger.enter, onBus_append, onBus_map_self, List.map_append, List.mem_append,
      List.mem_append, not_or]
    by_cases old : p ∈ x.held b
    · obtain ⟨there, stays⟩ := tallies.held p old
      exact ⟨.inl there, stays, kept⟩
    · have queued := (trades.held_or_queued holds).resolve_left old
      have out : (x.registry b).isQueued p = false := by
        rw [← Bool.not_eq_true]
        exact fun queued => old (sound.held_of_isQueued queued)
      have member := Registry.mem_leaving_iff.2 ⟨queued, out⟩
      refine ⟨.inr member, fun gone => ?_, kept⟩
      exact Nat.lt_irrefl _ (fresh (tallies.mem_made.2 (.inr (.inl gone))) member)

/-- An errand leaves behind lines as the ledger has them. -/
theorem Tallies.enter (tallies : Tallies x L b) (sound : x.Sound u) (sound' : y.Sound u)
    (goes : Goes u resumed x y) (trades : x.Trades y errand) :
    Tallies y (L.enter x y errand) b := by
  rcases errand with _ | ⟨b', e⟩
  · exact tallies.beside sound trades (trades.registry_eq nofun) rfl rfl rfl
  · by_cases bus : b' = b
    · subst bus
      exact tallies.enter_here sound sound' goes trades
    · refine tallies.beside sound trades (trades.registry_eq fun e' same => ?_) ?_ ?_ ?_
      · cases same
        exact bus rfl
      all_goals rw [Ledger.enter, onBus_append, onBus_map_of_ne bus, List.append_nil]

/-! ### Runs -/

/-- Of the entries that an errand popped, the wakers are those that it hands out. -/
theorem Trades.wakers_popped (trades : x.Trades y errand) (sound : x.Sound u) (L : Ledger) :
    ((L.enter x y errand).popped.map (·.2.2)).Perm
      (L.popped.map (·.2.2) ++ x.wokenBy errand) := by
  cases trades with
  | idle _ _ => exact .of_eq (List.append_nil _).symm
  | @errand b e o _ _ carried here _ _ _ _ _ _ =>
    have wakers := e.wakes_leaving (sound.balanced b) (effect_of_carried carried)
    rw [Ledger.enter, List.map_append, List.map_map, wokenBy, Option.bind_some, carried, here]
    exact wakers.append_left _

theorem Recorded.reachable (recorded : Recorded u x L) : x.Reachable u := by
  induction recorded with
  | new inline => exact reachable_new u inline
  | step _ ih => exact ih.next .step
  | ask _ idle lawful ih => exact ih.next (.ask idle lawful)

/-- Every run has its ledger. -/
theorem Reachable.exists_recorded (reachable : x.Reachable u) : ∃ L, Recorded u x L := by
  obtain ⟨inline, run⟩ := reachable
  induction run with
  | refl => exact ⟨_, .new inline⟩
  | tail _ next ih =>
    obtain ⟨L, recorded⟩ := ih
    cases next with
    | step => exact ⟨_, recorded.step⟩
    | ask idle lawful => exact ⟨_, recorded.ask idle lawful⟩

theorem Recorded.tallies (recorded : Recorded u x L) (b : Nat) : Tallies x L b := by
  induction recorded with
  | new inline => exact .new inline b
  | step recorded ih =>
    have sound := recorded.reachable.sound
    obtain ⟨sound', goes⟩ := sound.step
    have after := ih.enter sound sound' goes sound.trades_step
    exact ⟨after.fates, after.once, after.issued, after.held⟩
  | @ask x L s recorded idle lawful ih =>
    let cleared : Executor := { x with log := [], answer := none }
    have sound : cleared.Sound u := recorded.reachable.sound.cleared
    have before : Tallies cleared L b := ⟨ih.fates, ih.once, ih.issued, ih.held⟩
    have next : (cleared.ask s).Sound u ∧ Goes u (fun _ _ _ => False) cleared (cleared.ask s) :=
      sound.ask idle lawful
    obtain ⟨sound', goes⟩ := next
    have after := before.enter sound sound' goes (sound.trades_ask idle lawful)
    exact ⟨after.fates, after.once, after.issued, after.held⟩

/-- The wakers that were called or are due are those of the entries that were popped, beside those
of tasks that let the others go first. -/
theorem Recorded.calls (recorded : Recorded u x L) : (L.called ++ (wokenIn x.log ++ x.due)).Perm
    (L.popped.map (·.2.2) ++ L.yielded) := by
  induction recorded with
  | new inline => exact .refl _
  | @step x L recorded ih =>
    have sound := recorded.reachable.sound
    have calls := sound.calls_step
    have popped := sound.trades_step.wakers_popped sound L
    have unchanged : (x.ledgerOfStep L).called = L.called := by
      rw [ledgerOfStep]
      cases x.errand? <;> rfl
    rw [unchanged]
    show (L.called ++ (wokenIn x.step.log ++ x.step.due)).Perm
      ((L.enter x x.step x.errand?).popped.map (·.2.2) ++ (L.yielded ++ x.yielding))
    rw [List.perm_iff_count] at ih calls popped ⊢
    intro w
    have ih := ih w
    have calls := calls w
    have popped := popped w
    simp only [List.count_append] at ih calls popped ⊢
    omega
  | @ask x L s recorded idle lawful ih =>
    let cleared : Executor := { x with log := [], answer := none }
    have sound : cleared.Sound u := recorded.reachable.sound.cleared
    have calls := sound.calls_ask idle lawful
    have popped := (sound.trades_ask idle lawful).wakers_popped sound L
    have unchanged : (L.enter cleared (cleared.ask s) s.errand?).yielded = L.yielded := by
      cases s.errand? <;> rfl
    have none : wokenIn cleared.log = [] := rfl
    have due : x.due = [] := by
      rw [due, idle]
      rfl
    show (L.called ++ wokenIn x.log ++ (wokenIn (cleared.ask s).log ++ (cleared.ask s).due)).Perm
      ((L.enter cleared (cleared.ask s) s.errand?).popped.map (·.2.2) ++
        (L.enter cleared (cleared.ask s) s.errand?).yielded)
    rw [unchanged]
    rw [List.perm_iff_count] at ih calls popped ⊢
    intro w
    have ih := ih w
    have calls := calls w
    have popped := popped w
    simp only [List.count_append, due, none, List.count_nil] at ih calls popped ⊢
    omega

/-- The entries in the lines of an executor correspond to the places that its tasks hold, one to
one, and a ledger tells what became of all entries. -/
structure Corresponds (x : Executor) (L : Ledger) : Prop where
  /-- The entries on a bus are for the places held there from which nobody was popped, one for
  each. -/
  paired : ∀ b, ((x.registry b).waiting.map (·.1)).Perm
    ((x.held b).filter fun p => p ∉ (onBus b L.popped).map (·.1))
  /-- Such a place is in the line of its own side at its own channel, and in no other. -/
  stands : ∀ b, ∀ p ∈ x.held b, p ∉ (onBus b L.popped).map (·.1) →
    ((x.registry b).find? p.address).isSome = true ∧
      ∀ a c side, (x.registry b).find? a = some c →
        (p.ticket ∈ c.tickets side ↔ a = p.address ∧ side = p.side)
  /-- No ticket stands twice in the lines of a bus, or is held twice. -/
  single : ∀ b, (((x.registry b).waiting.map (·.1)).map (·.ticket)).Nodup ∧
    ((x.held b).map (·.ticket)).Nodup
  /-- An entry is for the call or the stream of a task, which is not over, unless it is about to
  give up the place. -/
  alive : ∀ b p, (x.registry b).isQueued p = true → ∃ t task, x.tasks[t]? = some task ∧
    (b, p) ∈ task.places ∧ (task.life = .ended → .vacate t ∈ x.stack)
  /-- When the reply of a call is there, its task holds no place for it any more. -/
  completed : ∀ w reply rest task, x.stack = .complete (.task w) reply :: rest →
    x.tasks[w.task]? = some task → task.callPlace = none
  /-- No ticket is used for two entries of a bus. -/
  once : ∀ b, ((onBus b L.made).map (·.ticket)).Nodup
  /-- Every entry that was made is still in its line, or it was popped or taken out, and that
  once. -/
  fates : ∀ b, ((onBus b L.popped ++ onBus b L.removed ++ (x.registry b).waiting).map (·.1)).Perm
    (onBus b L.made)
  /-- For every entry that was popped its waker was called, or is still to be called. Beside that
  wakers were called only by tasks that let the others go first. -/
  calls : (L.called ++ (wokenIn x.log ++ x.due)).Perm (L.popped.map (·.2.2) ++ L.yielded)

/-- Whoever holds a place is queued there unless he was popped. -/
theorem Recorded.isQueued_iff (recorded : Recorded u x L) (holds : p ∈ x.held b) :
    (x.registry b).isQueued p = true ↔ p ∉ (onBus b L.popped).map (·.1) := by
  have tallies := recorded.tallies b
  constructor
  · intro queued popped
    have single := (tallies.fates.nodup_iff).2 tallies.once.of_map
    rw [List.append_assoc, List.map_append, List.nodup_append] at single
    refine single.2.2 p popped p ?_ rfl
    rw [List.map_append]
    exact List.mem_append_right _ (Registry.isQueued_iff_mem_waiting.1 queued)
  · intro waits
    obtain ⟨made, stays⟩ := tallies.held p holds
    exact ((tallies.mem_made.1 made).resolve_left waits).resolve_left stays

/-- In every run the entries in the lines correspond to the places of tasks that wait. Each entry is
popped or taken out at most once, and its waker is called once in the one case and never in the
other. -/
theorem entries_correspond_to_places (recorded : Recorded u x L) : Corresponds x L where
  paired b := by
    refine (recorded.reachable.sound.waiting_perm b).trans (.of_eq (List.filter_congr ?_))
    intro p holds
    rw [Bool.eq_iff_iff, recorded.isQueued_iff holds, decide_eq_true_iff]
  stands b p holds waits := by
    have sound := recorded.reachable.sound
    obtain ⟨c, found, inside⟩ :=
      Registry.exists_of_isQueued ((recorded.isQueued_iff holds).2 waits)
    refine ⟨by rw [found]; rfl, fun a d side found' => ⟨fun there => ?_, ?_⟩⟩
    · have queued : (x.registry b).isQueued ⟨a, side, p.ticket⟩ = true :=
        (Registry.isQueued_of_find? found').2 there
      have same := sound.place_eq holds (sound.held_of_isQueued queued) rfl
      exact ⟨congrArg Place.address same, congrArg Place.side same⟩
    · rintro ⟨rfl, rfl⟩
      cases found.symm.trans found'
      exact inside
  single b := ⟨recorded.reachable.sound.nodup_waiting b, recorded.reachable.sound.nodup_tickets b⟩
  alive b p queued := by
    have sound := recorded.reachable.sound
    obtain ⟨t, holds⟩ := mem_held_iff.1 (sound.held_of_isQueued queued)
    obtain ⟨task, found⟩ := exists_of_mem_placesOf holds
    rw [placesOf_of_found found] at holds
    refine ⟨t, task, found, holds, fun ended => ?_⟩
    exact (sound.vacated t task found ended).resolve_left (List.ne_nil_of_mem holds)
  completed w reply rest task stack found := by
    obtain ⟨task', below, -, turn⟩ := recorded.reachable.sound.inTurn stack rfl
    cases found.symm.trans turn.found
    exact turn.suits
  once b := (recorded.tallies b).once
  fates b := (recorded.tallies b).fates
  calls := recorded.calls

/-- The ledger after so many small steps. -/
def ledgerWhile : Nat → Executor → Ledger → Ledger
  | 0, _, L => L
  | fuel + 1, x, L => if x.stack.isEmpty then L else ledgerWhile fuel x.step (x.ledgerOfStep L)

/-- The ledger after a script. -/
def ledgerOfScript (x : Executor) (L : Ledger) : List Step → Ledger
  | [] => L
  | s :: rest =>
    let asked := { x with log := [], answer := none }.ask s
    (x.carryOut s).ledgerOfScript (ledgerWhile asked.enough asked (x.ledgerOfAsk s L)) rest

theorem Recorded.settle (recorded : Recorded u x L) (fuel : Nat) :
    Recorded u (settle fuel x) (ledgerWhile fuel x L) := by
  induction fuel generalizing x L with
  | zero => exact recorded
  | succ fuel ih =>
    rw [settle_succ, ledgerWhile]
    split
    · exact recorded
    · exact ih recorded.step

theorem Recorded.runScript (recorded : Recorded u x L) {script : List Step}
    (obeys : x.Obeys u script) :
    Recorded u (x.runScript script).1 (x.ledgerOfScript L script) := by
  induction script generalizing x L with
  | nil => exact recorded
  | cons s rest ih =>
    obtain ⟨idle, lawful, later⟩ := obeys
    exact ih ((recorded.ask (List.isEmpty_iff.1 idle) lawful).settle _) later

/-- Three receives wait, one of them after it let the others go first. The second is dropped, and a
message comes for the first. -/
def receiversWait : List Step :=
  [.act 0 (.operate (.openChannel 1)), .spawn [⟨0, .call (.recv 0)⟩] false,
    .spawn [⟨0, .call (.recv 0)⟩] false, .spawn [⟨0, .yield⟩, ⟨0, .call (.recv 0)⟩] false,
    .run none, .act 0 (.drop 1), .act 0 (.operate (.trySend 0 7))]

theorem entries_of_receivers : ∃ L, Recorded .full ((new false).runScript receiversWait).1 L ∧
    Corresponds ((new false).runScript receiversWait).1 L ∧
      L.popped = [(0, ⟨⟨0, ⟨0⟩⟩, .receivers, ⟨0⟩⟩, ⟨0, 0⟩)] ∧
      L.removed = [(0, ⟨⟨0, ⟨0⟩⟩, .receivers, ⟨1⟩⟩, ⟨1, 0⟩)] ∧
      (((new false).runScript receiversWait).1.registry 0).waiting =
        [(⟨⟨0, ⟨0⟩⟩, .receivers, ⟨2⟩⟩, ⟨2, 0⟩)] ∧
      L.called ++ wokenIn ((new false).runScript receiversWait).1.log = [⟨2, 0⟩, ⟨0, 0⟩] := by
  have obeys : (new false).Obeys .full receiversWait := by decide +kernel
  have recorded := (Recorded.new (u := .full) false).runScript obeys
  exact ⟨_, recorded, entries_correspond_to_places recorded, by decide +kernel, by decide +kernel,
    by decide +kernel, by decide +kernel⟩

end Executor

end MessageBus

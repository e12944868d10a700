import MessageBus.Proofs.Outstanding
import MessageBus.Proofs.Trades

/-!
# Who holds a place

In a sound executor each place is held once, by one task (`Sound.holder_eq`), and whoever is queued
holds his place (`Sound.held_of_isQueued`). What is new among the places that are held has a ticket
that was not given out before, and is a place in a line (`Trades.held_or_queued`).
-/

namespace MessageBus

/-- Of things on different buses, those on one. -/
def onBus {α : Type} (b : Nat) (things : List (Nat × α)) : List α :=
  (things.filter (·.1 = b)).map (·.2)

section

variable {α : Type} {b b' : Nat}

theorem onBus_append (things more : List (Nat × α)) :
    onBus b (things ++ more) = onBus b things ++ onBus b more := by
  rw [onBus, List.filter_append, List.map_append]
  rfl

@[simp] theorem onBus_map_self (things : List α) : onBus b (things.map (b, ·)) = things := by
  rw [onBus, List.filter_map, List.map_map, List.filter_eq_self.2 fun thing _ => by simp]
  exact List.map_id things

theorem onBus_map_of_ne (other : b' ≠ b) (things : List α) : onBus b (things.map (b', ·)) = [] := by
  rw [onBus, List.filter_map, List.filter_eq_nil_iff.2 fun thing _ => by simp [other]]
  rfl

theorem mem_onBus_iff {things : List (Nat × α)} {thing : α} :
    thing ∈ onBus b things ↔ (b, thing) ∈ things := by
  rw [onBus, List.mem_map]
  constructor
  · rintro ⟨⟨b', thing⟩, member, rfl⟩
    obtain ⟨there, here⟩ := List.mem_filter.1 member
    rwa [← of_decide_eq_true here]
  · exact fun there => ⟨(b, thing), List.mem_filter.2 ⟨there, decide_eq_true rfl⟩, rfl⟩

end

namespace Registry

variable {ω : Type} {r r' : Registry ω} {held held' : List Stay} {u : Usage}
  {resumed : Request → Place → Prop}

theorem nextTicket_revisit (r : Registry ω) (p : Place) (k : ω) :
    (r.revisit p k).state.nextTicket = r.nextTicket := by
  rw [revisit]
  split
  · rfl
  · split <;> rfl

theorem nextTicket_abandon (r : Registry ω) (p : Place) :
    (r.abandon p).state.nextTicket = r.nextTicket := by
  rw [abandon]
  split
  · rfl
  · split <;> rfl

/-- Tickets are given out in order, and a place that is newly held has a new one. -/
theorem Moves.issues (moves : Moves u resumed r held r' held') :
    r.nextTicket ≤ r'.nextTicket ∧ ∀ s ∈ held', s.place ∈ held.map (·.place) ∨
      r.nextTicket ≤ s.place.ticket.number := by
  have old {more : List Stay} (sub : more ⊆ held) : ∀ s ∈ more, s.place ∈ held.map (·.place) ∨
      r.nextTicket ≤ s.place.ticket.number :=
    fun s member => .inl (List.mem_map_of_mem (sub member))
  cases moves with
  | rest => exact ⟨Nat.le_refl _, old (List.Subset.refl _)⟩
  | handled handles => exact ⟨Nat.le_of_eq handles.1.symm, old (List.Subset.refl _)⟩
  | granted _ _ granted =>
    exact ⟨Nat.le_of_eq granted.nextTicket.symm, old (List.subset_append_right _ _)⟩
  | gone _ => exact ⟨Nat.le_refl _, old (List.subset_cons_self _ _)⟩
  | parked _ _ _ _ _ =>
    exact ⟨Nat.le_succ _, List.forall_mem_cons.2
      ⟨.inr (Nat.le_refl _), old (List.subset_append_right _ _)⟩⟩
  | visited _ => exact ⟨Nat.le_of_eq (nextTicket_revisit r _ _).symm, old (List.Subset.refl _)⟩
  | abandoned =>
    exact ⟨Nat.le_of_eq (nextTicket_abandon r _).symm, old (List.subset_cons_self _ _)⟩
  | issued => exact ⟨Nat.le_succ _, old (List.Subset.refl _)⟩
  | waits _ _ =>
    exact ⟨Nat.le_succ _, List.forall_mem_cons.2
      ⟨.inr (Nat.le_refl _), old (List.Subset.refl _)⟩⟩
  | woke _ => exact ⟨Nat.le_refl _, old (List.subset_cons_self _ _)⟩

end Registry

namespace Executor

variable {u : Usage} {resumed : Nat → Request → Place → Prop} {x y : Executor} {t t' b : Nat}
  {p : Place} {task : Task} {errand : Option (Nat × Errand Waker)}

/-- The places that tasks hold on a bus. -/
def held (x : Executor) (b : Nat) : List Place := onBus b (x.tasks.flatMap (·.places))

theorem map_place_staysOn (x : Executor) (b : Nat) : (x.staysOn b).map (·.place) = x.held b := by
  rw [staysOn, held, onBus, List.map_flatMap, List.filter_flatMap, List.map_flatMap]
  congr 1
  funext task
  rw [Task.staysOn_eq_filter, ← Task.map_place_stays, List.filter_map, List.map_map, List.map_map]
  rfl

theorem exists_of_mem_placesOf {held : Nat × Place} (holds : held ∈ x.placesOf t) :
    ∃ task, x.tasks[t]? = some task := by
  rw [placesOf] at holds
  cases found : x.tasks[t]? with
  | none =>
    rw [found] at holds
    cases holds
  | some task => exact ⟨task, rfl⟩

theorem mem_held_iff : p ∈ x.held b ↔ ∃ t, (b, p) ∈ x.placesOf t := by
  rw [held, mem_onBus_iff, List.mem_flatMap]
  constructor
  · rintro ⟨task, member, holds⟩
    obtain ⟨t, found⟩ := List.getElem?_of_mem member
    exact ⟨t, (placesOf_of_found found).symm ▸ holds⟩
  · rintro ⟨t, holds⟩
    obtain ⟨task, found⟩ := exists_of_mem_placesOf holds
    rw [placesOf_of_found found] at holds
    exact ⟨task, List.mem_of_getElem? found, holds⟩

theorem Task.mem_map_place_staysOn : p ∈ (task.staysOn b).map (·.place) ↔ (b, p) ∈ task.places := by
  simp only [List.mem_map, Task.mem_staysOn_iff, ← Task.map_place_stays]
  constructor
  · rintro ⟨s, member, rfl⟩
    exact ⟨(b, s), member, rfl⟩
  · rintro ⟨⟨b', s⟩, member, same⟩
    cases same
    exact ⟨s, member, rfl⟩

/-- All tickets that are held on a bus are different. -/
theorem Sound.nodup_tickets (sound : x.Sound u) (b : Nat) :
    ((x.held b).map (·.ticket)).Nodup := by
  rw [← map_place_staysOn, List.map_map]
  exact (sound.balanced b).distinct

/-- Of two places that are held on a bus with one ticket, both are the same. -/
theorem Sound.place_eq (sound : x.Sound u) {p' : Place} (holds : p ∈ x.held b)
    (holds' : p' ∈ x.held b) (same : p'.ticket = p.ticket) : p' = p :=
  List.inj_on_of_nodup_map (sound.nodup_tickets b) holds' holds same

theorem Sound.ticket_lt (sound : x.Sound u) (holds : p ∈ x.held b) :
    p.ticket.number < (x.registry b).nextTicket := by
  rw [← map_place_staysOn, List.mem_map] at holds
  obtain ⟨s, member, rfl⟩ := holds
  exact (sound.balanced b).issued s member

/-- The entries on a bus are for those of the places held that are queued. -/
theorem Sound.waiting_perm (sound : x.Sound u) (b : Nat) :
    ((x.registry b).waiting.map (·.1)).Perm ((x.held b).filter (x.registry b).isQueued) := by
  rw [← map_place_staysOn]
  exact (sound.balanced b).waiting_perm

/-- No two entries on a bus have the same ticket. -/
theorem Sound.nodup_waiting (sound : x.Sound u) (b : Nat) :
    (((x.registry b).waiting.map (·.1)).map (·.ticket)).Nodup := by
  rw [((sound.waiting_perm b).map _).nodup_iff]
  exact (sound.nodup_tickets b).sublist (List.filter_sublist.map _)

theorem Sound.held_of_isQueued (sound : x.Sound u) (queued : (x.registry b).isQueued p = true) :
    p ∈ x.held b := by
  obtain ⟨c, found, inside⟩ := Registry.exists_of_isQueued queued
  rw [← map_place_staysOn]
  exact (sound.balanced b).owned p.address c p.side p.ticket found inside

/-- The tickets of a task are different, also from those of all others. -/
theorem Sound.nodup_staysOn (sound : x.Sound u) (found : x.tasks[t]? = some task) (b : Nat) :
    ((task.staysOn b).map (·.place.ticket)).Nodup ∧
      ∀ i ∈ (task.staysOn b).map (·.place.ticket),
        ∀ j ∈ (x.staysBeside t b).map (·.place.ticket), i ≠ j := by
  have distinct := (sound.balanced b).distinct
  rw [((x.staysOn_perm found b).map _).nodup_iff, List.map_append, List.nodup_append] at distinct
  exact ⟨distinct.1, distinct.2.2⟩

/-- A place is held by one task. -/
theorem Sound.holder_eq (sound : x.Sound u) (holds : (b, p) ∈ x.placesOf t)
    (holds' : (b, p) ∈ x.placesOf t') : t' = t := by
  by_contra other
  obtain ⟨task, found⟩ := exists_of_mem_placesOf holds
  obtain ⟨task', found'⟩ := exists_of_mem_placesOf holds'
  rw [placesOf_of_found found, ← Task.mem_map_place_staysOn] at holds
  rw [placesOf_of_found found', ← Task.mem_map_place_staysOn] at holds'
  obtain ⟨-, apart⟩ := sound.nodup_staysOn found b
  obtain ⟨s, own, rfl⟩ := List.mem_map.1 holds
  obtain ⟨s', own', same⟩ := List.mem_map.1 holds'
  refine apart _ (List.mem_map_of_mem own) _ (List.mem_map_of_mem (a := s') ?_)
    (congrArg Place.ticket same.symm)
  exact List.mem_flatMap.2 ⟨task', List.mem_eraseIdx_iff_getElem?.2 ⟨t', other, found'⟩, own'⟩

/-- A task holds no place twice. -/
theorem Sound.nodup_placesOf (sound : x.Sound u) (t : Nat) : (x.placesOf t).Nodup := by
  cases found : x.tasks[t]? with
  | none =>
    rw [placesOf, found]
    exact List.nodup_nil
  | some task =>
    rw [placesOf_of_found found, Task.places]
    cases call : task.callPlace with
    | none => cases task.streamPlace <;> simp
    | some held =>
      cases stream : task.streamPlace with
      | none => simp
      | some held' =>
        suffices other : held ≠ held' by simpa using other
        rintro rfl
        obtain ⟨b, p⟩ := held
        rw [← Task.map_place_callStay, Option.map_eq_some_iff] at call
        rw [← Task.map_place_streamStay, Option.map_eq_some_iff] at stream
        obtain ⟨⟨b, s⟩, call, same⟩ := call
        cases same
        obtain ⟨⟨b', s'⟩, stream, same⟩ := stream
        obtain ⟨rfl, place⟩ := Prod.ext_iff.1 same
        have distinct := (sound.nodup_staysOn found b').1
        rw [Task.staysOn, call, stream, staysIn_self, staysIn_self] at distinct
        have ticket : s'.place.ticket = s.place.ticket := congrArg Place.ticket place
        simp [ticket] at distinct

theorem Goes.issues (goes : Goes u resumed x y) (b : Nat) :
    (x.registry b).nextTicket ≤ (y.registry b).nextTicket ∧ ∀ p ∈ y.held b, p ∈ x.held b ∨
      (x.registry b).nextTicket ≤ p.ticket.number := by
  obtain ⟨held, held', before, moves, after⟩ := goes b
  obtain ⟨le, new⟩ := moves.issues
  refine ⟨le, fun p holds => ?_⟩
  rw [← map_place_staysOn] at holds ⊢
  obtain ⟨s, member, rfl⟩ := List.mem_map.1 holds
  refine (new s (after.mem_iff.2 member)).imp_left fun old => ?_
  exact (before.map _).mem_iff.2 old

/-- Nobody who holds a place gets back into its line. -/
theorem Goes.queued (goes : Goes u resumed x y) (sound : x.Sound u) (holds : p ∈ x.held b)
    (after : (y.registry b).isQueued p = true) : (x.registry b).isQueued p = true := by
  obtain ⟨held, held', before, moves, -⟩ := goes b
  rw [← map_place_staysOn] at holds
  obtain ⟨s, member, rfl⟩ := List.mem_map.1 holds
  exact moves.queued ((sound.balanced b).perm before) (before.mem_iff.1 member) after

/-! ### What an errand leaves of the places -/

theorem Trades.registry_eq (trades : x.Trades y errand) (beside : ∀ e, errand ≠ some (b, e)) :
    y.registry b = x.registry b := by
  cases trades with
  | idle registry _ => exact registry b
  | @errand b' e _ _ _ _ _ elsewhere _ _ _ _ _ =>
    exact elsewhere b fun same => beside e (same ▸ rfl)

/-- An entry that stands in a line after an errand stood there before, or the errand left it there
for a place that it came to. -/
theorem Trades.entry_cases {k : Waker} (trades : x.Trades y errand)
    (there : (p, k) ∈ (y.registry b).waiting) : (p, k) ∈ (x.registry b).waiting ∨
      ∃ e o, errand = some (b, e) ∧ x.carried b e = some o ∧ e.waker? = some k ∧
        p ∈ o.answer.places := by
  cases trades with
  | idle registry _ => exact .inl (registry b ▸ there)
  | @errand b' e o _ _ carried here elsewhere _ _ _ _ _ =>
    by_cases bus : b = b'
    · subst bus
      rw [here] at there
      refine ((e.rearranges (effect_of_carried carried)).origin there).imp_right fun new => ?_
      exact ⟨e, o, rfl, carried, new.1, new.2⟩
    · exact .inl (elsewhere b bus ▸ there)

/-- Whoever holds a place after an errand held it before, or is queued there. -/
theorem Trades.held_or_queued (trades : x.Trades y errand) (holds : p ∈ y.held b) :
    p ∈ x.held b ∨ (y.registry b).isQueued p = true := by
  obtain ⟨t', holds⟩ := mem_held_iff.1 holds
  cases trades with
  | idle registry places => exact .inl (mem_held_iff.2 ⟨t', places t' ▸ holds⟩)
  | @errand b' e o t others carried here elsewhere before after beside own wakes =>
    by_cases same : t' = t
    · subst same
      rcases List.mem_append.1 (after.mem_iff.1 holds) with new | old
      · obtain ⟨p', member, same⟩ := List.mem_map.1 new
        cases same
        rw [here]
        exact .inr ((e.rearranges (effect_of_carried carried)).queued member)
      · exact .inl (mem_held_iff.2 ⟨t', before.mem_iff.2 (List.mem_append_right _ old)⟩)
    · exact .inl (mem_held_iff.2 ⟨t', beside t' same ▸ holds⟩)

end Executor

end MessageBus

import MessageBus.Operation
import MessageBus.Proofs.Addresses
import MessageBus.Request

/-!
# A bus without one of its waiters

What a bus would be if one ticket had never been given out: nobody stands in a line with it, and all
later tickets have the number before their own (`Registry.leavingOut`). Nothing else is different.

A channel does the same without that waiter as with it, as long as the waiter is not woken: whoever
is first in a line, or among the first, is so without it. Only two questions are about whether
anybody waits at all. A broadcast that asks for a receiver on an empty channel gets the same answer
if the channel has a slot (`Channel.Hides`), and who counts the callers that wait counts one less.
-/

namespace MessageBus

variable {ω : Type}

/-- What a ticket would be if `t` had not been given out. -/
def Ticket.leavingOut (s t : Ticket) : Ticket :=
  if t.number < s.number then ⟨s.number - 1⟩ else s

def Place.leavingOut (p : Place) (t : Ticket) : Place := { p with ticket := p.ticket.leavingOut t }

def Waiter.leavingOut (w : Waiter ω) (t : Ticket) : Waiter ω :=
  { w with ticket := w.ticket.leavingOut t }

/-- The same callers in the same order, without the one with this ticket. -/
def WaitLine.leavingOut (l : WaitLine ω) (t : Ticket) : WaitLine ω :=
  ⟨(l.waiters.filter (·.ticket ≠ t)).map (·.leavingOut t)⟩

def Channel.leavingOut (c : Channel ω) (t : Ticket) : Channel ω :=
  { c with senders := c.senders.leavingOut t, receivers := c.receivers.leavingOut t }

/-- The same channels, as if one ticket had not been given out. -/
def Registry.leavingOut (r : Registry ω) (t : Ticket) : Registry ω :=
  { r with
    slots := r.slots.map (·.map (·.leavingOut t))
    nextTicket := r.nextTicket - 1 }

namespace Ticket

variable {s s' t : Ticket}

theorem leavingOut_of_lt (before : s.number < t.number) : s.leavingOut t = s :=
  if_neg (Nat.lt_asymm before)

/-- Two tickets that are left are as different as before. -/
theorem leavingOut_inj (other : s ≠ t) (other' : s' ≠ t) :
    s.leavingOut t = s'.leavingOut t ↔ s = s' := by
  obtain ⟨s⟩ := s
  obtain ⟨s'⟩ := s'
  obtain ⟨t⟩ := t
  simp only [ne_eq, Ticket.mk.injEq] at other other'
  simp only [leavingOut]
  split <;> split <;> simp only [Ticket.mk.injEq] <;> omega

/-- The order of the tickets that are left is that in which they were given out. -/
theorem leavingOut_lt_iff (other : s ≠ t) (other' : s' ≠ t) :
    (s.leavingOut t).number < (s'.leavingOut t).number ↔ s.number < s'.number := by
  obtain ⟨s⟩ := s
  obtain ⟨s'⟩ := s'
  obtain ⟨t⟩ := t
  simp only [ne_eq, Ticket.mk.injEq] at other other'
  simp only [leavingOut]
  split <;> split <;> simp only <;> omega

end Ticket

/-! ### Lines -/

namespace WaitLine

variable {l l' : WaitLine ω} {s t : Ticket} {k : ω}

theorem leavingOut_mk (ws : List (Waiter ω)) (t : Ticket) : (⟨ws⟩ : WaitLine ω).leavingOut t =
    ⟨(ws.filter (·.ticket ≠ t)).map (·.leavingOut t)⟩ := rfl

theorem leavingOut_cons_of_ne {w : Waiter ω} (other : w.ticket ≠ t) (rest : List (Waiter ω)) :
    (⟨w :: rest⟩ : WaitLine ω).leavingOut t =
      ⟨w.leavingOut t :: ((⟨rest⟩ : WaitLine ω).leavingOut t).waiters⟩ := by
  simp [leavingOut, other]

/-- A line in which nobody has the ticket stays as it is, but for the numbers. -/
theorem waiters_leavingOut_of_not_mem (out : t ∉ l.tickets) :
    (l.leavingOut t).waiters = l.waiters.map (·.leavingOut t) := by
  rw [leavingOut, List.filter_eq_self.2]
  intro w member
  refine decide_eq_true fun same => out ?_
  exact List.mem_map.2 ⟨w, member, same⟩

theorem size_leavingOut_of_not_mem (out : t ∉ l.tickets) : (l.leavingOut t).size = l.size := by
  rw [size, waiters_leavingOut_of_not_mem out, List.length_map]
  rfl

theorem contains_leavingOut (other : s ≠ t) :
    (l.leavingOut t).contains (s.leavingOut t) = l.contains s := by
  obtain ⟨ws⟩ := l
  rw [Bool.eq_iff_iff]
  simp only [contains, leavingOut_mk, List.any_map, List.any_filter, List.any_eq_true]
  refine exists_congr fun w => and_congr_right fun _ => ?_
  simp only [ne_eq, decide_not, Function.comp_apply, Waiter.leavingOut, Bool.and_eq_true,
    Bool.not_eq_true', decide_eq_false_iff_not, decide_eq_true_eq]
  constructor
  · rintro ⟨other', same⟩
    exact (Ticket.leavingOut_inj other' other).1 same
  · rintro rfl
    exact ⟨other, rfl⟩

theorem replaceWaker_leavingOut (other : s ≠ t) (ws : List (Waiter ω)) :
    replaceWaker (s.leavingOut t) k ((ws.filter (·.ticket ≠ t)).map (·.leavingOut t)) =
      (replaceWaker s k ws).map fun ws => (ws.filter (·.ticket ≠ t)).map (·.leavingOut t) := by
  induction ws with
  | nil => rfl
  | cons w rest ih =>
    by_cases left : w.ticket = t
    · have own : w.ticket ≠ s := fun same => other (same.symm.trans left)
      rw [List.filter_cons_of_neg (by simpa using left), ih, replaceWaker, if_neg own,
        Option.map_map]
      refine congrArg (Option.map · _) (funext fun ws => ?_)
      simp [left]
    · by_cases own : w.ticket = s
      · simp [replaceWaker, Waiter.leavingOut, own, other]
      · have own' : (w.leavingOut t).ticket ≠ s.leavingOut t := fun same =>
          own ((Ticket.leavingOut_inj left other).1 same)
        simp only [ne_eq, decide_not, left, decide_false, Bool.not_false, List.filter_cons_of_pos,
          List.map_cons, replaceWaker, own', if_false, own, Option.map_map]
        simp only [ne_eq, decide_not] at ih
        rw [ih, Option.map_map]
        refine congrArg (Option.map · _) (funext fun ws => ?_)
        simp [left]

theorem refresh?_leavingOut (other : s ≠ t) :
    (l.leavingOut t).refresh? (s.leavingOut t) k = (l.refresh? s k).map (·.leavingOut t) := by
  rw [refresh?, leavingOut, replaceWaker_leavingOut other, refresh?, Option.map_map, Option.map_map]
  rfl

theorem remove?_leavingOut (other : s ≠ t) :
    (l.leavingOut t).remove? (s.leavingOut t) = (l.remove? s).map (·.leavingOut t) := by
  rw [remove?, contains_leavingOut other, remove?]
  split
  · rw [Option.map_some, Option.some.injEq, WaitLine.mk.injEq]
    obtain ⟨ws⟩ := l
    simp only [leavingOut_mk]
    clear * - other
    induction ws with
    | nil => rfl
    | cons w rest ih =>
      by_cases left : w.ticket = t
      · have own : w.ticket ≠ s := fun same => other (same.symm.trans left)
        simpa [left, Ne.symm other] using ih
      · by_cases own : w.ticket = s
        · simp [Waiter.leavingOut, own, other]
        · have own' : (w.leavingOut t).ticket ≠ s.leavingOut t := fun same =>
            own ((Ticket.leavingOut_inj left other).1 same)
          simpa [left, own, own'] using ih
  · rfl

/-! Without a waiter it does not matter how it comes, what waker it leaves and how it goes. -/

theorem leavingOut_of_forall_lt (older : ∀ s ∈ l.tickets, s.number < t.number) :
    l.leavingOut t = l := by
  obtain ⟨ws⟩ := l
  have out : t ∉ (⟨ws⟩ : WaitLine ω).tickets := fun inside =>
    Nat.lt_irrefl _ (older t inside)
  refine congrArg WaitLine.mk ((waiters_leavingOut_of_not_mem out).trans ?_)
  refine (List.map_congr_left fun w member => ?_).trans (List.map_id ws)
  rw [Waiter.leavingOut, Ticket.leavingOut_of_lt (older _ (List.mem_map.2 ⟨w, member, rfl⟩))]
  rfl

theorem leavingOut_concat_self (ws : List (Waiter ω)) (t : Ticket) (k : ω) :
    (⟨ws ++ [⟨t, k⟩]⟩ : WaitLine ω).leavingOut t = (⟨ws⟩ : WaitLine ω).leavingOut t := by
  simp [leavingOut]

theorem leavingOut_of_refresh? (fresh : l.refresh? t k = some l') :
    l'.leavingOut t = l.leavingOut t := by
  obtain ⟨ws⟩ := l
  obtain ⟨ws', replaced, rfl⟩ := Option.map_eq_some_iff.1 fresh
  refine congrArg (fun ws : List (Waiter ω) => WaitLine.mk (ws.map (·.leavingOut t))) ?_
  clear fresh
  induction ws generalizing ws' with
  | nil => cases replaced
  | cons w rest ih =>
    simp only [replaceWaker] at replaced
    split at replaced
    · rename_i own
      cases replaced
      simp [own]
    · obtain ⟨later, found, rfl⟩ := Option.map_eq_some_iff.1 replaced
      rw [List.filter_cons, List.filter_cons, ih later found]

theorem leavingOut_of_remove? (gone : l.remove? t = some l') :
    l'.leavingOut t = l.leavingOut t := by
  rw [remove?] at gone
  split at gone
  · cases gone
    obtain ⟨ws⟩ := l
    refine congrArg (fun ws : List (Waiter ω) => WaitLine.mk (ws.map (·.leavingOut t))) ?_
    clear *-
    induction ws with
    | nil => rfl
    | cons w rest ih =>
      by_cases own : w.ticket = t
      · simp [own]
      · simpa [own] using ih
  · cases gone

/-! A waiter that is not woken changes nothing for those who are. -/

theorem wakeFirst_leavingOut (single : l.tickets.Nodup)
    (keeps : t ∈ l.tickets → t ∈ l.wakeFirst.1.tickets) :
    (l.leavingOut t).wakeFirst = (l.wakeFirst.1.leavingOut t, l.wakeFirst.2) := by
  rcases l with ⟨_ | ⟨w, rest⟩⟩
  · rfl
  · have other : w.ticket ≠ t := by
      rintro rfl
      exact (List.nodup_cons.1 single).1 (keeps List.mem_cons_self)
    rw [leavingOut_cons_of_ne other]
    rfl

theorem wakeUpTo_leavingOut (single : l.tickets.Nodup) {n : Nat}
    (keeps : t ∈ l.tickets → t ∈ (l.wakeUpTo n).1.tickets) :
    (l.leavingOut t).wakeUpTo n = ((l.wakeUpTo n).1.leavingOut t, (l.wakeUpTo n).2) := by
  induction n generalizing l with
  | zero => rfl
  | succ n ih =>
    rcases l with ⟨_ | ⟨w, rest⟩⟩
    · rfl
    · obtain ⟨new, single⟩ := List.nodup_cons.1 single
      have other : w.ticket ≠ t := by
        rintro rfl
        have kept := keeps List.mem_cons_self
        rw [tickets_wakeUpTo] at kept
        exact new (List.mem_of_mem_drop kept)
      have later := @ih ⟨rest⟩ single fun inside => keeps (List.mem_cons_of_mem _ inside)
      rw [leavingOut_cons_of_ne other]
      simp only [wakeUpTo, wakeFirst, later]
      rfl

theorem wakeAll_leavingOut (out : t ∉ l.tickets) : (l.leavingOut t).wakeAll = l.wakeAll := by
  rw [wakeAll, waiters_leavingOut_of_not_mem out, List.map_map]
  rfl

end WaitLine

/-! ### Channels -/

namespace Channel

variable {c c' : Channel ω} {t : Ticket} {side : Side}

@[simp] theorem line_leavingOut (c : Channel ω) (t : Ticket) (side : Side) :
    (c.leavingOut t).line side = (c.line side).leavingOut t := by
  cases side <;> rfl

theorem setLine_leavingOut (c : Channel ω) (t : Ticket) (side : Side) (l : WaitLine ω) :
    (c.leavingOut t).setLine side (l.leavingOut t) = (c.setLine side l).leavingOut t := by
  cases side <;> rfl

@[simp] theorem hasSpace_leavingOut (c : Channel ω) (t : Ticket) :
    (c.leavingOut t).hasSpace = c.hasSpace := rfl

/-- Whoever has the ticket is not woken. -/
def Keeps (c c' : Channel ω) (t : Ticket) : Prop :=
  ∀ side, t ∈ c.tickets side → t ∈ c'.tickets side

/-- A waiter may be left out of a channel without anybody seeing it: no two have the same ticket,
and it does not wait for messages where only a broadcast can bring one. -/
structure Hides (c : Channel ω) (t : Ticket) : Prop where
  single : ∀ side, (c.tickets side).Nodup
  roomy : t ∈ c.tickets .receivers → 0 < c.capacity

theorem Keeps.queue (keeps : c.Keeps c' t) (q : Fifo Message) :
    Keeps { c with queue := q } c' t :=
  fun side inside => keeps side (by cases side <;> exact inside)

/-- Of two changes, each lets a waiter stay that both let stay. -/
theorem Keeps.split {d : Channel ω} (first : c.Shrinks d) (next : d.Shrinks c')
    (keeps : c.Keeps c' t) : c.Keeps d t ∧ d.Keeps c' t :=
  ⟨fun side inside => (next.2 side).subset (keeps side inside),
    fun side inside => keeps side ((first.2 side).subset inside)⟩

theorem Hides.queue (hides : c.Hides t) (q : Fifo Message) : Hides { c with queue := q } t where
  single
    | .senders => hides.single .senders
    | .receivers => hides.single .receivers
  roomy := hides.roomy

/-- Whoever is hidden stays hidden where others leave their lines. -/
theorem Hides.shrinks (hides : c.Hides t) (shrinks : c.Shrinks c')
    (capacity : c'.capacity = c.capacity) : c'.Hides t where
  single side := (hides.single side).sublist (shrinks.2 side)
  roomy inside := by
    rw [capacity]
    exact hides.roomy ((shrinks.2 _).subset inside)

theorem wakeFirst_leavingOut (hides : c.Hides t) (keeps : c.Keeps (c.wakeFirst side).1 t) :
    (c.leavingOut t).wakeFirst side =
      ((c.wakeFirst side).1.leavingOut t, (c.wakeFirst side).2) := by
  have keeps := keeps side
  rw [tickets, tickets, wakeFirst, line_setLine] at keeps
  rw [wakeFirst, line_leavingOut, WaitLine.wakeFirst_leavingOut (hides.single side) keeps,
    setLine_leavingOut]
  rfl

/-! #### Sending -/

theorem commit_leavingOut {m : Message} {cascade : Bool} (hides : c.Hides t)
    (keeps : c.Keeps (c.commit m cascade).1 t) : (c.leavingOut t).commit m cascade =
      ((c.commit m cascade).1.leavingOut t, (c.commit m cascade).2) := by
  have sent (keeps : c.Keeps (c.commit m false).1 t) : (c.leavingOut t).commit m false =
      ((c.commit m false).1.leavingOut t, (c.commit m false).2) :=
    wakeFirst_leavingOut (hides.queue _) (keeps.queue _)
  cases cascade with
  | false => exact sent keeps
  | true =>
    have first := c.becomes_commit m
    obtain ⟨before, after⟩ := keeps.split first.shrinks (shrinks_wakeFirst _ .senders)
    have next := wakeFirst_leavingOut (hides.shrinks first.shrinks first.capacity) after
    show ((((c.leavingOut t).commit m false).1.wakeFirst .senders).1,
      ((c.leavingOut t).commit m false).2 ++
        (((c.leavingOut t).commit m false).1.wakeFirst .senders).2) = _
    rw [sent before, next]
    rfl

theorem trySend_leavingOut {m : Message} (hides : c.Hides t)
    (keeps : c.Keeps (c.trySend m).state t) :
    (c.leavingOut t).trySend m = (c.trySend m).within (·.leavingOut t) := by
  cases space : c.hasSpace with
  | false =>
    rw [trySend_of_full space, trySend_of_full ((c.hasSpace_leavingOut t).trans space)]
    rfl
  | true =>
    rw [(trySend_of_hasSpace space).2] at keeps
    have sent := commit_leavingOut hides keeps
    rw [trySend, trySend, hasSpace_leavingOut, if_pos space, if_pos space]
    exact congrArg (fun woken : Channel ω × List ω =>
      ({ answer := .ok (), state := woken.1, woken := woken.2 } :
        Outcome (Channel ω) ω (Except BusError Unit))) sent

theorem sendStep_leavingOut {m : Message} (hides : c.Hides t)
    (keeps : c.Keeps (c.sendStep m).state t) :
    (c.leavingOut t).sendStep m = (c.sendStep m).within (·.leavingOut t) := by
  cases space : c.hasSpace with
  | false =>
    rw [sendStep_of_full space, sendStep_of_full ((c.hasSpace_leavingOut t).trans space)]
    rfl
  | true =>
    rw [(sendStep_of_hasSpace space).2] at keeps
    have sent := commit_leavingOut hides keeps
    have step (d : Channel ω) (space : d.hasSpace = true) : d.sendStep m =
        { answer := true, state := (d.commit m true).1, woken := (d.commit m true).2 } := by
      simp [sendStep, trySend, space, commit]
    rw [step _ space, step _ ((c.hasSpace_leavingOut t).trans space), sent]
    rfl

theorem trySendMany_leavingOut {ms : List Message} (hides : c.Hides t)
    (keeps : c.Keeps (c.trySendMany ms).state t) :
    (c.leavingOut t).trySendMany ms = (c.trySendMany ms).within (·.leavingOut t) := by
  rw [trySendMany, trySendMany]
  by_cases full : c.freeSlots = 0
  · have full' : (c.leavingOut t).freeSlots = 0 := full
    rw [if_pos full, if_pos full']
    rfl
  · have full' : (c.leavingOut t).freeSlots ≠ 0 := full
    rw [trySendMany, if_neg full] at keeps
    rw [if_neg full, if_neg full']
    have fitting : (c.leavingOut t).fitting ms = c.fitting ms := rfl
    simp only [fitting] at keeps ⊢
    generalize c.fitting ms = count at keeps ⊢
    let sent : Channel ω :=
      { c with
        queue := c.queue.pushMany (ms.take count)
        receivers := (c.receivers.wakeUpTo count).1 }
    have smaller : c.Shrinks sent := by
      refine ⟨rfl, fun side => ?_⟩
      cases side with
      | senders => exact List.Sublist.refl _
      | receivers =>
        show (c.receivers.wakeUpTo count).1.tickets.Sublist c.receivers.tickets
        rw [WaitLine.tickets_wakeUpTo]
        exact List.drop_sublist _ _
    obtain ⟨before, after⟩ := Keeps.split smaller (sent.shrinks_wakeFirst .senders) keeps
    have many := WaitLine.wakeUpTo_leavingOut (hides.single .receivers) (before .receivers)
    have next := wakeFirst_leavingOut (hides.shrinks smaller rfl) after
    have many : (c.leavingOut t).receivers.wakeUpTo count = _ := many
    rw [many]
    exact congrArg (fun next : Channel ω × List ω =>
      ({ answer := .ok count, state := next.1, woken := (c.receivers.wakeUpTo count).2 ++ next.2 } :
        Outcome (Channel ω) ω (Except BusError Nat))) next

/-! #### Receiving -/

theorem tryRecv_leavingOut (hides : c.Hides t) (keeps : c.Keeps c.tryRecv.state t) :
    (c.leavingOut t).tryRecv = c.tryRecv.within (·.leavingOut t) := by
  have queue : (c.leavingOut t).queue = c.queue := rfl
  rw [tryRecv] at keeps
  rw [tryRecv, tryRecv, queue]
  cases popped : c.queue.pop? with
  | none => rfl
  | some taken =>
    rw [popped] at keeps
    have next := wakeFirst_leavingOut (hides.queue taken.2) (keeps.queue _)
    exact congrArg (fun woken : Channel ω × List ω =>
      ({ answer := .ok taken.1, state := woken.1, woken := woken.2 } :
        Outcome (Channel ω) ω (Except BusError Message))) next

theorem tryRecvMany_leavingOut {limit : Nat}
    {o : Outcome (Channel ω) ω (Except BusError (List Message))} (hides : c.Hides t)
    (ran : c.tryRecvMany limit = .ok o) (keeps : c.Keeps o.state t) :
    (c.leavingOut t).tryRecvMany limit = .ok (o.within (·.leavingOut t)) := by
  have queue : (c.leavingOut t).queue = c.queue := rfl
  rw [tryRecvMany] at ran
  rw [tryRecvMany, queue]
  split at ran
  · rename_i empty
    cases ran
    rw [if_pos empty]
    rfl
  · rename_i some
    rw [if_neg some]
    cases popped : c.queue.popMany (min limit c.queue.size) with
    | error fault =>
      rw [popped] at ran
      cases ran
    | ok taken =>
      rw [popped] at ran
      cases ran
      have next := wakeFirst_leavingOut (hides.queue taken.2) (keeps.queue _)
      exact congrArg (fun woken : Channel ω × List ω => Except.ok
        ({ answer := .ok taken.1, state := woken.1, woken := woken.2 } :
          Outcome (Channel ω) ω (Except BusError (List Message)))) next

theorem passOnLeftovers_leavingOut (hides : c.Hides t) (keeps : c.Keeps c.passOnLeftovers.1 t) :
    (c.leavingOut t).passOnLeftovers =
      (c.passOnLeftovers.1.leavingOut t, c.passOnLeftovers.2) := by
  have queue : (c.leavingOut t).queue = c.queue := rfl
  rw [passOnLeftovers] at keeps
  rw [passOnLeftovers, passOnLeftovers, queue]
  split
  · rfl
  · rename_i left
    rw [if_neg left] at keeps
    exact wakeFirst_leavingOut hides keeps

theorem recvManyStep_leavingOut {limit : Nat}
    {o : Outcome (Channel ω) ω (Except BusError (List Message))} (hides : c.Hides t)
    (ran : c.recvManyStep limit = .ok o) (keeps : c.Keeps o.state t) :
    (c.leavingOut t).recvManyStep limit = .ok (o.within (·.leavingOut t)) := by
  by_cases some : 0 < c.queue.size
  · obtain ⟨p, ms, taken, answer, becomes⟩ := becomes_tryRecvMany some limit
    simp only [recvManyStep, taken, Except.map, answer] at ran
    cases ran
    have later : p.state.Shrinks p.state.passOnLeftovers.1 := by
      rw [passOnLeftovers]
      split
      · exact .refl _
      · exact shrinks_wakeFirst _ _
    obtain ⟨before, after⟩ := keeps.split becomes.shrinks later
    have next := passOnLeftovers_leavingOut (hides.shrinks becomes.shrinks becomes.capacity) after
    simp only [recvManyStep, tryRecvMany_leavingOut hides taken before, Except.map,
      Outcome.answer_within, answer, Outcome.state_within, Outcome.woken_within, next]
    rfl
  · have empty : c.queue.size = 0 := by omega
    have empty' : (c.leavingOut t).queue.size = 0 := empty
    rw [recvManyStep_of_empty empty] at ran
    rw [recvManyStep_of_empty empty']
    cases ran
    rfl

/-! #### Broadcasts and waiting -/

/-- A hidden waiter is not what a broadcast waits for. -/
theorem acceptsBroadcast_leavingOut (hides : c.Hides t) :
    (c.leavingOut t).acceptsBroadcast = c.acceptsBroadcast := by
  have queue : (c.leavingOut t).queue = c.queue := rfl
  rw [acceptsBroadcast, acceptsBroadcast, hasSpace_leavingOut, queue]
  cases space : c.hasSpace with
  | true => rfl
  | false =>
    by_cases waits : t ∈ c.tickets .receivers
    · -- Where it waits for messages there is a slot as long as nothing is buffered.
      have roomy := hides.roomy waits
      have buffered : c.queue.isEmpty = false := by
        rw [← Bool.not_eq_true, Fifo.isEmpty_iff_size]
        intro empty
        rw [hasSpace, empty] at space
        simp [roomy] at space
      rw [buffered]
      rfl
    · have same : (c.leavingOut t).receivers.isEmpty = c.receivers.isEmpty := by
        show (c.receivers.leavingOut t).waiters.isEmpty = c.receivers.waiters.isEmpty
        rw [WaitLine.waiters_leavingOut_of_not_mem (l := c.receivers) waits, List.isEmpty_map]
      rw [same]

theorem receiverParked_leavingOut (keeps : c.Keeps c.receiverParked.1 t) :
    (c.leavingOut t).receiverParked = (c.receiverParked.1.leavingOut t, c.receiverParked.2) := by
  have queue : (c.leavingOut t).queue = c.queue := rfl
  rw [receiverParked] at keeps
  rw [receiverParked, receiverParked, queue, hasSpace_leavingOut]
  split
  · rename_i opens
    rw [if_pos opens] at keeps
    have out : t ∉ c.senders.tickets := fun inside => by cases keeps .senders inside
    have woken : (c.leavingOut t).senders.wakeAll = c.senders.wakeAll :=
      WaitLine.wakeAll_leavingOut out
    rw [woken]
    rfl
  · rfl

/-- Where nobody has the ticket, the end of a channel wakes the same callers. -/
theorem close_leavingOut (out : ∀ side, t ∉ c.tickets side) :
    (c.leavingOut t).close = c.close := by
  have receivers : (c.leavingOut t).receivers.wakeAll = c.receivers.wakeAll :=
    WaitLine.wakeAll_leavingOut (out .receivers)
  have senders : (c.leavingOut t).senders.wakeAll = c.senders.wakeAll :=
    WaitLine.wakeAll_leavingOut (out .senders)
  rw [close, close, receivers, senders]

end Channel

end MessageBus

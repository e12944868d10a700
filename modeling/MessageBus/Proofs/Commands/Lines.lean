import MessageBus.Proofs.Commands
import MessageBus.Proofs.WaitEntries
import MessageBus.WaitLine.Command

/-!
# What comes to pass in a line

Four things come to pass in a waiting line: somebody comes, leaves another waker, is taken out, or
is called (`Incident`). The incidents alone tell how the callers stand now (`Unfolds`), who of them
came and has not gone since (`Stands`), and what became of each waker that was left with the line.

Main statement: whatever commands a line was given since it was empty, it answers, changes and hands
out wakers as its incidents ask for (`Account.Reflects`).
-/

namespace MessageBus.WaitLine

open scoped List

variable {ω : Type}

/-- What can come to pass in a line. -/
inductive Incident (ω : Type) where
  /-- Somebody came and went to the end. -/
  | came (w : Waiter ω)
  /-- Somebody who stood there left another waker. -/
  | renewed (w : Waiter ω) (k : ω)
  /-- Somebody was taken out and will not be called. -/
  | left (w : Waiter ω)
  /-- Somebody was called. -/
  | called (w : Waiter ω)

namespace Incident

/-- What an incident makes of those who stand in a line. All others keep their places. -/
inductive Acts : Incident ω → List (Waiter ω) → List (Waiter ω) → Prop
  | came {ws : List (Waiter ω)} {w : Waiter ω} (new : w.ticket ∉ ws.map (·.ticket)) :
    Acts (.came w) ws (ws ++ [w])
  | renewed {front back : List (Waiter ω)} {w : Waiter ω} {k : ω} :
    Acts (.renewed w k) (front ++ w :: back) (front ++ ⟨w.ticket, k⟩ :: back)
  | left {front back : List (Waiter ω)} {w : Waiter ω} :
    Acts (.left w) (front ++ w :: back) (front ++ back)
  | called {w : Waiter ω} {ws : List (Waiter ω)} : Acts (.called w) (w :: ws) ws

/-- Whether an incident ends the stay under a ticket. -/
def Ends (t : Ticket) : Incident ω → Prop
  | .left w | .called w => w.ticket = t
  | .came _ | .renewed _ _ => False

/-- Who comes. -/
def arrival : Incident ω → List (Waiter ω)
  | .came w => [w]
  | .renewed _ _ | .left _ | .called _ => []

/-- The waker that is left with a line, and the ticket under which it is left. -/
def brought : Incident ω → List (Waiter ω)
  | .came w => [w]
  | .renewed w k => [⟨w.ticket, k⟩]
  | .left _ | .called _ => []

/-- The waker that makes room for another one. -/
def replaced : Incident ω → List (Waiter ω)
  | .renewed w _ => [w]
  | .came _ | .left _ | .called _ => []

/-- Who is taken out. -/
def takenOut : Incident ω → List (Waiter ω)
  | .left w => [w]
  | .came _ | .renewed _ _ | .called _ => []

/-- Who is called. -/
def callee : Incident ω → List (Waiter ω)
  | .called w => [w]
  | .came _ | .renewed _ _ | .left _ => []

/-- The wakers that are with the line no longer. -/
def gone (e : Incident ω) : List (Waiter ω) := e.replaced ++ e.takenOut ++ e.callee

end Incident

/-- What incidents, one after the other, make of those who stand in a line. -/
inductive Unfolds : List (Incident ω) → List (Waiter ω) → List (Waiter ω) → Prop
  | nil {ws : List (Waiter ω)} : Unfolds [] ws ws
  | cons {e : Incident ω} {es : List (Incident ω)} {ws mid ws' : List (Waiter ω)} :
    e.Acts ws mid → Unfolds es mid ws' → Unfolds (e :: es) ws ws'

/-- Whether somebody came under a ticket, and has since been neither taken out nor called. -/
def Stands (es : List (Incident ω)) (t : Ticket) : Prop :=
  ∃ past w since, es = past ++ .came w :: since ∧ w.ticket = t ∧ ∀ e ∈ since, ¬e.Ends t

/-! ### Incidents, one after the other -/

section

variable {e : Incident ω} {es es' : List (Incident ω)} {ws mid ws' : List (Waiter ω)} {t : Ticket}

theorem Unfolds.single (acts : e.Acts ws ws') : Unfolds [e] ws ws' := .cons acts .nil

theorem Unfolds.append (first : Unfolds es ws mid) (later : Unfolds es' mid ws') :
    Unfolds (es ++ es') ws ws' := by
  induction first with
  | nil => exact later
  | cons acts _ ih => exact .cons acts (ih later)

/-- Everybody may be called, one after the other. -/
theorem unfolds_calls (ws : List (Waiter ω)) : Unfolds (ws.map .called) ws [] := by
  induction ws with
  | nil => exact .nil
  | cons w ws ih => exact .cons .called ih

/-- Such calls reach the callers in the order of the line. -/
theorem callee_calls (ws : List (Waiter ω)) :
    (ws.map Incident.called).flatMap (·.callee) = ws := by
  induction ws with
  | nil => rfl
  | cons w ws ih => exact congrArg (w :: ·) ih

/-- Where no ticket stands twice, the ticket of one caller is not that of another. -/
theorem ticket_not_mem_others {front back : List (Waiter ω)} {w : Waiter ω}
    (single : ((front ++ w :: back).map (·.ticket)).Nodup) :
    w.ticket ∉ (front ++ back).map (·.ticket) := by
  rw [List.map_append, List.map_cons, List.nodup_middle, List.nodup_cons, ← List.map_append]
    at single
  exact single.1

theorem Incident.Acts.nodup (acts : e.Acts ws ws') (single : (ws.map (·.ticket)).Nodup) :
    (ws'.map (·.ticket)).Nodup := by
  cases acts with
  | came new =>
    rw [List.map_append]
    exact List.nodup_append_comm.1 (List.nodup_cons.2 ⟨new, single⟩)
  | renewed => simpa using single
  | @left front back w =>
    exact single.sublist (((List.sublist_cons_self w back).append_left front).map _)
  | called => exact (List.nodup_cons.1 single).2

theorem Unfolds.nodup (story : Unfolds es ws ws') (single : (ws.map (·.ticket)).Nodup) :
    (ws'.map (·.ticket)).Nodup := by
  induction story with
  | nil => exact single
  | cons acts _ ih => exact ih (acts.nodup single)

theorem stands_cons : Stands (e :: es) t ↔
    (∃ w, e = .came w ∧ w.ticket = t ∧ ∀ e ∈ es, ¬e.Ends t) ∨ Stands es t := by
  constructor
  · rintro ⟨past, w, since, whole, ticket, stays⟩
    rcases past with _ | ⟨first, past⟩
    · obtain ⟨rfl, rfl⟩ := List.cons.inj whole
      exact .inl ⟨w, rfl, ticket, stays⟩
    · obtain ⟨-, rfl⟩ := List.cons.inj whole
      exact .inr ⟨past, w, since, rfl, ticket, stays⟩
  · rintro (⟨w, rfl, ticket, stays⟩ | ⟨past, w, since, rfl, ticket, stays⟩)
    · exact ⟨[], w, es, rfl, ticket, stays⟩
    · exact ⟨e :: past, w, since, rfl, ticket, stays⟩

/-- Who stands in a line after one incident. -/
theorem Incident.Acts.mem_tickets_iff (acts : e.Acts ws ws')
    (single : (ws.map (·.ticket)).Nodup) (t : Ticket) :
    t ∈ ws'.map (·.ticket) ↔
      (∃ w, e = .came w ∧ w.ticket = t) ∨ (t ∈ ws.map (·.ticket) ∧ ¬e.Ends t) := by
  cases acts with
  | came => simp [Ends, or_comm, eq_comm]
  | renewed => simp [Ends]
  | @left front back w =>
    have other : t ∈ (front ++ back).map (·.ticket) → w.ticket ≠ t :=
      fun there same => ticket_not_mem_others single (same ▸ there)
    simp only [List.map_append, List.map_cons, List.mem_append, List.mem_cons] at other ⊢
    simp only [Ends, reduceCtorEq, false_and, exists_false, false_or]
    tauto
  | @called w _ =>
    have outside : w.ticket ∉ ws'.map (·.ticket) := (List.nodup_cons.1 single).1
    have other : t ∈ ws'.map (·.ticket) → w.ticket ≠ t := fun there same => outside (same ▸ there)
    simp only [List.map_cons, List.mem_cons, Ends, reduceCtorEq, false_and, exists_false, false_or]
    tauto

/-- Whoever stands in a line came and has not gone since, or stood there before and has not gone. -/
theorem Unfolds.mem_tickets_iff (story : Unfolds es ws ws') (single : (ws.map (·.ticket)).Nodup)
    (t : Ticket) : t ∈ ws'.map (·.ticket) ↔
      Stands es t ∨ (t ∈ ws.map (·.ticket) ∧ ∀ e ∈ es, ¬e.Ends t) := by
  induction story with
  | nil => simp [Stands]
  | @cons e es ws mid ws' acts _ ih =>
    rw [ih (acts.nodup single), acts.mem_tickets_iff single, stands_cons, List.forall_mem_cons]
    constructor
    · rintro (stands | ⟨⟨w, rfl, ticket⟩ | ⟨there, stays⟩, later⟩)
      · exact .inl (.inr stands)
      · exact .inl (.inl ⟨w, rfl, ticket, later⟩)
      · exact .inr ⟨there, stays, later⟩
    · rintro ((⟨w, rfl, ticket, later⟩ | stands) | ⟨there, stays, later⟩)
      · exact .inr ⟨.inl ⟨w, rfl, ticket⟩, later⟩
      · exact .inl stands
      · exact .inr ⟨.inr ⟨there, stays⟩, later⟩

/-- Whoever was called stood before those who stand there still, in the order in which they came. -/
theorem Incident.Acts.inOrder (acts : e.Acts ws ws') :
    ((e.callee ++ ws').map (·.ticket)).Sublist ((ws ++ e.arrival).map (·.ticket)) := by
  cases acts with
  | came => exact .refl _
  | renewed => simp [callee, arrival]
  | @left front back w =>
    rw [callee, arrival, List.nil_append, List.append_nil]
    exact ((List.sublist_cons_self w back).append_left front).map _
  | called => simp [callee, arrival]

theorem Unfolds.inOrder (story : Unfolds es ws ws') :
    ((es.flatMap (·.callee) ++ ws').map (·.ticket)).Sublist
      ((ws ++ es.flatMap (·.arrival)).map (·.ticket)) := by
  induction story with
  | nil => simp
  | @cons e es ws mid ws' acts _ ih =>
    have first := acts.inOrder.append_right ((es.flatMap (·.arrival)).map (·.ticket))
    have later := ih.append_left (e.callee.map (·.ticket))
    simp only [List.flatMap_cons, List.map_append, List.append_assoc] at first later ⊢
    exact later.trans first

/-- A waker that an incident leaves with the line is there afterwards, and one that was there is
there still unless the incident took it away. -/
theorem Incident.Acts.accounted (acts : e.Acts ws ws') :
    (ws ++ e.brought).Perm (ws' ++ e.gone) := by
  cases acts with
  | came => exact .of_eq (List.append_nil _).symm
  | @renewed front back w k =>
    have exchanged : (w :: (back ++ [⟨w.ticket, k⟩])).Perm (⟨w.ticket, k⟩ :: (back ++ [w])) :=
      calc w :: (back ++ [⟨w.ticket, k⟩])
        _ ~ w :: ⟨w.ticket, k⟩ :: back := (List.perm_append_singleton _ back).cons w
        _ ~ ⟨w.ticket, k⟩ :: w :: back := List.Perm.swap _ w back
        _ ~ ⟨w.ticket, k⟩ :: (back ++ [w]) := (List.perm_append_singleton w back).symm.cons _
    simpa only [brought, gone, replaced, takenOut, callee, List.append_nil, List.append_assoc,
      List.cons_append] using exchanged.append_left front
  | @left front back w =>
    simpa only [brought, gone, replaced, takenOut, callee, List.append_nil, List.nil_append,
      List.append_assoc] using (List.perm_append_singleton w back).symm.append_left front
  | @called w _ =>
    simp only [brought, gone, replaced, takenOut, callee, List.append_nil, List.nil_append]
    exact (List.perm_append_singleton w ws').symm

theorem Unfolds.gone_or_standing (story : Unfolds es ws ws') :
    (ws ++ es.flatMap (·.brought)).Perm (ws' ++ es.flatMap (·.gone)) := by
  induction story with
  | nil => exact .refl _
  | @cons e es ws mid ws' acts _ ih =>
    calc ws ++ (e.brought ++ es.flatMap (·.brought))
      _ = (ws ++ e.brought) ++ es.flatMap (·.brought) := (List.append_assoc ..).symm
      _ ~ (mid ++ e.gone) ++ es.flatMap (·.brought) := acts.accounted.append_right _
      _ = mid ++ (e.gone ++ es.flatMap (·.brought)) := List.append_assoc ..
      _ ~ mid ++ (es.flatMap (·.brought) ++ e.gone) := List.perm_append_comm.append_left _
      _ = (mid ++ es.flatMap (·.brought)) ++ e.gone := (List.append_assoc ..).symm
      _ ~ (ws' ++ es.flatMap (·.gone)) ++ e.gone := ih.append_right _
      _ = ws' ++ (es.flatMap (·.gone) ++ e.gone) := List.append_assoc ..
      _ ~ ws' ++ (e.gone ++ es.flatMap (·.gone)) := List.perm_append_comm.append_left _

/-- What became of the wakers that were left with a line. -/
theorem Unfolds.accounted (story : Unfolds es ws ws') :
    (ws ++ es.flatMap (·.brought)).Perm
      (ws' ++ (es.flatMap (·.replaced) ++ es.flatMap (·.takenOut) ++ es.flatMap (·.callee))) := by
  have gone : (es.flatMap (·.replaced) ++ es.flatMap (·.takenOut) ++ es.flatMap (·.callee)).Perm
      (es.flatMap (·.gone)) :=
    ((List.flatMap_append_perm _ _ _).append_right _).trans (List.flatMap_append_perm _ _ _)
  exact story.gone_or_standing.trans (gone.symm.append_left ws')

end

/-! ### Commands -/

/-- Who stands in a line under a ticket. -/
def find? (l : WaitLine ω) (t : Ticket) : Option (Waiter ω) := l.waiters.find? (·.ticket = t)

/-- The wakers that come with an answer. -/
def Answer.delivered : Answer ω → List ω
  | .wakers ks => ks
  | .nothing | .flag _ | .number _ | .text _ | .fault _ => []

namespace Command

/-- What comes to pass in a line by a command. -/
def incidents (l : WaitLine ω) : Command ω → List (Incident ω)
  | .push t k => if l.contains t then [] else [.came ⟨t, k⟩]
  | .refresh t k => (l.find? t).toList.map (.renewed · k)
  | .remove t => (l.find? t).toList.map .left
  | .wakeFirst => (l.waiters.take 1).map .called
  | .wakeAll => l.waiters.map .called
  | .contains _ | .describe | .describeOwed | .flush => []

/-- The wakers that a command leaves with a line if it is answered so. -/
def brought : Command ω → Answer ω → List (Waiter ω)
  | .push t k, .nothing => [⟨t, k⟩]
  | .refresh t k, .flag true => [⟨t, k⟩]
  | _, _ => []

/-- How a command is done where these tickets stand in the line: what is answered, what comes to
pass, and what is left. -/
inductive Does (stands : Ticket → Prop) (s : Account ω) :
    Command ω → Answer ω → List (Incident ω) → Account ω → Prop
  /-- Whoever is new goes to the end. -/
  | takeIn {t : Ticket} {k : ω} (new : ¬stands t) :
    Does stands s (.push t k) .nothing [.came ⟨t, k⟩]
      { s with line := ⟨s.line.waiters ++ [⟨t, k⟩]⟩ }
  /-- Nobody stands in a line twice. -/
  | refuse {t : Ticket} {k : ω} (there : stands t) :
    Does stands s (.push t k) (.fault (.alreadyQueued t)) [] s
  /-- One waker is replaced, and nobody changes places. -/
  | renew {t : Ticket} {k k' : ω} {front back : List (Waiter ω)} (there : stands t)
    (split : s.line.waiters = front ++ ⟨t, k'⟩ :: back) :
    Does stands s (.refresh t k) (.flag true) [.renewed ⟨t, k'⟩ k]
      { s with line := ⟨front ++ ⟨t, k⟩ :: back⟩ }
  | renewNobody {t : Ticket} {k : ω} (out : ¬stands t) :
    Does stands s (.refresh t k) (.flag false) [] s
  /-- One caller goes, and nobody else changes places. -/
  | takeOut {t : Ticket} {k : ω} {front back : List (Waiter ω)} (there : stands t)
    (split : s.line.waiters = front ++ ⟨t, k⟩ :: back) :
    Does stands s (.remove t) (.flag true) [.left ⟨t, k⟩] { s with line := ⟨front ++ back⟩ }
  | takeOutNobody {t : Ticket} (out : ¬stands t) :
    Does stands s (.remove t) (.flag false) [] s
  | look {t : Ticket} {b : Bool} (seen : b = true ↔ stands t) :
    Does stands s (.contains t) (.flag b) [] s
  /-- The first one goes, and the waker is handed out after all others. -/
  | call {w : Waiter ω} {rest : List (Waiter ω)} (split : s.line.waiters = w :: rest) :
    Does stands s .wakeFirst (.flag true) [.called w] ⟨⟨rest⟩, s.owed ++ [w.waker]⟩
  | callNobody (nobody : s.line.waiters = []) : Does stands s .wakeFirst (.flag false) [] s
  | callAll : Does stands s .wakeAll (.number s.line.size) (s.line.waiters.map .called)
      ⟨empty, s.owed ++ s.line.waiters.map (·.waker)⟩
  | describe : Does stands s .describe (.text s.line.describe) [] s
  | describeOwed : Does stands s .describeOwed (.text (MessageBus.describeOwed s.owed)) [] s
  /-- The wakers are delivered in the order in which they were handed out. -/
  | deliver : Does stands s .flush (.wakers s.owed) [] { s with owed := [] }

end Command

/-- What comes to pass in a line by commands, one after the other. -/
def incidents (s : Account ω) : List (Command ω) → List (Incident ω)
  | [] => []
  | c :: later => c.incidents s.line ++ incidents (c.run s).2 later

section

variable {s s' : Account ω}

theorem find?_eq_none_iff (l : WaitLine ω) (t : Ticket) : l.find? t = none ↔ t ∉ l.tickets := by
  simp [find?, tickets]

/-- Where no ticket stands twice, whoever is seen under a ticket is found. -/
theorem find?_of_split {l : WaitLine ω} {t : Ticket} {k : ω} {front back : List (Waiter ω)}
    (single : l.tickets.Nodup)
    (split : l.waiters = front ++ ⟨t, k⟩ :: back) : l.find? t = some ⟨t, k⟩ := by
  rw [tickets, split] at single
  have before : ∀ w ∈ front, w.ticket ≠ t := fun w member same =>
    ticket_not_mem_others single (List.mem_map.2 ⟨w, List.mem_append_left back member, same⟩)
  refine List.find?_eq_some_iff_append.2 ⟨by simp, front, back, split, fun w member => ?_⟩
  simpa using before w member

namespace Command

variable {c : Command ω} {a : Answer ω} {es : List (Incident ω)} {stands : Ticket → Prop}

theorem run_wakeFirst_nil (owed : List ω) :
    run ⟨⟨[]⟩, owed⟩ .wakeFirst = (.flag false, ⟨⟨[]⟩, owed⟩) := by
  simp [run, WaitLine.wakeFirst]

theorem run_wakeFirst_cons (w : Waiter ω) (rest : List (Waiter ω)) (owed : List ω) :
    run ⟨⟨w :: rest⟩, owed⟩ .wakeFirst = (.flag true, ⟨⟨rest⟩, owed ++ [w.waker]⟩) := rfl

theorem run_wakeAll (s : Account ω) : run s .wakeAll =
    (.number s.line.size, ⟨empty, s.owed ++ s.line.waiters.map (·.waker)⟩) := by
  rw [run, length_wakeAll]
  rfl

theorem does_push (s : Account ω) (t : Ticket) (k : ω) :
    Does (· ∈ s.line.tickets) s (.push t k) (run s (.push t k)).1
      (incidents s.line (.push t k)) (run s (.push t k)).2 := by
  by_cases there : t ∈ s.line.tickets
  · have found := (s.line.contains_iff_mem_tickets t).2 there
    rw [run, WaitLine.push, if_pos found, incidents, if_pos found]
    exact .refuse there
  · have free : ¬s.line.contains t = true := by rwa [contains_iff_mem_tickets]
    rw [run, push_of_not_mem k there, incidents, if_neg free]
    exact .takeIn there

theorem does_refresh (single : s.line.tickets.Nodup) (t : Ticket) (k : ω) :
    Does (· ∈ s.line.tickets) s (.refresh t k) (run s (.refresh t k)).1
      (incidents s.line (.refresh t k)) (run s (.refresh t k)).2 := by
  cases fresh : s.line.refresh? t k with
  | none =>
    have out := (refresh?_eq_none_iff _ _ _).1 fresh
    rw [run, fresh, incidents, (find?_eq_none_iff _ _).2 out]
    exact .renewNobody out
  | some l =>
    obtain ⟨k', front, back, was, is⟩ := waiters_of_refresh? fresh
    have there : t ∈ s.line.tickets := by
      by_contra out
      rw [(refresh?_eq_none_iff _ _ _).2 out] at fresh
      cases fresh
    rw [run, fresh, incidents, find?_of_split single was]
    obtain rfl : l = ⟨front ++ ⟨t, k⟩ :: back⟩ := congrArg WaitLine.mk is
    exact .renew there was

theorem does_remove (single : s.line.tickets.Nodup) (t : Ticket) :
    Does (· ∈ s.line.tickets) s (.remove t) (run s (.remove t)).1
      (incidents s.line (.remove t)) (run s (.remove t)).2 := by
  by_cases there : t ∈ s.line.tickets
  · obtain ⟨l, removed, -⟩ := remove?_of_mem there
    obtain ⟨k, front, back, was, is⟩ := waiters_of_remove? removed
    rw [run, removed, incidents, find?_of_split single was]
    obtain rfl : l = ⟨front ++ back⟩ := congrArg WaitLine.mk is
    exact .takeOut there was
  · rw [run, remove?_of_not_mem there, incidents, (find?_eq_none_iff _ _).2 there]
    exact .takeOutNobody there

/-- Every command is done properly in a line where no ticket stands twice. -/
theorem does_run (single : s.line.tickets.Nodup) (c : Command ω) :
    c.Does (· ∈ s.line.tickets) s (c.run s).1 (c.incidents s.line) (c.run s).2 := by
  cases c with
  | push t k => exact does_push s t k
  | refresh t k => exact does_refresh single t k
  | remove t => exact does_remove single t
  | contains t => exact .look (s.line.contains_iff_mem_tickets t)
  | wakeFirst =>
    rcases s with ⟨⟨_ | ⟨w, rest⟩⟩, owed⟩
    · rw [run_wakeFirst_nil]
      exact .callNobody rfl
    · exact .call rfl
  | wakeAll =>
    rw [run_wakeAll]
    exact .callAll
  | describe => exact .describe
  | describeOwed => exact .describeOwed
  | flush => exact .deliver

theorem Does.unfolds (does : c.Does (· ∈ s.line.tickets) s a es s') :
    Unfolds es s.line.waiters s'.line.waiters := by
  cases does with
  | takeIn new => exact .single (.came new)
  | renew _ split =>
    rw [split]
    exact .single .renewed
  | takeOut _ split =>
    rw [split]
    exact .single .left
  | call split =>
    rw [split]
    exact .single .called
  | callAll => exact unfolds_calls _
  | refuse | renewNobody | takeOutNobody | look | callNobody | describe | describeOwed | deliver =>
    exact .nil

/-- Whoever is called is handed out after those who were handed out before. -/
theorem Does.handsOut (does : c.Does stands s a es s') :
    s.owed ++ (es.flatMap (·.callee)).map (·.waker) = a.delivered ++ s'.owed := by
  cases does with
  | callAll => rw [callee_calls, Answer.delivered, List.nil_append]
  | deliver => simp [Answer.delivered]
  | _ => simp [Incident.callee, Answer.delivered]

/-- The wakers that a command leaves with the line can be told from its answer. -/
theorem Does.brought (does : c.Does stands s a es s') :
    es.flatMap (·.brought) = c.brought a := by
  cases does with
  | callAll => simp [Incident.brought, Command.brought]
  | _ => rfl

/-- Waking the first one until nobody is left wakes all, in the order of the line. -/
theorem runAll_wakeFirst (ws : List (Waiter ω)) (owed : List ω) :
    runAll run ⟨⟨ws⟩, owed⟩ (List.replicate (ws.length + 1) .wakeFirst) =
      (List.replicate ws.length (.flag true) ++ [.flag false],
        ⟨empty, owed ++ ws.map (·.waker)⟩) := by
  induction ws generalizing owed with
  | nil =>
    rw [List.length_nil, List.replicate_one, runAll_cons, run_wakeFirst_nil, List.map_nil,
      List.append_nil]
    rfl
  | cons w ws ih =>
    rw [List.length_cons, List.replicate_succ, runAll_cons, run_wakeFirst_cons]
    rw [ih (owed ++ [w.waker]), List.append_assoc]
    rfl

end Command

/-! ### Whole stories -/

/-- The incidents of commands lead from the line before them to the line after them. -/
theorem unfolds_incidents (single : s.line.tickets.Nodup) (commands : List (Command ω)) :
    Unfolds (incidents s commands) s.line.waiters
      (runAll Command.run s commands).2.line.waiters := by
  induction commands generalizing s with
  | nil => exact .nil
  | cons c later ih =>
    have first := (c.does_run single).unfolds
    rw [incidents, runAll_cons]
    exact first.append (ih (first.nodup single))

/-- Whoever is called is handed out in this order, delivered or owed. -/
theorem runAll_handsOut (single : s.line.tickets.Nodup) (commands : List (Command ω)) :
    s.owed ++ ((incidents s commands).flatMap (·.callee)).map (·.waker) =
      (runAll Command.run s commands).1.flatMap (·.delivered) ++
        (runAll Command.run s commands).2.owed := by
  induction commands generalizing s with
  | nil => exact List.append_nil _
  | cons c later ih =>
    have does := c.does_run single
    rw [incidents, runAll_cons, List.flatMap_append, List.map_append, ← List.append_assoc,
      does.handsOut, List.append_assoc, ih (does.unfolds.nodup single), List.flatMap_cons,
      List.append_assoc]

/-- The wakers that commands leave with a line can be told from their answers. -/
theorem brought_incidents (single : s.line.tickets.Nodup) (commands : List (Command ω)) :
    (incidents s commands).flatMap (·.brought) =
      (List.zipWith Command.brought commands (runAll Command.run s commands).1).flatten := by
  induction commands generalizing s with
  | nil => rfl
  | cons c later ih =>
    have does := c.does_run single
    rw [incidents, runAll_cons, List.flatMap_append, does.brought,
      ih (does.unfolds.nodup single), List.zipWith_cons_cons, List.flatten_cons]

/-- A line to which all this came to pass since it was empty, and which goes on as it should. -/
structure Account.Reflects (s : Account ω) (es : List (Incident ω)) : Prop where
  /-- The incidents lead from the empty line to this one. -/
  unfolds : Unfolds es [] s.line.waiters
  /-- No ticket stands in it twice. -/
  once : s.line.tickets.Nodup
  /-- Those who were called and those who stand there came in this order. -/
  inOrder : ((es.flatMap (·.callee) ++ s.line.waiters).map (·.ticket)).Sublist
    ((es.flatMap (·.arrival)).map (·.ticket))
  /-- Each waker that was left with it is still there, or was replaced, or went with its caller, or
  was called. -/
  accounted : (es.flatMap (·.brought)).Perm (s.line.waiters ++
    (es.flatMap (·.replaced) ++ es.flatMap (·.takenOut) ++ es.flatMap (·.callee)))
  /-- Whatever it is asked, those stand in it who came and have not gone since. -/
  next : ∀ c : Command ω, c.Does (Stands es) s (c.run s).1 (c.incidents s.line) (c.run s).2
  /-- All are woken as if the first one were, until nobody is left. -/
  wakeAll : ∃ n s', Command.run s .wakeAll = (.number n, s') ∧
    runAll Command.run s (List.replicate (n + 1) .wakeFirst) =
      (List.replicate n (.flag true) ++ [.flag false], s')

/-- Whatever commands a line was given since it was empty, it reflects what came to pass by them.
The wakers that were left with it are those of the commands that were granted, and the wakers of
all who were called were delivered or are owed, in this order. -/
theorem line_reflects_incidents (commands : List (Command ω)) :
    let ran := runAll Command.run {} commands
    let es := incidents {} commands
    ran.2.Reflects es ∧
      es.flatMap (·.brought) = (List.zipWith Command.brought commands ran.1).flatten ∧
      (es.flatMap (·.callee)).map (·.waker) = ran.1.flatMap (·.delivered) ++ ran.2.owed := by
  intro ran es
  have new : (({} : Account ω).line.tickets).Nodup := List.nodup_nil
  have story : Unfolds es [] ran.2.line.waiters := unfolds_incidents new commands
  have once : ran.2.line.tickets.Nodup := story.nodup new
  have stands : (· ∈ ran.2.line.tickets) = Stands es := by
    funext t
    have came := story.mem_tickets_iff new t
    exact propext (came.trans (or_iff_left fun before => List.not_mem_nil before.1))
  refine ⟨⟨story, once, story.inOrder, story.accounted, fun c => ?_, ?_⟩,
    brought_incidents new commands, runAll_handsOut new commands⟩
  · rw [← stands]
    exact c.does_run once
  · exact ⟨_, _, Command.run_wakeAll _, Command.runAll_wakeFirst _ _⟩

/-- A ticket may come again. Neither the waker that was replaced is called nor the one that went. -/
example : (runAll Command.run {}
    [.push ⟨9⟩ 1, .refresh ⟨9⟩ 2, .remove ⟨9⟩, .push ⟨7⟩ 3, .push ⟨9⟩ 4, .push ⟨9⟩ 5,
      .wakeAll]).2.owed = [3, 4] := rfl

end

end MessageBus.WaitLine

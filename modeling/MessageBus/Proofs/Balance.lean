import MessageBus.Proofs.Addresses
import MessageBus.Request
import Mathlib.Data.List.Nodup

/-!
# The balance of tickets and stays

Whoever waits on a bus holds a `Stay`: a place in a line, and the request that it was taken for. The
lines of a registry and the stays that are held *balance* if every ticket in a line belongs to
exactly one stay that is held, at this line. The converse does not hold: a stay whose ticket was
taken out of its line was called, and its holder has yet to learn of it.

The main statement is that no stay gets lost: of those held at a line, each is either still in it
or was called (`Balanced.size_add_called`).
-/

namespace MessageBus

/-- The channel that a request is about. A broadcast is about all of them. -/
def Request.address? : Request → Option Address
  | .send a _ => some a
  | .sendMany a _ => some a
  | .recv a => some a
  | .recvMany a _ => some a
  | .broadcast _ => none

/-- The line in which a request waits. -/
def Request.side : Request → Side
  | .send _ _ => .senders
  | .sendMany _ _ => .senders
  | .recv _ => .receivers
  | .recvMany _ _ => .receivers
  | .broadcast _ => .senders

/-- Whether a place is one at which a request may wait. -/
def Request.Fits (q : Request) (p : Place) : Prop :=
  p.side = q.side ∧ ∀ a, q.address? = some a → p.address = a

/-- Whether a place is in this line. -/
def Place.isAt (p : Place) (a : Address) (side : Side) : Bool := p.address = a && p.side = side

/-- A place that is held, and what for; a bare wait has no request. -/
structure Stay where
  request : Option Request
  place : Place
deriving DecidableEq

/-- How many places are held at a line, whether their tickets are still in it or not. -/
def seats (held : List Stay) (a : Address) (side : Side) : Nat :=
  held.countP (·.place.isAt a side)

theorem Place.isAt_iff {p : Place} {a : Address} {side : Side} :
    p.isAt a side = true ↔ p.address = a ∧ p.side = side := by
  simp [Place.isAt]

theorem seats_cons (s : Stay) (held : List Stay) (a : Address) (side : Side) :
    seats (s :: held) a side = seats held a side + if s.place.isAt a side then 1 else 0 :=
  List.countP_cons

theorem seats_perm {held held' : List Stay} (same : held.Perm held') (a : Address) (side : Side) :
    seats held a side = seats held' a side := same.countP_eq _

namespace Registry

variable {ω : Type} {r r' : Registry ω} {held held' : List Stay} {s : Stay} {a : Address}
  {c : Channel ω} {side : Side}

/-- Whether the ticket of a place is still in its line. -/
def isQueued (r : Registry ω) (p : Place) : Bool :=
  ((r.find? p.address).map fun c => (c.line p.side).contains p.ticket).getD false

/-- Whether the ticket of a place was taken out of a line that is still there. -/
def hasCalled (r : Registry ω) (p : Place) : Bool :=
  (r.find? p.address).isSome && !r.isQueued p

/-- How many of the places held at a line were called. -/
def called (r : Registry ω) (held : List Stay) (a : Address) (side : Side) : Nat :=
  held.countP fun s => s.place.isAt a side && r.hasCalled s.place

/-- Every ticket in a line belongs to exactly one stay, and no ticket is given out twice. -/
structure Balanced (r : Registry ω) (held : List Stay) : Prop where
  issued : ∀ s ∈ held, s.place.ticket.number < r.nextTicket
  distinct : (held.map (·.place.ticket)).Nodup
  owned : ∀ a c side t, r.find? a = some c → t ∈ c.tickets side →
    (⟨a, side, t⟩ : Place) ∈ held.map (·.place)
  single : ∀ a c side, r.find? a = some c → (c.tickets side).Nodup
  fitting : ∀ s ∈ held, ∀ q, s.request = some q → q.Fits s.place

theorem isQueued_of_find? {p : Place} (found : r.find? p.address = some c) :
    r.isQueued p = true ↔ p.ticket ∈ c.tickets p.side := by
  rw [isQueued, found]
  exact (c.line p.side).contains_iff_mem_tickets p.ticket

theorem hasCalled_iff {p : Place} :
    r.hasCalled p = true ↔ ∃ c, r.find? p.address = some c ∧ p.ticket ∉ c.tickets p.side := by
  rw [hasCalled, Bool.and_eq_true, Option.isSome_iff_exists, Bool.not_eq_true']
  constructor
  · rintro ⟨⟨c, found⟩, out⟩
    refine ⟨c, found, fun inside => ?_⟩
    rw [(isQueued_of_find? found).2 inside] at out
    cases out
  · rintro ⟨c, found, out⟩
    refine ⟨⟨c, found⟩, ?_⟩
    rwa [← Bool.not_eq_true, isQueued_of_find? found]

theorem isQueued_eq_false_of_hasCalled {p : Place} (called : r.hasCalled p = true) :
    r.isQueued p = false := by
  rw [hasCalled, Bool.and_eq_true, Bool.not_eq_true'] at called
  exact called.2

theorem isQueued_eq_false_of_gone {p : Place} (gone : r.find? p.address = none) :
    r.isQueued p = false := by
  rw [isQueued, gone]
  rfl

theorem called_perm (same : held.Perm held') (a : Address) (side : Side) :
    r.called held a side = r.called held' a side := same.countP_eq _

theorem Balanced.perm (bal : r.Balanced held) (same : held.Perm held') : r.Balanced held' where
  issued s member := bal.issued s (same.mem_iff.2 member)
  distinct := (same.map _).nodup_iff.1 bal.distinct
  owned a c side t found inside := (same.map _).mem_iff.1 (bal.owned a c side t found inside)
  single := bal.single
  fitting s member := bal.fitting s (same.mem_iff.2 member)

/-- The tickets in a line are those of the stays that are queued there, in another order. -/
theorem Balanced.queued_perm (bal : r.Balanced held) (found : r.find? a = some c) (side : Side) :
    (((held.filter (r.isQueued ·.place)).filter (·.place.isAt a side)).map
      (·.place.ticket)).Perm (c.tickets side) := by
  have distinct : (((held.filter (r.isQueued ·.place)).filter (·.place.isAt a side)).map
      (·.place.ticket)).Nodup :=
    bal.distinct.sublist (((List.filter_sublist).trans (List.filter_sublist)).map _)
  rw [List.perm_ext_iff_of_nodup distinct (bal.single a c side found)]
  intro t
  simp only [List.mem_map, List.mem_filter, Place.isAt_iff]
  constructor
  · rintro ⟨s, ⟨⟨-, isIn⟩, rfl, rfl⟩, rfl⟩
    exact (isQueued_of_find? found).1 isIn
  · intro member
    obtain ⟨s, holds, place⟩ := List.mem_map.1 (bal.owned a c side t found member)
    have place : s.place = ⟨a, side, t⟩ := place
    have isIn : r.isQueued s.place = true := by
      rw [place]
      exact (isQueued_of_find? found).2 member
    exact ⟨s, ⟨⟨holds, isIn⟩, by rw [place], by rw [place]⟩, by rw [place]⟩

/-- Of the places held at a line, those that are not queued were called. -/
theorem called_eq_countP_filter (found : r.find? a = some c) (held : List Stay) (side : Side) :
    r.called held a side =
      (held.filter (!r.isQueued ·.place)).countP (·.place.isAt a side) := by
  rw [List.countP_filter, called]
  apply List.countP_congr
  intro s _
  simp only [Bool.and_eq_true, Place.isAt_iff, hasCalled]
  constructor
  · rintro ⟨at', -, out⟩
    exact ⟨at', out⟩
  · rintro ⟨⟨rfl, rfl⟩, out⟩
    exact ⟨⟨rfl, rfl⟩, by rw [found]; rfl, out⟩

/-- Of the places held at a line, each is either still in it or was called. -/
theorem Balanced.size_add_called (bal : r.Balanced held) (found : r.find? a = some c)
    (side : Side) : (c.line side).size + r.called held a side = seats held a side := by
  have size : (held.filter (r.isQueued ·.place)).countP (·.place.isAt a side) =
      (c.line side).size := by
    rw [List.countP_eq_length_filter, ← List.length_map, (bal.queued_perm found side).length_eq]
    exact (c.line side).length_tickets
  rw [seats, List.countP_eq_countP_filter_add held _ (r.isQueued ·.place), size,
    called_eq_countP_filter found]

theorem Balanced.size_le_seats (bal : r.Balanced held) (found : r.find? a = some c)
    (side : Side) : (c.line side).size ≤ seats held a side := by
  have total := bal.size_add_called found side
  omega

/-! ### How a balance is kept -/

/-- A stay whose ticket is in no line may be given up. -/
theorem Balanced.giveUp (bal : r.Balanced (s :: held)) (out : r.isQueued s.place = false) :
    r.Balanced held where
  issued s' member := bal.issued s' (List.mem_cons_of_mem _ member)
  distinct := (List.nodup_cons.1 bal.distinct).2
  owned a c side t found inside := by
    rcases List.mem_cons.1 (bal.owned a c side t found inside) with own | other
    · have isIn : r.isQueued ⟨a, side, t⟩ = true := (isQueued_of_find? found).2 inside
      rw [own, out] at isIn
      cases isIn
    · exact other
  single := bal.single
  fitting s' member := bal.fitting s' (List.mem_cons_of_mem _ member)

/-- A balance is kept as long as nobody new waits. -/
theorem Balanced.shrink (bal : r.Balanced held) (ticket : r'.nextTicket = r.nextTicket)
    (smaller : ∀ a c', r'.find? a = some c' →
      (∀ side, c'.tickets side = []) ∨ ∃ c, r.find? a = some c ∧ c.Shrinks c') :
    r'.Balanced held where
  issued s member := ticket ▸ bal.issued s member
  distinct := bal.distinct
  owned a c' side t found inside := by
    rcases smaller a c' found with empty | ⟨c, before, shrinks⟩
    · rw [empty side] at inside
      cases inside
    · exact bal.owned a c side t before ((shrinks.2 side).subset inside)
  single a c' side found := by
    rcases smaller a c' found with empty | ⟨c, before, shrinks⟩
    · rw [empty side]
      exact List.nodup_nil
    · exact (bal.single a c side before).sublist (shrinks.2 side)
  fitting := bal.fitting

theorem Balanced.put (bal : r.Balanced held) {c' : Channel ω} (found : r.find? a = some c)
    (shrinks : c.Shrinks c') : (r.put a.handle c').Balanced held :=
  bal.shrink rfl fun _ _ after => .inr (shrinks_of_put found shrinks after)

/-- Whoever stands in a line has a ticket that was given out. -/
theorem Balanced.number_lt {t : Ticket} {side : Side} (bal : r.Balanced held)
    (found : r.find? a = some c) (inside : t ∈ c.tickets side) : t.number < r.nextTicket := by
  obtain ⟨s, holds, place⟩ := List.mem_map.1 (bal.owned a c side t found inside)
  have issued := bal.issued s holds
  rwa [place] at issued

/-- The next ticket is in no line. -/
theorem Balanced.fresh (bal : r.Balanced held) (found : r.find? a = some c) (side : Side) :
    (⟨r.nextTicket⟩ : Ticket) ∉ c.tickets side :=
  fun inside => Nat.lt_irrefl _ (bal.number_lt found inside)

/-- A new stay is in balance with its ticket at the end of its line. -/
theorem Balanced.take (bal : r.Balanced held) (fits : ∀ q, s.request = some q → q.Fits s.place)
    (ticket : s.place.ticket = ⟨r.nextTicket⟩) (next : r'.nextTicket = r.nextTicket + 1)
    (grown : ∀ a c', r'.find? a = some c' → ∃ c, r.find? a = some c ∧
      ∀ side, (c'.tickets side).Sublist (c.tickets side) ∨
        s.place.isAt a side = true ∧ c'.tickets side = c.tickets side ++ [s.place.ticket]) :
    r'.Balanced (s :: held) where
  issued s' member := by
    rw [next]
    rcases List.mem_cons.1 member with rfl | old
    · rw [ticket]
      exact Nat.lt_succ_self _
    · exact Nat.lt_succ_of_lt (bal.issued s' old)
  distinct := by
    rw [List.map_cons, List.nodup_cons]
    refine ⟨fun twice => ?_, bal.distinct⟩
    obtain ⟨s', holds, same⟩ := List.mem_map.1 twice
    have below := bal.issued s' holds
    rw [same, ticket] at below
    exact Nat.lt_irrefl _ below
  owned a c' side t found inside := by
    obtain ⟨c, before, lines⟩ := grown a c' found
    rw [List.map_cons, List.mem_cons]
    rcases lines side with smaller | ⟨here, longer⟩
    · exact .inr (bal.owned a c side t before (smaller.subset inside))
    · rw [longer, List.mem_append, List.mem_singleton] at inside
      rcases inside with old | rfl
      · exact .inr (bal.owned a c side t before old)
      · obtain ⟨rfl, rfl⟩ := Place.isAt_iff.1 here
        exact .inl rfl
  single a c' side found := by
    obtain ⟨c, before, lines⟩ := grown a c' found
    rcases lines side with smaller | ⟨-, longer⟩
    · exact (bal.single a c side before).sublist smaller
    · rw [longer, ticket, List.nodup_append]
      refine ⟨bal.single a c side before, List.nodup_singleton _, fun t old t' new => ?_⟩
      rw [List.mem_singleton] at new
      rintro rfl
      exact bal.fresh before side (new ▸ old)
  fitting s' member := by
    rcases List.mem_cons.1 member with rfl | old
    · exact fits
    · exact bal.fitting s' old

theorem balanced_empty : (empty : Registry ω).Balanced [] := by
  refine ⟨fun s member => ?_, List.nodup_nil, fun a c side t found => ?_,
    fun a c side found => ?_, fun s member => ?_⟩
  · cases member
  · cases found
  · cases found
  · cases member

end Registry

end MessageBus

import MessageBus.Proofs.Sizes
import MessageBus.Registry.Broadcast

/-!
# What an operation changes at an address

A registry is read here through `find?`, which asks for a channel by its address. An operation on
one channel changes the registry at its address only. A broadcast changes it everywhere, in the
same way. Opening adds one channel, which is fresh, and closing takes channels away.
-/

namespace MessageBus.Registry

variable {ω : Type} {r : Registry ω} {a a' : Address} {h : Handle} {c c' : Channel ω}

theorem find?_eq_some_iff :
    r.find? a = some c ↔ r.channel? a.handle = some c ∧ c.id = a.id := by
  rw [find?, Option.filter_eq_some_iff]
  simp

theorem find?_of_channel? (found : r.channel? h = some c) : r.find? ⟨h, c.id⟩ = some c :=
  find?_eq_some_iff.2 ⟨found, rfl⟩

theorem channel?_eq_some_iff : r.channel? h = some c ↔ r.slots[h]? = some (some c) := by
  rw [channel?, Option.join_eq_some_iff]

theorem channel?_put (found : (r.channel? h).isSome) (c : Channel ω) (h' : Handle) :
    (r.put h c).channel? h' = if h' = h then some c else r.channel? h' := by
  obtain ⟨d, there⟩ := Option.isSome_iff_exists.1 found
  obtain ⟨inside, -⟩ := List.getElem?_eq_some_iff.1 (channel?_eq_some_iff.1 there)
  by_cases same : h' = h
  · subst same
    simp [channel?, put, List.getElem?_set_self inside]
  · rw [if_neg same, channel?, channel?, put, List.getElem?_set_ne (Ne.symm same)]

/-- A channel that is put back changes the registry at its own address only. -/
theorem find?_put (found : r.find? a = some c) (same : c'.id = c.id) (a' : Address) :
    (r.put a.handle c').find? a' = if a' = a then some c' else r.find? a' := by
  obtain ⟨there, id⟩ := find?_eq_some_iff.1 found
  have changed := channel?_put (Option.isSome_iff_exists.2 ⟨c, there⟩) c' a'.handle
  by_cases handle : a'.handle = a.handle
  · by_cases own : a'.id = a.id
    · have eq : a' = a := by
        cases a
        cases a'
        simp_all
      rw [find?, changed, if_pos handle, if_pos eq, own, ← id, ← same]
      simp
    · have ne : a' ≠ a := fun eq => own (congrArg Address.id eq)
      have other : c'.id ≠ a'.id := by
        rw [same, id]
        exact Ne.symm own
      have other' : c.id ≠ a'.id := by rwa [← same]
      rw [find?, changed, if_pos handle, if_neg ne, find?, handle, there]
      simp [Option.filter, other, other']
  · have ne : a' ≠ a := fun eq => handle (congrArg Address.handle eq)
    rw [find?, changed, if_neg handle, if_neg ne, find?]

/-- Whatever is found after a channel was put back is that channel or was there before. -/
theorem find?_put_cases {d : Channel ω} (found : r.find? a = some c) (same : c'.id = c.id)
    (after : (r.put a.handle c').find? a' = some d) :
    a' = a ∧ d = c' ∨ a' ≠ a ∧ r.find? a' = some d := by
  rw [find?_put found same] at after
  split at after
  · rename_i here
    exact .inl ⟨here, (Option.some.inj after).symm⟩
  · rename_i elsewhere
    exact .inr ⟨elsewhere, after⟩

/-- A channel that is put in its place keeps nobody new in its lines. -/
theorem shrinks_of_put {d : Channel ω} (found : r.find? a = some c) (shrinks : c.Shrinks c')
    (after : (r.put a.handle c').find? a' = some d) :
    ∃ c, r.find? a' = some c ∧ c.Shrinks d := by
  rcases find?_put_cases found shrinks.1 after with ⟨rfl, rfl⟩ | ⟨-, before⟩
  · exact ⟨c, found, shrinks⟩
  · exact ⟨d, before, Channel.Shrinks.refl d⟩

/-! ### Broadcasts -/

theorem find?_commitAll (r : Registry ω) (m : Message) (cascade : Bool) (a : Address) :
    (r.commitAll m cascade).state.find? a = (r.find? a).map fun c => (c.commit m cascade).1 := by
  have keeps (c : Channel ω) : (c.commit m cascade).1.id = c.id := by
    cases cascade
    · exact (c.becomes_commit m).shrinks.1
    · exact (c.becomes_commit_cascade m).shrinks.1
  have slot : (r.commitAll m cascade).state.channel? a.handle
      = (r.channel? a.handle).map fun c => (c.commit m cascade).1 := by
    simp only [channel?, commitAll, List.map_map, List.getElem?_map]
    rcases r.slots[a.handle]? with _ | _ | c <;> rfl
  rw [find?, slot, find?]
  cases r.channel? a.handle with
  | none => rfl
  | some c => by_cases own : c.id = a.id <;> simp [Option.filter, keeps, own]

theorem mem_channels_iff : c ∈ r.channels ↔ ∃ h, r.channel? h = some c := by
  rw [channels, List.mem_filterMap]
  constructor
  · rintro ⟨slot, there, rfl⟩
    obtain ⟨h, found⟩ := List.mem_iff_getElem?.1 there
    exact ⟨h, channel?_eq_some_iff.2 found⟩
  · rintro ⟨h, found⟩
    exact ⟨some c, List.mem_iff_getElem?.2 ⟨h, channel?_eq_some_iff.1 found⟩, rfl⟩

theorem mem_channels_of_find? (found : r.find? a = some c) : c ∈ r.channels :=
  mem_channels_iff.2 ⟨_, (find?_eq_some_iff.1 found).1⟩

theorem mem_entries_iff : (h, c) ∈ r.entries ↔ r.channel? h = some c := by
  simp only [entries, List.mem_filterMap, channel?_eq_some_iff, Prod.exists]
  constructor
  · rintro ⟨slot, i, there, taken⟩
    obtain ⟨d, rfl, eq⟩ := Option.map_eq_some_iff.1 taken
    cases eq
    exact List.mem_zipIdx_iff_getElem?.1 there
  · intro found
    exact ⟨some c, h, List.mem_zipIdx_iff_getElem?.2 found, rfl⟩

/-- Nothing is in the way of a broadcast exactly when every open channel accepts it. -/
theorem blocker?_eq_none_iff :
    r.blocker? = none ↔ ∀ a c, r.find? a = some c → c.acceptsBroadcast = true := by
  rw [blocker?, Option.map_eq_none_iff, List.find?_eq_none]
  constructor
  · intro all a c found
    simpa using all (a.handle, c) (mem_entries_iff.2 (find?_eq_some_iff.1 found).1)
  · rintro all ⟨h, c⟩ entry
    simpa using all ⟨h, c.id⟩ c (find?_of_channel? (mem_entries_iff.1 entry))

/-- What is in the way of a broadcast is an open channel that does not accept it. -/
theorem find?_of_blocker? (blocked : r.blocker? = some a) :
    ∃ c, r.find? a = some c ∧ c.acceptsBroadcast = false := by
  obtain ⟨⟨h, c⟩, first, rfl⟩ := Option.map_eq_some_iff.1 blocked
  refine ⟨c, find?_of_channel? (mem_entries_iff.1 (List.mem_of_find?_eq_some first)), ?_⟩
  simpa using List.find?_some first

/-! ### Opening and closing -/

/-- Opening a channel changes no other. -/
theorem find?_openChannel {bound : Nat}
    (found : (r.openChannel bound).state.find? a = some c) :
    r.find? a = some c ∨ c = .fresh ⟨r.nextId⟩ bound := by
  obtain ⟨there, id⟩ := find?_eq_some_iff.1 found
  have slot := channel?_eq_some_iff.1 there
  simp only [openChannel] at slot
  split at slot
  · rename_i inside
    by_cases same : a.handle = r.slots.findIdx (·.isNone)
    · rw [same, List.getElem?_set_self inside] at slot
      cases slot
      exact .inr rfl
    · rw [List.getElem?_set_ne (Ne.symm same)] at slot
      exact .inl (find?_eq_some_iff.2 ⟨channel?_eq_some_iff.2 slot, id⟩)
  · rw [List.getElem?_append] at slot
    split at slot
    · exact .inl (find?_eq_some_iff.2 ⟨channel?_eq_some_iff.2 slot, id⟩)
    · have new := List.mem_of_getElem? slot
      rw [List.mem_singleton, Option.some.injEq] at new
      exact .inr new

theorem channel?_openChannel_eq (r : Registry ω) (bound : Nat) (h : Handle) :
    (r.openChannel bound).state.channel? h =
      if h = r.slots.findIdx (·.isNone) then some (.fresh ⟨r.nextId⟩ bound) else r.channel? h := by
  have atMost : r.slots.findIdx (·.isNone) ≤ r.slots.length := List.findIdx_le_length
  simp only [channel?, openChannel]
  generalize r.slots.findIdx (·.isNone) = free at atMost ⊢
  split <;> rename_i inside
  · rw [List.getElem?_set]
    grind
  · obtain rfl : free = r.slots.length := by omega
    rw [List.getElem?_append]
    grind

/-- Opening a channel leaves those that are open where they are. -/
theorem find?_openChannel_of_find? {bound : Nat} (found : r.find? a = some c) :
    (r.openChannel bound).state.find? a = some c := by
  obtain ⟨there, id⟩ := find?_eq_some_iff.1 found
  refine find?_eq_some_iff.2 ⟨?_, id⟩
  rw [channel?_openChannel_eq, if_neg, there]
  intro free
  obtain ⟨inside, slot⟩ := List.getElem?_eq_some_iff.1 (channel?_eq_some_iff.1 there)
  have inside : r.slots.findIdx (·.isNone) < r.slots.length := free ▸ inside
  have none : (r.slots[r.slots.findIdx (·.isNone)]).isNone = true := List.findIdx_getElem
  simp only [← free, slot] at none
  cases none

/-- Closing frees one slot. -/
theorem channel?_close (r : Registry ω) (h h' : Handle) :
    (r.close h).state.channel? h' = if h' = h then none else r.channel? h' := by
  rw [close]
  split
  · rename_i free
    by_cases same : h' = h
    · rw [if_pos same, same, free]
    · rw [if_neg same]
  · by_cases same : h' = h
    · rw [if_pos same, same, channel?, List.getElem?_set]
      simp only [↓reduceIte]
      split <;> rfl
    · rw [if_neg same, channel?, channel?, List.getElem?_set_ne (Ne.symm same)]

theorem find?_close (found : (r.close h).state.find? a = some c) : r.find? a = some c := by
  obtain ⟨there, id⟩ := find?_eq_some_iff.1 found
  rw [channel?_close] at there
  split at there
  · cases there
  · exact find?_eq_some_iff.2 ⟨there, id⟩

end MessageBus.Registry

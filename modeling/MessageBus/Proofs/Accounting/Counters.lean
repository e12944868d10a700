import MessageBus.Telemetry
import Mathlib.Data.List.Induction
import Mathlib.Data.String.Basic

/-!
# What telemetry keeps of notes

Counters stand in the order of their keys, so a key is found where it belongs or not at all. After
any notes each counter says how many of them were counted under its key, and the events are those
that were noted, numbered from zero (`Telemetry.counter_noteAll`, `Telemetry.events_noteAll`).
-/

namespace MessageBus

namespace CounterKey

variable {k l m : CounterKey}

theorem before_iff :
    k.before l = true ↔ k.location < l.location ∨ k.location = l.location ∧ k.name < l.name := by
  simp [before]

theorem not_before_self (k : CounterKey) : k.before k ≠ true := by
  simp [before_iff]

theorem before_trans (first : k.before l = true) (second : l.before m = true) :
    k.before m = true := by
  rw [before_iff] at *
  rcases first with less | ⟨same, less⟩
  · rcases second with less' | ⟨same', -⟩
    · exact .inl (less.trans less')
    · exact .inl (same' ▸ less)
  · rcases second with less' | ⟨same', less'⟩
    · exact .inl (same ▸ less')
    · exact .inr ⟨same.trans same', less.trans less'⟩

theorem before_of_not_before (other : k ≠ l) (not : l.before k ≠ true) : k.before l = true := by
  rw [before_iff]
  rw [Ne, before_iff, not_or, not_and] at not
  rcases lt_trichotomy k.location l.location with less | same | more
  · exact .inl less
  · rcases lt_trichotomy k.name l.name with less | same' | more
    · exact .inr ⟨same, less⟩
    · exact absurd (by cases k; cases l; cases same; cases same'; rfl) other
    · exact absurd more (not.2 same.symm)
  · exact absurd more not.1

end CounterKey

/-- The counter under which a note is counted, if it is. -/
def Note.counted? : Note → Option CounterKey
  | .opened _ _ => some .channelsOpened
  | .parked _ _ _ => some .parked
  | .resumedOnClosed _ _ => some .resumedOnClosed
  | .wakeupForwarded => some .wakeupForwarded
  | .blockerClosed => some .blockerClosed
  | .closed _ _ _ | .deleted _ _ | .resumed _ _ _ => none

/-- The event that is kept of a note, if it is one, with its number left open. -/
def Note.event? : Note → Option TelemetryEvent
  | .closed h _ _ => some ⟨0, some h, "bus::close", "ChannelClosed", none⟩
  | .deleted _ _ => some ⟨0, none, "bus::delete", "BusDeleted", none⟩
  | .opened _ _ | .parked _ _ _ | .resumed _ _ _ | .resumedOnClosed _ _ | .wakeupForwarded
  | .blockerClosed => none

/-- Events, each under the next number from zero on. -/
def TelemetryEvent.numbered (events : List TelemetryEvent) : List TelemetryEvent :=
  events.mapIdx fun number event => { event with sequence := number }

namespace Telemetry

variable {key k : CounterKey} {counters : List (CounterKey × Nat)} {n : Nat} {t : Telemetry}

/-- Whether counters stand in the order of their keys, each once. -/
def InOrder (counters : List (CounterKey × Nat)) : Prop :=
  (counters.map (·.1)).Pairwise (·.before · = true)

theorem mem_keys_bump (there : k ∈ (bump key counters).map (·.1)) :
    k = key ∨ k ∈ counters.map (·.1) := by
  induction counters with
  | nil => exact .inl (List.mem_singleton.1 there)
  | cons entry rest ih =>
    obtain ⟨l, n⟩ := entry
    rw [bump] at there
    split at there
    · exact .inr there
    · split at there
      · exact List.mem_cons.1 there
      · rcases List.mem_cons.1 there with rfl | later
        · exact .inr List.mem_cons_self
        · exact (ih later).imp_right (List.mem_cons_of_mem _)

theorem inOrder_bump (order : InOrder counters) : InOrder (bump key counters) := by
  induction counters with
  | nil => exact List.pairwise_singleton _ _
  | cons entry rest ih =>
    obtain ⟨l, n⟩ := entry
    obtain ⟨first, later⟩ := List.pairwise_cons.1 order
    rw [bump]
    split
    · exact order
    · rename_i other
      split
      · rename_i before
        refine List.pairwise_cons.2 ⟨fun k there => ?_, order⟩
        rcases List.mem_cons.1 there with rfl | there
        · exact before
        · exact CounterKey.before_trans before (first k there)
      · rename_i after
        refine List.pairwise_cons.2 ⟨fun k there => ?_, ih later⟩
        rcases mem_keys_bump there with rfl | there
        · exact CounterKey.before_of_not_before other after
        · exact first k there

/-- A key that comes before all others is not there. -/
theorem lookup_of_before {l : CounterKey} {rest : List (CounterKey × Nat)}
    (order : InOrder ((l, n) :: rest)) (before : k.before l = true) :
    ((l, n) :: rest).lookup k = none := by
  obtain ⟨first, -⟩ := List.pairwise_cons.1 order
  refine List.lookup_eq_none_iff.2 fun entry there => bne_iff_ne.2 fun same => ?_
  refine CounterKey.not_before_self k ?_
  rcases List.mem_cons.1 there with rfl | there
  · exact same ▸ before
  · exact CounterKey.before_trans before (same ▸ first _ (List.mem_map_of_mem there))

/-- Only the counter under the key is changed, by one. -/
theorem lookup_bump (order : InOrder counters) (key k : CounterKey) :
    ((bump key counters).lookup k).getD 0 =
      (counters.lookup k).getD 0 + if k = key then 1 else 0 := by
  induction counters with
  | nil =>
    by_cases same : k = key
    · simp [bump, same]
    · simp [bump, same, List.lookup_cons, beq_eq_false_iff_ne.2 same]
  | cons entry rest ih =>
    obtain ⟨l, n⟩ := entry
    obtain ⟨-, later⟩ := List.pairwise_cons.1 order
    rw [bump]
    split
    · rename_i found
      subst found
      by_cases same : k = l
      · simp [same]
      · simp [same, List.lookup_cons, beq_eq_false_iff_ne.2 same]
    · rename_i other
      split
      · rename_i before
        by_cases same : k = key
        · rw [lookup_of_before order (same ▸ before), same]
          simp
        · rw [List.lookup_cons, beq_eq_false_iff_ne.2 same]
          simp [same]
      · by_cases same : k = l
        · have apart : k ≠ key := fun found => other (same.symm.trans found)
          simp [same, same ▸ apart]
        · rw [List.lookup_cons, List.lookup_cons, beq_eq_false_iff_ne.2 same]
          exact ih later

theorem counter_increment (order : InOrder t.counters) (key k : CounterKey) :
    (t.increment key).counter k = t.counter k + if k = key then 1 else 0 := lookup_bump order key k

/-- Keeps what there is to keep of notes, one after the other. -/
def noteAll (t : Telemetry) (notes : List Note) : Telemetry := notes.foldl note t

theorem noteAll_append (t : Telemetry) (notes more : List Note) :
    t.noteAll (notes ++ more) = (t.noteAll notes).noteAll more := List.foldl_append

theorem inOrder_note (order : InOrder t.counters) (n : Note) : InOrder (t.note n).counters := by
  cases n <;> first | exact order | exact inOrder_bump order

theorem counter_note (order : InOrder t.counters) (n : Note) (k : CounterKey) :
    (t.note n).counter k = t.counter k + n.counted?.toList.count k := by
  have counts (key : CounterKey) :
      (t.increment key).counter k = t.counter k + [key].count k := by
    rw [counter_increment order, List.count_singleton]
    congr 1
    exact if_congr (by rw [beq_iff_eq]; exact eq_comm) rfl rfl
  cases n with
  | closed _ _ _ => rfl
  | deleted _ _ => rfl
  | resumed _ _ _ => rfl
  | _ => exact counts _

/-- A counter says how many of the notes were counted under its key. -/
theorem counter_noteAll (notes : List Note) (k : CounterKey) :
    (empty.noteAll notes).counter k = (notes.filterMap Note.counted?).count k := by
  have inOrder (notes : List Note) : InOrder (empty.noteAll notes).counters := by
    induction notes using List.reverseRecOn with
    | nil => exact .nil
    | append_singleton notes n ih =>
      rw [noteAll_append]
      exact inOrder_note ih n
  induction notes using List.reverseRecOn with
  | nil => rfl
  | append_singleton notes n ih =>
    rw [noteAll_append, List.filterMap_append, List.count_append, ← ih]
    refine (counter_note (inOrder notes) n k).trans (congrArg _ ?_)
    cases counted : n.counted? <;> simp [counted]

/-- The events are those that were noted, in this order, numbered from zero. -/
theorem events_noteAll (notes : List Note) :
    (empty.noteAll notes).events = TelemetryEvent.numbered (notes.filterMap Note.event?) ∧
      (empty.noteAll notes).nextSequence = (notes.filterMap Note.event?).length := by
  induction notes using List.reverseRecOn with
  | nil => exact ⟨rfl, rfl⟩
  | append_singleton notes n ih =>
    obtain ⟨events, next⟩ := ih
    rw [noteAll_append, List.filterMap_append]
    have logs (handle : Option Handle) (location kind : String) :
        (((empty.noteAll notes).log handle location kind none).events =
          TelemetryEvent.numbered (notes.filterMap Note.event? ++
            [⟨0, handle, location, kind, none⟩])) ∧
        ((empty.noteAll notes).log handle location kind none).nextSequence =
          (notes.filterMap Note.event?).length + 1 := by
      rw [TelemetryEvent.numbered, List.mapIdx_concat, ← next]
      exact ⟨congrArg₂ (· ++ ·) events rfl, rfl⟩
    cases n with
    | closed h _ _ =>
      rw [List.length_append]
      exact logs (some h) "bus::close" "ChannelClosed"
    | deleted _ _ =>
      rw [List.length_append]
      exact logs none "bus::delete" "BusDeleted"
    | _ =>
      simp only [List.filterMap_cons, Note.event?, List.filterMap_nil, List.append_nil]
      exact ⟨events, next⟩

end Telemetry

end MessageBus

import MessageBus.Proofs.Errands.Flows
import MessageBus.Proofs.Runs
import MessageBus.Proofs.Unfolding.Asks
import MessageBus.Proofs.Unfolding.Steps

/-!
# Runs of any kind

Some statements hold of every run, whatever is asked for and however the tasks are told to go on,
also if buses are named that are not there or a task is dropped while a bus is in use. Such a run
may be asked for something at any moment (`Executor.Follows`).

A step changes a registry by its errand, and in no other way (`registry_step`); nor does a request
from outside (`registry_ask`). So a registry only ever passes messages (`Follows.flows`), and the
identities of its channels stay different (`Arises.identified`). All of it holds of the runs of a
usage as well (`Reachable.arises`).
-/

namespace MessageBus

namespace Executor

/-- What an errand leaves behind on one bus. -/
def outcomeOn (x : Executor) (errand : Option (Nat × Errand Waker)) (b : Nat) :
    Option (Outcome (Registry Waker) Waker Upshot) :=
  errand.bind fun entry => if entry.1 = b then x.carried b entry.2 else none

/-- How a run goes on, whatever is asked for. -/
inductive Follows (x : Executor) : Executor → Prop where
  | step : Follows x x.step
  | ask (s : Step) : Follows x ({ x with log := [], answer := none }.ask s)

/-- The executors that any run comes by. -/
def Arises (x : Executor) : Prop :=
  ∃ inline, Relation.ReflTransGen Follows (new inline) x

variable {α : Type} {x y : Executor} {b b' : Nat} {e : Errand Waker}
  {o : Outcome (Registry Waker) Waker Upshot}

theorem effect_of_carried (carried : x.carried b e = some o) :
    e.effect (x.registry b) = .ok o := by
  obtain ⟨bus, there, ran⟩ := Option.bind_eq_some_iff.1 carried
  rw [registry_of_bus there]
  split at ran
  · cases ran
  · cases effect : e.effect bus.registry with
    | error fault =>
      rw [effect] at ran
      cases ran
    | ok p =>
      rw [effect] at ran
      cases ran
      rfl

theorem inside_of_carried (carried : x.carried b e = some o) : b < x.buses.length := by
  obtain ⟨bus, there, -⟩ := Option.bind_eq_some_iff.1 carried
  exact (List.getElem?_eq_some_iff.1 there).1

theorem registry_of_carried {errand : Option (Nat × Errand Waker)} (entry : errand = some (b, e))
    (carried : x.carried b e = some o) (buses : y.buses = x.buses.set b ⟨o.state, true⟩)
    (b' : Nat) : y.registry b' =
      ((x.outcomeOn errand b').map (·.state)).getD (x.registry b') := by
  rw [outcomeOn, entry, Option.bind_some]
  by_cases here : b = b'
  · subst here
    rw [if_pos rfl, carried, registry_set_self (inside_of_carried carried) buses]
    rfl
  · rw [if_neg here, registry_set_ne (Ne.symm here) buses]
    rfl

theorem registry_of_failed {errand : Option (Nat × Errand Waker)} (entry : errand = some (b, e))
    (failed : x.carried b e = none) (buses : y.buses = x.buses) (b' : Nat) :
    y.registry b' = ((x.outcomeOn errand b').map (·.state)).getD (x.registry b') := by
  rw [outcomeOn, entry, Option.bind_some]
  by_cases here : b = b'
  · subst here
    rw [if_pos rfl, failed, registry_of_buses buses]
    rfl
  · rw [if_neg here, registry_of_buses buses]
    rfl

theorem registry_modify {change : SharedBus → SharedBus}
    (buses : y.buses = x.buses.modify b change) (same : ∀ bus, (change bus).registry = bus.registry)
    (b' : Nat) : y.registry b' = x.registry b' := by
  rw [registry, registry, buses, List.getElem?_modify]
  cases x.buses[b']? with
  | none => rfl
  | some bus =>
    by_cases here : b = b'
    · simp [here, same]
    · simp [here]

/-- A step changes a registry by its errand only. -/
theorem registry_step (x : Executor) (b : Nat) :
    x.step.registry b = ((x.outcomeOn x.errand? b).map (·.state)).getD (x.registry b) := by
  have nothing {y : Executor} (none : x.errand? = none) (registry : y.registry b = x.registry b) :
      y.registry b = ((x.outcomeOn x.errand? b).map (·.state)).getD (x.registry b) := by
    rw [none, registry]
    rfl
  cases stack : x.stack with
  | nil =>
    rw [step_of_stack_nil stack]
    exact nothing (by rw [errand?, stack]) rfl
  | cons f rest =>
    cases x.step_unfolds stack with
    | quiet none _ leads => exact nothing none (registry_of_buses leads.buses b)
    | releases none leads => exact nothing none (registry_modify leads.buses (fun _ => rfl) b)
    | polls none _ _ leads _ => exact nothing none (registry_of_buses leads.buses b)
    | readies none leads _ _ _ => exact nothing none (registry_of_buses leads.buses b)
    | drains none _ _ leads _ => exact nothing none (registry_of_buses leads.buses b)
    | enters errand carried _ leads => exact registry_of_carried errand carried leads.buses b
    | fails errand failed buses _ _ _ => exact registry_of_failed errand failed buses b

/-- An errand changes the registry of its bus only, and only if it is carried out. -/
theorem registry_of_errand (errand : x.errand? = some (b, e)) (b' : Nat) :
    x.step.registry b' = x.registry b' ∨
      b' = b ∧ ∃ o, e.effect (x.registry b) = .ok o ∧ x.step.registry b' = o.state := by
  rw [registry_step, outcomeOn, errand, Option.bind_some]
  by_cases here : b = b'
  · subst here
    rw [if_pos rfl]
    cases carried : x.carried b e with
    | none => exact .inl rfl
    | some o => exact .inr ⟨rfl, o, effect_of_carried carried, rfl⟩
  · rw [if_neg here]
    exact .inl rfl

/-- A request from outside changes a registry by its errand only. -/
theorem registry_ask (x : Executor) (s : Step) (b : Nat) : (x.ask s).registry b =
    ((x.outcomeOn s.errand? b).map (·.state)).getD (x.registry b) := by
  cases x.ask_asked s with
  | answers none _ leads =>
    rw [none]
    exact registry_of_buses leads.buses b
  | runs leads => exact registry_of_buses leads.buses b
  | polls _ _ leads => exact registry_of_buses leads.buses b
  | drops _ _ leads => exact registry_of_buses leads.buses b
  | dropsInUse _ leads _ => exact registry_modify leads.buses (fun _ => rfl) b
  | adds leads => exact registry_of_append leads.buses (List.forall_mem_singleton.2 rfl) b
  | spawns leads _ => exact registry_of_buses leads.buses b
  | operates _ carried leads => exact registry_of_carried rfl carried leads.buses b
  | fails failed buses _ _ => exact registry_of_failed rfl failed buses b

/-- What was moved on a bus by an errand. -/
def moved (x : Executor) (errand : Option (Nat × Errand Waker)) (b : Nat) : List Transfer :=
  ((x.outcomeOn errand b).map (·.answer.transfers)).getD []

/-- A registry that is changed by an errand only passes the messages that were moved. -/
theorem flows_of_registry {errand : Option (Nat × Errand Waker)} (ident : (x.registry b).Identified)
    (registry : y.registry b =
      ((x.outcomeOn errand b).map (·.state)).getD (x.registry b)) :
    (x.registry b).Flows (x.moved errand b) (y.registry b) := by
  rw [registry, moved]
  cases outcome : x.outcomeOn errand b with
  | none => exact .refl _
  | some o =>
    obtain ⟨⟨b', e⟩, -, carried⟩ := Option.bind_eq_some_iff.1 outcome
    split at carried
    · exact e.flows ident (effect_of_carried carried)
    · cases carried

theorem flows_step (ident : (x.registry b).Identified) :
    (x.registry b).Flows (x.moved x.errand? b) (x.step.registry b) :=
  flows_of_registry ident (x.registry_step b)

theorem flows_ask (ident : (x.registry b).Identified) (s : Step) :
    (x.registry b).Flows (x.moved s.errand? b)
      ((({ x with log := [], answer := none } : Executor).ask s).registry b) :=
  flows_of_registry ident (registry_ask { x with log := [], answer := none } s b)

/-- However a run goes on, its registries pass their messages. -/
theorem Follows.flows (follows : x.Follows y) (ident : (x.registry b).Identified) :
    ∃ ts, (x.registry b).Flows ts (y.registry b) := by
  cases follows with
  | step => exact ⟨_, flows_step ident⟩
  | ask s => exact ⟨_, flows_ask ident s⟩

theorem Arises.follows (arises : x.Arises) (follows : x.Follows y) : y.Arises := by
  obtain ⟨inline, run⟩ := arises
  exact ⟨inline, run.tail follows⟩

theorem arises_new (inline : Bool) : (new inline).Arises := ⟨inline, .refl⟩

/-- What every errand keeps of a registry holds of every bus in every run. -/
theorem Arises.of_errands {Keeps : Registry Waker → Prop} (arises : x.Arises)
    (empty : Keeps .empty) (kept : ∀ (r : Registry Waker) (e : Errand Waker) o, Keeps r →
      e.effect r = .ok o → Keeps o.state) (b : Nat) : Keeps (x.registry b) := by
  have goesOn {x : Executor} (errand : Option (Nat × Errand Waker))
      (before : Keeps (x.registry b)) :
      Keeps (((x.outcomeOn errand b).map (·.state)).getD (x.registry b)) := by
    cases outcome : x.outcomeOn errand b with
    | none => exact before
    | some o =>
      obtain ⟨⟨b', e⟩, -, carried⟩ := Option.bind_eq_some_iff.1 outcome
      split at carried
      · exact kept _ e o before (effect_of_carried carried)
      · cases carried
  obtain ⟨inline, run⟩ := arises
  induction run with
  | refl =>
    rcases b with _ | b
    · exact empty
    · exact empty
  | tail _ follows ih =>
    cases follows with
    | step => exact (registry_step _ b).symm ▸ goesOn _ ih
    | ask s =>
      rename_i x _
      rw [registry_ask { x with log := [], answer := none } s b]
      exact goesOn (x := { x with log := [], answer := none }) _ ih

/-- In every run the open channels of a bus have different identities. -/
theorem Arises.identified (arises : x.Arises) (b : Nat) : (x.registry b).Identified :=
  arises.of_errands Registry.identified_empty
    (fun _ e _ ident ran => (e.flows ident ran).identified ident) b

theorem Arises.settle (arises : x.Arises) (fuel : Nat) : (settle fuel x).Arises := by
  induction fuel generalizing x with
  | zero => exact arises
  | succ fuel ih =>
    rw [settle_succ]
    split
    · exact arises
    · exact ih (arises.follows .step)

/-- Any script may be carried out. -/
theorem Arises.runScript (arises : x.Arises) (script : List Step) :
    (x.runScript script).1.Arises := by
  induction script generalizing x with
  | nil => exact arises
  | cons s rest ih => exact ih ((arises.follows (.ask s)).settle _)

/-! ### Runs that keep to the rules -/

variable {u : Usage}

theorem Next.follows (next : x.Next u y) : x.Follows y := by
  cases next with
  | step => exact .step
  | ask _ _ => exact .ask _

theorem follows_of_run (run : Relation.ReflTransGen (Next u) x y) :
    Relation.ReflTransGen Follows x y :=
  Relation.ReflTransGen.mono (fun _ _ => Next.follows) _ _ run

theorem Reachable.arises (reachable : x.Reachable u) : x.Arises := by
  obtain ⟨inline, run⟩ := reachable
  exact ⟨inline, follows_of_run run⟩

end Executor

end MessageBus

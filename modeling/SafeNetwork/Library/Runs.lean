import Mathlib

/-!
# Runs

A step function takes a state and a request to the next state; a run takes the requests of a list one
after the other. What a step keeps holds after a run, and what it keeps under a condition on state and
request holds after a run throughout which the condition holds. A run of steps that may fail keeps what each
step that succeeds keeps.
-/

namespace Runs

variable {σ ρ : Type} {step : σ → ρ → σ} {state : σ} {requests later : List ρ}
  {condition weaker : σ → ρ → Prop} {motive : σ → Prop}

def run (step : σ → ρ → σ) (state : σ) (requests : List ρ) : σ := requests.foldl step state

@[simp] theorem run_nil : run step state [] = state := rfl

@[simp] theorem run_cons {request : ρ} :
    run step state (request :: requests) = run step (step state request) requests := rfl

theorem run_append : run step state (requests ++ later) = run step (run step state requests) later :=
  List.foldl_append

theorem run_induction (start : motive state)
    (keeps : ∀ state, motive state → ∀ request ∈ requests, motive (step state request)) :
    motive (run step state requests) := by
  induction requests generalizing state with
  | nil => exact start
  | cons request rest ih =>
    exact ih (keeps state start request (List.mem_cons_self ..)) fun state holds other mem =>
      keeps state holds other (List.mem_cons_of_mem _ mem)

def Throughout (step : σ → ρ → σ) (condition : σ → ρ → Prop) (state : σ) : List ρ → Prop
  | [] => True
  | request :: rest => condition state request ∧ Throughout step condition (step state request) rest

section

variable (throughout : Throughout step condition state requests)
include throughout

theorem Throughout.induction (start : motive state)
    (keeps : ∀ state request, motive state → condition state request → motive (step state request)) :
    motive (run step state requests) := by
  induction requests generalizing state with
  | nil => exact start
  | cons request rest ih => exact ih throughout.2 (keeps state request start throughout.1)

theorem Throughout.weaken
    (weakens : ∀ state request, condition state request → weaker state request) :
    Throughout step weaker state requests := by
  induction requests generalizing state with
  | nil => trivial
  | cons request rest ih => exact ⟨weakens state request throughout.1, ih throughout.2⟩

theorem Throughout.and_mem {extra : ρ → Prop}
    (all : ∀ request ∈ requests, extra request) :
    Throughout step (fun state request => condition state request ∧ extra request) state requests := by
  induction requests generalizing state with
  | nil => trivial
  | cons request rest ih =>
    obtain ⟨here, later⟩ := List.forall_mem_cons.mp all
    exact ⟨⟨throughout.1, here⟩, ih throughout.2 later⟩

theorem Throughout.simulation {τ : Type} {other : τ → ρ → τ} {image : τ} {related : σ → τ → Prop} (start : related state image)
    (keeps : ∀ state image request, related state image → condition state request →
      related (step state request) (other image request)) :
    related (run step state requests) (run other image requests) := by
  induction requests generalizing state image with
  | nil => exact start
  | cons request rest ih => exact ih throughout.2 (keeps state image request start throughout.1)

end

theorem exists_of_not_throughout (fails : ¬ Throughout step condition state requests) :
    ∃ earlier request later, requests = earlier ++ request :: later ∧
      ¬ condition (run step state earlier) request := by
  induction requests generalizing state with
  | nil => exact absurd trivial fails
  | cons request rest ih =>
    by_cases here : condition state request
    · obtain ⟨earlier, failing, later, rfl, failed⟩ := ih fun holds => fails ⟨here, holds⟩
      exact ⟨request :: earlier, failing, later, rfl, failed⟩
    · exact ⟨[], request, rest, rfl, here⟩

theorem throughout_append : Throughout step condition state (requests ++ later) ↔
    Throughout step condition state requests ∧
      Throughout step condition (run step state requests) later := by
  induction requests generalizing state with
  | nil => simp [Throughout]
  | cons request rest ih => rw [List.cons_append, Throughout, Throughout, ih, and_assoc, run_cons]

theorem throughout_of_invariant (start : motive state)
    (keeps : ∀ state, motive state → ∀ request ∈ requests, motive (step state request))
    (holds : ∀ state, motive state → ∀ request ∈ requests, condition state request) :
    Throughout step condition state requests := by
  induction requests generalizing state with
  | nil => trivial
  | cons request rest ih =>
    refine ⟨holds state start request (List.mem_cons_self ..),
      ih (keeps state start request (List.mem_cons_self ..)) (fun state holds other mem => ?_)
        fun state kept other mem => ?_⟩
    · exact keeps state holds other (List.mem_cons_of_mem _ mem)
    · exact holds state kept other (List.mem_cons_of_mem _ mem)

theorem foldlM_induction {ε : Type} {attempt : σ → ρ → Except ε σ} {final : σ} {motive : List ρ → σ → Prop}
    (start : motive [] state)
    (keeps : ∀ seen state request next, motive seen state → attempt state request = .ok next →
      motive (seen ++ [request]) next)
    (done : requests.foldlM attempt state = .ok final) : motive requests final := by
  induction requests using List.reverseRecOn generalizing final with
  | nil =>
    obtain rfl := Except.ok.inj done
    exact start
  | append_singleton seen request ih =>
    rw [List.foldlM_append] at done
    cases before : seen.foldlM attempt state with
    | error err => simp [before, bind, Except.bind] at done
    | ok middle =>
      simp only [before, List.foldlM_cons, List.foldlM_nil, bind_pure] at done
      exact keeps seen middle request final (ih before) done

end Runs

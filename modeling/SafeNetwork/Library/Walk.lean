import Mathlib

/-!
# Walks along a partial function

A partial successor function `next` gives each point at most one way to go on. `Path next a l`
says that the walk from `a` ends, after passing the points `l`. Such a walk is unique and
passes no point twice. `update` lets one point go on elsewhere: the walks from all points still
end exactly when the new successor does not lead back to that point.
-/

namespace Walk

variable {α : Type*} {next : α → Option α} {a b : α} {l m : List α}

/-- The walk from a point ends after passing the listed points. -/
inductive Path (next : α → Option α) : α → List α → Prop
  | stop {a : α} : next a = none → Path next a []
  | step {a b : α} {l : List α} : next a = some b → Path next b l → Path next a (b :: l)

namespace Path

theorem unique (first : Path next a l) (second : Path next a m) : l = m := by
  induction first generalizing m with
  | stop ends =>
    cases second with
    | stop => rfl
    | step goes => simp [ends] at goes
  | step goes _ ih =>
    cases second with
    | stop ends => simp [ends] at goes
    | step goes' rest' =>
      obtain rfl := Option.some.inj (goes.symm.trans goes')
      rw [ih rest']

variable (path : Path next a l)
include path

theorem tail (passed : b ∈ l) : ∃ m, Path next b m ∧ m.length < l.length := by
  induction path with
  | stop => simp at passed
  | @step a c l _ rest ih =>
    obtain rfl | later := List.mem_cons.mp passed
    · exact ⟨l, rest, Nat.lt_succ_self _⟩
    · obtain ⟨m, found, shorter⟩ := ih later
      exact ⟨m, found, shorter.trans (Nat.lt_succ_self _)⟩

theorem split (passed : b ∈ a :: l) :
    ∃ before m, a :: l = before ++ b :: m ∧ Path next b m := by
  induction path with
  | @stop a ends =>
    obtain rfl : b = a := by simpa using passed
    exact ⟨[], [], rfl, .stop ends⟩
  | @step a c l goes rest ih =>
    obtain rfl | later := List.mem_cons.mp passed
    · exact ⟨[], _, rfl, .step goes rest⟩
    · obtain ⟨before, m, whole, found⟩ := ih later
      exact ⟨a :: before, m, by rw [whole, List.cons_append], found⟩

theorem not_mem : a ∉ l := by
  intro back
  obtain ⟨m, again, shorter⟩ := path.tail back
  rw [again.unique path] at shorter
  exact Nat.lt_irrefl _ shorter

theorem nodup : (a :: l).Nodup := by
  induction path with
  | stop => simp
  | step goes rest ih => exact List.nodup_cons.mpr ⟨(Path.step goes rest).not_mem, ih⟩

theorem isChain : (a :: l).IsChain fun b c => next b = some c := by
  induction path with
  | stop => simp
  | step goes _ ih => exact List.IsChain.cons_cons goes ih

theorem next_getLast : next ((a :: l).getLast (List.cons_ne_nil a l)) = none := by
  induction path with
  | stop ends => simpa using ends
  | step _ rest ih => simpa using ih

theorem dropLast_isSome : ∀ b ∈ (a :: l).dropLast, (next b).isSome := by
  induction path with
  | stop => simp
  | step goes _ ih =>
    intro b mem
    rw [List.dropLast_cons_of_ne_nil (List.cons_ne_nil _ _)] at mem
    obtain rfl | later := List.mem_cons.mp mem
    · simp [goes]
    · exact ih b later

theorem mem_of_reaches
    (reaches : Relation.ReflTransGen (fun b c => next b = some c) a b) : b ∈ a :: l := by
  induction reaches using Relation.ReflTransGen.head_induction_on generalizing l with
  | refl => exact List.mem_cons_self
  | head goes _ ih =>
    cases path with
    | stop ends => simp [ends] at goes
    | step goes' rest =>
      obtain rfl := Option.some.inj (goes.symm.trans goes')
      exact List.mem_cons_of_mem _ (ih rest)

theorem reaches_of_mem (mem : b ∈ a :: l) :
    Relation.ReflTransGen (fun b c => next b = some c) a b := by
  induction path with
  | stop =>
    obtain rfl : b = _ := by simpa using mem
    exact .refl
  | step goes _ ih =>
    obtain rfl | later := List.mem_cons.mp mem
    · exact .refl
    · exact .head goes (ih later)

end Path

/-! ## Changing one successor -/

variable [DecidableEq α] {target : α}

theorem Path.update (path : Path next a l) (avoids : b ∉ a :: l) (target : α) :
    Path (Function.update next b (some target)) a l := by
  induction path with
  | stop ends =>
    refine .stop ?_
    rw [Function.update_of_ne (by rintro rfl; simp at avoids), ends]
  | step goes _ ih =>
    obtain ⟨here, later⟩ := not_or.mp (fun mem => avoids (List.mem_cons.mpr mem))
    refine .step ?_ (ih later)
    rw [Function.update_of_ne (Ne.symm here), goes]

/-- When every walk ends, it still ends after one point goes on to a target whose walk does not
pass that point. -/
theorem exists_path_update (ends : ∀ a, ∃ l, Path next a l)
    (avoids : ¬ Relation.ReflTransGen (fun b c => next b = some c) target b) (a : α) :
    ∃ l, Path (Function.update next b (some target)) a l := by
  obtain ⟨onward, fromTarget⟩ := ends target
  have again := fromTarget.update (fun mem => avoids (fromTarget.reaches_of_mem mem)) target
  have fromPoint : Path (Function.update next b (some target)) b (target :: onward) :=
    .step (Function.update_self b (some target) next) again
  obtain ⟨l, path⟩ := ends a
  induction path with
  | @stop c stops =>
    by_cases same : c = b
    · subst same
      exact ⟨_, fromPoint⟩
    · exact ⟨[], .stop (by rw [Function.update_of_ne same, stops])⟩
  | @step c d l goes _ ih =>
    by_cases same : c = b
    · subst same
      exact ⟨_, fromPoint⟩
    · obtain ⟨m, rest⟩ := ih
      exact ⟨d :: m, .step (by rw [Function.update_of_ne same, goes]) rest⟩

theorem not_path_update (back : Relation.ReflTransGen (fun b c => next b = some c) target b)
    (l : List α) : ¬ Path (Function.update next b (some target)) b l := by
  intro path
  -- The steps from the target to the first arrival at the point are not changed.
  have round : ∀ start, Relation.ReflTransGen (fun c d => next c = some d) start b →
      Relation.ReflTransGen
        (fun c d => Function.update next b (some target) c = some d) start b := by
    intro start reaches
    induction reaches using Relation.ReflTransGen.head_induction_on with
    | refl => exact .refl
    | @head c d goes _ ih =>
      by_cases same : c = b
      · subst same
        exact .refl
      · exact .head (by rw [Function.update_of_ne same, goes]) ih
  cases path with
  | stop ends => simp at ends
  | step goes rest =>
    rw [Function.update_self] at goes
    obtain rfl := Option.some.inj goes
    exact (Path.step (Function.update_self b (some target) next) rest).not_mem
      (rest.mem_of_reaches (round target back))

end Walk

/-!
# CurveSketch.Workers

Mapping a list with several workers. The list is cut into as many runs as there are workers, each
run is mapped by a task of its own, and the results are joined in the old order. So the number of
workers is a matter of speed only (`mapWith_eq_map`).
-/

namespace CurveSketch
namespace Workers

/-- A list cut into runs of at most `size + 1` items. -/
def runs {α : Type} (size : Nat) (items : List α) : List (List α) :=
  if items.length ≤ size + 1 then [items]
  else items.take (size + 1) :: runs size (items.drop (size + 1))
termination_by items.length
decreasing_by
  simp only [List.length_drop]
  omega

/-- The list `items.map f`, computed by the given number of workers. -/
def mapWith {α β : Type} (workers : Int) (f : α → β) (items : List α) : List β :=
  if workers ≤ 1 || items.length < 2 then items.map f
  else
    let tasks := (runs (items.length / workers.toNat) items).map fun run =>
      Task.spawn fun _ => run.map f
    tasks.flatMap Task.get

theorem runs_flatten {α : Type} (size : Nat) (items : List α) :
    (runs size items).flatten = items := by
  fun_induction runs size items with
  | case1 items h => simp
  | case2 items h ih => simp [ih]

theorem mapWith_eq_map {α β : Type} (workers : Int) (f : α → β) (items : List α) :
    mapWith workers f items = items.map f := by
  unfold mapWith
  split
  · rfl
  · simp only [List.flatMap_map]
    have joined : ∀ parts : List (List α),
        parts.flatMap (fun run => (Task.spawn fun _ => run.map f).get) = parts.flatten.map f := by
      intro parts
      induction parts with
      | nil => rfl
      | cons run rest ih =>
        simp only [List.flatMap_cons, List.flatten_cons, List.map_append, ih]
        rfl
    rw [joined, runs_flatten]

end Workers
end CurveSketch

import ActionSheet.Proofs.Definition.Partition
import Mathlib.Data.List.Induction

/-!
# Blocks made row by row

A block can be made without looking back at it. The arguments are taken one after the other, and a flag
says whether any came before; the first row leads if there are columns for it to carry. The flag is
about rows and not about leading rows: it goes up with the first argument, also where no columns are
there and nothing leads.

`foldl_add` says what holds after some of the arguments. The rows are those of the places that were
filled, and the flag is up exactly if there are any. The span is no part of this, since it is known
from the start; it only has to be the length of the whole list in the end.
-/

namespace ActionSheet

namespace Row

variable (identifying : List String) (span : Nat)

/-- The row of an argument at a place of a block that so many rows belong to. -/
def placed (place : Nat) (a : Argument) : Row :=
  if place = 0 ∧ identifying ≠ [] then leading (identifying.map fun value => ⟨value, span⟩) a
  else following a

/-- Some rows of a block and whether there are any, with one more row. -/
def add (made : List Row × Bool) (a : Argument) : List Row × Bool :=
  let row := if made.2 || identifying.isEmpty then following a
    else leading (identifying.map fun value => ⟨value, span⟩) a
  (made.1 ++ [row], true)

theorem placed_zero (a : Argument) :
    placed identifying span 0 a = if identifying.isEmpty then following a
      else leading (identifying.map fun value => ⟨value, span⟩) a := by
  cases identifying with
  | nil => rfl
  | cons value identifying => exact if_pos ⟨rfl, List.cons_ne_nil value identifying⟩

theorem placed_succ (i : Nat) (a : Argument) :
    placed identifying span (i + 1) a = following a :=
  if_neg fun h => absurd h.1 (Nat.succ_ne_zero i)

/-- The flag tells the first place from the others. -/
theorem add_eq (rows : List Row) (as : List Argument) (a : Argument) :
    add identifying span (rows, !as.isEmpty) a =
      (rows ++ [placed identifying span as.length a], true) := by
  cases as with
  | nil =>
      rw [List.length_nil, placed_zero]
      rfl
  | cons x as =>
      rw [List.length_cons, placed_succ]
      rfl

theorem foldl_add (as : List Argument) :
    as.foldl (add identifying span) ([], false) =
      (as.mapIdx (placed identifying span), !as.isEmpty) := by
  induction as using List.reverseRecOn with
  | nil => rfl
  | append_singleton as a ih =>
      rw [List.foldl_append, ih, List.foldl_cons, List.foldl_nil, add_eq, List.mapIdx_concat]
      cases as <;> rfl

theorem block_eq_mapIdx (as : List Argument) :
    block identifying as = as.mapIdx (placed identifying as.length) := by
  cases as with
  | nil => rfl
  | cons a rest =>
      have hrest : rest.mapIdx (fun i => placed identifying (rest.length + 1) (i + 1)) =
          rest.map following := by
        rw [List.mapIdx_eq_iff]
        intro i
        rw [List.getElem?_map]
        exact congrArg (Option.map · rest[i]?)
          (funext fun x => (placed_succ identifying _ i x).symm)
      rw [List.mapIdx_cons, List.length_cons, hrest, placed_zero]
      rfl

theorem countP_isLeading_block (as : List Argument) :
    (block identifying as).countP isLeading = if identifying = [] ∨ as = [] then 0 else 1 := by
  cases as with
  | nil => exact (if_pos (.inr rfl)).symm
  | cons a rest =>
      have hrest : (rest.map following).countP isLeading = 0 := by
        rw [List.countP_eq_zero]
        intro r hr
        obtain ⟨x, -, rfl⟩ := List.mem_map.1 hr
        exact Bool.false_ne_true
      rw [block, List.countP_cons, hrest]
      cases identifying with
      | nil => rfl
      | cons value identifying => exact (if_neg (by simp)).symm

/-- The rows of a block, for any arguments under any columns. Taking the arguments one by one makes the
same block; it has a row for every argument, in order and with the argument as it is; the row in
front has for its cells the columns in order, each as high as the block, if there are columns; and
nothing else leads. -/
theorem block_rows (arguments : List Argument) :
    block identifying arguments =
      (arguments.foldl (add identifying arguments.length) ([], false)).1 ∧
    (block identifying arguments).map argument = arguments ∧
    (∀ i : Nat, (block identifying arguments)[i]? = arguments[i]?.map fun a =>
      if i = 0 ∧ identifying ≠ [] then
        leading (identifying.map fun value => ⟨value, arguments.length⟩) a
      else following a) ∧
    (block identifying arguments).countP isLeading =
      if identifying = [] ∨ arguments = [] then 0 else 1 := by
  refine ⟨?_, map_argument_block identifying arguments, fun i => ?_,
    countP_isLeading_block identifying arguments⟩
  · rw [foldl_add, block_eq_mapIdx]
  · rw [block_eq_mapIdx, List.getElem?_mapIdx]
    rfl

end Row

end ActionSheet

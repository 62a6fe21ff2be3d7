/-
  GatewayCache.Text.Cut

  Cutting a list in two at the first occurrence of a separator.
-/

namespace GatewayCache.Text

variable {α : Type} [BEq α]

/-- What stands before the first `sep`, and what stands after it. The second
    part is `none` when there is no `sep`. -/
def cut (sep : α) (xs : List α) : List α × Option (List α) :=
  (xs.takeWhile (· != sep),
    match xs.dropWhile (· != sep) with
    | [] => none
    | _ :: rest => some rest)

/-- Cutting after a first part without separators gives both parts back. -/
theorem cut_append_cons [LawfulBEq α] {sep : α} {xs : List α} (h : sep ∉ xs) (ys : List α) :
    cut sep (xs ++ sep :: ys) = (xs, some ys) := by
  induction xs with
  | nil => simp [cut]
  | cons x xs ih =>
      have hx : x ≠ sep := fun e => h (by simp [e])
      have := ih (fun hm => h (List.mem_cons_of_mem _ hm))
      simp only [cut, Prod.mk.injEq] at this
      simp [cut, hx, this]

end GatewayCache.Text

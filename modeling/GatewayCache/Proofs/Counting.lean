/-
  GatewayCache.Proofs.Counting

  How many elements of a list have a property, when one element joins the list or is
  replaced.
-/

namespace GatewayCache

variable {α : Type} {p : α → Bool}

theorem countP_cons_toNat (p : α → Bool) (a : α) (l : List α) :
    (a :: l).countP p = l.countP p + (p a).toNat := by
  rw [List.countP_cons]
  cases p a <;> rfl

/-- Where `f` replaces an element, that one no longer counts, and its image does. -/
theorem countP_modify {l : List α} {i : Nat} {a : α} (h : l[i]? = some a) (f : α → α) :
    (l.modify i f).countP p + (p a).toNat = l.countP p + (p (f a)).toNat := by
  induction l generalizing i with
  | nil => cases h
  | cons b l ih =>
      cases i with
      | zero =>
          obtain rfl : b = a := by simpa using h
          rw [List.modify_zero_cons, countP_cons_toNat, countP_cons_toNat]
          exact Nat.add_right_comm _ _ _
      | succ i =>
          have hrest : (l.modify i f).countP p + (p a).toNat = l.countP p + (p (f a)).toNat :=
            ih (by simpa using h)
          rw [List.modify_succ_cons, countP_cons_toNat, countP_cons_toNat]
          omega

end GatewayCache

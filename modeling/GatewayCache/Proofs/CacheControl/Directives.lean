/-
  GatewayCache.Proofs.CacheControl.Directives

  The directives of joined field values.

  A comma between two texts keeps their pieces apart, so reading the joined text
  merges what the two say (`parse_append`), and a message has the directives of
  its readable values, merged in order (`ofFields_eq_foldl`). A flag of a message
  is then set exactly when one of these values sets it (`IsFlag.ofFields_iff`), which
  is when it lists the name of the directive for it (`IsFlag.parse_iff_lists`).
-/

import GatewayCache.CacheControl
import Mathlib.Tactic.SplitIfs

namespace GatewayCache

open GatewayCache.Http

namespace CacheControl

/-! ## Joined texts -/

theorem foldl_apply_eq_merge (c : CacheControl) (ds : List Directive) :
    ds.foldl apply c = merge c (ds.foldl apply empty) := by
  induction ds generalizing c with
  | nil => exact (merge_empty c).symm
  | cons d ds ih =>
      rw [List.foldl_cons, List.foldl_cons, ih (c.apply d), ih (empty.apply d), apply_eq_merge c d,
        merge_assoc]

/-- A comma keeps the directives in front of it and those behind it apart. -/
theorem parse_append (a b : String) : parse (a ++ "," ++ b) = merge (parse a) (parse b) := by
  have hcomma : (a ++ "," ++ b).toList = a.toList ++ ',' :: b.toList := by
    simp [String.toList_append]
  rw [parse, hcomma, List.splitOn_append_cons_self, applyPieces, List.filterMap_append,
    List.foldl_append, foldl_apply_eq_merge]
  rfl

/-- Texts joined by commas say what they say one after the other. -/
theorem merge_parse_intercalate (c : CacheControl) (ts : List String) :
    merge c (parse (String.intercalate "," ts)) = ts.foldl (fun c t => merge c (parse t)) c := by
  induction ts generalizing c with
  | nil => exact merge_empty c
  | cons t ts ih =>
      cases ts with
      | nil => rfl
      | cons u ts =>
          rw [List.foldl_cons, ← ih, merge_assoc, ← parse_append, String.intercalate_cons_cons]

/-- The directives of a message are those of its readable values, merged in
    order. -/
theorem ofFields_eq_foldl (f : Fields) :
    ofFields f = (f.texts FieldName.cacheControl).foldl (fun c t => merge c (parse t)) empty := by
  rw [ofFields, ← merge_parse_intercalate, empty_merge]

/-! ## Flags -/

/-- A flag that the directive `d` sets and no other one, and that merging keeps. -/
structure IsFlag (flag : CacheControl → Bool) (d : Directive) : Prop where
  not_empty : flag empty = false
  apply_iff : ∀ e, flag (empty.apply e) = true ↔ e = d
  merge_eq : ∀ a b, flag (merge a b) = (flag a || flag b)

theorem isFlag_noStore : IsFlag noStore .noStore where
  not_empty := rfl
  apply_iff e := by cases e <;> simp [apply, empty]
  merge_eq _ _ := rfl

theorem isFlag_isPrivate : IsFlag isPrivate .isPrivate where
  not_empty := rfl
  apply_iff e := by cases e <;> simp [apply, empty]
  merge_eq _ _ := rfl

section

variable {flag : CacheControl → Bool} {d : Directive}

theorem IsFlag.foldl_apply_iff (h : IsFlag flag d) (ds : List Directive) :
    flag (ds.foldl apply empty) = true ↔ d ∈ ds := by
  induction ds with
  | nil => simp [h.not_empty]
  | cons e ds ih =>
      rw [List.foldl_cons, foldl_apply_eq_merge, h.merge_eq, Bool.or_eq_true, h.apply_iff, ih,
        List.mem_cons, eq_comm]

/-- A text sets a flag when one of its pieces spells the directive for it. -/
theorem IsFlag.parse_iff (h : IsFlag flag d) (t : String) :
    flag (parse t) = true ↔ ∃ piece ∈ t.toList.splitOn ',', Directive.read? piece = some d := by
  rw [parse, applyPieces, h.foldl_apply_iff, List.mem_filterMap]

/-- A message sets a flag when one of its readable values does. -/
theorem IsFlag.ofFields_iff (h : IsFlag flag d) (f : Fields) :
    flag (ofFields f) = true ↔ ∃ t ∈ f.texts FieldName.cacheControl, flag (parse t) = true := by
  have hfold : ∀ (ts : List String) (c : CacheControl),
      flag (ts.foldl (fun c t => merge c (parse t)) c) = true ↔
        flag c = true ∨ ∃ t ∈ ts, flag (parse t) = true := by
    intro ts
    induction ts with
    | nil => simp
    | cons t ts ih =>
        intro c
        rw [List.foldl_cons, ih, h.merge_eq, Bool.or_eq_true, or_assoc]
        simp
  rw [ofFields_eq_foldl, hfold, h.not_empty]
  simp

end

/-! ## Names of directives -/

/-- The name of the directive that a piece between commas spells: what stands in
    front of the equals sign, without blanks around it and in lower case. -/
def Directive.nameOf (piece : List Char) : List Char :=
  Text.lower (Text.trim ((Text.trim piece).takeWhile (· != '=')))

/-- The name of a directive that takes no argument. -/
def Directive.flagName? : Directive → Option String
  | .noStore => some "no-store"
  | .noCache => some "no-cache"
  | .mustRevalidate => some "must-revalidate"
  | .isPublic => some "public"
  | .isPrivate => some "private"
  | .maxAge _ => none
  | .sharedMaxAge _ => none

/-- A directive that takes no argument is spelled by its name alone. -/
theorem Directive.ofParts?_eq_some_iff {d : Directive} {flagName : String}
    (hd : d.flagName? = some flagName) {name : List Char} {argument : Option (List Char)} :
    ofParts? name argument = some d ↔ Text.lower name = flagName.toList := by
  constructor
  · intro h
    rw [ofParts?] at h
    -- The name that was found is the one of the directive it gave.
    split_ifs at h <;> cases h <;> cases hd
    all_goals assumption
  · intro h
    rw [ofParts?, h]
    cases d <;> cases hd <;> rfl

/-- Some piece between the commas of a text has the name. -/
def Lists (t name : String) : Prop :=
  ∃ piece ∈ t.toList.splitOn ',', Directive.nameOf piece = name.toList

instance (t name : String) : Decidable (Lists t name) :=
  inferInstanceAs (Decidable (∃ piece ∈ t.toList.splitOn ',', Directive.nameOf piece = name.toList))

/-- A text sets a flag when it lists the name of the directive for it. -/
theorem IsFlag.parse_iff_lists {flag : CacheControl → Bool} {d : Directive} {name : String}
    (h : IsFlag flag d) (hd : d.flagName? = some name) {t : String} :
    flag (parse t) = true ↔ Lists t name := by
  simp only [h.parse_iff, Directive.read?, Directive.ofParts?_eq_some_iff hd]
  rfl

end CacheControl

end GatewayCache

/-
  GatewayCache.Proofs.CacheControl.Merging

  Reading directives turns joining texts into merging what they say.

  A message has the directives of its readable values merged one after the other.
  Merging is associative but the order of two ages matters, since the later one counts.
  Without the ages it does not (`merge_right_comm_withoutAges`), so the flags of a
  message are the same in every order of its values (`withoutAges_ofFields_of_perm`).
  Directives are taken apart at signs that are no letters and compared in lower case, so
  the case of a text does not matter (`parse_lowered`).
-/

import GatewayCache.Proofs.CacheControl.Directives
import GatewayCache.Proofs.Text.Case

namespace GatewayCache.CacheControl

open GatewayCache.Http

/-! ## Flags alone -/

/-- The flags among the directives. -/
def withoutAges (c : CacheControl) : CacheControl := { c with maxAge := none, sharedMaxAge := none }

theorem withoutAges_merge (a b : CacheControl) :
    (merge a b).withoutAges = merge a.withoutAges b.withoutAges := rfl

/-- Flags may be merged in either order. -/
theorem merge_right_comm_withoutAges (c a b : CacheControl) :
    merge (merge c a.withoutAges) b.withoutAges = merge (merge c b.withoutAges) a.withoutAges := by
  simp only [merge, withoutAges, Bool.or_right_comm]

theorem withoutAges_foldl (ts : List String) (c : CacheControl) :
    (ts.foldl (fun c t => merge c (parse t)) c).withoutAges =
      ts.foldl (fun c t => merge c (parse t).withoutAges) c.withoutAges := by
  induction ts generalizing c with
  | nil => rfl
  | cons t ts ih => rw [List.foldl_cons, List.foldl_cons, ih, withoutAges_merge]

theorem withoutAges_ofFields_of_perm {f g : Fields}
    (h : (f.values FieldName.cacheControl).Perm (g.values FieldName.cacheControl)) :
    (ofFields f).withoutAges = (ofFields g).withoutAges := by
  -- Leaving out what is not readable keeps the rest a permutation.
  have htexts : (f.texts FieldName.cacheControl).Perm (g.texts FieldName.cacheControl) :=
    h.filterMap FieldValue.text?
  rw [ofFields_eq_foldl, ofFields_eq_foldl, withoutAges_foldl, withoutAges_foldl]
  exact htexts.foldl_eq' (fun a _ b _ c => merge_right_comm_withoutAges c (parse a) (parse b)) _

/-! ## Lower case -/

theorem seconds_lower (argument : Option (List Char)) :
    seconds (argument.map Text.lower) = seconds argument := by
  cases argument with
  | none => rfl
  | some cs =>
      rw [seconds, Option.map_some, Option.bind_some, Text.Decimal.read_lower]
      rfl

theorem Directive.ofParts?_lower (name : List Char) (argument : Option (List Char)) :
    ofParts? (Text.lower name) (argument.map Text.lower) = ofParts? name argument := by
  simp only [ofParts?, Text.lower_lower, seconds_lower]

theorem Directive.read?_lower (piece : List Char) : read? (Text.lower piece) = read? piece := by
  have hunquote : ∀ argument : List Char, Text.unquote (Text.trim (Text.lower argument)) =
      Text.lower (Text.unquote (Text.trim argument)) := by
    intro argument
    rw [Text.trim_lower, Text.unquote_lower]
  have hmap : ∀ argument : Option (List Char),
      ((argument.map Text.lower).map fun a => Text.unquote (Text.trim a)) =
        (argument.map fun a => Text.unquote (Text.trim a)).map Text.lower := by
    intro argument
    cases argument with
    | none => rfl
    | some cs => exact congrArg some (hunquote cs)
  -- From the outside in: the piece is trimmed and cut, then each half is trimmed.
  rw [read?, Text.trim_lower, Text.cut_lower (by decide)]
  dsimp only
  rw [Text.trim_lower, hmap, ofParts?_lower]
  rfl

/-- A text in lower case says what the text says. -/
theorem parse_lowered (t : String) : parse (Text.lowered t) = parse t := by
  rw [parse, Text.lowered, String.toList_ofList, Text.splitOn_lower (by decide), applyPieces,
    List.filterMap_map, show Directive.read? ∘ Text.lower = Directive.read? from
      funext Directive.read?_lower]
  rfl

/-! ## Reading and merging -/

/-- Reading turns texts joined by a comma into merged directives. So a message has the
    directives of its readable values merged in their order, none if there are none; its
    flags are the same in any order; and texts that differ only in the case of their
    letters have the same directives. -/
theorem reading_merges :
    (∀ a b : String, parse (a ++ "," ++ b) = merge (parse a) (parse b)) ∧
    (∀ f : Fields, ofFields f =
      (f.texts FieldName.cacheControl).foldl (fun c t => merge c (parse t)) empty) ∧
    (∀ f g : Fields,
      (f.values FieldName.cacheControl).Perm (g.values FieldName.cacheControl) →
        (ofFields f).withoutAges = (ofFields g).withoutAges) ∧
    ∀ a b : String, Text.lowered a = Text.lowered b → parse a = parse b := by
  refine ⟨parse_append, ofFields_eq_foldl, fun f g => withoutAges_ofFields_of_perm, ?_⟩
  intro a b h
  rw [← parse_lowered a, h, parse_lowered]

/-- Two readable values and one that is not, between them. -/
def spoken : List FieldValue :=
  [⟨Text.Utf8.encode "max-age=1, PUBLIC", by decide⟩, ⟨[0x70, 0xE9], by decide⟩,
    ⟨Text.Utf8.encode ",no-cache ,max-age=\"2\"", by decide⟩]

/-- Fields with the values for their directives. -/
def carrying (values : List FieldValue) : Fields := ⟨values.map fun v => (.cacheControl, v)⟩

theorem values_carrying (values : List FieldValue) :
    (carrying values).values FieldName.cacheControl = values := by
  simp [carrying, Fields.values, List.filter_map, Function.comp_def]

/-- Read backwards the values have another age, but the same flags. -/
theorem reading_merges_reversed :
    ((carrying spoken).values FieldName.cacheControl).Perm
        ((carrying spoken.reverse).values FieldName.cacheControl) ∧
      (ofFields (carrying spoken)).withoutAges = (ofFields (carrying spoken.reverse)).withoutAges ∧
      (ofFields (carrying spoken)).withoutAges =
        { noCache := true, isPublic := true : CacheControl } ∧
      (ofFields (carrying spoken)).maxAge = some 2 ∧
      (ofFields (carrying spoken.reverse)).maxAge = some 1 ∧
      Text.lowered "S-MaxAge = +3" = Text.lowered "s-maxAGE = +3" ∧
      parse "S-MaxAge = +3" = parse "s-maxAGE = +3" := by
  have hperm : ((carrying spoken).values FieldName.cacheControl).Perm
      ((carrying spoken.reverse).values FieldName.cacheControl) := by
    rw [values_carrying, values_carrying]
    exact (List.reverse_perm spoken).symm
  have hlowered : Text.lowered "S-MaxAge = +3" = Text.lowered "s-maxAGE = +3" := by decide
  obtain ⟨-, -, hflags, hcase⟩ := reading_merges
  refine ⟨hperm, hflags _ _ hperm, ?_, ?_, ?_, hlowered, hcase _ _ hlowered⟩
  · decide +kernel
  · decide +kernel
  · decide +kernel

end GatewayCache.CacheControl

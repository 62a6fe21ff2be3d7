/-
  GatewayCache.Proofs.Key.Spelled

  Reading the negotiating fields back from the text that they are spelled as.

  A value may hold the marker of a later field, and what stands behind it then
  reads as the value of that field. Where no value does, the text determines all
  values (`eq_of_spelled_eq`). Every text is spelled by values of that kind
  (`exists_unforged`): a value that holds a marker is cut at it, and the rest goes
  to the later field. Cutting makes the value shorter, so it comes to an end.
-/

import GatewayCache.Proofs.Key.Parts
import GatewayCache.Proofs.Text.Joined

namespace GatewayCache

open GatewayCache.Http GatewayCache.Text

namespace CacheKey

/-! ## Markers -/

theorem equals_not_mem_text (n : FieldName) : '=' ∉ n.text.toList := by
  intro h
  have hn := n.normal
  simp only [isNormalName, Bool.and_eq_true, List.all_eq_true] at hn
  exact absurd (hn.2 '=' h).1 (by decide)

/-- A marker ends at its equals sign. -/
theorem marker_append_inj {n m : FieldName} {a b : List Char}
    (h : marker n ++ a = marker m ++ b) : n = m ∧ a = b := by
  unfold marker at h
  rw [List.cons_append, List.cons_append, List.cons.injEq, List.append_assoc,
    List.append_assoc] at h
  have hcut := congrArg (cut '=') h.2
  rw [List.singleton_append, List.singleton_append, cut_append_cons (equals_not_mem_text n),
    cut_append_cons (equals_not_mem_text m)] at hcut
  obtain ⟨htext, hrest⟩ := Prod.mk.inj hcut
  exact ⟨FieldName.ext (String.toList_inj.1 htext), Option.some.inj hrest⟩

theorem trimmed_marker (n : FieldName) : Trimmed (marker n) := by
  constructor
  · intro c hc
    obtain rfl : '|' = c := Option.some.inj hc
    decide
  · intro c hc
    have hlast : (marker n).getLast? = some '=' := by
      rw [marker, ← List.cons_append, List.getLast?_concat]
    obtain rfl : '=' = c := Option.some.inj (hlast.symm.trans hc)
    decide

/-! ## Spelled values -/

/-- All values are trimmed. -/
def TrimmedValues (v : FieldName → Option String) : Prop :=
  ∀ n x, v n = some x → Trimmed x.toList

section

variable {n : FieldName} {names : List FieldName} {v w : FieldName → Option String}

theorem trimmed_marked (h : TrimmedValues v) (n : FieldName) : Trimmed (marked n (v n)) := by
  cases hv : v n with
  | none => exact trimmed_nil
  | some x => exact (trimmed_marker n).append (h n x hv)

theorem trimmed_spelled (h : TrimmedValues v) (names : List FieldName) :
    Trimmed (spelled names v) :=
  Trimmed.flatMap fun n _ => trimmed_marked h n

theorem spelled_cons : spelled (n :: names) v = marked n (v n) ++ spelled names v :=
  List.flatMap_cons

theorem spelled_append (others : List FieldName) :
    spelled (names ++ others) v = spelled names v ++ spelled others v :=
  List.flatMap_append

theorem spelled_congr (h : ∀ n ∈ names, v n = w n) : spelled names v = spelled names w := by
  induction names with
  | nil => rfl
  | cons n names ih =>
      rw [spelled_cons, spelled_cons, h n List.mem_cons_self,
        ih fun m hm => h m (List.mem_cons_of_mem n hm)]

/-- What is spelled starts with the marker of one of the fields. -/
theorem spelled_start (h : TrimmedValues v) (names : List FieldName) :
    spelled names v = [] ∨
      ∃ m ∈ names, ∃ rest, spelled names v = marker m ++ rest ∧ Trimmed rest := by
  induction names with
  | nil => exact .inl rfl
  | cons n names ih =>
      rw [spelled_cons]
      cases hv : v n with
      | none =>
          rcases ih with hnil | ⟨m, hm, rest, hrest, htrimmed⟩
          · exact .inl hnil
          · exact .inr ⟨m, List.mem_cons_of_mem n hm, rest, hrest, htrimmed⟩
      | some x =>
          refine .inr ⟨n, List.mem_cons_self, x.toList ++ spelled names v, ?_, ?_⟩
          · rw [marked, List.append_assoc]
          · exact (h n x hv).append (trimmed_spelled h names)

/-! ## Forged values -/

/-- The text holds the marker of a field between two trimmed parts. -/
def Hides (m : FieldName) (cs : List Char) : Prop :=
  ∃ front back, cs = front ++ (marker m ++ back) ∧ Trimmed front ∧ Trimmed back

/-- The value of one field hides the marker of a later one. -/
def Forged (names : List FieldName) (v : FieldName → Option String) : Prop :=
  ∃ n m x, [n, m].Sublist names ∧ v n = some x ∧ Hides m x.toList

theorem forged_cons : Forged (n :: names) v ↔
    (∃ x, v n = some x ∧ ∃ m ∈ names, Hides m x.toList) ∨ Forged names v := by
  constructor
  · rintro ⟨k, m, x, hsub, hx, hides⟩
    -- The value is the first one, or both fields stand behind the first.
    rcases List.sublist_cons_iff.1 hsub with hsub | ⟨rest, hrest, hsub⟩
    · exact .inr ⟨k, m, x, hsub, hx, hides⟩
    · obtain ⟨rfl, rfl⟩ := List.cons.inj hrest
      exact .inl ⟨x, hx, m, List.singleton_sublist.1 hsub, hides⟩
  · rintro (⟨x, hx, m, hm, hides⟩ | ⟨k, m, x, hsub, hx, hides⟩)
    · exact ⟨n, m, x, (List.singleton_sublist.2 hm).cons_cons n, hx, hides⟩
    · exact ⟨k, m, x, hsub.cons n, hx, hides⟩

/-- Without a bar no value hides a marker. -/
theorem not_forged_of_bar_not_mem (h : ∀ n ∈ names, ∀ x ∈ v n, '|' ∉ x.toList) :
    ¬ Forged names v := by
  rintro ⟨n, m, x, hsub, hx, front, back, hcut, -⟩
  refine h n (hsub.subset List.mem_cons_self) x hx ?_
  rw [hcut, marker]
  simp

/-! ## Texts determine values that are not forged -/

/-- Behind its first character a marker has no bar, if the name has none. -/
theorem bar_not_mem_of_marker_eq {m : FieldName} {front back : List Char}
    (hbar : '|' ∉ m.text.toList) (hne : front ≠ []) (h : marker m = front ++ back) :
    '|' ∉ back := by
  cases front with
  | nil => exact absurd rfl hne
  | cons c front =>
      rw [marker, List.cons_append, List.cons.injEq] at h
      intro hmem
      have hback : '|' ∈ m.text.toList ++ ['='] := h.2 ▸ List.mem_append_right front hmem
      rcases List.mem_append.1 hback with htext | hequals
      · exact hbar htext
      · exact absurd (List.mem_singleton.1 hequals) (by decide)

theorem eq_bar_of_spelled_eq {c : Char} {rest : List Char} (h : TrimmedValues v)
    (hs : spelled names v = c :: rest) : c = '|' := by
  rcases spelled_start h names with hnil | ⟨m, -, tail, htail, -⟩
  · rw [hnil] at hs
    cases hs
  · rw [htail, marker, List.cons_append, List.cons.injEq] at hs
    exact hs.1.symm

/-- A longer value in front of the same text hides a marker. -/
theorem hides_of_append_eq {x x' : List Char} (hnames : ∀ n ∈ names, '|' ∉ n.text.toList)
    (hv : TrimmedValues v) (hw : TrimmedValues w) (hx : Trimmed x) (hx' : Trimmed x')
    (hlt : x.length < x'.length) (h : x ++ spelled names v = x' ++ spelled names w) :
    ∃ m ∈ names, Hides m x' := by
  rcases List.append_eq_append_iff.1 h with ⟨more, rfl, hmore⟩ | ⟨more, rfl, -⟩
  · have hne : more ≠ [] := by
      rintro rfl
      simp at hlt
    rcases spelled_start hv names with hnil | ⟨m, hm, tail, htail, htrimmed⟩
    · rw [hnil] at hmore
      exact absurd (List.append_eq_nil_iff.1 hmore.symm).1 hne
    · rw [htail] at hmore
      refine ⟨m, hm, x, ?_⟩
      -- The excess ends behind the marker, since another field starts at a bar.
      rcases List.append_eq_append_iff.1 hmore with ⟨back, rfl, rfl⟩ | ⟨back, hback, hspelled⟩
      · rw [← List.append_assoc] at hx'
        exact ⟨back, rfl, hx, hx'.of_overlap htrimmed⟩
      · cases back with
        | nil => exact ⟨[], by rw [hback, List.append_nil, List.append_nil], hx, trimmed_nil⟩
        | cons c back =>
            obtain rfl := eq_bar_of_spelled_eq hw hspelled
            exact absurd List.mem_cons_self (bar_not_mem_of_marker_eq (hnames m hm) hne hback)
  · rw [List.length_append] at hlt
    omega

theorem spelled_ne_marker_append (hv : TrimmedValues v) (hn : n ∉ names) (rest : List Char) :
    spelled names v ≠ marker n ++ rest := by
  intro h
  rcases spelled_start hv names with hnil | ⟨m, hm, tail, htail, -⟩
  · rw [hnil, marker] at h
    cases h
  · rw [htail] at h
    exact hn ((marker_append_inj h).1 ▸ hm)

/-- In front of fields whose markers they do not hide, values are told apart from
    what follows. -/
theorem append_spelled_inj {x y : List Char} (hnames : ∀ n ∈ names, '|' ∉ n.text.toList)
    (hv : TrimmedValues v) (hw : TrimmedValues w) (hx : Trimmed x) (hy : Trimmed y)
    (fx : ∀ m ∈ names, ¬ Hides m x) (fy : ∀ m ∈ names, ¬ Hides m y)
    (h : x ++ spelled names v = y ++ spelled names w) :
    x = y ∧ spelled names v = spelled names w := by
  rcases Nat.lt_trichotomy x.length y.length with hlt | heq | hgt
  · obtain ⟨m, hm, hides⟩ := hides_of_append_eq hnames hv hw hx hy hlt h
    exact absurd hides (fy m hm)
  · exact List.append_inj h heq
  · obtain ⟨m, hm, hides⟩ := hides_of_append_eq hnames hw hv hy hx hgt h.symm
    exact absurd hides (fx m hm)

/-- Values that are not forged are determined by the text they are spelled as. -/
theorem eq_of_spelled_eq (hnames : ∀ n ∈ names, '|' ∉ n.text.toList) (hnodup : names.Nodup)
    (hv : TrimmedValues v) (hw : TrimmedValues w) (fv : ¬ Forged names v) (fw : ¬ Forged names w)
    (h : spelled names v = spelled names w) : ∀ n ∈ names, v n = w n := by
  induction names with
  | nil => exact fun n hn => absurd hn List.not_mem_nil
  | cons n names ih =>
      obtain ⟨hn, hnodup⟩ := List.nodup_cons.1 hnodup
      rw [forged_cons, not_or] at fv fw
      have hnames' := fun m hm => hnames m (List.mem_cons_of_mem n hm)
      -- A field is present in both or in neither, since its marker comes first.
      have hhead : v n = w n ∧ spelled names v = spelled names w := by
        rw [spelled_cons, spelled_cons] at h
        cases hvn : v n with
        | none =>
            cases hwn : w n with
            | none =>
                rw [hvn, hwn] at h
                exact ⟨rfl, h⟩
            | some y =>
                rw [hvn, hwn, marked, marked, List.nil_append, List.append_assoc] at h
                exact absurd h (spelled_ne_marker_append hv hn _)
        | some x =>
            cases hwn : w n with
            | none =>
                rw [hvn, hwn, marked, marked, List.nil_append, List.append_assoc] at h
                exact absurd h.symm (spelled_ne_marker_append hw hn _)
            | some y =>
                rw [hvn, hwn, marked, marked, List.append_assoc, List.append_assoc] at h
                have hrest := append_spelled_inj hnames' hv hw (hv n x hvn) (hw n y hwn)
                  (fun m hm hides => fv.1 ⟨x, hvn, m, hm, hides⟩)
                  (fun m hm hides => fw.1 ⟨y, hwn, m, hm, hides⟩) (List.append_cancel_left h)
                exact ⟨by rw [String.toList_inj.1 hrest.1], hrest.2⟩
      intro m hm
      rcases List.mem_cons.1 hm with rfl | hm
      · exact hhead.1
      · exact ih hnames' hnodup fv.2 fw.2 hhead.2 m hm

/-! ## Every text is spelled by values that are not forged -/

theorem spelled_eq_nil (h : ∀ n ∈ names, v n = none) : spelled names v = [] := by
  rw [spelled, List.flatMap_eq_nil_iff]
  intro n hn
  rw [h n hn, marked]

theorem forged_of_eq (h : ∀ n ∈ names, v n = w n) (hv : Forged names v) : Forged names w := by
  obtain ⟨n, m, x, hsub, hx, hides⟩ := hv
  exact ⟨n, m, x, hsub, (h n (hsub.subset List.mem_cons_self)).symm.trans hx, hides⟩

/-- Values of which only one kind is forged differ where a marker is hidden. -/
theorem exists_ne_of_forged (hv : Forged names v) (hw : ¬ Forged names w) :
    ∃ n ∈ names, w n ≠ v n := by
  obtain ⟨n, m, x, hsub, hx, hides⟩ := hv
  refine ⟨n, hsub.subset List.mem_cons_self, ?_⟩
  intro heq
  exact hw ⟨n, m, x, hsub, heq.trans hx, hides⟩

/-- The value of one field cut in two. The back goes to the field `m` with all
    that stood between, and the fields between are gone. -/
def cutValue (v : FieldName → Option String) (n m : FieldName) (between : List FieldName)
    (front back : List Char) : FieldName → Option String := fun k =>
  if k = n then some (String.ofList front)
  else if k ∈ between then none
  else if k = m then some (String.ofList (back ++ (spelled between v ++ marked m (v m))))
  else v k

theorem trimmed_cutValue (h : TrimmedValues v) {m : FieldName} {between : List FieldName}
    {front back : List Char} (hfront : Trimmed front) (hback : Trimmed back) :
    TrimmedValues (cutValue v n m between front back) := by
  intro k x hx
  unfold cutValue at hx
  split at hx
  · rw [← Option.some.inj hx, String.toList_ofList]
    exact hfront
  · split at hx
    · cases hx
    · split at hx
      · rw [← Option.some.inj hx, String.toList_ofList]
        exact hback.append ((trimmed_spelled h between).append (trimmed_marked h m))
      · exact h k x hx

/-- Cutting a value at a marker leaves the text as it is. -/
theorem spelled_cutValue {x : String} {m : FieldName} {between others : List FieldName}
    {front back : List Char} (hnodup : (n :: (between ++ m :: others)).Nodup)
    (hx : v n = some x) (hcut : x.toList = front ++ (marker m ++ back)) :
    spelled (n :: (between ++ m :: others)) (cutValue v n m between front back) =
      spelled (n :: (between ++ m :: others)) v := by
  obtain ⟨hn, hnodup⟩ := List.nodup_cons.1 hnodup
  obtain ⟨-, hnodup, hdisjoint⟩ := List.nodup_append.1 hnodup
  obtain ⟨hm, -⟩ := List.nodup_cons.1 hnodup
  have hne : ∀ k ∈ between ++ m :: others, k ≠ n := fun k hk e => hn (e ▸ hk)
  have hout : ∀ k ∈ m :: others, k ∉ between := fun k hk hb => hdisjoint k hb k hk rfl
  have hmem : m ∈ between ++ m :: others := List.mem_append_right _ List.mem_cons_self
  have hbetween : spelled between (cutValue v n m between front back) = [] := by
    apply spelled_eq_nil
    intro k hk
    rw [cutValue, if_neg (hne k (List.mem_append_left _ hk)), if_pos hk]
  have hothers : spelled others (cutValue v n m between front back) = spelled others v := by
    apply spelled_congr
    intro k hk
    have hk' : k ∈ m :: others := List.mem_cons_of_mem m hk
    rw [cutValue, if_neg (hne k (List.mem_append_right _ hk')), if_neg (hout k hk'),
      if_neg fun (e : k = m) => hm (e ▸ hk)]
  have hself : cutValue v n m between front back n = some (String.ofList front) := if_pos rfl
  have hback : cutValue v n m between front back m =
      some (String.ofList (back ++ (spelled between v ++ marked m (v m)))) := by
    rw [cutValue, if_neg (hne m hmem), if_neg (hout m List.mem_cons_self), if_pos rfl]
  simp only [spelled_cons, spelled_append, hbetween, hothers, hself, hback, hx, marked, hcut,
    String.toList_ofList, List.append_assoc, List.nil_append]

/-- The first value can be cut until it hides no marker. -/
theorem exists_unforged_first (hnodup : (n :: names).Nodup) (hv : TrimmedValues v) :
    ∃ w, TrimmedValues w ∧ spelled (n :: names) w = spelled (n :: names) v ∧
      ∀ x, w n = some x → ∀ m ∈ names, ¬ Hides m x.toList := by
  cases hvn : v n with
  | none => exact ⟨v, hv, rfl, fun x hx => by rw [hvn] at hx; cases hx⟩
  | some x =>
      -- The induction is on the length of the value, which each cut makes less.
      induction hlen : x.toList.length using Nat.strongRecOn generalizing x v with
      | ind k ih =>
          by_cases hides : ∃ m ∈ names, Hides m x.toList
          · obtain ⟨m, hm, front, back, hcut, hfront, hback⟩ := hides
            obtain ⟨between, others, rfl⟩ := List.append_of_mem hm
            have hlt : (String.ofList front).toList.length < k := by
              rw [← hlen, hcut, String.toList_ofList, marker]
              simp
            obtain ⟨w, hw, hspelled, hhides⟩ := ih _ hlt (trimmed_cutValue hv hfront hback)
              (x := String.ofList front) (if_pos rfl) rfl
            exact ⟨w, hw, hspelled.trans (spelled_cutValue hnodup hvn hcut), hhides⟩
          · refine ⟨v, hv, rfl, fun y hy m hm hides' => hides ⟨m, hm, ?_⟩⟩
            rw [hvn] at hy
            exact Option.some.inj hy ▸ hides'

/-- Values with the one of a field replaced. -/
def putValue (v : FieldName → Option String) (n : FieldName) (x : Option String) :
    FieldName → Option String := fun m => if m = n then x else v m

/-- Every text is spelled by values that are not forged. -/
theorem exists_unforged (hnodup : names.Nodup) (hv : TrimmedValues v) :
    ∃ w, TrimmedValues w ∧ spelled names w = spelled names v ∧ ¬ Forged names w := by
  induction names generalizing v with
  | nil =>
      refine ⟨v, hv, rfl, ?_⟩
      rintro ⟨n, m, x, hsub, -⟩
      cases hsub
  | cons n names ih =>
      obtain ⟨u, hu, hspelled, hfirst⟩ := exists_unforged_first hnodup hv
      obtain ⟨hn, hnodup⟩ := List.nodup_cons.1 hnodup
      obtain ⟨w, hw, hrest, unforged⟩ := ih hnodup hu
      have hput : ∀ m ∈ names, putValue w n (u n) m = w m :=
        fun m hm => if_neg fun (e : m = n) => hn (e ▸ hm)
      have hself : putValue w n (u n) n = u n := if_pos rfl
      refine ⟨putValue w n (u n), ?_, ?_, ?_⟩
      · intro m x hx
        unfold putValue at hx
        split at hx
        · exact hu n x hx
        · exact hw m x hx
      · rw [← hspelled, spelled_cons, spelled_cons, hself, spelled_congr hput, hrest]
      · rw [forged_cons, hself]
        rintro (⟨x, hx, m, hm, hides⟩ | hforged)
        · exact hfirst x hx m hm hides
        · exact unforged (forged_of_eq hput hforged)

end

end CacheKey

end GatewayCache

/-
  GatewayCache.Proofs.Capture.Life

  A capture from its first step to its drop.

  While the body flows, that is up to the first close or the first poll that meets
  the end of the stream, a capture follows its stream (`Flowing.run`). The step that
  ends the flow hands over what was kept (`EndsFlow.step`), and from then on the
  capture is over: it answers that the body is over, hands over nothing, and leaves
  its stream alone (`Over.run`). Every list of steps either flows or has one step
  that ends the flow (`flowing_or_endsFlow`), so a capture hands over exactly one
  body (`run_hands_over_one_copy`), and the client sees exactly the stream
  (`passes_the_stream_on`).
-/

import GatewayCache.Proofs.Capture.Progress
import Mathlib.Data.List.Induction

namespace GatewayCache

theorem BodyStream.polls_after (s : BodyStream) (n : Nat) : (s.after n).polls = s.polls + n := by
  induction n with
  | zero => rfl
  | succ n ih =>
      rw [after, poll]
      split <;> simp only [ih, Nat.add_assoc]

namespace Capture

variable {s : BodyStream} {limit n : Nat} {c : Capture}

theorem run_append (c : Capture) (ops more : List Op) :
    c.run (ops ++ more) =
      ((c.run ops).1 ++ ((c.run ops).2.2.run more).1,
        (c.run ops).2.1 ++ ((c.run ops).2.2.run more).2.1, ((c.run ops).2.2.run more).2.2) := by
  induction ops generalizing c with
  | nil => rfl
  | cons op ops ih => simp [run, ih]

/-! ## While the body flows -/

/-- The steps only polled, and none of the polls met the end of the stream. -/
structure Flowing (s : BodyStream) (ops : List Op) : Prop where
  polled : ∀ op ∈ ops, op = .poll
  goesOn : ∀ a ∈ s.passed ops.length, a ≠ .ended

theorem flowing_nil (s : BodyStream) : Flowing s [] where
  polled := by simp
  goesOn := by simp [BodyStream.passed]

theorem flowing_concat_iff {ops : List Op} {op : Op} :
    Flowing s (ops ++ [op]) ↔
      Flowing s ops ∧ op = .poll ∧ (s.after ops.length).poll.1 ≠ .ended := by
  have hpassed : s.passed (ops ++ [op]).length =
      s.passed ops.length ++ [(s.after ops.length).poll.1] := by
    rw [List.length_append, List.length_singleton, s.passed_succ]
  constructor
  · rintro ⟨polled, goesOn⟩
    rw [hpassed] at goesOn
    refine ⟨⟨fun o ho => polled o (List.mem_append_left _ ho),
      fun a ha => goesOn a (List.mem_append_left _ ha)⟩, polled op (by simp), goesOn _ (by simp)⟩
  · rintro ⟨⟨polled, goesOn⟩, hop, hnext⟩
    refine ⟨fun o ho => ?_, fun a ha => ?_⟩
    · rcases List.mem_append.1 ho with ho | ho
      · exact polled o ho
      · rw [List.mem_singleton.1 ho]
        exact hop
    · rw [hpassed] at ha
      rcases List.mem_append.1 ha with ha | ha
      · exact goesOn a ha
      · rw [List.mem_singleton.1 ha]
        exact hnext

/-- While the body flows, all answers are the stream's and nothing is handed
    over. -/
theorem Flowing.run {ops : List Op} (h : Flowing s ops) (limit : Nat) :
    ∃ c, (ofStream s limit).run ops = (s.passed ops.length, [], c) ∧
      Follows s limit ops.length c := by
  induction ops using List.reverseRecOn with
  | nil => exact ⟨ofStream s limit, rfl, follows_ofStream s limit⟩
  | append_singleton ops op ih =>
      obtain ⟨flowing, rfl, hnext⟩ := flowing_concat_iff.1 h
      obtain ⟨c, hrun, follows⟩ := ih flowing
      obtain ⟨c', hpoll, follows'⟩ := follows.poll_next hnext
      refine ⟨c', ?_, by simpa using follows'⟩
      rw [run_append, hrun]
      simp [Capture.run, Capture.step, hpoll, s.passed_succ]

/-! ## The step that ends the flow -/

/-- The body flowed before, and the step closes the capture or meets the end of
    the stream. -/
structure EndsFlow (s : BodyStream) (before : List Op) (op : Op) : Prop where
  flowing : Flowing s before
  ends : op = .close ∨ op = .poll ∧ (s.after before.length).poll.1 = .ended

/-- Some steps either flow or have a first one that ends the flow. -/
theorem flowing_or_endsFlow (s : BodyStream) (ops : List Op) :
    Flowing s ops ∨ ∃ before op after, ops = before ++ op :: after ∧ EndsFlow s before op := by
  induction ops using List.reverseRecOn with
  | nil => exact .inl (flowing_nil s)
  | append_singleton ops op ih =>
      rcases ih with flowing | ⟨before, first, after, rfl, ends⟩
      · cases op with
        | close => exact .inr ⟨ops, .close, [], rfl, flowing, .inl rfl⟩
        | poll =>
            by_cases hend : (s.after ops.length).poll.1 = .ended
            · exact .inr ⟨ops, .poll, [], rfl, flowing, .inr ⟨rfl, hend⟩⟩
            · exact .inl (flowing_concat_iff.2 ⟨flowing, rfl, hend⟩)
      · exact .inr ⟨before, first, after ++ [op], by simp, ends⟩

theorem EndsFlow.not_flowing {before after : List Op} {op : Op} (h : EndsFlow s before op) :
    ¬ Flowing s (before ++ op :: after) := by
  rintro ⟨polled, goesOn⟩
  rcases h.ends with rfl | ⟨rfl, hend⟩
  · cases polled .close (by simp)
  · refine goesOn .ended ?_ rfl
    have hlt : before.length < (before ++ Op.poll :: after).length := by simp
    exact List.mem_map.2 ⟨before.length, List.mem_range.2 hlt, hend⟩

/-! ## When the body is over -/

/-- A capture that has handed over its body and will not ask its stream again: the
    stream ended or was released. -/
structure Over (c : Capture) : Prop where
  finalized : c.finalized = true
  silent : c.ended = true ∨ c.stream = none

theorem Over.poll (h : Over c) : c.poll = (.ended, none, c) := by
  unfold Capture.poll
  rcases h.silent with hended | hstream
  · rw [hended]
  · rw [hstream]
    cases c.ended <;> rfl

theorem Over.close (h : Over c) : c.close = (none, { c with stream := none }) := by
  unfold Capture.close Capture.finish
  rw [if_pos h.finalized]

theorem Over.hintOr (h : Over c) {η : Type} (past : η) (hint : BodyStream → η) :
    c.hintOr past hint = past := by
  unfold Capture.hintOr
  rcases h.silent with hended | hstream
  · rw [hended]
  · rw [hstream]
    cases c.ended <;> rfl

/-- Once over, a capture stays over, whatever is done with it: polls are answered
    with the end, nothing is handed over, and a stream that is still held is as it
    was. -/
theorem Over.run (h : Over c) (ops : List Op) :
    (c.run ops).1 = List.replicate (ops.count .poll) .ended ∧ (c.run ops).2.1 = [] ∧
      Over (c.run ops).2.2 ∧
      (c.run ops).2.2.stream = if Op.close ∈ ops then none else c.stream := by
  induction ops generalizing c with
  | nil => exact ⟨rfl, rfl, h, rfl⟩
  | cons op ops ih =>
      cases op with
      | poll =>
          obtain ⟨answers, bodies, isOver, stream⟩ := ih h
          have hrun : c.run (.poll :: ops) =
              (.ended :: (c.run ops).1, (c.run ops).2.1, (c.run ops).2.2) := by
            simp [Capture.run, Capture.step, h.poll]
          rw [hrun]
          refine ⟨?_, bodies, isOver, by simpa using stream⟩
          rw [answers, List.count_cons_self, List.replicate_succ]
      | close =>
          have released : Over { c with stream := none } := ⟨h.finalized, .inr rfl⟩
          obtain ⟨answers, bodies, isOver, stream⟩ := ih released
          have hrun : c.run (.close :: ops) = ({ c with stream := none } : Capture).run ops := by
            simp [Capture.run, Capture.step, h.close]
          rw [hrun]
          refine ⟨?_, bodies, isOver, by simpa using stream⟩
          rw [answers, List.count_cons_of_ne (by decide)]

/-- The step that ends the flow hands over what was kept, and the body is over. -/
theorem EndsFlow.step {before : List Op} {op : Op} (h : EndsFlow s before op)
    (follows : Follows s limit before.length c) :
    (c.step op).2.1 = some (handed s limit before.length (decide (op = .poll))) ∧
      Over (c.step op).2.2 := by
  rcases h.ends with rfl | ⟨rfl, hend⟩
  · exact ⟨follows.close.1, follows.close.2, .inr rfl⟩
  · obtain ⟨c', hpoll, finalized, ended, -⟩ := follows.poll_end hend
    have hstep : c.step .poll = (some .ended, some (handed s limit before.length true), c') := by
      rw [Capture.step, hpoll]
    rw [hstep]
    exact ⟨rfl, finalized, .inl ended⟩

/-! ## One body -/

/-- All steps of a consumer that drops the capture in the end, which closes it. -/
def untilDropped (ops : List Op) : List Op := ops ++ [.close]

/-- What is handed over, against all that was answered before: the start of the
    bytes up to the limit, their number, whether some were cut off, and whether the
    stream ended by itself without a failure. -/
structure CopyOf (body : CapturedBody) (limit : Nat) (answered : List Polled)
    (reachedEnd : Prop) : Prop where
  bytes : body.bytes = upTo limit (answered.flatMap Polled.bytes)
  total : body.total = (answered.flatMap Polled.bytes).length
  truncated : body.truncated = true ↔ 0 < limit ∧ limit < body.total
  complete : body.complete = true ↔ reachedEnd ∧ ∀ a ∈ answered, a.isFailure = false

theorem length_upTo_lt {limit : Nat} {bs : List UInt8} :
    (upTo limit bs).length < bs.length ↔ 0 < limit ∧ limit < bs.length := by
  unfold upTo
  split
  next hzero => simp [hzero]
  next hpos =>
    rw [List.length_take]
    omega

theorem copyOf_handed (s : BodyStream) (limit n : Nat) (reachedEnd : Bool) :
    CopyOf (handed s limit n reachedEnd) limit (s.passed n) (reachedEnd = true) where
  bytes := rfl
  total := rfl
  truncated := by simp only [handed, decide_eq_true_eq, length_upTo_lt]
  complete := by simp [handed]

/-- Whoever drops a capture in the end takes a step that ends the flow. -/
theorem exists_endsFlow (s : BodyStream) (ops : List Op) :
    ∃ before op after, untilDropped ops = before ++ op :: after ∧ EndsFlow s before op := by
  rcases flowing_or_endsFlow s (untilDropped ops) with flowing | ends
  · cases flowing.polled .close (by simp [untilDropped])
  · exact ends

/-- The step that ends the flow hands over what was kept, and neither the steps before it
    nor those behind it hand anything over. -/
theorem EndsFlow.run {before : List Op} {op : Op} (h : EndsFlow s before op) (limit : Nat)
    (after : List Op) :
    ∃ body, ((ofStream s limit).run before).2.1 = [] ∧
      (((ofStream s limit).run before).2.2.step op).2.1 = some body ∧
      ((ofStream s limit).run (before ++ op :: after)).2.1 = [body] ∧
      CopyOf body limit ((ofStream s limit).run before).1 (op = .poll) := by
  obtain ⟨c, hrun, follows⟩ := h.flowing.run limit
  obtain ⟨hbody, isOver⟩ := h.step follows
  have hlater := (isOver.run after).2.1
  refine ⟨handed s limit before.length (decide (op = .poll)), ?_, ?_, ?_, ?_⟩
  · rw [hrun]
  · rw [hrun]
    exact hbody
  · rw [run_append, hrun, Capture.run]
    simp only [hbody, hlater]
    rfl
  · rw [hrun]
    simpa using copyOf_handed s limit before.length (decide (op = .poll))

/-- From its first step to its drop and beyond, a capture hands over exactly one
    body, in the first step that closes it or meets the end of its stream. The body
    is a copy of what was answered before that step. -/
theorem run_hands_over_one_copy (s : BodyStream) (limit : Nat) (ops more : List Op) :
    ∃ before op after body, untilDropped ops = before ++ op :: after ∧ EndsFlow s before op ∧
      ((ofStream s limit).run before).2.1 = [] ∧
      (((ofStream s limit).run before).2.2.step op).2.1 = some body ∧
      ((ofStream s limit).run (untilDropped ops ++ more)).2.1 = [body] ∧
      CopyOf body limit ((ofStream s limit).run before).1 (op = .poll) := by
  obtain ⟨before, op, after, hops, ends⟩ := exists_endsFlow s ops
  obtain ⟨body, hbefore, hstep, hrun, copy⟩ := ends.run limit (after ++ more)
  refine ⟨before, op, after, body, hops, ends, hbefore, hstep, ?_, copy⟩
  rw [hops, List.append_assoc, List.cons_append]
  exact hrun

/-! ## What the client sees -/

/-- A capture that stands for a stream polled `n` times so far: it holds the stream,
    says of the rest what the stream says, and answers the next poll as the stream
    does, by polling it once. -/
structure StandsFor (hint : BodyStream → Nat × Option Nat) (s : BodyStream) (n : Nat)
    (c : Capture) : Prop where
  stream : c.stream = some (s.after n)
  polls : (s.after n).polls = s.polls + n
  sizeHint : c.sizeHint = (s.after n).sizeHint
  hint : c.hintOr (0, some 0) hint = hint (s.after n)
  answer : c.poll.1 = (s.after n).poll.1
  next : c.poll.2.2.stream = some (s.after (n + 1))

/-- A capture that says that nothing is left, now and after any steps: all polls are
    answered with the end, and a stream that is still held was not touched. -/
structure Silent (hint : BodyStream → Nat × Option Nat) (c : Capture) : Prop where
  answers : ∀ ops, (c.run ops).1 = List.replicate (ops.count .poll) .ended
  sizeHint : ∀ ops, (c.run ops).2.2.sizeHint = (0, 0)
  hint : ∀ ops, (c.run ops).2.2.hintOr (0, some 0) hint = (0, some 0)
  untouched : ∀ ops t, (c.run ops).2.2.stream = some t → c.stream = some t

theorem Follows.standsFor (h : Follows s limit n c) (hint : BodyStream → Nat × Option Nat) :
    StandsFor hint s n c := by
  have hpoll : c.poll.1 = (s.after n).poll.1 ∧ c.poll.2.2.stream = some (s.after (n + 1)) := by
    by_cases hend : (s.after n).poll.1 = .ended
    · obtain ⟨c', hpoll, -, -, stream⟩ := h.poll_end hend
      rw [hpoll, hend]
      exact ⟨rfl, stream⟩
    · obtain ⟨c', hpoll, follows⟩ := h.poll_next hend
      rw [hpoll]
      exact ⟨rfl, follows.stream⟩
  have hhint : ∀ {η : Type} (past : η) (say : BodyStream → η),
      c.hintOr past say = say (s.after n) := by
    intro η past say
    rw [hintOr, h.ended, h.stream]
  exact ⟨h.stream, s.polls_after n, hhint _ _, hhint _ _, hpoll.1, hpoll.2⟩

theorem Over.silent_run (h : Over c) (hint : BodyStream → Nat × Option Nat) : Silent hint c where
  answers ops := (h.run ops).1
  sizeHint ops := (h.run ops).2.2.1.hintOr _ BodyStream.sizeHint
  hint ops := (h.run ops).2.2.1.hintOr _ hint
  untouched ops t ht := by
    rw [(h.run ops).2.2.2] at ht
    split at ht
    · cases ht
    · exact ht

/-- After any steps, either the body flowed, all answers were the stream's and the
    capture stands for it; or it was closed or met the end of the stream, and it is
    silent for good. A stream may say anything of its rest. -/
theorem passes_the_stream_on (s : BodyStream) (limit : Nat) (ops : List Op)
    (hint : BodyStream → Nat × Option Nat) :
    (Flowing s ops ∧ ((ofStream s limit).run ops).1 = s.passed ops.length ∧
        StandsFor hint s ops.length ((ofStream s limit).run ops).2.2) ∨
      ¬ Flowing s ops ∧ Silent hint ((ofStream s limit).run ops).2.2 := by
  rcases flowing_or_endsFlow s ops with flowing | ⟨before, op, after, rfl, ends⟩
  · obtain ⟨c, hrun, follows⟩ := flowing.run limit
    rw [hrun]
    exact .inl ⟨flowing, rfl, follows.standsFor hint⟩
  · obtain ⟨c, hrun, follows⟩ := ends.flowing.run limit
    have isOver := ((ends.step follows).2.run after).2.2.1
    refine .inr ⟨ends.not_flowing, ?_⟩
    rw [run_append, hrun]
    exact isOver.silent_run hint

end Capture

end GatewayCache

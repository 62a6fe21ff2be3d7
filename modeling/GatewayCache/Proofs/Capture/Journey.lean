/-
  GatewayCache.Proofs.Capture.Journey

  A body's journey, told by its stream and what its consumer did.

  A `Journey` knows nothing of captures: whether it is over, whether the stream ended
  cleanly and whether the body fits are read off the answers of the stream to the polls
  before the first close. While the body flows none of it is so (`isOver_of_flowing`),
  and the step that ends the flow settles it for good (`isOver_of_endsFlow`,
  `isWhole_of_endsFlow`). So a step makes a capture hand over a body exactly if it ends
  the journey, and a whole one exactly if it makes the journey whole
  (`extends_extend`).
-/

import GatewayCache.Proofs.Capture.Life
import Mathlib.Data.List.TakeWhile

namespace GatewayCache

open Capture (ofStream handed Flowing EndsFlow Over)

/-! ## Later answers -/

namespace BodyStream

variable (s : BodyStream) (n : Nat)

theorem after_add (k : Nat) : s.after (n + k) = (s.after n).after k := by
  induction k with
  | zero => rfl
  | succ k ih =>
      show (s.after (n + k)).poll.2 = ((s.after n).after k).poll.2
      rw [ih]

theorem passed_add (k : Nat) : s.passed (n + k) = s.passed n ++ (s.after n).passed k := by
  induction k with
  | zero => simp [passed]
  | succ k ih =>
      rw [passed_succ, ← List.append_assoc, ← ih, ← after_add, ← Nat.add_assoc, passed_succ]

/-- The first of some more answers is the next one. -/
theorem passed_add_succ (k : Nat) :
    ∃ later, s.passed (n + (k + 1)) = s.passed n ++ (s.after n).poll.1 :: later := by
  refine ⟨(s.after (n + 1)).passed k, ?_⟩
  rw [Nat.add_comm k 1, ← Nat.add_assoc, passed_add, passed_succ, List.append_assoc]
  rfl

end BodyStream

/-! ## Journeys -/

/-- A stream, and the steps of the consumer of its body. -/
structure Journey where
  stream : BodyStream
  steps : List Capture.Op := []

namespace Journey

/-- The journey with one more step. -/
def extend (j : Journey) (op : Capture.Op) : Journey := { j with steps := j.steps ++ [op] }

/-- What the stream answers to the polls before the first close. -/
def answers (j : Journey) : List Polled :=
  j.stream.passed (j.steps.takeWhile (· == .poll)).length

/-- One of these polls met the end of the stream. -/
def metEnd (j : Journey) : Bool := j.answers.any (· == .ended)

/-- What was answered before the end. -/
def passedOn (j : Journey) : List Polled := j.answers.takeWhile (· != .ended)

/-- The consumer met the end or closed the body. -/
def isOver (j : Journey) : Bool := j.metEnd || j.steps.any (· == .close)

/-- The stream ended by itself and never failed before. -/
def endedCleanly (j : Journey) : Bool := j.metEnd && !j.passedOn.any Polled.isFailure

/-- The bytes that were passed on are within a limit, where zero stands for none. -/
def fits (limit : Nat) (j : Journey) : Bool :=
  limit == 0 || decide ((j.passedOn.flatMap Polled.bytes).length ≤ limit)

/-- The body ended cleanly and is within a limit. -/
def isWhole (limit : Nat) (j : Journey) : Bool := j.endedCleanly && j.fits limit

/-- The capture that the consumer sees the body through. -/
def capture (limit : Nat) (j : Journey) : Capture := ((ofStream j.stream limit).run j.steps).2.2

theorem capture_extend (limit : Nat) (j : Journey) (op : Capture.Op) :
    (j.extend op).capture limit = ((j.capture limit).step op).2.2 := by
  simp [capture, extend, Capture.run_append, Capture.run]

variable {s : BodyStream} {limit : Nat} {before after steps : List Capture.Op} {op : Capture.Op}

/-! ### While the body flows -/

theorem answers_of_flowing (h : Flowing s steps) : answers ⟨s, steps⟩ = s.passed steps.length := by
  have hpolls : steps.takeWhile (· == .poll) = steps :=
    List.takeWhile_eq_self_iff.2 fun op hop => by simp [h.polled op hop]
  rw [answers, hpolls]

theorem metEnd_of_flowing (h : Flowing s steps) : metEnd ⟨s, steps⟩ = false := by
  rw [metEnd, answers_of_flowing h, List.any_eq_false]
  exact fun a ha => by simp [h.goesOn a ha]

theorem isOver_of_flowing (h : Flowing s steps) : isOver ⟨s, steps⟩ = false := by
  have hopen : steps.any (· == .close) = false :=
    List.any_eq_false.2 fun op hop => by simp [h.polled op hop]
  rw [isOver, metEnd_of_flowing h]
  exact hopen

theorem isWhole_of_flowing (h : Flowing s steps) (limit : Nat) :
    isWhole limit ⟨s, steps⟩ = false := by
  rw [isWhole, endedCleanly, metEnd_of_flowing h]
  rfl

/-! ### When the flow has ended -/

/-- A close ends what is answered. -/
theorem answers_of_close (h : Flowing s before) :
    answers ⟨s, before ++ .close :: after⟩ = s.passed before.length := by
  have hpolls : (before ++ Capture.Op.close :: after).takeWhile (· == .poll) = before := by
    rw [List.takeWhile_append_of_pos fun op hop => by simp [h.polled op hop]]
    simp
  rw [answers, hpolls]

/-- A poll that meets the end is answered with it. -/
theorem exists_answers_of_poll (h : Flowing s before)
    (ended : (s.after before.length).poll.1 = .ended) (after : List Capture.Op) :
    ∃ later, answers ⟨s, before ++ .poll :: after⟩ = s.passed before.length ++ .ended :: later := by
  have hpolls : (before ++ Capture.Op.poll :: after).takeWhile (· == .poll) =
      before ++ .poll :: after.takeWhile (· == .poll) := by
    rw [List.takeWhile_append_of_pos fun op hop => by simp [h.polled op hop]]
    simp
  rw [answers, hpolls, List.length_append, List.length_cons, ← ended]
  exact s.passed_add_succ before.length _

theorem isOver_of_endsFlow (h : EndsFlow s before op) (after : List Capture.Op) :
    isOver ⟨s, before ++ op :: after⟩ = true := by
  rcases h.ends with rfl | ⟨rfl, ended⟩
  · simp [isOver]
  · obtain ⟨later, hanswers⟩ := exists_answers_of_poll h.flowing ended after
    simp [isOver, metEnd, hanswers]

/-- What is handed over when the flow ends is whole exactly if the journey is. -/
theorem isWhole_of_endsFlow (h : EndsFlow s before op) (after : List Capture.Op) (limit : Nat) :
    isWhole limit ⟨s, before ++ op :: after⟩ =
      (handed s limit before.length (decide (op = .poll))).isWhole := by
  have hgoes : ∀ a ∈ s.passed before.length, (a != .ended) = true := fun a ha =>
    bne_iff_ne.2 (h.flowing.goesOn a ha)
  rcases h.ends with rfl | ⟨rfl, ended⟩
  · have hnone : metEnd ⟨s, before ++ .close :: after⟩ = false := by
      rw [metEnd, answers_of_close h.flowing, List.any_eq_false]
      exact fun a ha => by simp [h.flowing.goesOn a ha]
    rw [isWhole, endedCleanly, hnone]
    rfl
  · obtain ⟨later, hanswers⟩ := exists_answers_of_poll h.flowing ended after
    have hend : metEnd ⟨s, before ++ .poll :: after⟩ = true := by simp [metEnd, hanswers]
    have hpassed : passedOn ⟨s, before ++ .poll :: after⟩ = s.passed before.length := by
      rw [passedOn, hanswers, List.takeWhile_append_of_pos hgoes]
      simp
    have hcut : (handed s limit before.length true).truncated =
        !fits limit ⟨s, before ++ .poll :: after⟩ := by
      rw [fits, hpassed, Bool.eq_iff_iff]
      simp only [handed, Capture.length_upTo_lt, BodyStream.content, decide_eq_true_eq,
        Bool.not_eq_true', Bool.or_eq_false_iff, beq_eq_false_iff_ne, decide_eq_false_iff_not]
      omega
    rw [isWhole, endedCleanly, hend, hpassed, CapturedBody.isWhole, decide_eq_true rfl, hcut,
      Bool.not_not]
    rfl

/-! ### One step -/

/-- A step hands over nothing and settles nothing, or it ends the journey by handing over
    a body, and that is whole exactly if the journey is. -/
inductive Extends (limit : Nat) (j j' : Journey) : Option CapturedBody → Prop where
  | goesOn (ending : j'.isOver = j.isOver) (whole : j'.isWhole limit = j.isWhole limit) :
      Extends limit j j' none
  | ends (body : CapturedBody) (onTheWay : j.isOver = false ∧ j.isWhole limit = false)
      (ending : j'.isOver = true) (whole : j'.isWhole limit = body.isWhole) :
      Extends limit j j' (some body)

theorem extends_extend (limit : Nat) (j : Journey) (op : Capture.Op) :
    Extends limit j (j.extend op) ((j.capture limit).step op).2.1 := by
  obtain ⟨s, steps⟩ := j
  rcases Capture.flowing_or_endsFlow s steps with flowing | ⟨before, first, after, rfl, ends⟩
  · obtain ⟨c, hrun, follows⟩ := flowing.run limit
    have hcapture : capture limit ⟨s, steps⟩ = c := by rw [capture, hrun]
    have honTheWay := And.intro (isOver_of_flowing flowing) (isWhole_of_flowing flowing limit)
    rw [hcapture]
    by_cases hends : op = .close ∨ op = .poll ∧ (s.after steps.length).poll.1 = .ended
    · have ends : EndsFlow s steps op := ⟨flowing, hends⟩
      rw [(ends.step follows).1]
      exact .ends _ honTheWay (isOver_of_endsFlow ends []) (isWhole_of_endsFlow ends [] limit)
    · -- What does not end the flow is a poll that passes one more answer on.
      obtain ⟨hclose, hnext⟩ := not_or.1 hends
      obtain rfl : op = .poll := by cases op <;> simp_all
      have hne : (s.after steps.length).poll.1 ≠ .ended := fun h => hnext ⟨rfl, h⟩
      have longer : Flowing s (steps ++ [.poll]) := Capture.flowing_concat_iff.2 ⟨flowing, rfl, hne⟩
      obtain ⟨c', hpoll, -⟩ := follows.poll_next hne
      have hnone : (c.step .poll).2.1 = none := by rw [Capture.step, hpoll]
      rw [hnone]
      refine .goesOn ?_ ?_
      · exact (isOver_of_flowing longer).trans honTheWay.1.symm
      · exact (isWhole_of_flowing longer limit).trans honTheWay.2.symm
  · -- The flow has ended, so the capture is over and the journey is settled.
    obtain ⟨c, hrun, follows⟩ := ends.flowing.run limit
    have hover : Over (capture limit ⟨s, before ++ first :: after⟩) := by
      rw [capture, Capture.run_append, hrun]
      exact ((ends.step follows).2.run after).2.2.1
    have hnone : ((capture limit ⟨s, before ++ first :: after⟩).step op).2.1 = none := by
      cases op with
      | poll => rw [Capture.step, hover.poll]
      | close => rw [Capture.step, hover.close]
    have hextend : (extend ⟨s, before ++ first :: after⟩ op) =
        ⟨s, before ++ first :: (after ++ [op])⟩ := by simp [extend]
    rw [hnone, hextend]
    refine .goesOn ?_ ?_
    · rw [isOver_of_endsFlow ends, isOver_of_endsFlow ends]
    · rw [isWhole_of_endsFlow ends, isWhole_of_endsFlow ends]

/-- A capture is finalized exactly if the journey is over. -/
theorem finalized_capture (limit : Nat) (j : Journey) :
    (j.capture limit).finalized = j.isOver := by
  obtain ⟨s, steps⟩ := j
  rcases Capture.flowing_or_endsFlow s steps with flowing | ⟨before, first, after, rfl, ends⟩
  · obtain ⟨c, hrun, follows⟩ := flowing.run limit
    rw [isOver_of_flowing flowing, capture, hrun, follows.finalized]
  · obtain ⟨c, hrun, follows⟩ := ends.flowing.run limit
    rw [isOver_of_endsFlow ends, capture, Capture.run_append, hrun]
    exact ((ends.step follows).2.run after).2.2.1.finalized

theorem isOver_of_isWhole {j : Journey} (h : j.isWhole limit = true) : j.isOver = true := by
  simp only [isWhole, endedCleanly, Bool.and_eq_true] at h
  rw [isOver, h.1.1, Bool.true_or]

end Journey

end GatewayCache

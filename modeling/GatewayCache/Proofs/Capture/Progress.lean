/-
  GatewayCache.Proofs.Capture.Progress

  A capture against the history of its stream.

  `BodyStream.passed n` are the first answers of a stream, and `Capture.Follows`
  says what a capture holds after it passed them on: the start of their bytes up
  to the limit, how many bytes there were, and whether a failure was among them.
  A poll either leads to the next answer or meets the end and hands over what
  was kept (`Follows.poll_next`, `Follows.poll_end`), and so it is with any step
  (`Follows.step`). Once finalized, a capture hands over nothing more. What is
  handed over counts as whole exactly when it is all that was passed on, the
  stream ended by itself and never failed (`isWhole_handed_iff`).
-/

import GatewayCache.Capture
import Mathlib.Data.List.Range

namespace GatewayCache

/-! ## The history of a stream -/

/-- The bytes of an answer; only chunks have any. -/
def Polled.bytes : Polled → List UInt8
  | .chunk bs => bs
  | .failure _ | .pending | .ended => []

/-- Whether an answer is a failure. -/
def Polled.isFailure : Polled → Bool
  | .failure _ => true
  | .chunk _ | .pending | .ended => false

namespace BodyStream

/-- The stream after `n` polls. -/
def after (s : BodyStream) : Nat → BodyStream
  | 0 => s
  | n + 1 => (s.after n).poll.2

/-- The answers to the first `n` polls. -/
def passed (s : BodyStream) (n : Nat) : List Polled :=
  (List.range n).map fun k => (s.after k).poll.1

/-- The bytes in the answers to the first `n` polls. -/
def content (s : BodyStream) (n : Nat) : List UInt8 := (s.passed n).flatMap Polled.bytes

theorem passed_succ (s : BodyStream) (n : Nat) :
    s.passed (n + 1) = s.passed n ++ [(s.after n).poll.1] := by
  simp [passed, List.range_succ]

theorem content_succ (s : BodyStream) (n : Nat) :
    s.content (n + 1) = s.content n ++ (s.after n).poll.1.bytes := by
  simp [content, passed_succ]

end BodyStream

namespace Capture

/-! ## The kept start -/

/-- The start of some bytes up to a limit, where zero stands for no limit. -/
def upTo (limit : Nat) (bs : List UInt8) : List UInt8 := if limit = 0 then bs else bs.take limit

theorem length_upTo_lt_iff {limit : Nat} {bs : List UInt8} :
    (upTo limit bs).length < bs.length ↔ upTo limit bs ≠ bs := by
  unfold upTo
  split
  · simp
  · constructor
    · intro hlt heq
      rw [heq] at hlt
      omega
    · intro hne
      rw [List.length_take]
      have : ¬ bs.length ≤ limit := fun hle => hne (List.take_of_length_le hle)
      omega

/-- The room that is left behind the kept start takes the start of the next
    bytes. -/
theorem upTo_append (limit : Nat) (bs chunk : List UInt8) :
    upTo limit bs ++
        chunk.take (if limit = 0 then chunk.length else limit - (upTo limit bs).length) =
      upTo limit (bs ++ chunk) := by
  unfold upTo
  by_cases h : limit = 0
  · simp [h]
  · simp only [if_neg h, List.take_append, List.length_take]
    congr 2
    omega

/-! ## Following a stream -/

/-- What a capture is that has passed on the first `n` answers of a stream and
    was neither ended nor closed. -/
structure Follows (s : BodyStream) (limit n : Nat) (c : Capture) : Prop where
  stream : c.stream = some (s.after n)
  kept : c.kept = upTo limit (s.content n)
  limit_eq : c.limit = limit
  total : c.total = (s.content n).length
  failed : c.failed = (s.passed n).any Polled.isFailure
  ended : c.ended = false
  finalized : c.finalized = false

theorem follows_ofStream (s : BodyStream) (limit : Nat) : Follows s limit 0 (ofStream s limit) where
  stream := rfl
  kept := by simp [ofStream, upTo, BodyStream.content, BodyStream.passed]
  limit_eq := rfl
  total := rfl
  failed := rfl
  ended := rfl
  finalized := rfl

variable {s : BodyStream} {limit n : Nat} {c : Capture}

/-- What a capture hands over after `n` answers. -/
def handed (s : BodyStream) (limit n : Nat) (reachedEnd : Bool) : CapturedBody :=
  ⟨upTo limit (s.content n), (s.content n).length,
    decide ((upTo limit (s.content n)).length < (s.content n).length),
    reachedEnd && !(s.passed n).any Polled.isFailure⟩

/-- A poll that does not meet the end passes its answer on. -/
theorem Follows.poll_next (h : Follows s limit n c) (hne : (s.after n).poll.1 ≠ .ended) :
    ∃ c', c.poll = ((s.after n).poll.1, none, c') ∧ Follows s limit (n + 1) c' := by
  have hbytes := s.content_succ n
  have hfailed : (s.passed (n + 1)).any Polled.isFailure =
      (c.failed || (s.after n).poll.1.isFailure) := by
    rw [s.passed_succ, List.any_append, h.failed]
    simp
  have hnext : some (s.after n).poll.2 = some (s.after (n + 1)) := rfl
  rcases hp : (s.after n).poll with ⟨answer, next⟩
  simp only [hp] at hne hbytes hfailed hnext
  unfold Capture.poll
  rw [h.ended, h.stream]
  simp only [hp]
  cases answer with
  | chunk bs =>
      -- The only answer that adds bytes; the room is what the limit leaves.
      refine ⟨_, rfl, ?_⟩
      constructor
      · exact hnext
      · rw [hbytes, Polled.bytes, ← upTo_append, ← h.kept, ← h.limit_eq]
        rfl
      · exact h.limit_eq
      · rw [hbytes, List.length_append, ← h.total]
        rfl
      · rw [hfailed, Polled.isFailure, Bool.or_false]
        rfl
      · rfl
      · exact h.finalized
  | failure message =>
      refine ⟨_, rfl, ?_⟩
      rw [Polled.bytes, List.append_nil] at hbytes
      rw [Polled.isFailure, Bool.or_true] at hfailed
      exact ⟨hnext, hbytes ▸ h.kept, h.limit_eq, hbytes ▸ h.total, hfailed.symm, rfl, h.finalized⟩
  | pending =>
      -- Nothing went through, but the stream was asked once more.
      refine ⟨_, rfl, ?_⟩
      rw [Polled.bytes, List.append_nil] at hbytes
      rw [Polled.isFailure, Bool.or_false] at hfailed
      exact ⟨hnext, hbytes ▸ h.kept, h.limit_eq, hbytes ▸ h.total, hfailed.symm, rfl, h.finalized⟩
  | ended => exact absurd rfl hne

/-- Finalizing for the first time hands over what was kept. -/
theorem Follows.finish (h : Follows s limit n c) (reachedEnd : Bool) :
    c.finish reachedEnd =
      (some (handed s limit n reachedEnd), { c with kept := [], finalized := true }) := by
  unfold Capture.finish handed
  simp [h.finalized, h.kept, h.total, h.failed]

/-- A poll that meets the end finalizes. -/
theorem Follows.poll_end (h : Follows s limit n c) (he : (s.after n).poll.1 = .ended) :
    ∃ c', c.poll = (.ended, some (handed s limit n true), c') ∧ c'.finalized = true ∧
      c'.ended = true ∧ c'.stream = some (s.after (n + 1)) := by
  have hnext : some (s.after n).poll.2 = some (s.after (n + 1)) := rfl
  rcases hp : (s.after n).poll with ⟨answer, next⟩
  rw [hp] at he hnext
  obtain rfl : answer = .ended := he
  unfold Capture.poll
  rw [h.ended, h.stream]
  simp only [hp]
  refine ⟨{ c with stream := some next, ended := true, kept := [], finalized := true }, ?_, rfl,
    rfl, hnext⟩
  simp [Capture.finish, handed, h.finalized, h.kept, h.total, h.failed]

/-- Closing finalizes, with an end that was not reached. -/
theorem Follows.close (h : Follows s limit n c) :
    c.close.1 = some (handed s limit n false) ∧ c.close.2.finalized = true := by
  unfold Capture.close
  rw [h.finish]
  exact ⟨rfl, rfl⟩

/-! ## After finalizing -/

/-- A finalized capture hands over nothing and stays finalized. -/
theorem finish_of_finalized (h : c.finalized = true) (reachedEnd : Bool) :
    (c.finish reachedEnd).1 = none ∧ (c.finish reachedEnd).2.finalized = true := by
  simp [Capture.finish, h]

theorem poll_of_finalized (h : c.finalized = true) :
    c.poll.2.1 = none ∧ c.poll.2.2.finalized = true := by
  unfold Capture.poll
  split
  · exact ⟨rfl, h⟩
  · exact ⟨rfl, h⟩
  · next s _ _ =>
      rcases s.poll with ⟨answer, next⟩
      cases answer with
      | ended =>
          exact finish_of_finalized (c := { c with stream := some next, ended := true }) h true
      | chunk bs => exact ⟨rfl, h⟩
      | failure message => exact ⟨rfl, h⟩
      | pending => exact ⟨rfl, h⟩

theorem step_of_finalized (h : c.finalized = true) (op : Op) :
    (c.step op).2.1 = none ∧ (c.step op).2.2.finalized = true := by
  cases op with
  | poll => exact poll_of_finalized h
  | close => exact finish_of_finalized h false

/-! ## The life of a capture -/

/-- A step either passes the next answer on, or meets the end or closes the capture: then
    it hands over what was kept, and the capture is finalized. -/
theorem Follows.step (h : Follows s limit n c) (op : Op) :
    ((c.step op).2.1 = none ∧ Follows s limit (n + 1) (c.step op).2.2) ∨
      ((op = .poll → (s.after n).poll.1 = .ended) ∧
        (c.step op).2.1 = some (handed s limit n (decide (op = .poll))) ∧
        (c.step op).2.2.finalized = true) := by
  cases op with
  | close => exact .inr ⟨by simp, h.close.1, h.close.2⟩
  | poll =>
      rw [Capture.step]
      by_cases he : (s.after n).poll.1 = .ended
      · obtain ⟨c', hpoll, finalized, -⟩ := h.poll_end he
        rw [hpoll]
        exact .inr ⟨fun _ => he, rfl, finalized⟩
      · obtain ⟨c', hpoll, hnext⟩ := h.poll_next he
        rw [hpoll]
        exact .inl ⟨rfl, hnext⟩

/-- A capture of a stream is finalized, or follows the stream. -/
def Tracks (s : BodyStream) (limit : Nat) (c : Capture) : Prop :=
  c.finalized = true ∨ ∃ n, Follows s limit n c

theorem tracks_ofStream (s : BodyStream) (limit : Nat) : Tracks s limit (ofStream s limit) :=
  .inr ⟨0, follows_ofStream s limit⟩

theorem Tracks.step (h : Tracks s limit c) (op : Op) : Tracks s limit (c.step op).2.2 := by
  rcases h with h | ⟨n, h⟩
  · exact .inl (step_of_finalized h op).2
  · rcases h.step op with ⟨-, hnext⟩ | ⟨-, -, finalized⟩
    · exact .inr ⟨n + 1, hnext⟩
    · exact .inl finalized

/-- What a step hands over is what was kept of the answers so far. A poll hands it over
    only at the end of the stream. -/
theorem Tracks.handed_of_step {op : Op} {body : CapturedBody} (h : Tracks s limit c)
    (hb : (c.step op).2.1 = some body) :
    ∃ n, Follows s limit n c ∧ (op = .poll → (s.after n).poll.1 = .ended) ∧
      body = handed s limit n (decide (op = .poll)) ∧ (c.step op).2.2.finalized = true := by
  rcases h with h | ⟨n, h⟩
  · rw [(step_of_finalized h op).1] at hb
    cases hb
  · rcases h.step op with ⟨hnone, -⟩ | ⟨ended, hbody, finalized⟩
    · rw [hnone] at hb
      cases hb
    · exact ⟨n, h, ended, (Option.some.inj (hbody.symm.trans hb)).symm, finalized⟩

/-! ## Whole bodies -/

/-- What is handed over counts as whole exactly when the end was reached, no
    answer was a failure, and nothing was cut off. -/
theorem isWhole_handed_iff {reachedEnd : Bool} :
    (handed s limit n reachedEnd).isWhole = true ↔
      reachedEnd = true ∧ (∀ a ∈ s.passed n, a.isFailure = false) ∧
        (handed s limit n reachedEnd).bytes = s.content n := by
  unfold CapturedBody.isWhole handed
  simp only [Bool.and_eq_true, Bool.not_eq_true', List.any_eq_false, Bool.not_eq_true,
    decide_eq_false_iff_not, length_upTo_lt_iff, not_not, and_assoc]

end Capture

end GatewayCache

/-
  GatewayCache.Capture

  Passing a body on to the client while keeping a copy of its start: the
  `CaptureStream` of section 4.6 of the specification, with its polls
  (`Capture.poll`), its `close` and its size hint.

  A capture answers every poll as the stream behind it does, and keeps the
  first bytes of what goes through, up to a limit. It is finalized once: when
  the stream ends, or when the capture is closed before. Then it hands over
  what it kept, and from then on it answers that the body is over, without
  asking the stream again.
-/

namespace GatewayCache

/-! ## Streams -/

/-- The answer of a stream to a poll. -/
inductive Polled where
  | chunk (bytes : List UInt8)
  | failure (message : String)
  /-- Not ready yet. -/
  | pending
  /-- The body is over. -/
  | ended
deriving DecidableEq, Repr

/-- A stream with its answers laid down, and how often it was polled. Behind
    the last answer the body is over. -/
structure BodyStream where
  answers : List Polled
  polls : Nat := 0
deriving DecidableEq, Repr

namespace BodyStream

/-- One poll. -/
def poll (s : BodyStream) : Polled × BodyStream :=
  match s.answers with
  | [] => (.ended, { s with polls := s.polls + 1 })
  | a :: rest => (a, ⟨rest, s.polls + 1⟩)

/-- How many chunks are still to come, at least and at most, as far as the
    stream can tell. -/
def sizeHint (s : BodyStream) : Nat × Nat := (s.answers.length, 2 * s.answers.length)

end BodyStream

/-! ## Captures -/

/-- What a capture hands over when it is finalized. -/
structure CapturedBody where
  /-- The kept start of the body. -/
  bytes : List UInt8
  /-- How many bytes went through. No body has the 2^64 bytes that a machine word
      could not count. -/
  total : Nat
  /-- More bytes went through than were kept. -/
  truncated : Bool
  /-- The stream ended by itself and never failed. -/
  complete : Bool
deriving DecidableEq, Repr

/-- Whether the kept bytes are the whole body. -/
def CapturedBody.isWhole (b : CapturedBody) : Bool := b.complete && !b.truncated

/-- A body on its way to the client. -/
structure Capture where
  /-- The stream behind; none once it was released. -/
  stream : Option BodyStream
  kept : List UInt8
  /-- The most bytes to keep; zero for no limit. -/
  limit : Nat
  /-- How many bytes went through so far, fewer than a machine word counts. -/
  total : Nat
  failed : Bool
  ended : Bool
  finalized : Bool
deriving DecidableEq, Repr

namespace Capture

/-- A capture of a stream that keeps at most `limit` bytes, or all for zero. -/
def ofStream (s : BodyStream) (limit : Nat) : Capture :=
  ⟨some s, [], limit, 0, false, false, false⟩

/-- The capture after a chunk went through. -/
def keep (c : Capture) (chunk : List UInt8) : Capture :=
  -- The kept bytes never exceed a limit, so the difference is the room left.
  let room := if c.limit = 0 then chunk.length else c.limit - c.kept.length
  { c with kept := c.kept ++ chunk.take room, total := c.total + chunk.length }

/-- Finalizes the capture, unless that has been done; what it hands over. -/
def finish (c : Capture) (reachedEnd : Bool) : Option CapturedBody × Capture :=
  if c.finalized then (none, c)
  else
    (some ⟨c.kept, c.total, decide (c.kept.length < c.total), reachedEnd && !c.failed⟩,
      { c with kept := [], finalized := true })

/-- One poll: the answer, and what is handed over if this finalizes the
    capture. -/
def poll (c : Capture) : Polled × Option CapturedBody × Capture :=
  match c.ended, c.stream with
  -- Behind the end the stream is not asked again.
  | true, _ => (.ended, none, c)
  | false, none => (.ended, none, c)
  | false, some s =>
      let (answer, s) := s.poll
      let c := { c with stream := some s }
      match answer with
      | .chunk bytes => (answer, none, c.keep bytes)
      | .failure _ => (answer, none, { c with failed := true })
      | .pending => (answer, none, c)
      | .ended => (answer, { c with ended := true }.finish true)

/-- Finalizes the capture and releases the stream. Dropping a capture closes
    it. -/
def close (c : Capture) : Option CapturedBody × Capture :=
  let (body, c) := c.finish false
  (body, { c with stream := none })

/-- What is said of the rest of the body: what `hint` says of the stream, and
    `past` once the body is over. -/
def hintOr {η : Type} (past : η) (hint : BodyStream → η) (c : Capture) : η :=
  match c.ended, c.stream with
  | false, some s => hint s
  | _, _ => past

/-- How many chunks are still to come, at least and at most, as far as the
    stream can tell. -/
def sizeHint (c : Capture) : Nat × Nat := c.hintOr (0, 0) BodyStream.sizeHint

/-! ## Runs -/

/-- One step of a consumer. -/
inductive Op where
  | poll
  | close
deriving DecidableEq, Repr

/-- One step: the answer of a poll, what is handed over, and the capture. -/
def step (c : Capture) : Op → Option Polled × Option CapturedBody × Capture
  | .poll => let (answer, body, c) := c.poll; (some answer, body, c)
  | .close => let (body, c) := c.close; (none, body, c)

/-- Steps one after the other: the answers of the polls, everything handed
    over, and the capture. -/
def run (c : Capture) : List Op → List Polled × List CapturedBody × Capture
  | [] => ([], [], c)
  | op :: ops =>
      let (answer, body, c) := c.step op
      let (answers, bodies, c) := c.run ops
      (answer.toList ++ answers, body.toList ++ bodies, c)

end Capture

end GatewayCache

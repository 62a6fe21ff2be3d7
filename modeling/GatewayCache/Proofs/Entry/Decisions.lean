/-
  GatewayCache.Proofs.Entry.Decisions

  Storing a response changes no decision about it.

  The policies read no field that belongs to one connection, and under the other
  names what is replayed reads as what came (`decidedAlike_replay`). A record keeps
  the fields of its entry, so this also holds of the entry that is read from it
  (`storing_changes_no_decision`).
-/

import GatewayCache.Proofs.Entry.Record
import GatewayCache.Proofs.Entry.Replay
import GatewayCache.Proofs.Policy.Reading

namespace GatewayCache.Entry

open GatewayCache.Http

theorem not_isConnectionField_of_mem_readNames :
    ∀ n ∈ Policy.readNames, isConnectionField n.text = false := by
  decide +kernel

/-- Only the fields of an entry are replayed. -/
theorem replay_withoutExpiry (e : Entry) : { e with expiresAt := none }.replay = e.replay := rfl

/-- No policy tells the fields of a response from those that its entry replays. -/
theorem decidedAlike_replay (now : Instant) (status : UInt16) (f : Fields) (body : List UInt8)
    (ttl : Span) : DecidedAlike (ofResponse now status f body ttl).replay f := by
  apply decidedAlike_of_readAlike
  intro n hn
  exact readAlike_replay now status f body ttl (not_isConnectionField_of_mem_readNames n hn)

/-- The entry of a response replays fields that get every answer that the fields of
    the response get, and so does the entry that its record is read as. -/
theorem storing_changes_no_decision (now : Instant) (status : UInt16) (f : Fields)
    (body : List UInt8) (ttl : Span) :
    ∃ decoded, read (ofResponse now status f body ttl).write = some decoded ∧
      DecidedAlike (ofResponse now status f body ttl).replay f ∧
      DecidedAlike decoded.replay f := by
  have hreplay := decidedAlike_replay now status f body ttl
  refine ⟨_, read_write _, hreplay, ?_⟩
  rw [replay_withoutExpiry]
  exact hreplay

end GatewayCache.Entry

/-
  GatewayCache.KeyValue.Server

  A key-value store behind a server that takes commands and sends replies.

  The commands are GET, SETEX, DEL and SCAN. A command whose reply is an error,
  or no value of the right kind, fails. To delete no keys at all takes no
  command.
-/

import GatewayCache.KeyValue
import GatewayCache.KeyValue.Reply

namespace GatewayCache

/-- A connection: the replies the server will send, and the commands it was
    sent, word by word. -/
structure ServerLink where
  replies : List ServerReply := []
  sent : List (List (List UInt8)) := []

namespace ServerLink

/-- A command sent, and the reply to it. A server without replies refuses. -/
def exchange (command : List (List UInt8)) (l : ServerLink) : ServerReply × ServerLink :=
  let sent := l.sent ++ [command]
  match l.replies with
  | [] => (.error "no reply", { l with sent })
  | r :: rest => (r, { l with sent, replies := rest })

/-- A word of a command. -/
def word (s : String) : List UInt8 := Text.Utf8.encode s

/-- A number as a word of a command. -/
def number (n : Nat) : List UInt8 := word (String.ofList (Text.Decimal.write n))

/-- The value of a reply, if it is one of the right kind. -/
def value {α : Type} (f : ServerReply → Option α) (r : ServerReply) : Except Fault α :=
  if r.hasError then .error .server
  else
    match f r with
    | some a => .ok a
    | none => .error .server

/-- A command sent and its reply taken apart. -/
def ask {α : Type} (command : List (List UInt8)) (f : ServerReply → Option α) (l : ServerLink) :
    Except Fault α × ServerLink :=
  let (r, l) := l.exchange command
  (value f r, l)

/-- A page: the next cursor and the keys. -/
def page? : ServerReply → Option ScanPage
  | .array [cursor, keys] => do
      let next ← cursor.natural?
      let keys ← keys.texts?
      some ⟨next, keys⟩
  | _ => none

instance : KeyValueStore ServerLink where
  get key l := l.ask [word "GET", word key] ServerReply.bytes?
  setFor key value seconds l :=
    l.ask [word "SETEX", word key, number (max seconds 1), value] fun _ => some ()
  delete keys l :=
    if keys.isEmpty then (.ok 0, l)
    else l.ask (word "DEL" :: keys.map word) ServerReply.natural?
  scan cursor pattern count l :=
    l.ask [word "SCAN", number cursor, word "MATCH", word pattern, word "COUNT", number count] page?

end ServerLink

end GatewayCache

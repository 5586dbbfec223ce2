import Cepheus.Infra.Run
import Cepheus.Infra.Table
import Cepheus.Scamper.Wire

/-!
# The scamper client and its daemon

`libs/scamper-client/client.go`: any number of callers of `Send`, the loop of `StartRead`, and the
daemon at the other end of the socket.

The mutex makes `Send` one step, and so is what an iteration of the reader does while it holds the
mutex. A value is sent on a channel in a step of its own, because it might block there: with the
mutex held after an `OK` line without an id, without it after a `DATA` frame.

The daemon answers the commands in the order in which they were written, by one `OK` or `ERR` line
each. It gives no id to a command that another outstanding command has. Its `DATA` frames have an
id.
-/

namespace Cepheus.Scamper

open Infra

/-- The channel that a call of `Send` has returned. It also stands for the command. -/
abbrev Chan := Nat

structure ReaderResult where
  data : Option Octets
deriving DecidableEq, Repr

/-- Where `StartRead` is. -/
inductive Reader where
  | reading
  /-- Sending a value on a channel, with or without the mutex. -/
  | sending (ch : Chan) (result : ReaderResult) (locked : Bool)
  | returned
  | crashed
deriving DecidableEq, Repr

/-! ## The daemon -/

/-- A message of the daemon, and the command that it is about. -/
inductive Reply where
  | ok (ch : Chan) (id : Option Token)
  | err (ch : Chan) (text : Text)
  | more (text : Text)
  /-- A frame whose id stands for the given command, or for none that is outstanding. -/
  | data (f : Frame) (id : Token) (named : f.id = some id) (ch : Option Chan)

/-- The text of an `OK` line. -/
def okText (id : Option Token) : Text := ⟨idField id, newline_notMem_idField id⟩

def Reply.item : Reply → Item
  | ok _ id => .control { word := .ok, text := okText id }
  | err _ text => .control { word := .err, text }
  | more text => .control { word := .more, text }
  | data f _ _ _ => .frame f

/-- The command that has its whole answer with this message. -/
def Reply.completes : Reply → Option Chan
  | ok ch none => some ch
  | ok _ (some _) => none
  | err ch _ => some ch
  | more _ => none
  | data _ _ _ ch => ch

/-- The result that this message is meant to give to a command. -/
def Reply.result : Reply → Option (Chan × ReaderResult)
  | ok ch none => some (ch, ⟨none⟩)
  | data f _ _ (some ch) => some (ch, ⟨some f.payload⟩)
  | _ => none

/-- The commands that wait for their `OK` or `ERR` line, in order, and those that have an id and
wait for their `DATA` frame. -/
structure View where
  queue : List Chan
  named : Table Octets Chan

/-- The messages that the daemon may send, and what becomes of the commands. -/
def View.next (v : View) : Reply → Option View
  | .ok ch none =>
    if v.queue.head? = some ch then some { v with queue := v.queue.tail } else none
  | .ok ch (some id) =>
    if v.queue.head? = some ch ∧ v.named.lookup id.octets = none then
      some { queue := v.queue.tail, named := v.named.insert id.octets ch }
    else none
  | .err ch _ =>
    if v.queue.head? = some ch then some { v with queue := v.queue.tail } else none
  | .more _ => some v
  | .data _ id _ ch =>
    if v.named.lookup id.octets = ch then
      match ch with
      | none => some v
      | some _ => some { v with named := v.named.erase id.octets }
    else none

/-- What the daemon does next. -/
inductive Act where
  | ok (id : Option Token)
  | err (text : Text)
  | more (text : Text)
  | data (f : Frame)

/-- The message that the daemon then writes. An answer is for the first command without one. -/
def View.reply (v : View) : Act → Option Reply
  | .ok id => v.queue.head?.map fun ch => .ok ch id
  | .err text => v.queue.head?.map fun ch => .err ch text
  | .more text => some (.more text)
  | .data f =>
    match h : f.id with
    | none => none
    | some id => some (.data f id h (v.named.lookup id.octets))

/-! ## The system -/

structure System where
  pendingQ : List Chan
  waiters : Table Octets Chan
  reader : Reader
  /-- How many channels `Send` has made. -/
  made : Nat
  /-- The value in the buffer of a channel, which has room for one. -/
  buffer : Table Chan ReaderResult
  /-- What the daemon has written and the reader has not read. -/
  wire : Octets
  daemon : View
  /-- The messages on the wire. -/
  flight : List Reply
  /-- The results that the daemon has meant for a command. -/
  answers : List (Chan × ReaderResult)
  /-- The values that have been sent on a channel. -/
  delivered : List (Chan × ReaderResult)
  /-- The commands whose whole answer the reader has read. -/
  processed : List Chan

def System.init : System where
  pendingQ := []
  waiters := ∅
  reader := .reading
  made := 0
  buffer := ∅
  wire := []
  daemon := { queue := [], named := ∅ }
  flight := []
  answers := []
  delivered := []
  processed := []

/-- `Send`, where the write has gone through. The command is then at the daemon. -/
def System.send (s : System) : System :=
  { s with
    pendingQ := s.pendingQ ++ [s.made]
    made := s.made + 1
    daemon := { s.daemon with queue := s.daemon.queue ++ [s.made] } }

/-- What the reader does with a message, up to the send on a channel. -/
def System.handle (s : System) : Message → System
  | .err =>
    match s.pendingQ with
    | [] => s
    | _ :: queue => { s with pendingQ := queue }
  | .more => s
  | .ok id =>
    match s.pendingQ with
    | [] => s
    | waiterChan :: queue =>
      if id ≠ [] then { s with pendingQ := queue, waiters := s.waiters.insert id waiterChan }
      else { s with pendingQ := queue, reader := .sending waiterChan ⟨none⟩ true }
  | .data id buf =>
    if id = [] then s
    else
      match s.waiters.lookup id with
      | none => s
      | some waiterChan =>
        { s with
          waiters := s.waiters.erase id
          reader := .sending waiterChan ⟨some buf⟩ false }
  | .malformed => s
  | .panics => { s with reader := .crashed }
  | .ignored => s

inductive Move where
  /-- A call of `Send`, and whether the write goes through. -/
  | send (written : Bool)
  | daemon (act : Act)
  /-- The reader takes a message off the wire. -/
  | read
  /-- The reader sends on a channel. -/
  | push
  /-- Whoever has called `Send` takes the value out of the channel. -/
  | receive (ch : Chan)
  /-- `ReadString` fails: the stream has ended or the reader was told to stop. -/
  | stop

/-- Whether `Send` can get the mutex. -/
def Reader.locks : Reader → Bool
  | sending _ _ locked => locked
  | _ => false

def System.step (s : System) : Move → System
  | .send written => if written && !s.reader.locks then s.send else s
  | .daemon act =>
    match s.daemon.reply act with
    | none => s
    | some r =>
      match s.daemon.next r with
      | none => s
      | some daemon =>
        { s with
          daemon
          wire := s.wire ++ r.item.encode
          flight := s.flight ++ [r]
          answers := s.answers ++ r.result.toList }
  | .read =>
    match s.reader, iterate s.wire with
    | .reading, some it =>
      { s.handle it.message with
        wire := it.rest
        flight := s.flight.tail
        processed := s.processed ++ (s.flight.head?.bind Reply.completes).toList }
    | _, _ => s
  | .push =>
    match s.reader with
    | .sending ch result _ =>
      match s.buffer.lookup ch with
      | some _ => s
      | none =>
        { s with
          reader := .reading
          buffer := s.buffer.insert ch result
          delivered := s.delivered ++ [(ch, result)] }
    | _ => s
  | .receive ch => { s with buffer := s.buffer.erase ch }
  | .stop =>
    match s.reader with
    | .reading => { s with reader := .returned }
    | _ => s

end Cepheus.Scamper

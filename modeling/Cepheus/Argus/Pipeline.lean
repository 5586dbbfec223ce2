import Cepheus.Argus.Run
import Cepheus.Argus.Worker

/-!
# The pipeline

`services/argus/router.go` and the goroutines of `worker.go`: the router takes messages from the
stream and hands each to the worker of its series, over a channel; every worker folds what it gets,
reports findings to the policy engine, saves its baselines and acknowledges the messages.

The workers run side by side. A `Move` is one thing that one of them, the router, the sweep of the
engine or the environment does next, and a run is any list of moves, so a theorem about all runs is
about all interleavings. A statement of the database is one move. A move that cannot be made (there
is nothing in the channel, the channel is full, the worker is somewhere else) changes nothing.

The process may die between any two moves, and in the middle of a call of the engine. What it has in
memory is gone then; the tables stay, and so does what the stream knows about its messages.
-/

namespace Cepheus.Argus

open Infra

/-- The sequence number of a message in the stream. -/
abbrev MsgId := Nat

/-- The decoders that `encoding/json` derives for the message types; `none` is an error. -/
structure Codec where
  event : List UInt8 → Option MeasurementEvent
  ping : List UInt8 → Option PingMetrics
  stamp : List UInt8 → Option StampMetrics
  trace : List UInt8 → Option TraceMetrics

/-- `decodeMetrics`. -/
def Codec.decodeMetrics (codec : Codec) (event : MeasurementEvent) : Option Metrics :=
  match event.type with
  | .ping => (codec.ping event.metrics).map .ping
  | .stamp => (codec.stamp event.metrics).map .stamp
  | .trace => (codec.trace event.metrics).map .trace
  | .other _ => none

/-- What does not change while the service runs, and the data of the messages. -/
structure Pipeline (V S : Type) where
  worker : Worker V S
  config : PolicyEngineConfig
  codec : Codec
  data : MsgId → List UInt8

/-- One measurement on its way to a worker. -/
structure Item where
  sample : RawSample
  msg : MsgId
deriving DecidableEq, Repr

/-- `chan inboxItem` has room for 64 items. -/
def inboxSize : Nat := 64

variable {V S : Type}

/-- The first half of `dispatch`: the series and the sample of a message. A message for which there
is none is terminated. -/
def Pipeline.decode (p : Pipeline V S) (id : MsgId) : Option (DiscoveredSeries × RawSample) :=
  match p.codec.event (p.data id) with
  | none => none
  | some event =>
    match seriesFromEvent event with
    | none => none
    | some series =>
      match p.codec.decodeMetrics event with
      | none => none
      | some metrics => some (series, { ts := event.timestamp, row := metrics })

/-! ## A worker goroutine -/

/-- Where a worker is in the middle of folding a batch. -/
structure FoldPoint where
  batch : List Item
  /-- The monitor that is being folded. -/
  index : Nat
  /-- Its cursor when `fold` was called. -/
  start : Time
  /-- The part of the batch that is still to be folded into it. -/
  rows : List Item
deriving DecidableEq, Repr

/-- Where a worker is. -/
inductive Phase (V S : Type)
  /-- In `plan`, with these pairs still to load. -/
  | plan (todo : List (Watch V S))
  /-- At the `select` of `process`. -/
  | select
  /-- In `drainInbox`. -/
  | drain (batch : List Item)
  /-- In the loop of `fold`, or behind it when no rows are left. -/
  | fold (point : FoldPoint)
  /-- In `report`, before `InsertFinding`. -/
  | insert (point : FoldPoint) (key : SeriesKey) (finding : Finding)
  /-- In `report`, between `InsertFinding` and `ApplyFinding`. -/
  | apply (point : FoldPoint) (key : SeriesKey) (finding : Finding) (findingId : Uuid)
  /-- Acknowledging a batch. -/
  | ack (todo : List Item)

/-- A worker with its channel. -/
structure Goroutine (V S : Type) where
  inbox : List Item
  monitors : List (Monitor V S)
  phase : Phase V S

/-- What the workers share: the tables, the policy engine, and what the stream knows. -/
structure Stores (S : Type) where
  baselines : Table RowKey (BaselineRow S)
  world : World
  /-- The messages that have been handed out. -/
  delivered : Finset MsgId
  /-- The messages whose acknowledgement has arrived. -/
  acked : Finset MsgId

/-- What a worker does next, and how the environment answers. -/
inductive Tick
  | load (outcome : Outcome)
  | receive
  | drain
  | fold
  | insert (id : Uuid) (outcome : Outcome)
  | apply (env : ApplyEnv)
  | save (outcome : Outcome)
  /-- An acknowledgement is sent without waiting for an answer; it may not arrive. -/
  | ack (arrives : Bool)

/-- Go on with the monitor `i`, or acknowledge the batch if there is none. -/
def Goroutine.enter (g : Goroutine V S) (batch : List Item) (i : Nat) : Phase V S :=
  match g.monitors[i]? with
  | none => .ack batch
  | some m => .fold { batch, index := i, start := m.cursor, rows := batch }

/-- `saveBaseline`. The column does not take a nil document. An error is logged. -/
def saveBaseline (o : Outcome) (m : Monitor V S) (db : Stores S) : Stores S :=
  match m.state with
  | none => db
  | some state =>
    if o.Applies then
      { db with
        baselines := db.baselines.insert m.key.rowKey
          { state, lastSeen := Time.micros m.cursor } }
    else db

/-- It writes to `argus_baselines` only. -/
theorem saveBaseline_eq (o : Outcome) (m : Monitor V S) (db : Stores S) :
    saveBaseline o m db = { db with baselines := (saveBaseline o m db).baselines } := by
  unfold saveBaseline
  cases m.state with
  | none => rfl
  | some state =>
    dsimp only
    split <;> rfl

/-- One pair of `plan`. If its baseline cannot be read, the worker goes on without a monitor. -/
def Goroutine.load (series : DiscoveredSeries) (g : Goroutine V S) (db : Stores S)
    (watch : Watch V S) (todo : List (Watch V S)) : Outcome → Goroutine V S × Option Halt
  | .ok =>
    ({ g with
       monitors :=
         g.monitors ++ [watch.resume series (db.baselines.lookup (watch.baselineKey series))]
       phase := .plan todo }, none)
  | .failed => ({ g with phase := .plan todo }, none)
  | .lost => ({ g with phase := .plan todo }, none)
  | .crash => (g, some .crash)

/-- One round of the loop of `fold`, for the monitor `m` at `point`. -/
def Goroutine.foldItem (g : Goroutine V S) (point : FoldPoint) (m : Monitor V S) (it : Item)
    (rows : List Item) : Goroutine V S :=
  { g with
    monitors := g.monitors.set point.index (m.foldSample it.sample).1
    phase :=
      match (m.foldSample it.sample).2 with
      | none => .fold { point with rows }
      | some finding => .insert { point with rows } m.key finding }

/-- One move of a worker. -/
def Goroutine.step (p : Pipeline V S) (series : DiscoveredSeries) (g : Goroutine V S)
    (db : Stores S) : Tick → Goroutine V S × Stores S × Option Halt
  | .load o =>
    match g.phase with
    | .plan [] => ({ g with phase := .select }, db, none)
    | .plan (watch :: todo) =>
      match g.load series db watch todo o with
      | (g, h) => (g, db, h)
    | _ => (g, db, none)
  | .receive =>
    match g.phase, g.inbox with
    | .select, it :: rest => ({ g with inbox := rest, phase := .drain [it] }, db, none)
    | _, _ => (g, db, none)
  | .drain =>
    match g.phase, g.inbox with
    | .drain batch, it :: rest =>
      ({ g with inbox := rest, phase := .drain (batch ++ [it]) }, db, none)
    | .drain batch, [] => ({ g with phase := g.enter batch 0 }, db, none)
    | _, _ => (g, db, none)
  | .fold =>
    match g.phase with
    | .fold point =>
      match point.rows, g.monitors[point.index]? with
      | it :: rows, some m => (g.foldItem point m it rows, db, none)
      | _, _ => (g, db, none)
    | _ => (g, db, none)
  | .insert id o =>
    match g.phase with
    | .insert point key finding =>
      match insertFinding o id key finding db.world with
      | (world, .ok id) =>
        ({ g with phase := .apply point key finding id }, { db with world }, none)
      | (world, .error h) => ({ g with phase := .fold point }, { db with world }, some h)
    | _ => (g, db, none)
  | .apply env =>
    match g.phase with
    | .apply point key finding findingId =>
      match applyFinding p.config env key finding findingId db.world with
      | (world, h) => ({ g with phase := .fold point }, { db with world }, h)
    | _ => (g, db, none)
  | .save o =>
    match g.phase with
    | .fold point =>
      match point.rows, g.monitors[point.index]? with
      | [], some m =>
        if point.start < m.cursor then
          -- only persist if we folded something new
          ({ g with phase := g.enter point.batch (point.index + 1) }, saveBaseline o m db,
            if o = .crash then some .crash else none)
        else ({ g with phase := g.enter point.batch (point.index + 1) }, db, none)
      | _, _ => (g, db, none)
    | _ => (g, db, none)
  | .ack arrives =>
    match g.phase with
    | .ack [] => ({ g with phase := .select }, db, none)
    | .ack (it :: todo) =>
      ({ g with phase := .ack todo },
        if arrives then { db with acked := insert it.msg db.acked } else db, none)
    | _ => (g, db, none)

/-- What a worker does that can be seen from outside, besides its statements. -/
inductive Event (V S : Type)
  /-- The router has handed a message to the worker of its series. -/
  | handed (series : DiscoveredSeries) (it : Item)
  /-- A worker has made a monitor. -/
  | loaded (series : DiscoveredSeries) (m : Monitor V S)
  /-- The monitor at this position has called `report`. -/
  | reported (series : DiscoveredSeries) (index : Nat) (finding : Finding)
  /-- `ApplyFinding` has put the finding on the pending list of its series, or has attached it to
  the event of its series. -/
  | applied (series : DiscoveredSeries) (findingId : Uuid)

/-- The series that an event is about. -/
def Event.series : Event V S → DiscoveredSeries
  | .handed series _ => series
  | .loaded series _ => series
  | .reported series _ _ => series
  | .applied series _ => series

/-- The finding is on the pending list of its series, or attached to the event of its series. -/
def World.TakenIn (w : World) (key : SeriesKey) (findingId : Uuid) : Prop :=
  ∃ state ∈ w.states.lookup key, findingId ∈ state.pendingFindings.map PendingFinding.id ∨
    ∃ e ∈ state.openEventId, w.db.eventOf findingId = some e

instance (w : World) (key : SeriesKey) (findingId : Uuid) : Decidable (w.TakenIn key findingId) :=
  inferInstanceAs (Decidable (∃ state ∈ w.states.lookup key, _))

/-- What is seen of a move of a worker. -/
def Goroutine.observe (p : Pipeline V S) (series : DiscoveredSeries) (g : Goroutine V S)
    (db : Stores S) : Tick → Option (Event V S)
  | .load .ok =>
    match g.phase with
    | .plan (watch :: _) =>
      some (.loaded series (watch.resume series (db.baselines.lookup (watch.baselineKey series))))
    | _ => none
  | .fold =>
    match g.phase with
    | .fold point =>
      match point.rows, g.monitors[point.index]? with
      | it :: _, some m => (m.foldSample it.sample).2.map (.reported series point.index)
      | _, _ => none
    | _ => none
  | .apply env =>
    match g.phase with
    | .apply _ key finding findingId =>
      if (applyFinding p.config env key finding findingId db.world).1.TakenIn key findingId then
        some (.applied series findingId)
      else none
    | _ => none
  | _ => none

/-! ## The whole service -/

/-- The service, and the stores it works on. -/
structure System (V S : Type) where
  /-- The messages of the last fetch that the router has not dispatched yet. -/
  fetched : List MsgId
  /-- The item that the router is handing over. -/
  sending : Option (DiscoveredSeries × Item)
  routes : Table DiscoveredSeries (Goroutine V S)
  db : Stores S

/-- What happens next. -/
inductive Move
  | fetch (id : MsgId)
  | dispatch
  | send
  | work (series : DiscoveredSeries) (tick : Tick)
  | sweep (env : SweepEnv)
  | crash

/-- A process that has just been started. -/
def System.boot (db : Stores S) : System V S :=
  { fetched := [], sending := none, routes := ∅, db }

/-- Tables and a stream that nothing has been done with. -/
def Stores.empty : Stores S :=
  { baselines := ∅, world := World.init, delivered := ∅, acked := ∅ }

/-- The process ends, and a new one starts. -/
def System.crash (s : System V S) : System V S :=
  System.boot { s.db with world := s.db.world.restart }

/-- An error that ends the process takes everything in memory with it; any other is logged. -/
def System.settle (s : System V S) (h : Option Halt) : System V S :=
  if ∃ x ∈ h, x.Fatal then s.crash else s

/-- A worker that has just been started. -/
def Pipeline.start (p : Pipeline V S) (series : DiscoveredSeries) : Goroutine V S :=
  { inbox := [], monitors := [], phase := .plan (p.worker.watches series.type) }

/-- `dispatch` up to the hand-over: find the worker of the series, or start it. -/
def System.dispatch (p : Pipeline V S) (s : System V S) (id : MsgId) (rest : List MsgId) :
    System V S :=
  match p.decode id with
  | none => { s with fetched := rest }
  | some (series, sample) =>
    { s with
      fetched := rest
      sending := some (series, { sample, msg := id })
      routes := if series ∈ s.routes then s.routes else s.routes.insert series (p.start series) }

/-- The service takes one step. -/
def System.step (p : Pipeline V S) (s : System V S) : Move → System V S
  | .fetch id =>
    if id ∈ s.db.acked then s
    else
      { s with
        fetched := s.fetched ++ [id]
        db := { s.db with delivered := insert id s.db.delivered } }
  | .dispatch =>
    match s.sending, s.fetched with
    | none, id :: rest => s.dispatch p id rest
    | _, _ => s
  | .send =>
    match s.sending with
    | none => s
    | some (series, it) =>
      match s.routes.lookup series with
      | none => s
      | some g =>
        if g.inbox.length < inboxSize then
          { s with
            sending := none
            routes := s.routes.insert series { g with inbox := g.inbox ++ [it] } }
        else s
  | .work series tick =>
    match s.routes.lookup series with
    | none => s
    | some g =>
      match g.step p series s.db tick with
      | (g, db, h) => { s with routes := s.routes.insert series g, db }.settle h
  | .sweep env =>
    match Argus.sweep p.config env s.db.world with
    | (world, h) => { s with db := { s.db with world } }.settle h
  | .crash => s.crash

/-- How the call that a move makes ends. -/
def System.halt (p : Pipeline V S) (s : System V S) : Move → Option Halt
  | .work series tick => (s.routes.lookup series).bind fun g => (g.step p series s.db tick).2.2
  | .sweep env => (Argus.sweep p.config env s.db.world).2
  | .crash => some .crash
  | _ => none

/-- The process ends with this move. -/
def System.Dies (p : Pipeline V S) (s : System V S) (move : Move) : Prop :=
  ∃ x ∈ s.halt p move, x.Fatal

instance (p : Pipeline V S) (s : System V S) (move : Move) : Decidable (s.Dies p move) :=
  inferInstanceAs (Decidable (∃ x ∈ s.halt p move, x.Fatal))

/-- What is seen of a move of the service. -/
def System.observe (p : Pipeline V S) (s : System V S) : Move → Option (Event V S)
  | .send =>
    match s.sending with
    | none => none
    | some (series, it) =>
      match s.routes.lookup series with
      | none => none
      | some g => if g.inbox.length < inboxSize then some (.handed series it) else none
  | .work series tick => (s.routes.lookup series).bind fun g => g.observe p series s.db tick
  | _ => none

/-- The service, and what has been seen of the process so far. -/
structure Observed (V S : Type) where
  sys : System V S
  log : List (Event V S)

/-- One step of the service, observed. -/
def Observed.step (p : Pipeline V S) (o : Observed V S) (move : Move) : Observed V S :=
  { sys := o.sys.step p move
    log := if o.sys.Dies p move then [] else o.log ++ (o.sys.observe p move).toList }

/-! ## A small service -/

/-- January 1, 2025. -/
def newYear : Time := 63871286400 * second

/-- The metrics of a measurement, as they stand in a message. -/
def pingMetricsText : List UInt8 :=
  "\x7b\"rtt_p95_ns\":1000000,\"sent\":10,\"received\":10\x7d".toUTF8.toList

/-- A message about the pings of agent "a", measured in the first second of the year. -/
def pingText (nanos : String) : List UInt8 :=
  ("\x7b\"type\":\"ping\",\"serial_id\":\"a\",\"target\":\"10.0.0.1\"," ++
    "\"timestamp\":\"2025-01-01T00:00:00." ++ nanos ++ "Z\",\"metrics\":").toUTF8.toList ++
  pingMetricsText ++ "\x7d".toUTF8.toList

/-- What such a message says. -/
def pingEvent (ts : Time) : MeasurementEvent :=
  { type := .ping, serialId := "a", target := "10.0.0.1", port := 0, src := "", timestamp := ts
    metrics := pingMetricsText }

/-- A decoder that knows a few of these messages, and no others. -/
def pingCodec : Codec where
  event data :=
    if data = pingText "000000001" then some (pingEvent (newYear + 1))
    else if data = pingText "000001000" then some (pingEvent (newYear + 1000))
    else if data = pingText "000002000" then some (pingEvent (newYear + 2000))
    else none
  ping data :=
    if data = pingMetricsText then some { rttP95Ns := 1000000, sent := 10, received := 10 }
    else none
  stamp _ := none
  trace _ := none

/-- A service that gets these messages, one after the other, and then nothing. -/
def pingPipeline (messages : List String) : Pipeline Extracted Nat :=
  { worker := tallyWorker, config := startConfig, codec := pingCodec
    data := fun id => (messages[id]?.map pingText).getD [] }

/-- A message gets to the worker of its series. -/
def Move.deliver (id : MsgId) : List Move := [.fetch id, .dispatch, .send]

/-- What the worker of pings does next. -/
def Move.ping (ticks : List Tick) : List Move := ticks.map (.work pingSeries)

/-- Two measurements of pings, the second of which finds the worker in the middle of the first. -/
def pingMoves : List Move :=
  Move.deliver 0 ++ Move.ping [.load .ok, .load .ok, .receive, .drain] ++ Move.deliver 1 ++
    Move.ping [.fold, .insert 0 .ok, .apply (ApplyEnv.ok newYear 0), .save .ok, .ack true,
      .ack true, .receive, .drain, .fold, .insert 1 .failed, .save .ok, .ack true, .ack true]

end Cepheus.Argus

import UrithiBidz.Indexer.Handlers
import UrithiBidz.Library.History

/-!
# Polling

The indexer asks a node for events again and again (`pollEvents`). It remembers the last
ledger it has dealt with, in memory and, between two cycles, in the database. A cycle is a
sequence of calls to the node and to the database, and a lot can happen between two of them:
ledgers close, calls fail, the process dies and is started again. So a cycle is not one step
here. `UrithiBidz.Phase` says which call is awaited, `UrithiBidz.Action` what comes next, and
`UrithiBidz.Indexer.next` goes from one call to the next.

A call that is retried is one call, which fails if its last attempt does. The node keeps all
of its ledgers, and answers with the events that pass the filter of the indexer.
-/

namespace UrithiBidz

/-! ### The node -/

/-- An event on the chain: two of them may be alike in everything but their ids. -/
structure LogEntry where
  id : ℕ
  event : SorobanEvent

/-- The ledger of an event. -/
def LogEntry.ledger (e : LogEntry) : ℕ := e.event.ledger

/-- What a node has: its latest ledger, and the events up to it in their order. -/
structure Node where
  latest : ℕ
  entries : List LogEntry

/-- `getEvents`: the first events from a ledger on. -/
def Node.getEvents (node : Node) (startLedger limit : ℕ) : List LogEntry :=
  (node.entries.filter fun e => startLedger ≤ e.ledger).take limit

/-! ### The indexer -/

/-- What the indexer is waiting for. -/
inductive Phase
  /-- The next cycle. -/
  | idle
  /-- The cursor, at the start of the process. -/
  | load
  /-- The latest ledger, for want of a cursor. -/
  | init
  /-- Events from a ledger on. -/
  | fetch (cursorLedger : ℕ)
  /-- The handlers of the rest of a batch, which was a full one or not. -/
  | batch (rest : List LogEntry) (full : Bool)
  /-- The latest ledger, after an empty batch. -/
  | latest
  /-- The cursor to be saved. -/
  | save

/-- The indexer and its surroundings. The origin is the ledger from which on it indexes: the
cursor it was first started with, or the first one it chose. It is not kept anywhere, and is
here for the sake of what is said about it. -/
structure Indexer where
  node : Node
  lastLedger : ℕ
  phase : Phase
  db : Database
  origin : Option ℕ

/-- What happens next. -/
inductive Action
  /-- A ledger closes, with some events. -/
  | close (entries : List LogEntry)
  /-- The process dies, and is started again. If it was handling an event, the time and the
  number of queries it came to may be given. -/
  | restart (handling : Option (ℤ × ℕ))
  /-- The timer starts a cycle. -/
  | poll
  /-- The call that is awaited returns, or fails. -/
  | returns (ok : Bool)
  /-- The next event of the batch is processed, at some time. If a number is given, the
  database fails after that many queries. -/
  | process (now : ℤ) (failure : Option ℕ)
  /-- The batch is over. -/
  | endBatch

/-- Process an event, with a database that may fail: the tables then, and whether the handler
completed. -/
def Database.process (db : Database) (now : ℤ) (failure : Option ℕ) (event : SorobanEvent) :
    Database × Bool :=
  match failure, processEvent now event with
  | none, _ => db.handle now event
  | some k, .ok calls => ((db.run (calls.take k)).1, false)
  | some _, .error _ => (db, false)

namespace Indexer

/-- The call that is awaited returns. -/
def returned (batchSize : ℕ) (s : Indexer) : Option Indexer :=
  match s.phase with
  | .load =>
    if 0 < s.db.cursor then some { s with lastLedger := s.db.cursor, phase := .idle }
    else some { s with phase := .init }
  | .init =>
    let lastLedger := s.node.latest - 100
    some { s with
      lastLedger := lastLedger
      phase := .idle
      origin := if lastLedger = 0 then s.origin else some lastLedger }
  | .fetch cursorLedger =>
    match s.node.getEvents cursorLedger batchSize with
    | [] => some { s with phase := .latest }
    | e :: events => some { s with
        phase := .batch (e :: events) (batchSize ≤ (e :: events).length) }
  | .latest => some { s with lastLedger := s.node.latest, phase := .save }
  | .save => some { s with db := { s.db with cursor := s.lastLedger }, phase := .idle }
  | _ => none

/-- The call that is awaited fails. Only a batch of events is worth giving up the cycle. -/
def failed (s : Indexer) : Option Indexer :=
  match s.phase with
  | .load => some { s with phase := .init }
  | .init => some { s with lastLedger := 0, phase := .idle }
  | .fetch _ => some { s with phase := .idle }
  | .latest => some { s with phase := .save }
  | .save => some { s with phase := .idle }
  | _ => none

/-- What the process leaves in the database when it dies. -/
def abandoned (s : Indexer) (handling : Option (ℤ × ℕ)) : Database :=
  match handling, s.phase with
  | some (now, queries), .batch (e :: _) _ => (s.db.process now (some queries) e.event).1
  | _, _ => s.db

/-- **The next state**, if the action is possible. -/
def next (batchSize : ℕ) (s : Indexer) : Action → Option Indexer
  | .close entries =>
    if ∀ e ∈ entries, e.ledger = s.node.latest + 1 then
      some { s with node := ⟨s.node.latest + 1, s.node.entries ++ entries⟩ }
    else none
  | .restart handling =>
    some { s with db := s.abandoned handling, lastLedger := 0, phase := .idle }
  | .poll =>
    match s.phase with
    | .idle =>
      some { s with phase := if s.lastLedger = 0 then .load else .fetch (s.lastLedger + 1) }
    | _ => none
  | .returns true => s.returned batchSize
  | .returns false => s.failed
  | .process now failure =>
    match s.phase with
    | .batch (e :: rest) full => some { s with
        db := (s.db.process now failure e.event).1
        lastLedger := max s.lastLedger e.ledger
        phase := .batch rest full }
    | _ => none
  | .endBatch =>
    match s.phase with
    | .batch [] full => some { s with phase := if full then .fetch s.lastLedger else .save }
    | _ => none

/-! ### What a step can do -/

/-- **The steps, one by one**: from which phase, and to which state. -/
inductive Moves (batchSize : ℕ) (s : Indexer) : Action → Indexer → Prop
  | close {entries : List LogEntry} (hnew : ∀ e ∈ entries, e.ledger = s.node.latest + 1) :
    Moves batchSize s (.close entries)
      { s with node := ⟨s.node.latest + 1, s.node.entries ++ entries⟩ }
  | restart {handling : Option (ℤ × ℕ)} :
    Moves batchSize s (.restart handling)
      { s with db := s.abandoned handling, lastLedger := 0, phase := .idle }
  | poll (hp : s.phase = .idle) :
    Moves batchSize s .poll
      { s with phase := if s.lastLedger = 0 then .load else .fetch (s.lastLedger + 1) }
  | loaded (hp : s.phase = .load) (hpos : 0 < s.db.cursor) :
    Moves batchSize s (.returns true) { s with lastLedger := s.db.cursor, phase := .idle }
  | notLoaded {ok : Bool} (hp : s.phase = .load) :
    Moves batchSize s (.returns ok) { s with phase := .init }
  | chosen (hp : s.phase = .init) :
    Moves batchSize s (.returns true) { s with
      lastLedger := s.node.latest - 100
      phase := .idle
      origin := if s.node.latest - 100 = 0 then s.origin else some (s.node.latest - 100) }
  | notChosen (hp : s.phase = .init) :
    Moves batchSize s (.returns false) { s with lastLedger := 0, phase := .idle }
  | fetched {cursorLedger : ℕ} (hp : s.phase = .fetch cursorLedger)
      (hsome : s.node.getEvents cursorLedger batchSize ≠ []) :
    Moves batchSize s (.returns true) { s with
      phase := .batch (s.node.getEvents cursorLedger batchSize)
        (batchSize ≤ (s.node.getEvents cursorLedger batchSize).length) }
  | fetchedNone {cursorLedger : ℕ} (hp : s.phase = .fetch cursorLedger)
      (hnone : s.node.getEvents cursorLedger batchSize = []) :
    Moves batchSize s (.returns true) { s with phase := .latest }
  | notFetched {cursorLedger : ℕ} (hp : s.phase = .fetch cursorLedger) :
    Moves batchSize s (.returns false) { s with phase := .idle }
  | advanced (hp : s.phase = .latest) :
    Moves batchSize s (.returns true) { s with lastLedger := s.node.latest, phase := .save }
  | notAdvanced (hp : s.phase = .latest) :
    Moves batchSize s (.returns false) { s with phase := .save }
  | saved (hp : s.phase = .save) :
    Moves batchSize s (.returns true)
      { s with db := { s.db with cursor := s.lastLedger }, phase := .idle }
  | notSaved (hp : s.phase = .save) :
    Moves batchSize s (.returns false) { s with phase := .idle }
  | process {now : ℤ} {failure : Option ℕ} {e : LogEntry} {rest : List LogEntry} {full : Bool}
      (hp : s.phase = .batch (e :: rest) full) :
    Moves batchSize s (.process now failure) { s with
      db := (s.db.process now failure e.event).1
      lastLedger := max s.lastLedger e.ledger
      phase := .batch rest full }
  | endBatch {full : Bool} (hp : s.phase = .batch [] full) :
    Moves batchSize s .endBatch
      { s with phase := if full then .fetch s.lastLedger else .save }

variable {s s' : Indexer} {batchSize : ℕ}

theorem moves_of_returned (h : s.returned batchSize = some s') :
    Moves batchSize s (.returns true) s' := by
  unfold returned at h
  split at h
  · next hp =>
    split at h
    · next hpos =>
      obtain rfl := Option.some.inj h
      exact .loaded hp hpos
    · obtain rfl := Option.some.inj h
      exact .notLoaded hp
  · next hp =>
    obtain rfl := Option.some.inj h
    exact .chosen hp
  · next cursorLedger hp =>
    split at h
    · next hnone =>
      obtain rfl := Option.some.inj h
      exact .fetchedNone hp hnone
    · next e events hsome =>
      obtain rfl := Option.some.inj h
      rw [← hsome]
      exact .fetched hp (by simp [hsome])
  · next hp =>
    obtain rfl := Option.some.inj h
    exact .advanced hp
  · next hp =>
    obtain rfl := Option.some.inj h
    exact .saved hp
  · cases h

theorem moves_of_failed (h : s.failed = some s') : Moves batchSize s (.returns false) s' := by
  unfold failed at h
  split at h
  · next hp =>
    obtain rfl := Option.some.inj h
    exact .notLoaded hp
  · next hp =>
    obtain rfl := Option.some.inj h
    exact .notChosen hp
  · next cursorLedger hp =>
    obtain rfl := Option.some.inj h
    exact .notFetched hp
  · next hp =>
    obtain rfl := Option.some.inj h
    exact .notAdvanced hp
  · next hp =>
    obtain rfl := Option.some.inj h
    exact .notSaved hp
  · cases h

/-- **Every step is one of them.** -/
theorem moves_of_next {action : Action} (h : s.next batchSize action = some s') :
    Moves batchSize s action s' := by
  unfold next at h
  split at h
  · -- a ledger closes with events of its own number
    next entries =>
    split at h
    · next hnew =>
      obtain rfl := Option.some.inj h
      exact .close hnew
    · cases h
  · obtain rfl := Option.some.inj h
    exact .restart
  · split at h
    · next hp =>
      obtain rfl := Option.some.inj h
      exact .poll hp
    · cases h
  · exact moves_of_returned h
  · exact moves_of_failed h
  · split at h
    · next e rest full hp =>
      obtain rfl := Option.some.inj h
      exact .process hp
    · cases h
  · split at h
    · next full hp =>
      obtain rfl := Option.some.inj h
      exact .endBatch hp
    · cases h

end Indexer

/-! ### Runs -/

/-- A step of the indexer: what it was, and what happened. -/
structure Tick where
  before : Indexer
  action : Action

/-- The handler of an event completes. -/
def Tick.Completes (i : Tick) (e : LogEntry) : Prop :=
  ∃ now failure rest full, i.action = .process now failure ∧
    i.before.phase = .batch (e :: rest) full ∧
      (i.before.db.process now failure e.event).2 = true

/-- The indexer before its process is first started: the events of the node are in order and
not from the future, and so is the cursor. -/
structure Indexer.Start (s : Indexer) : Prop where
  idle : s.phase = .idle
  unset : s.lastLedger = 0
  sorted : s.node.entries.Pairwise fun e e' => e.ledger ≤ e'.ledger
  bounded : ∀ e ∈ s.node.entries, e.ledger ≤ s.node.latest
  cursor_le : s.db.cursor ≤ s.node.latest
  origin : s.origin = if s.db.cursor = 0 then none else some s.db.cursor

/-- **The runs of the indexer.** -/
abbrev Polls (batchSize : ℕ) : List Tick → Indexer → Prop :=
  History Indexer.Start fun s i s' => i.before = s ∧ s.next batchSize i.action = some s'

/-! ### Queries and the cursor -/

theorem Database.cursor_apply {db db' : Database} {call : DbCall} (h : db.apply call = some db') :
    db'.cursor = db.cursor := by
  rcases apply_cases h with ⟨bid, -, -, rfl⟩ | ⟨event, -, rfl | rfl⟩ | hupdates
  · rfl
  · rfl
  · rfl
  · exact hupdates.cursor

theorem Database.cursor_run (db : Database) (calls : List DbCall) :
    (db.run calls).1.cursor = db.cursor :=
  run_induct (P := fun db' => db'.cursor = db.cursor) rfl fun _ _ _ _ hsame hcall =>
    (cursor_apply hcall).trans hsame

/-- **Processing an event does not touch the cursor.** -/
theorem Database.cursor_process (db : Database) (now : ℤ) (failure : Option ℕ)
    (event : SorobanEvent) : (db.process now failure event).1.cursor = db.cursor := by
  unfold process handle
  split
  · split
    · exact cursor_run db _
    · rfl
  · exact cursor_run db _
  · rfl

theorem Indexer.cursor_abandoned (s : Indexer) (handling : Option (ℤ × ℕ)) :
    (s.abandoned handling).cursor = s.db.cursor := by
  unfold abandoned
  split
  · exact Database.cursor_process _ _ _ _
  · rfl

end UrithiBidz

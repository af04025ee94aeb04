import UrithiBidz.Guarantees.Idempotence
import UrithiBidz.Library.Dedup

/-!
# The audit trail

The table of events is meant to have a row for everything that has happened. Its rows are unique
for their ledger, their type and their auction, so that an event that is delivered again is not
stored again, and a row that is dropped for this reason is dropped without a word.

But the three do not identify an event. Two bids on an auction in one ledger have the same key,
and so have the losers whom a single call credits when a sealed auction is finalized. So the
table has one row for each event exactly if no two of them have the same key
(`UrithiBidz.Ingested.audited`), and of two rival bids that are placed in the same ledger only
one is stored (`UrithiBidz.exists_dropped`).

What the handlers do to the table is what `Dedup.storeAll` does, with the rows they ask for.
-/

namespace UrithiBidz

/-! ### Keys and rows -/

/-- The key of a row of the table. -/
def EventRecord.key (row : EventRecord) : ℕ × String × ℤ :=
  (row.ledgerSequence, row.eventType, row.auctionId)

/-- The key of the row of an event, if the event is handled. -/
def SorobanEvent.key (event : SorobanEvent) : Option (ℕ × String × ℤ) :=
  event.subject.map fun (name, auctionId) => (event.ledger, storedAs name, auctionId)

/-- **A row is that of an event**: it is what the handler asks to store. -/
def SorobanEvent.Records (event : SorobanEvent) (row : EventRecord) : Prop :=
  ∃ now calls, processEvent now event = .ok calls ∧ .insertEvent row ∈ calls

theorem Writes.ne_insertEvent {auctionId : ℤ} {data payload : Native} {name : String}
    {writes : List DbCall} (h : Writes auctionId data name writes payload) :
    ∀ call ∈ writes, ∀ row, call ≠ .insertEvent row := by
  cases h <;> simp

/-- **The row of an event has the key of the event.** -/
theorem SorobanEvent.Records.key_eq {event : SorobanEvent} {row : EventRecord}
    (h : event.Records row) : event.key = some row.key := by
  obtain ⟨now, calls, hcalls, hmem⟩ := h
  rcases hsubject : event.subject with _ | ⟨name, auctionId⟩
  · rw [processEvent_of_subject_eq_none hsubject] at hcalls
    rw [← Except.ok.inj hcalls] at hmem
    cases hmem
  · obtain ⟨writes, payload, hwrites, hprocess⟩ := writes_of_processEvent hsubject hcalls now
    obtain rfl := Except.ok.inj (hcalls.symm.trans hprocess)
    rcases List.mem_append.mp hmem with hmem | hmem
    · exact absurd rfl (hwrites.ne_insertEvent _ hmem row)
    · obtain rfl := DbCall.insertEvent.inj (List.mem_singleton.mp hmem)
      rw [key, hsubject]
      rfl

/-- The keys of rows are those of the events. -/
theorem filterMap_key_eq {events : List SorobanEvent} {rows : List EventRecord}
    (h : List.Forall₂ SorobanEvent.Records (events.filter (·.subject.isSome)) rows) :
    events.filterMap (·.key) = rows.map (·.key) := by
  induction events generalizing rows with
  | nil =>
    rw [List.forall₂_nil_left_iff.mp h]
    rfl
  | cons event events ih =>
    by_cases hsome : event.subject.isSome
    · simp only [List.filter_cons, hsome, if_true] at h
      obtain ⟨row, rest, hrow, hrest, rfl⟩ := List.forall₂_cons_left_iff.mp h
      rw [List.filterMap_cons_some hrow.key_eq, ih hrest]
      rfl
    · simp only [List.filter_cons, hsome] at h
      have hnone : event.key = none := by
        rw [SorobanEvent.key, Option.not_isSome_iff_eq_none.mp hsome]
        rfl
      rw [List.filterMap_cons_none hnone, ih h]

/-! ### What handling does to the table -/

namespace Database

/-- Storing an event. -/
theorem events_insertEvent {db db' : Database} {row : EventRecord}
    (h : db.apply (.insertEvent row) = some db') :
    db'.events = Dedup.store (·.key) db.events row := by
  have hany : (db.events.any fun old => old.ledgerSequence = row.ledgerSequence ∧
      old.eventType = row.eventType ∧ old.auctionId = row.auctionId) = true ↔
        row.key ∈ db.events.map (·.key) := by
    simp only [List.any_eq_true, decide_eq_true_eq, List.mem_map, EventRecord.key, Prod.mk.injEq]
  rw [apply] at h
  split at h
  · split at h
    · next htaken =>
      rw [← Option.some.inj h, Dedup.store_of_mem (hany.mp htaken)]
    · next hfree =>
      rw [← Option.some.inj h, Dedup.store_of_notMem fun hmem => hfree (hany.mpr hmem)]
  · cases h

theorem events_apply {db db' : Database} {call : DbCall} (h : db.apply call = some db')
    (hcall : ∀ row, call ≠ .insertEvent row) : db'.events = db.events := by
  rcases apply_cases h with ⟨bid, -, -, rfl⟩ | ⟨event, hevent, -⟩ | hupdates
  · rfl
  · exact absurd hevent (hcall event)
  · exact hupdates.events

theorem events_run {db : Database} {calls : List DbCall}
    (hcalls : ∀ call ∈ calls, ∀ row, call ≠ .insertEvent row) :
    (db.run calls).1.events = db.events :=
  run_induct (P := fun db' => db'.events = db.events) rfl fun call hmem _ _ hsame hcall =>
    (events_apply hcall (hcalls call hmem)).trans hsame

/-- **An event that goes through asks for its row**, and one that does not changes nothing in
the table. -/
theorem events_handle (db : Database) (now : ℤ) (event : SorobanEvent) :
    (db.handle now event).2 = true ∧ event.subject.isSome ∧ (∃ row, event.Records row ∧
        (db.handle now event).1.events = Dedup.store (·.key) db.events row) ∨
      ((db.handle now event).2 = true → event.subject = none) ∧
        (db.handle now event).1.events = db.events := by
  rcases hsubject : event.subject with _ | ⟨name, auctionId⟩
  · rw [handle, processEvent_of_subject_eq_none hsubject]
    exact Or.inr ⟨fun _ => rfl, rfl⟩
  rcases hcalls : processEvent now event with message | calls
  · rw [handle, hcalls]
    exact Or.inr ⟨fun hok => absurd hok Bool.false_ne_true, rfl⟩
  obtain ⟨writes, payload, hwrites, hprocess⟩ := writes_of_processEvent hsubject hcalls now
  obtain rfl := Except.ok.inj (hcalls.symm.trans hprocess)
  have hevents : (db.run writes).1.events = db.events := events_run hwrites.ne_insertEvent
  rw [handle, hcalls]
  dsimp only
  rw [run_append]
  split
  · rcases hinsert : (db.run writes).1.apply (.insertEvent
      ⟨storedAs name, auctionId, payload, event.ledger, event.txHash⟩) with _ | db'
    · simp only [run, hinsert]
      exact Or.inr ⟨fun hok => absurd hok Bool.false_ne_true, hevents⟩
    · simp only [run, hinsert]
      refine Or.inl ⟨trivial, rfl, _, ⟨now, _, hcalls, List.mem_append_right _
        (List.mem_singleton_self _)⟩, ?_⟩
      rw [events_insertEvent hinsert, hevents]
  · next hno => exact Or.inr ⟨fun hok => absurd hok hno, hevents⟩

end Database

/-! ### Along a history -/

variable {past : List SorobanEvent} {db : Database}

/-- **The table is what the rows of the events leave in it**, stored one after the other. -/
theorem Ingested.exists_rows (h : Ingested past db) : ∃ rows,
    List.Forall₂ SorobanEvent.Records (past.filter (·.subject.isSome)) rows ∧
      db.events = Dedup.storeAll (·.key) [] rows := by
  induction h with
  | blank => exact ⟨[], .nil, rfl⟩
  | @handled past db hpast now event hok ih =>
    obtain ⟨rows, hrows, hevents⟩ := ih
    rcases db.events_handle now event with ⟨-, hsome, row, hrow, hstored⟩ | ⟨hnone, hsame⟩
    · refine ⟨rows ++ [row], ?_, by rw [hstored, hevents, Dedup.storeAll_snoc]⟩
      simp only [List.filter_append, List.filter_cons, hsome, if_true, List.filter_nil]
      exact List.rel_append hrows (.cons hrow .nil)
    · refine ⟨rows, ?_, hsame.trans hevents⟩
      simpa [List.filter_append, hnone hok] using hrows
  | @refused past db hpast now event hno ih =>
    obtain ⟨rows, hrows, hevents⟩ := ih
    rcases db.events_handle now event with ⟨hok, -⟩ | ⟨-, hsame⟩
    · exact absurd (hno.symm.trans hok) Bool.false_ne_true
    · exact ⟨rows, hrows, hsame.trans hevents⟩

/-- **Every event has its row exactly if no two have the same key.** The events of a history are
different events of the chain, even where they are alike; those that no handler waits for are
not counted. Already the number of rows tells. -/
theorem Ingested.audited (h : Ingested past db) :
    (List.Forall₂ SorobanEvent.Records (past.filter (·.subject.isSome)) db.events ↔
      (past.filterMap (·.key)).Nodup) ∧
    (db.events.length = (past.filter (·.subject.isSome)).length ↔
      (past.filterMap (·.key)).Nodup) := by
  obtain ⟨rows, hrows, hevents⟩ := h.exists_rows
  have hkeys := filterMap_key_eq hrows
  constructor
  · constructor
    · intro hall
      rw [filterMap_key_eq hall, hevents]
      exact Dedup.nodup_storeAll List.nodup_nil
    · intro hnodup
      rw [hkeys] at hnodup
      rw [hevents, Dedup.storeAll_eq_iff.mpr hnodup]
      exact hrows
  · rw [hevents, hrows.length_eq, hkeys]
    exact Dedup.length_storeAll_eq_iff

/-- The theorem at an auction that is created, bid on and cancelled. -/
theorem audited_withdrawal : ∃ db : Database,
    Ingested [Stage.creation, Stage.placement, Stage.withdrawal] db ∧ db.events.length = 3 := by
  have hreplay : (Database.blank.handleAll [Stage.creation, Stage.placement,
      Stage.withdrawal]).isSome := by decide +kernel
  obtain ⟨db, hall⟩ := Option.isSome_iff_exists.mp hreplay
  have hpast := Ingested.blank.of_handleAll hall
  exact ⟨db, hpast, hpast.audited.2.mpr (by decide +kernel)⟩

/-- Two bids on the auction, in different transactions of one ledger. -/
def Stage.rivals : List SorobanEvent :=
  [{ notice 501 "bid_placed" [("bidder", .string "GB"), ("amount", .string "100")] with
      txHash := some "a1" },
    { notice 501 "bid_placed" [("bidder", .string "GC"), ("amount", .string "110")] with
      txHash := some "b2" }]

/-- **Of two bids in one ledger, one is not stored.** -/
theorem exists_dropped : ¬∀ (past : List SorobanEvent) (db : Database), Ingested past db →
    db.events.length = (past.filter (·.subject.isSome)).length := by
  intro hclaim
  have hreplay : (Database.blank.handleAll (Stage.creation :: Stage.rivals)).map
      (·.events.length) = some 2 := by decide +kernel
  obtain ⟨db, hall, hlength⟩ := Option.map_eq_some_iff.mp hreplay
  have hcount := hclaim _ db (Ingested.blank.of_handleAll hall)
  rw [hlength] at hcount
  exact absurd hcount (by decide +kernel)

end UrithiBidz

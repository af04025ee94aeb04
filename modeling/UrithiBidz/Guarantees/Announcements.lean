import UrithiBidz.Guarantees.Delivery
import UrithiBidz.Guarantees.Mirror

/-!
# Announcements

The callback that pushes an event to the clients is not waited for, so what it throws is caught by
nobody and ends the process. It reads the payload after the handler has, and whatever a handler has
read a field of has fields (`UrithiBidz.Writes.exists_field`). So with payloads whose fields can be
spelled and written as JSON nothing is thrown, in any run (`UrithiBidz.LiveRun.steady`).

The types of events that the callback knows are those that the handlers know, though, and not those
that the contract publishes. Of all that happens on the chain nothing is pushed to anybody
(`UrithiBidz.Run.unannounced`).
-/

namespace UrithiBidz

variable {eventType data : Native} {id : ℤ} {b : Broadcast}

/-! ### What is not thrown -/

/-- **The payload is plain**: every field that can be read of it can be spelled and can be written
as JSON. Of nothing no field can be read. -/
structure Native.Plain (data : Native) : Prop where
  stringable : ∀ name x, data.field name = .ok x → x.stringable = true
  jsonable : ∀ name x, data.field name = .ok x → x.jsonable = true

theorem Native.plain_object {fields : List (String × Native)}
    (h : ∀ p ∈ fields, p.2.stringable = true ∧ p.2.jsonable = true) : (object fields).Plain := by
  have hall : ∀ name x, (object fields).field name = .ok x →
      x.stringable = true ∧ x.jsonable = true := by
    intro name x hx
    rw [← Except.ok.inj hx]
    rcases hlookup : fields.lookup name with _ | y
    · exact ⟨rfl, rfl⟩
    · obtain ⟨before, later, heq, -⟩ := List.lookup_eq_some_iff.mp hlookup
      exact h (name, y) (by simp [heq])
  exact ⟨fun name x hx => (hall name x hx).1, fun name x hx => (hall name x hx).2⟩

theorem Native.exists_fields {name : String} {x : Native} (h : data.field name = .ok x) :
    ∃ get : String → Native, ∀ name, data.field name = .ok (get name) := by
  cases data with
  | undefined => cases h
  | null => cases h
  | object fields => exact ⟨fun name => (fields.lookup name).getD .undefined, fun _ => rfl⟩
  | _ => exact ⟨fun _ => .undefined, fun _ => rfl⟩

theorem emit_of_jsonable (h : b.payload.jsonable = true) : b.emit = ⟨[b], none⟩ := if_pos h

theorem jsonable_toAuction {event : String} {fields : List (String × Native)}
    (h : Native.jsonableFields fields = true) :
    (toAuction id event fields).payload.jsonable = true := by
  simpa [toAuction, Native.jsonable, Native.jsonableFields] using h

theorem exists_spellOr {get : String → Native} (hget : ∀ name, data.field name = .ok (get name))
    (h : data.Plain) (name default : String) : ∃ text, spellOr data name default = .ok text := by
  have hspelled : ((get name).orElse (.string default)).stringable = true := by
    unfold Native.orElse
    split
    · exact h.stringable name _ (hget name)
    · rfl
  refine ⟨((get name).orElse (.string default)).text, ?_⟩
  simp only [spellOr, fieldOr, hget, Except.bind_eq_ok_iff, Except.pure_eq_ok_iff,
    unwrapOr_eq_ok_iff]
  exact ⟨_, ⟨_, rfl, rfl⟩, if_pos hspelled⟩

/-- **Of a plain payload everything is announced**, if anything of it can be read. -/
theorem threw_of_plain {name : String} {x : Native} (hread : data.field name = .ok x)
    (h : data.Plain) : (onEvent eventType id data).threw = none := by
  obtain ⟨get, hget⟩ := Native.exists_fields hread
  have hjson : ∀ name, (get name).jsonable = true := fun name => h.jsonable name _ (hget name)
  have hspell : ∀ name, ∃ text, spellOr data name "0" = .ok text :=
    fun name => exists_spellOr hget h name "0"
  choose spell hspell using hspell
  -- every branch reads fields that are there, and sends what can be written
  suffices hall : ∃ a, announce eventType id data = .ok a ∧ a.threw = none by
    obtain ⟨a, ha, hthrew⟩ := hall
    rw [onEvent, ha]
    exact hthrew
  unfold announce
  split <;> (try simp only [hget, hspell])
  · refine ⟨_, rfl, ?_⟩
    rw [broadcastAuctionCreated, emit_of_jsonable]
    simp [Native.jsonable, Native.jsonableFields, hjson]
  · refine ⟨_, rfl, ?_⟩
    rw [broadcastNewBid, emit_of_jsonable (jsonable_toAuction _)]
    simp [Native.jsonable, Native.jsonableFields, hjson]
  · refine ⟨_, rfl, ?_⟩
    -- the room of a bidder is named by a template, which needs a field that has a text
    have htemplate : (get "bidder").template = some (get "bidder").text :=
      if_pos (h.stringable "bidder" _ (hget _))
    rw [broadcastBidRefunded, htemplate, emit_of_jsonable (jsonable_toAuction _)]
    · dsimp only
      rw [emit_of_jsonable]
      · rfl
      · simp [Native.jsonable, Native.jsonableFields]
    · simp [Native.jsonable, Native.jsonableFields, hjson]
  · refine ⟨_, rfl, ?_⟩
    rw [broadcastAuctionClosed, emit_of_jsonable (jsonable_toAuction _)]
    simp [Native.jsonable, Native.jsonableFields, hjson]
  · refine ⟨_, rfl, ?_⟩
    rw [broadcastAuctionSettled, emit_of_jsonable (jsonable_toAuction _)]
    simp [Native.jsonable, Native.jsonableFields]
  · refine ⟨_, rfl, ?_⟩
    rw [broadcastAuctionCancelled, emit_of_jsonable (jsonable_toAuction _)]
    simp [Native.jsonableFields]
  · refine ⟨_, rfl, ?_⟩
    rw [broadcastAttestationRecorded, emit_of_jsonable (jsonable_toAuction _)]
    simp [Native.jsonableFields, hjson]
  · exact ⟨_, rfl, rfl⟩

/-- The types of events whose payload is read by the callback. -/
def readTypes : List String :=
  ["auction_created", "bid_placed", "bid_refunded", "auction_closed", "auction_settled",
    "attestation_recorded"]

/-- An event of another type is announced as it is, or not at all. -/
theorem threw_of_unread (h : ∀ name ∈ readTypes, eventType ≠ .string name) :
    (onEvent eventType id data).threw = none := by
  suffices hall : ∃ a, announce eventType id data = .ok a ∧ a.threw = none by
    obtain ⟨a, ha, hthrew⟩ := hall
    rw [onEvent, ha]
    exact hthrew
  unfold announce
  split
  case h_6 =>
    refine ⟨_, rfl, ?_⟩
    rw [broadcastAuctionCancelled, emit_of_jsonable (jsonable_toAuction _)]
    simp [Native.jsonableFields]
  case h_8 => exact ⟨_, rfl, rfl⟩
  all_goals exact absurd rfl (h _ (by decide))

/-- **Whatever a handler has read a field of has fields.** -/
theorem Writes.exists_field {name : String} {writes : List DbCall} {payload : Native}
    (h : Writes id data name writes payload) (hname : name ∈ readTypes) :
    ∃ field x, data.field field = .ok x := by
  have hfield : ∀ {field : String} {default x : Native}, fieldOr data field default = .ok x →
      ∃ field x, data.field field = .ok x := fun hx =>
    let ⟨v, hv, _⟩ := Except.bind_eq_ok_iff.mp hx
    ⟨_, v, hv⟩
  have htext : ∀ {field default x : String}, textOr data field default = .ok x →
      ∃ field x, data.field field = .ok x := fun hx =>
    let ⟨_, hv, _⟩ := Except.bind_eq_ok_iff.mp hx
    hfield hv
  have htext? : ∀ {field : String} {x : Option String}, textOf? data field = .ok x →
      ∃ field x, data.field field = .ok x := fun hx =>
    let ⟨v, hv, _⟩ := Except.bind_eq_ok_iff.mp hx
    ⟨_, v, hv⟩
  cases h with
  | created _ hprice => exact htext hprice
  | placed _ hbidder => exact hfield hbidder
  | refunded hbidder => exact hfield hbidder
  | closed hwinner => exact htext? hwinner
  | settled hproceeds => exact htext? hproceeds
  | attested hhash => exact hfield hhash
  | outbid => exact absurd hname (by decide)
  | cancelled => exact absurd hname (by decide)
  | extended => exact absurd hname (by decide)

/-- **An event that a handler has processed is announced**, if its payload is plain. -/
theorem threw_of_processEvent {event : SorobanEvent} {now : ℤ} {calls : List DbCall}
    (h : processEvent now event = .ok calls) (hplain : event.data.Plain) :
    event.announced.threw = none := by
  unfold SorobanEvent.announced
  split
  · next eventType second rest htopics =>
    split
    · next id hid =>
      by_cases hread : ∃ name ∈ readTypes, eventType = .string name
      · obtain ⟨name, hname, rfl⟩ := hread
        have hhandled : readTypes ⊆ handledNames := by decide
        have hsubject : event.subject = some (name, id) := by
          have hmem : (Native.string name).text ∈ handledNames := hhandled hname
          simp only [SorobanEvent.subject, htopics]
          rw [if_pos hmem, hid]
          rfl
        obtain ⟨writes, payload, hwrites, -⟩ := writes_of_processEvent hsubject h now
        obtain ⟨field, x, hx⟩ := hwrites.exists_field hname
        exact threw_of_plain hx hplain
      · exact threw_of_unread fun name hname heq => hread ⟨name, hname, heq⟩
    · rfl
  · rfl

/-! ### Along a run -/

variable {Socket : Type} [DecidableEq Socket] {verify : Native → String → Native → Bool}
  {tr : List (LiveTick Socket)} {s : LiveServer Socket}

theorem Database.processEvent_of_process {db : Database} {now : ℤ} {failure : Option ℕ}
    {event : SorobanEvent} (h : (db.process now failure event).2 = true) :
    ∃ calls, processEvent now event = .ok calls := by
  unfold process at h
  split at h
  · unfold handle at h
    split at h
    · next calls hcalls => exact ⟨calls, hcalls⟩
    · exact absurd h Bool.false_ne_true
  · exact absurd h Bool.false_ne_true
  · exact absurd h Bool.false_ne_true

/-- **Nothing is thrown**, in every run whose payloads are plain: no event of the ledger brings the
process down. -/
theorem LiveRun.steady (h : LiveRun verify tr s)
    (hplain : ∀ i ∈ tr, ∀ event failure, i.event = .indexed event failure → event.data.Plain) :
    ∀ i ∈ tr, i.announcement.threw = none := by
  intro i hi
  obtain ⟨past, t, t', -, ⟨rfl, -, hnext⟩, -⟩ := h.of_mem hi
  rw [LiveServer.announcement_of_next hnext]
  rcases hevent : i.event with event | ⟨event, failure⟩
  · rfl
  · rw [LiveServer.announces]
    split
    · next hcompleted =>
      obtain ⟨calls, hcalls⟩ := Database.processEvent_of_process hcompleted
      exact threw_of_processEvent hcalls (hplain i hi event failure hevent)
    · rfl

/-- The theorem at a refund. -/
theorem steady_refunding : ∃ (tr : List (LiveTick ℕ)) (s : LiveServer ℕ),
    LiveRun Stage.legible tr s ∧ Stage.reached tr = some [(false, true), (true, false)] ∧
      ∀ i ∈ tr, i.announcement.threw = none := by
  obtain ⟨tr, s, hrun, hscript, hreached⟩ := Stage.exists_refunding
  refine ⟨tr, s, hrun, hreached, hrun.steady fun i hi event failure hevent => ?_⟩
  have hmem : (i.now, i.event) ∈ Stage.refunding := by
    rw [← hscript]
    exact List.mem_map.mpr ⟨i, hi, rfl⟩
  rw [hevent] at hmem
  obtain rfl : event = Stage.refundOfGA := by
    simp [Stage.refunding, Stage.joining] at hmem
    exact hmem.2.1
  exact Native.plain_object (by simp [Native.stringable, Native.jsonable])

/-! ### What the contract publishes -/

/-- **No name of the contract is known to the callback.** -/
theorem announce_of_eventNames {name : String} (h : name ∈ eventNames) :
    announce (.string name) id data = .ok .silent := by
  simp only [eventNames, List.mem_cons, List.not_mem_nil, or_false] at h
  rcases h with rfl | rfl | rfl | rfl | rfl | rfl | rfl | rfl | rfl | rfl | rfl | rfl | rfl <;> rfl

variable {Address : Type}

theorem Event.Named.announced_deliver {e : Event Address} (h : e.Named) (text : Address → String)
    (ledger : ℕ) (txHash : Option String) : (deliver text ledger txHash e).announced = .silent := by
  obtain ⟨name, hname, topics, htopics⟩ := h
  unfold SorobanEvent.announced
  simp only [deliver, htopics, List.map_cons]
  split
  · next eventType second rest hcons =>
    split
    · rw [← (List.cons.inj hcons).1, scValToNative, onEvent, announce_of_eventNames hname]
    · rfl
  · rfl

variable [DecidableEq Address] {H : Host Address} {calls : List (Invocation Address)} {w : World H}

/-- **Nobody is told of anything.** In every run of the contract, however its events reach the
indexer, and whatever the clients do in between, nothing is pushed to any of them. -/
theorem Run.unannounced (h : Run H calls w) (text : Address → String) (hlive : LiveRun verify tr s)
    (hmail : ∀ i ∈ tr, ∀ event failure, i.event = .indexed event failure →
      ∃ e ∈ calls.flatMap (·.outcome.events), ∃ ledger txHash,
        event = deliver text ledger txHash e) :
    ∀ i ∈ tr, i.announcement = .silent := by
  intro i hi
  obtain ⟨past, t, t', -, ⟨rfl, -, hnext⟩, -⟩ := hlive.of_mem hi
  rw [LiveServer.announcement_of_next hnext]
  rcases hevent : i.event with event | ⟨event, failure⟩
  · rfl
  · obtain ⟨e, he, ledger, txHash, rfl⟩ := hmail i hi event failure hevent
    rw [LiveServer.announces, (h.named e he).announced_deliver]
    exact ite_self _

/-- An event reaches a server without clients. -/
def Stage.overheard (event : SorobanEvent) : LiveTick ℕ :=
  let s : LiveServer ℕ := ⟨.initial 0, .blank⟩
  ⟨s, 0, .indexed event none, [], s.announces 0 (.indexed event none)⟩

/-- The theorem at the first event of a first bid. -/
theorem unannounced_firstBid : ∃ (calls : List (Invocation ℕ)) (w : World Stage.host)
    (e : Event ℕ), Run Stage.host calls w ∧ e ∈ calls.flatMap (·.outcome.events) ∧
      (Stage.overheard (deliver toString 100 none e)).announcement = .silent := by
  have hreplay : (replay Stage.start Stage.firstBid).map (fun r =>
      (r.1.flatMap (·.outcome.events)).length) = some 3 := by decide +kernel
  obtain ⟨calls, w, hrun, hlength⟩ := exists_run_of_replay Stage.world_refl rfl hreplay
  obtain ⟨e, he⟩ : ∃ e, e ∈ calls.flatMap (·.outcome.events) :=
    List.exists_mem_of_length_pos (by rw [hlength]; decide)
  have hlive : LiveRun Stage.legible ([] ++ [Stage.overheard (deliver toString 100 none e)]) _ :=
    .snoc (.start ⟨0, rfl⟩) ⟨rfl, le_refl _, rfl⟩
  refine ⟨calls, w, e, hrun, he,
    hrun.unannounced toString hlive (fun i hi event failure hevent => ?_) _ (by simp)⟩
  rw [List.nil_append, List.mem_singleton] at hi
  rw [hi] at hevent
  cases hevent
  exact ⟨e, he, 100, none, rfl⟩

end UrithiBidz

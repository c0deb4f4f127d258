import ElasticBatch.Proofs.Batch.Counters

/-! The books of a batch are in order: its counters, the lines that it logs and the history of its
run tell the same. Lines are told apart by their level and the words that they begin with. -/
namespace ElasticBatch

namespace Log

/-- The line is of the level, and its text begins with the words. -/
def opens (level : Level) (words : String) (l : Log) : Bool :=
  if l.level = level then words.toList.isPrefixOf l.text.toList else false

/-- The words that all lines of its kind begin with. -/
def opening : Log → String
  | .allocated .. => "Allocated memory block: requested="
  | .limitShrunk .. => "The batch size limit has shrunk from "
  | .limitExpanded .. => "The batch size limit has expanded from "
  | .limitAdjusted .. => "Max batch size adjusted from "
  | .rejected _ => "Rejecting event "
  | .duplicate _ => "Event with commit id "
  | .encodingFailed .. => "Encoding "
  | .notGivenBack _ => "Failed to give back reference of event "
  | .notEncoded .. => "Failed to encode event "
  | .lost _ => "Event "
  | .acknowledged _ => "Batch of "
  | .notReleased _ => "Failed to release reference of event "
  | .closed _ => "Batch accumulator closed, released "

theorem toList_text (l : Log) : ∃ rest, l.text.toList = l.opening.toList ++ rest := by
  have begins : ∃ rest, l.text = l.opening ++ rest := by
    cases l <;> delta text <;> dsimp only <;> simp only [String.append_assoc] <;> exact ⟨_, rfl⟩
  obtain ⟨rest, text⟩ := begins
  exact ⟨rest.toList, by rw [text, String.toList_append]⟩

/-! No other line begins with these words. -/

theorem opens_rejecting (l : Log) :
    l.opens .warn "Rejecting event " = (l matches .rejected _) := by
  obtain ⟨rest, text⟩ := l.toList_text
  cases l <;> simp [opens, level, text, opening, List.isPrefixOf]

theorem opens_notEncoded (l : Log) :
    l.opens .warn "Failed to encode event " = (l matches .notEncoded ..) := by
  obtain ⟨rest, text⟩ := l.toList_text
  cases l <;> simp [opens, level, text, opening, List.isPrefixOf]

theorem opens_duplicate (l : Log) :
    l.opens .debug "Event with commit id " = (l matches .duplicate _) := by
  obtain ⟨rest, text⟩ := l.toList_text
  cases l <;> simp [opens, level, text, opening, List.isPrefixOf]

theorem opens_encoding (l : Log) :
    l.opens .debug "Encoding " = (l matches .encodingFailed ..) := by
  obtain ⟨rest, text⟩ := l.toList_text
  cases l <;> simp [opens, level, text, opening, List.isPrefixOf]

theorem opens_acknowledged (l : Log) :
    l.opens .debug "Batch of " = (l matches .acknowledged _) := by
  obtain ⟨rest, text⟩ := l.toList_text
  cases l <;> simp [opens, level, text, opening, List.isPrefixOf]

theorem opens_closed (l : Log) :
    l.opens .info "Batch accumulator closed, released " = (l matches .closed _) := by
  obtain ⟨rest, text⟩ := l.toList_text
  cases l <;> simp [opens, level, text, opening, List.isPrefixOf]

theorem opens_limit (l : Log) :
    l.opens .info "The batch size limit has " =
      (l matches .limitShrunk .. | .limitExpanded ..) := by
  obtain ⟨rest, text⟩ := l.toList_text
  cases l <;> simp [opens, level, text, opening, List.isPrefixOf]

end Log

namespace Occurrence

/-- The references that a close could not give back are of no account here. -/
theorem filter_releases {select : Log → Bool}
    (passes : ∀ report, select (.notReleased report) = false) (answers : Nat → Bool) (place : Nat)
    (events : List Event) :
    (logsOf (Batch.releases answers place events)).filter select = [] := by
  induction events generalizing place with
  | nil => rfl
  | cons event rest ih =>
      rw [Batch.releases, logsOf_append, logsOf_append, List.filter_append, List.filter_append, ih]
      cases answers place with
      | true => rfl
      | false => simp [logsOf, Effect.log?, passes]

section
variable {β : Type} {see : Occurrence → List β} {select : Log → Bool}

/-- The lines of one kind are those of the occurrences that have one. -/
theorem filter_logs {line : β → List Log}
    (logged : ∀ x, (logs x).filter select = (see x).flatMap line)
    (xs : List Occurrence) : (xs.flatMap logs).filter select = (xs.flatMap see).flatMap line := by
  rw [List.filter_flatMap, List.flatMap_assoc]
  exact congrArg (xs.flatMap ·) (funext logged)

theorem filter_logs_map {line : β → Log}
    (logged : ∀ x, (logs x).filter select = (see x).flatMap fun y => [line y])
    (xs : List Occurrence) : (xs.flatMap logs).filter select = (xs.flatMap see).map line := by
  rw [filter_logs logged, List.map_eq_flatMap]

end

/-- What is seen of one occurrence in its lines, kind by kind. -/
structure Logged (x : Occurrence) : Prop where
  lost : (logs x).filter (·.level = .error) = (losses x).flatMap fun o => [.lost o.event.report]
  notEncoded : (logs x).filter (·.opens .warn "Failed to encode event ") =
    (failures x).flatMap fun (o, cause) => [.notEncoded o.event.report cause]
  duplicate : (logs x).filter (·.opens .debug "Event with commit id ") =
    (repeats x).flatMap fun o => [.duplicate o.event.commitId]
  rejected : (logs x).filter (·.opens .warn "Rejecting event ") =
    (rejects x).flatMap fun o => [.rejected o.event.report]
  acknowledged : (logs x).filter (·.opens .debug "Batch of ") =
    (batches x).flatMap fun entries => [.acknowledged entries.length]
  closed : (logs x).filter (·.opens .info "Batch accumulator closed, released ") =
    (closings x).flatMap fun entries => [.closed entries.length]
  encoding : (logs x).filter (·.opens .debug "Encoding ") =
    (failures x).flatMap fun (o, cause) =>
      o.payload.toOption.toList.map fun p => .encodingFailed p.category o.event.commitId cause

theorem logged (x : Occurrence) : Logged x := by
  cases x with
  | failed o cause =>
      obtain ⟨event, retained, payload, released⟩ := o
      cases payload <;> cases released <;> constructor <;>
        simp [logs, losses, failures, repeats, rejects, batches, closings, Log.level,
          Except.toOption, Log.opens_notEncoded, Log.opens_duplicate, Log.opens_rejecting,
          Log.opens_acknowledged, Log.opens_closed, Log.opens_encoding]
  | _ =>
      constructor <;>
        simp [logs, losses, failures, repeats, rejects, batches, closings, Log.level,
          filter_releases, Log.opens_notEncoded, Log.opens_duplicate, Log.opens_rejecting,
          Log.opens_acknowledged, Log.opens_closed, Log.opens_encoding]

end Occurrence

namespace Batch

/-- The lines found are those that the history asks for, and as many as were counted. -/
def Matched (found expected : List Log) (counted : Word) : Prop :=
  found = expected ∧ found.length = counted.toNat

theorem Matched.of_logged {β : Type} {see : Occurrence → List β} {select : Log → Bool}
    {line : β → Log} (logged : ∀ x, x.logs.filter select = (see x).flatMap fun y => [line y])
    {happened : List Occurrence} {counted : Word}
    (count : counted.toNat = (happened.flatMap see).length) :
    Matched ((happened.flatMap Occurrence.logs).filter select)
      ((happened.flatMap see).map line) counted := by
  have found := Occurrence.filter_logs_map logged happened
  exact ⟨found, by rw [found, List.length_map, count]⟩

/-- Each counter has counted the occurrences of its kind. -/
structure Tallied (s : Stats) (happened : List Occurrence) : Prop where
  accepted : s.accepted.toNat = (happened.flatMap Occurrence.admissions).length
  duplicates : s.duplicates.toNat = (happened.flatMap Occurrence.repeats).length
  retainFailures : s.retainFailures.toNat = (happened.flatMap Occurrence.losses).length
  encodingFailures : s.encodingFailures.toNat = (happened.flatMap Occurrence.failures).length
  batchesSent : s.batchesSent.toNat = (happened.flatMap Occurrence.batches).length
  released : s.released.toNat = (happened.flatMap Occurrence.closings).flatten.length
  bytes (category : Category) :
    (s.bytes category).toNat = (happened.flatMap (Occurrence.appended category)).length

/-- No count of a history reaches the size of a word. -/
structure Small (happened : List Occurrence) : Prop where
  admissions : (happened.flatMap Occurrence.admissions).length < UInt64.size
  repeats : (happened.flatMap Occurrence.repeats).length < UInt64.size
  losses : (happened.flatMap Occurrence.losses).length < UInt64.size
  failures : (happened.flatMap Occurrence.failures).length < UInt64.size
  batches : (happened.flatMap Occurrence.batches).length < UInt64.size
  appended (category : Category) :
    (happened.flatMap (Occurrence.appended category)).length < UInt64.size

/-- Then nothing wraps around. -/
theorem Small.tallied {happened : List Occurrence} (small : Small happened)
    (left : (happened.flatMap Occurrence.closings).flatten.length ≤
      (happened.flatMap Occurrence.admissions).length) :
    Tallied (happened.foldl Occurrence.count {}) happened := by
  have once : (happened.flatMap Occurrence.closings).flatten =
      happened.flatMap fun x => x.closings.flatten := by
    simp only [List.flatten_eq_flatMap, List.flatMap_assoc]
  refine ⟨?_, ?_, ?_, ?_, ?_, ?_, fun category => ?_⟩
  · exact Occurrence.toNat_counter Stats.accepted Occurrence.accepted_count rfl small.admissions
  · exact Occurrence.toNat_counter Stats.duplicates Occurrence.duplicates_count rfl small.repeats
  · exact Occurrence.toNat_counter Stats.retainFailures Occurrence.retainFailures_count rfl
      small.losses
  · exact Occurrence.toNat_counter Stats.encodingFailures Occurrence.encodingFailures_count rfl
      small.failures
  · exact Occurrence.toNat_counter Stats.batchesSent Occurrence.batchesSent_count rfl small.batches
  · rw [once] at left ⊢
    exact Occurrence.toNat_counter Stats.released Occurrence.released_count rfl
      (Nat.lt_of_le_of_lt left small.admissions)
  · exact Occurrence.toNat_counter (Stats.bytes · category)
      (fun s x => Occurrence.bytes_count s x category) (by cases category <;> rfl)
      (small.appended category)

/-- Every accepted event has been sent or released, or it is still there. -/
theorem length_admissions (config : Config) (calls : List (Moment × Op)) :
    ((Manifest.history {} calls).flatMap Occurrence.admissions).length =
      ((ofConfig config).run calls).1.retained.length +
          ((Manifest.history {} calls).flatMap Occurrence.batches).flatten.length +
        ((Manifest.history {} calls).flatMap Occurrence.closings).flatten.length := by
  have last := (holds_after config calls).retained
  have conserved := congrArg List.length (Manifest.entries_foldl {} (fun _ => rfl) calls)
  rw [List.nil_append, List.length_append, Occurrence.length_departures] at conserved
  rw [conserved, last, List.length_map, Manifest.after]
  omega

theorem tallied (config : Config) {calls : List (Moment × Op)}
    (small : Small (Manifest.history {} calls)) :
    Tallied ((ofConfig config).run calls).1.stats (Manifest.history {} calls) := by
  have conserved := length_admissions config calls
  rw [(holds_ofConfig config).stats_run calls]
  exact small.tallied (by omega)

/-- Counters, log and history of a run agree. Each offer before the close is in one of four
counters, and each accepted event was sent or released or is still there. The bytes counted are
those of all buffers that were ever appended. Each failure, each duplicate and each batch sent has
its line, each offer after the close has one too, and the close has one, which tells how many events
were released. A payload that was there but could not be encoded has a line more. -/
theorem accounts_agree (config : Config) (calls : List (Moment × Op))
    (small : Small (Manifest.history {} calls)) :
    let b := ((ofConfig config).run calls).1
    let s := b.stats
    let lines := logsOf ((ofConfig config).run calls).2
    let happened := Manifest.history {} calls
    let sent := happened.flatMap Occurrence.batches
    s.accepted.toNat + s.duplicates.toNat + s.retainFailures.toNat + s.encodingFailures.toNat =
        (offersOf (beforeClose calls)).length ∧
      s.accepted.toNat = b.retained.length + sent.flatten.length + s.released.toNat ∧
      (∀ category, (s.bytes category).toNat =
        (happened.flatMap (Occurrence.appended category)).length) ∧
      s.batchesSent.toNat = calls.countP (·.2.resets) ∧
      Matched (lines.filter (·.level = .error))
        ((happened.flatMap Occurrence.losses).map fun o => .lost o.event.report)
        s.retainFailures ∧
      Matched (lines.filter (·.opens .warn "Failed to encode event "))
        ((happened.flatMap Occurrence.failures).map fun (o, cause) =>
          .notEncoded o.event.report cause)
        s.encodingFailures ∧
      Matched (lines.filter (·.opens .debug "Event with commit id "))
        ((happened.flatMap Occurrence.repeats).map fun o => .duplicate o.event.commitId)
        s.duplicates ∧
      lines.filter (·.opens .warn "Rejecting event ") =
        (offersOf (sinceClose calls)).map (fun o => .rejected o.event.report) ∧
      Matched (lines.filter (·.opens .debug "Batch of "))
        (sent.map fun entries => .acknowledged entries.length) s.batchesSent ∧
      lines.filter (·.opens .info "Batch accumulator closed, released ") =
        (if b.closed then [.closed s.released.toNat] else []) ∧
      lines.filter (·.opens .debug "Encoding ") =
        (happened.flatMap Occurrence.failures).flatMap fun (o, cause) =>
          o.payload.toOption.toList.map fun p =>
            .encodingFailed p.category o.event.commitId cause := by
  intro b s lines happened sent
  have t : Tallied s happened := tallied config small
  have logged : lines = happened.flatMap Occurrence.logs :=
    (holds_ofConfig config).logsOf_run calls
  have kinds := Occurrence.logged
  refine ⟨?_, ?_, t.bytes, ?_, ?_, ?_, ?_, ?_, ?_, ?_, ?_⟩
  · rw [t.accepted, t.duplicates, t.retainFailures, t.encodingFailures,
      ← Occurrence.countP_isServed]
    exact Manifest.countP_isServed_history rfl calls
  · rw [t.accepted, t.released]
    exact length_admissions config calls
  · rw [t.batchesSent]
    exact Manifest.length_batches {} calls
  · rw [logged]
    exact .of_logged (fun x => (kinds x).lost) t.retainFailures
  · rw [logged]
    exact .of_logged (fun x => (kinds x).notEncoded) t.encodingFailures
  · rw [logged]
    exact .of_logged (fun x => (kinds x).duplicate) t.duplicates
  · rw [logged, Occurrence.filter_logs_map (fun x => (kinds x).rejected),
      Manifest.rejects_history rfl]
  · rw [logged]
    exact .of_logged (fun x => (kinds x).acknowledged) t.batchesSent
  · rw [logged, Occurrence.filter_logs_map (fun x => (kinds x).closed), t.released]
    have same : b.closed = (calls.foldl Manifest.record {}).closed :=
      (holds_after config calls).closed
    rcases Manifest.closings_history (a := {}) rfl calls with ⟨running, none⟩ | ⟨shut, entries, one⟩
    · rw [none, same, running]
      rfl
    · rw [one, same, shut, List.flatten_singleton]
      rfl
  · rw [logged]
    exact Occurrence.filter_logs (fun x => (kinds x).encoding) happened

/-- An offer of every kind, with a reset between them and one more after the close. -/
def eventful : List (Moment × Op) :=
  let first : Event := ⟨1, 10, "first", fun _ => false⟩
  let second : Event := ⟨2, 20, "second", fun _ => false⟩
  [(⟨9, 0⟩, .offer { event := first, payload := .ok (.binary [1, 2]) }),
    (⟨9, 0⟩, .offer { event := first, payload := .ok (.binary [1, 2]) }),
    (⟨9, 1⟩, .offer { event := second, retained := false, payload := .ok (.binary [3]) }),
    (⟨9, 2⟩, .offer
      { event := second, payload := .ok (.tablet (.raw [4] (some (.io "disk full"))) true) }),
    (⟨9, 3⟩, .reset),
    (⟨9, 4⟩, .offer { event := first, payload := .ok (.tablet (.raw [5] none) true) }),
    (⟨9, 5⟩, .close fun _ => true),
    (⟨0, 6⟩, .offer { event := second, payload := .ok (.binary [3]) })]

theorem accounts_of_eventful :
    let b := ((ofConfig ⟨1, 9⟩).run eventful).1
    let lines := logsOf ((ofConfig ⟨1, 9⟩).run eventful).2
    Small (Manifest.history {} eventful) ∧
      b.stats.accepted.toNat + b.stats.duplicates.toNat + b.stats.retainFailures.toNat +
        b.stats.encodingFailures.toNat = 5 ∧
      b.stats.accepted.toNat = 0 + 1 + b.stats.released.toNat ∧
      (∀ category, (b.stats.bytes category).toNat = if category = .insertNode then 0 else 2) ∧
      lines.filter (·.opens .debug "Encoding ") =
        [.encodingFailed .tablet 20 (.io "disk full")] := by
  intro b lines
  have small : Small (Manifest.history {} eventful) := by
    refine ⟨by decide, by decide, by decide, by decide, by decide, fun category => ?_⟩
    cases category <;> decide
  obtain ⟨counted, conserved, bytes, -, -, -, -, -, -, -, encoding⟩ :=
    accounts_agree ⟨1, 9⟩ eventful small
  refine ⟨small, counted, conserved, fun category => (bytes category).trans ?_, encoding⟩
  cases category <;> rfl

end Batch
end ElasticBatch

import ElasticBatch.Proofs.Batch.Verdict

/-! What the error of an offer tells. A closed batch says that it is closed; an open one hands on
the error of the event, unchanged. So the two can be told apart as long as events report nothing but
that they cannot be turned into bytes. -/
namespace ElasticBatch

/-- What the event reports in place of a payload, or in place of its bytes. -/
def Offer.failure? (o : Offer) : Option Error :=
  match o.payload with
  | .error cause => some cause
  | .ok (.binary _) => none
  | .ok (.insertNode node) | .ok (.tablet node _) => node.failure

/-- A node of its own making fails, if at all, with an encoding failure. -/
def Node.Candid : Node → Prop
  | .value _ => True
  | .raw _ failure => ∀ cause ∈ failure, cause.isEncodingFailure = true

/-- So does the event, and so does the node that it offers. -/
def Offer.Candid (o : Offer) : Prop :=
  match o.payload with
  | .error cause => cause.isEncodingFailure = true
  | .ok (.binary _) => True
  | .ok (.insertNode node) | .ok (.tablet node _) => node.Candid

theorem Node.Candid.encodingFailure {node : Node} (candid : node.Candid) {cause : Error}
    (failed : node.failure = some cause) : cause.isEncodingFailure = true := by
  cases node with
  | value v =>
      cases form : v.encode with
      | ok bytes => simp [Node.failure, form] at failed
      | error fault =>
          simp only [Node.failure, form, Option.some.injEq] at failed
          rw [← failed, Error.isEncodingFailure_ofWriting]
  | raw written failure => exact candid cause failed

theorem Offer.Candid.encodingFailure {o : Offer} (candid : o.Candid) {cause : Error}
    (failed : o.failure? = some cause) : cause.isEncodingFailure = true := by
  obtain ⟨event, retained, payload, released⟩ := o
  cases payload with
  | error reported =>
      cases failed
      exact candid
  | ok p =>
      cases p with
      | binary content => cases failed
      | insertNode node => exact Node.Candid.encodingFailure candid failed
      | tablet node aligned => exact Node.Candid.encodingFailure candid failed

/-- The error comes through encoding as the event reported it. -/
theorem Offer.failure?_eq (o : Offer) :
    o.failure? = match Payload.encodeOffered o.payload with
      | .ok _ => none
      | .error failure => some failure.error := by
  obtain ⟨event, retained, payload, released⟩ := o
  cases payload with
  | error cause => rfl
  | ok p =>
      cases p with
      | binary content => rfl
      | insertNode node =>
          simp only [failure?, Payload.encodeOffered, Payload.encode, Node.encode]
          cases node.failure <;> rfl
      | tablet node aligned =>
          simp only [failure?, Payload.encodeOffered, Payload.encode, Node.encode]
          cases node.failure <;> rfl

namespace Batch

/-- An offer fails because the batch is closed, or because its event is new and can be retained but
not encoded. -/
theorem answer_error_iff (b : Batch) (m : Moment) (o : Offer) (cause : Error) :
    (b.step m (.offer o)).answer = some (.error cause) ↔
      (b.closed = true ∧ cause = .closed) ∨
        (b.closed = false ∧ b.repeats o.event = false ∧ o.retained = true ∧
          o.failure? = some cause) := by
  have reason := judged b o
  rw [o.failure?_eq, answer_offer]
  generalize b.judge o = verdict at reason ⊢
  cases reason with
  | rejected shut => simp [answer, shut, @eq_comm _ cause]
  | duplicate running again => simp [answer, running, again]
  | lost running new gone => simp [answer, running, gone]
  | failed running new kept fault => simp [answer, running, new, kept, fault]
  | accepted running new kept whole => simp [answer, running, whole]

/-- The error of an offer is that of a closed batch if the batch was closed, and only then.
Otherwise it is an encoding failure, for every event whose own code reports nothing else. -/
theorem error_tells (b : Batch) (m : Moment) (o : Offer) (cause : Error) (candid : o.Candid)
    (failed : (b.step m (.offer o)).answer = some (.error cause)) :
    (cause = .closed ↔ b.closed = true) ∧
      (b.closed = false → cause.isEncodingFailure = true) := by
  rcases (answer_error_iff b m o cause).mp failed with ⟨shut, rfl⟩ | ⟨running, -, -, reported⟩
  · exact ⟨iff_of_true rfl shut, fun running => by simp [shut] at running⟩
  · have encoding := candid.encodingFailure reported
    refine ⟨iff_of_false ?_ (by simp [running]), fun _ => encoding⟩
    rintro rfl
    cases encoding

/-- An event whose node writes two bytes and then fails as given. -/
def breaking (cause : Error) : Offer :=
  { event := ⟨7, 70, "breaking", fun _ => false⟩
    payload := .ok (.tablet (.raw [1, 2] (some cause)) true) }

/-- An open batch and then the closed one tell one event's failure from their own. -/
theorem disk_full_told :
    let o := breaking (.io "disk full")
    let b := ofConfig ⟨1, 100⟩
    let shut := (b.run [(⟨100, 0⟩, .offer o), (⟨100, 1⟩, .close fun _ => true)]).1
    (b.step ⟨100, 0⟩ (.offer o)).answer = some (.error (.io "disk full")) ∧
      (Error.io "disk full").isEncodingFailure = true ∧
      (shut.step ⟨0, 2⟩ (.offer o)).answer = some (.error .closed) ∧ shut.closed = true := by
  intro o b shut
  have candid : o.Candid := by
    rintro cause ⟨⟩
    rfl
  have one : (b.step ⟨100, 0⟩ (.offer o)).answer = some (.error (.io "disk full")) := rfl
  have two : (shut.step ⟨0, 2⟩ (.offer o)).answer = some (.error .closed) := rfl
  exact ⟨one, (error_tells b _ o _ candid one).2 rfl, two,
    (error_tells shut _ o _ candid two).1.mp rfl⟩

/-- An event may report anything in place of a payload, even that it is closed itself. An open batch
hands that on. -/
theorem open_batch_answers_closed :
    ¬ ∀ (config : Config) (calls : List (Moment × Op)) (m : Moment) (o : Offer) (cause : Error),
      let b := ((ofConfig config).run calls).1
      (b.step m (.offer o)).answer = some (.error cause) →
        (cause = .closed ↔ b.closed = true) ∧
          (b.closed = false → cause.isEncodingFailure = true) := by
  intro all
  have told := all ⟨1, 2⟩ [] ⟨2, 0⟩
    { event := ⟨0, 0, "event 0", fun handle => handle == 0⟩, payload := .error .closed } .closed rfl
  cases told.1.mp rfl

end Batch
end ElasticBatch

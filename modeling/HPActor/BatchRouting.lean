/-
`InboundFrameRouter::route_batch` as a whole: which entries of a batch are
handed to the delivery pipeline, and what is reported.  An entry with a
protected tag ends the loop behind the entries that were already delivered.
-/
import HPActor.InboundRouter

namespace HPActor.Router

/-- The delivery the loop makes of the n-th entry. -/
def entryDelivery (clocks : Nat → ClockReadings) (batch : BatchFrame) (n : Nat)
    (entry : BatchEntry) : Delivery :=
  deliveryOf batch.receiver
    (messageOf batch.sender entry.typeTag entry.messageId entry.payload false)
    (optionsOf (hasFlag entry.flags FrameFlag.ackRequested) entry.messageId)
    (clocks n)

/-- Hand entries to the pipeline in order, from the n-th on. -/
def deliverEntries (s : RouterSetup) (clocks : Nat → ClockReadings) (batch : BatchFrame) :
    Pipeline → Nat → List BatchEntry → Pipeline × List EnqueueResult
  | p, _, [] => (p, [])
  | p, n, entry :: rest =>
    let delivered := p.tryDeliver s.pipeline (entryDelivery clocks batch n entry)
    let later := deliverEntries s clocks batch delivered.1 (n + 1) rest
    (later.1, delivered.2 :: later.2)

/-- The entries before the first protected tag, if the batch is not too
long. -/
def handed (s : RouterSetup) (batch : BatchFrame) : List BatchEntry :=
  if s.maxBatchEntries.toNat < batch.entries.length then []
  else batch.entries.takeWhile fun entry =>
    !isPythonBindingControlTag entry.typeTag

/-- The pipeline takes none of the entries, each in the state that the ones
before it leave. -/
def TakesNone (s : RouterSetup) (clocks : Nat → ClockReadings) (batch : BatchFrame) :
    Pipeline → Nat → List BatchEntry → Prop
  | _, _, [] => True
  | p, n, entry :: rest =>
    let delivered := p.tryDeliver s.pipeline (entryDelivery clocks batch n entry)
    delivered.2.accepted = false ∧ TakesNone s clocks batch delivered.1 (n + 1) rest

/-- A batch is refused with one of these codes. -/
def refuses (code : FrameDispatchCode) : Bool :=
  code = .invalidFlags || code = .invalidControlPayload || code = .actorRejected

/-- What a finished loop reports. -/
def batchReport (accepted rejected : Nat) : FrameDispatchResult :=
  if rejected = 0 ∧ 0 < accepted then
    { code := .batchDelivered
      acceptedCount := accepted }
  else if 0 < accepted then
    { code := .batchPartiallyDelivered
      acceptedCount := accepted
      rejectedCount := rejected }
  else { code := .actorRejected }

/-- The report of a loop over `entries` with the outcomes of those it handed
over. -/
def loopReport (accepted rejected : Nat) (results : List EnqueueResult) :
    List BatchEntry → FrameDispatchResult
  | [] =>
    batchReport (accepted + results.countP EnqueueResult.accepted)
      (rejected + results.countP fun result => !result.accepted)
  | entry :: _ =>
    { code := .invalidControlPayload
      detailCode := entry.typeTag.toNat }

variable (s : RouterSetup) (clocks : Nat → ClockReadings) (batch : BatchFrame)

/-- The loop hands over the entries before the first protected tag. -/
theorem routeEntries_eq (r : Router) (accepted rejected : Nat) (entries : List BatchEntry) :
    let delivered := deliverEntries s clocks batch r.pipeline
      (accepted + rejected) (entries.takeWhile fun entry =>
        !isPythonBindingControlTag entry.typeTag)
    routeEntries s clocks batch r accepted rejected entries =
      ({ r with pipeline := delivered.1 },
        loopReport accepted rejected delivered.2 (entries.dropWhile fun entry =>
          !isPythonBindingControlTag entry.typeTag)) := by
  induction entries generalizing r accepted rejected with
  | nil => rfl
  | cons entry rest ih =>
    rw [routeEntries]
    cases htag : isPythonBindingControlTag entry.typeTag with
    | true => simp [htag, deliverEntries, loopReport]
    | false =>
      simp only [htag, Bool.false_eq_true, ↓reduceIte, Bool.not_false, List.takeWhile_cons_of_pos,
        List.dropWhile_cons_of_pos, deliverEntries, ← entryDelivery.eq_def]
      -- the count of the outcome moves into one of the two totals
      split
      · rename_i haccepted
        rw [ih, add_right_comm]
        congr 1
        cases rest.dropWhile _ <;>
          simp [loopReport, haccepted, add_assoc, add_comm 1]
      · rename_i hrefused
        rw [ih, ← add_assoc]
        congr 1
        cases rest.dropWhile _ <;>
          simp [loopReport, hrefused, add_assoc, add_comm 1]

theorem deliverEntries_length (p : Pipeline) (n : Nat) (entries : List BatchEntry) :
    (deliverEntries s clocks batch p n entries).2.length = entries.length := by
  induction entries generalizing p n with
  | nil => rfl
  | cons entry rest ih => simp [deliverEntries, ih]

theorem takesNone_iff (p : Pipeline) (n : Nat) (entries : List BatchEntry) :
    TakesNone s clocks batch p n entries ↔
      ∀ result ∈ (deliverEntries s clocks batch p n entries).2, result.accepted = false := by
  induction entries generalizing p n with
  | nil => simp [TakesNone, deliverEntries]
  | cons entry rest ih => simp [TakesNone, deliverEntries, ih]

theorem batchReport_refuses_iff (accepted rejected : Nat) :
    refuses (batchReport accepted rejected).code = true ↔ accepted = 0 := by
  rw [batchReport]
  split_ifs <;> simp [refuses] <;> omega

theorem batchReport_counts {accepted : Nat} (hsome : 0 < accepted) (rejected : Nat) :
    (batchReport accepted rejected).acceptedCount +
      (batchReport accepted rejected).rejectedCount = accepted + rejected := by
  rw [batchReport]
  split_ifs
  · simp_all
  · rfl

/-- A batch is handed over as a whole or refused with nothing delivered, unless
a protected tag stands behind an entry that the pipeline takes. -/
theorem routeBatch_all_or_nothing_iff (r : Router) :
    let routed := r.routeBatch s clocks batch
    let delivered := deliverEntries s clocks batch r.pipeline 0 (handed s batch)
    routed.1 = { r with pipeline := delivered.1 } ∧
      ((handed s batch = batch.entries ∧ routed.2.acceptedCount + routed.2.rejectedCount =
            batch.entries.length) ∨
        (refuses routed.2.code = true ∧ ∀ result ∈ delivered.2, result.accepted = false) ↔
      (∀ entry ∈ batch.entries, isPythonBindingControlTag entry.typeTag = false) ∨
        TakesNone s clocks batch r.pipeline 0 (handed s batch)) := by
  dsimp only
  rw [takesNone_iff]
  by_cases hlong : s.maxBatchEntries.toNat < batch.entries.length
  · simp [routeBatch, handed, hlong, deliverEntries, refuses]
  · simp only [routeBatch, handed, hlong, if_false, routeEntries_eq, add_zero, true_and]
    have hlength := deliverEntries_length s clocks batch r.pipeline 0
      (batch.entries.takeWhile fun entry =>
        !isPythonBindingControlTag entry.typeTag)
    generalize (deliverEntries s clocks batch r.pipeline 0
      (batch.entries.takeWhile fun entry =>
        !isPythonBindingControlTag entry.typeTag)).2 = results at hlength ⊢
    cases hrest : batch.entries.dropWhile fun entry =>
        !isPythonBindingControlTag entry.typeTag with
    | nil =>
      -- the loop came to its end
      have hfree : ∀ entry ∈ batch.entries, isPythonBindingControlTag entry.typeTag = false := by
        simpa [List.dropWhile_eq_nil_iff] using hrest
      refine iff_of_true ?_ (.inl hfree)
      have hall : (batch.entries.takeWhile fun entry =>
          !isPythonBindingControlTag entry.typeTag) = batch.entries :=
        List.takeWhile_eq_self_iff.mpr (by simpa using hfree)
      rw [hall] at hlength ⊢
      simp only [loopReport, zero_add]
      rcases Nat.eq_zero_or_pos (results.countP EnqueueResult.accepted) with
        hnone | hsome
      · refine .inr ⟨(batchReport_refuses_iff _ _).mpr hnone, ?_⟩
        simpa [List.countP_eq_zero] using hnone
      · refine .inl ⟨trivial, ?_⟩
        rw [batchReport_counts hsome, ← hlength,
          List.length_eq_countP_add_countP EnqueueResult.accepted]
        simp
    | cons bad rest =>
      -- it stopped at `bad`
      have hnotfree : ¬ ∀ entry ∈ batch.entries,
          isPythonBindingControlTag entry.typeTag = false := by
        intro hfree
        rw [List.dropWhile_eq_nil_iff.mpr (by simpa using hfree)] at hrest
        cases hrest
      have hpart : (batch.entries.takeWhile fun entry =>
          !isPythonBindingControlTag entry.typeTag) ≠ batch.entries := by
        rw [Ne, List.takeWhile_eq_self_iff]
        simpa using hnotfree
      simp [hpart, hnotfree, loopReport, refuses]

namespace BatchWitness

def takesAll (_ : Nat) (_ : TypedMessage) : EnqueueResult :=
  { code := .accepted, target := 7 }

def binding : FixedBinding :=
  { valid := true, tryPush := takesAll, tryPushDynamic := some takesAll }

/-- Every target is an actor whose ports take every message. -/
def router : Router :=
  { pipeline := { actors := fun _ => some { fixedMailbox := some binding } } }

def setup : RouterSetup := { pipeline := { endpoint := .ipv4 0x7F000001 0 } }

/-- A message, and behind it one with a protected tag. -/
def frame : BatchFrame :=
  { receiver := { id := 7 }
    entries := [{ typeTag := 0x1000 }, { typeTag := 0xF0 }] }

/-- The batch is refused, and its first entry was delivered. -/
theorem routeBatch_delivers_refused :
    let routed := router.routeBatch setup (fun _ => ⟨0, 0, 0, 0, 0⟩) frame
    routed.2.code = .invalidControlPayload ∧
      ((routed.1.pipeline.actors 7).bind (·.fixedMailbox)).map (·.pushed.length) = some 1 := by
  decide

end BatchWitness

end HPActor.Router

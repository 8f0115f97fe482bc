/-
What becomes of remote data.  The router passes 0 where the pipeline expects
the deadline of a message, the pipeline takes it for a point in time, and
nothing that comes in over the network reaches a mailbox.
-/
import HPActor.InboundRouter
import HPActor.MailboxAccounting

namespace HPActor

namespace Pipeline

variable {s : PipelineSetup} {p : Pipeline} {d : Delivery}

/-- A message whose deadline has passed is refused, and the entry of its target
stays as it is. -/
theorem tryDeliver_expired {entry : ActorEntry} {box : VariableMailbox}
    (hlive : p.actors d.target = some entry) (hbox : entry.mailbox = some box)
    (hoff : ∀ eba, entry.eventBased = some eba → eba.quarantinePolicy.enabled = false)
    (hexpired : isExpired d.deadlineNs d.clock.expiry = true) :
    (p.tryDeliver s d).2 = { code := .rejected, target := d.target } ∧
      (p.tryDeliver s d).1.actors d.target = some entry := by
  change isExpired d.deadlineNs (p.numbered d).clock.expiry = true at hexpired
  have hdeadline : (p.numbered d).deadlineNs ≠ int64Max :=
    (isExpired_iff.mp hexpired).2.1
  have hdeliver : p.tryDeliver s d =
      (p.countAttempt.setEntry d.target entry).expiryStage s (p.numbered d)
        d.deadlineNs entry box := by
    rw [tryDeliver, deliverNumbered_variable (d := p.numbered d) (p := p.countAttempt) hlive hbox,
      deliverVariable, checkCircuitBreaker_off hoff]
    dsimp only
    -- a deadline that is not `INT64_MAX` is left alone
    rw [applyDefaultTtl, if_pos (.inl hdeadline)]
    rfl
  rw [hdeliver, expiryStage, if_pos hexpired]
  refine ⟨rfl, ?_⟩
  rw [(deadLetter_same _ _).actors]
  exact (setEntry_touches _ _).self

end Pipeline

/-- A data frame that is meant for an actor: no reply and no control frame. -/
structure OrdinaryFrame (data : ActorMsgFrame) : Prop where
  not_rpc : hasFlag data.flags FrameFlag.rpcResponse = false
  not_response : hasFlag data.flags FrameFlag.ackResponse = false
  not_backpressure : TypeTag.mk data.typeTag ≠ .backpressureSignalTag
  not_name : isNameProtocolTag data.typeTag = false
  not_control : isPythonBindingControlTag data.typeTag = false

/-- The mailbox takes the message: a system message needs a protected place, a
user message room in the ledger, and no policy is asked. -/
structure VariableMailbox.Spare (box : VariableMailbox) (msg : TypedMessage) : Prop where
  unpoliced : box.setup.admissionPolicies = none
  system_room : msg.isSystem = true →
    box.state.systemLaneReserved < box.setup.config.protectedSystemMessages
  user_room : msg.isSystem = false → Mailbox.HasRoom box.setup box.state (box.setup.bytes msg)

/-- Everything on the receiving side is ready for the frame. -/
structure Receivable (r : Router) (data : ActorMsgFrame) (clock : ClockReadings)
    (entry : ActorEntry) (box : VariableMailbox) : Prop where
  accepting : r.accepting = true
  live : r.pipeline.actors data.receiver.id = some entry
  mailbox : entry.mailbox = some box
  no_quarantine : ∀ eba, entry.eventBased = some eba → eba.quarantinePolicy.enabled = false
  spare : box.Spare (Router.ordinaryDelivery data clock).msg
  unseen : ∀ cache, r.pipeline.dedupCache = some cache →
    cache.contains (Pipeline.dedupKey (Router.ordinaryDelivery data clock)) = false

namespace Router

variable {s : RouterSetup} {r : Router} {clock : ClockReadings} {data : ActorMsgFrame}

theorem routeDataPayload_ordinary (hframe : OrdinaryFrame data) :
    r.routeDataPayload s clock data = r.deliverOrdinaryData s clock data := by
  obtain ⟨hrpc, hresponse, hbackpressure, hname, -⟩ := hframe
  simp [routeDataPayload, hrpc, hresponse, hbackpressure, hname]

@[simp] theorem emitAck_pipeline (decision : AckEmitDecision) :
    (r.emitAck s data decision).pipeline = r.pipeline := by
  unfold emitAck
  split
  · rfl
  · rfl

/-- Zero is a deadline in the past. -/
theorem ordinaryDelivery_expired (data : ActorMsgFrame) (hnow : 0 < clock.expiry) :
    isExpired (ordinaryDelivery data clock).deadlineNs
      (ordinaryDelivery data clock).clock.expiry = true := by
  rw [isExpired_iff]
  exact ⟨Int.le_refl 0, (by decide : (0 : Int) ≠ int64Max), Int.natCast_pos.mpr hnow⟩

/-- No data frame reaches its actor: whatever the frame and however ready its
receiver, the message is refused as expired and the mailbox is not touched. -/
theorem remote_data_never_delivered (clocks : Nat → ClockReadings) {entry : ActorEntry}
    {box : VariableMailbox} (hframe : OrdinaryFrame data)
    (hready : Receivable r data (clocks 0) entry box) (hnow : 0 < (clocks 0).expiry) :
    isExpired (ordinaryDelivery data (clocks 0)).deadlineNs (clocks 0).expiry = true ∧
      (r.onFrame s clocks (.data data)).2 =
        { code := .actorRejected
          detailCode := EnqueueResultCode.rejected.number } ∧
      (r.onFrame s clocks (.data data)).1.pipeline.actors data.receiver.id =
        some entry := by
  have hexpired := ordinaryDelivery_expired data hnow
  obtain ⟨hresult, hentry⟩ := Pipeline.tryDeliver_expired (s := s.pipeline)
    (d := ordinaryDelivery data (clocks 0)) hready.live hready.mailbox
    hready.no_quarantine hexpired
  have honFrame : r.onFrame s clocks (.data data) = r.deliverOrdinaryData s (clocks 0) data := by
    rw [← routeDataPayload_ordinary hframe]
    simp [onFrame, hready.accepting]
  refine ⟨hexpired, ?_, ?_⟩
  · simp [honFrame, deliverOrdinaryData, hframe.not_control, hresult, EnqueueResult.accepted]
  · simp only [honFrame, deliverOrdinaryData, hframe.not_control,
      Bool.false_eq_true, if_false, emitAck_pipeline]
    exact hentry

end Router

namespace RemoteIngressWitness

def setup : RouterSetup := { pipeline := { endpoint := .ipv4 0x7F000001 0 } }

def box : VariableMailbox where
  setup := .ofConfig {} 7 64
  state := .fresh (.ofConfig {} 7 64)

/-- A router in front of one idle actor, with an empty mailbox. -/
def router : Router where
  pipeline :=
    { actors := Function.update (fun _ => none) 7 (some { mailbox := some box }) }

def frame : ActorMsgFrame where
  sender := { endpoint := .ipv4 0x0A000001 9000, id := 3 }
  receiver := { id := 7 }
  typeTag := 0x1000
  payload := [1]

def clock : ClockReadings := ⟨1, 1, 1, 1, 1⟩

theorem frame_ordinary : OrdinaryFrame frame :=
  ⟨by decide, by decide, by decide, by decide, by decide⟩

theorem frame_receivable : Receivable router frame clock { mailbox := some box } box where
  accepting := rfl
  live := rfl
  mailbox := rfl
  no_quarantine := by
    intro eba heba
    cases heba
  spare := ⟨rfl, by decide, by decide⟩
  unseen := by
    intro cache hcache
    cases hcache

theorem idle_actor_gets_nothing :
    isExpired (Router.ordinaryDelivery frame clock).deadlineNs clock.expiry = true ∧
      (router.onFrame setup (fun _ => clock) (.data frame)).2 =
        { code := .actorRejected
          detailCode := EnqueueResultCode.rejected.number } ∧
      (router.onFrame setup (fun _ => clock) (.data frame)).1.pipeline.actors
        7 = some { mailbox := some box } :=
  Router.remote_data_never_delivered (fun _ => clock) frame_ordinary frame_receivable (by decide)

/-- One nanosecond after the clock started, a frame for an idle actor with an
empty mailbox is refused. -/
theorem first_frame_refused :
    OrdinaryFrame frame ∧ Receivable router frame clock { mailbox := some box } box ∧
      0 < clock.expiry ∧
      (router.onFrame setup (fun _ => clock) (.data frame)).2.code ≠ .actorDelivered :=
  ⟨frame_ordinary, frame_receivable, by decide, by decide⟩

end RemoteIngressWitness

end HPActor

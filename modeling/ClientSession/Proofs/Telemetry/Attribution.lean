import ClientSession.Proofs.Stretches
import ClientSession.Telemetry.Batcher

/-!
# To whom events are attributed

A batcher attributes events to a user. Accepting events and sending them leaves that user as it is,
and none of it waits for a token.
-/

namespace ClientSession

open Activity

namespace Batcher

variable {b b' : Batcher}

theorem user_start (b : Batcher) (job : BatchJob) : (b.start job).2.user = b.user := by
  rw [start]
  split <;> rfl

theorem user_stop (b : Batcher) (task : Option Nat) : (b.stop task).user = b.user := by
  cases task <;> rfl

theorem user_startTask (b : Batcher) (job : Nat → BatchJob) :
    (b.startTask job).2.user = b.user := by
  rw [startTask]
  split <;> rfl

theorem user_cancelPending (b : Batcher) : b.cancelPending.user = b.user := user_stop b _

theorem user_drainRequests (b : Batcher) (now : Instant) :
    (b.drainRequests now).2.user = b.user := by
  rw [drainRequests]
  split <;> rfl

theorem user_startDelivery (b : Batcher) (now : Instant) : (b.startDelivery now).user = b.user := by
  rw [startDelivery]
  have h := user_drainRequests b now
  split
  · rename_i batch b' hb
    rw [hb] at h
    exact (user_start b' _).trans h
  · rename_i b' hb
    rw [hb] at h
    exact h

theorem user_shutdown (b : Batcher) : b.shutdown.user = b.user :=
  (user_cancelPending _).trans (user_stop b _)

theorem user_trackAuth (b : Batcher) (e : Event) : (b.trackAuth e).user = b.user := by
  rw [trackAuth]
  split
  · exact user_start _ _
  · rfl

theorem user_deferSend {now : Instant} (h : b.deferSend now = .ok b') : b'.user = b.user := by
  rw [deferSend] at h
  split at h
  · cases h
    rfl
  · cases hd : b.sendDelay now with
    | error e =>
        rw [hd] at h
        cases h
    | ok wait =>
        rw [hd] at h
        cases h
        exact user_startTask b _

theorem user_trackRequest {e : Event} {now : Instant} {r : Bool × Batcher}
    (h : b.trackRequest e now = .ok r) : r.2.user = b.user := by
  rw [trackRequest] at h
  split at h
  · cases h
    rfl
  · dsimp only at h
    split at h
    · cases h
      rfl
    · split at h
      · cases h
        exact (user_startDelivery _ now).trans (user_cancelPending _)
      · revert h
        generalize hd : deferSend _ now = d
        intro h
        cases d with
        | error e => cases h
        | ok b' =>
            cases h
            have huser := user_deferSend hd
            exact huser

theorem user_sendLast (b : Batcher) (batch : Batch) (now : Instant) :
    (b.sendLast batch now).2.user = b.user := by
  rw [sendLast]
  split
  · rfl
  · split
    · rfl
    · exact user_start _ _

theorem user_flushOnUnload (b : Batcher) (now : Instant) :
    (b.flushOnUnload now).2.user = b.user := by
  have h := user_drainRequests b.cancelPending now
  rw [flushOnUnload]
  split
  · rename_i b' hb
    rw [hb] at h
    exact h.trans (user_cancelPending b)
  · rename_i batch b' hb
    rw [hb] at h
    exact (user_sendLast _ _ _).trans (h.trans (user_cancelPending b))

/-! ## Work -/

/-- The user is the same. -/
def SameUser (b b' : Batcher) : Prop := b'.user = b.user

protected theorem SameUser.refl (b : Batcher) : SameUser b b := rfl

/-- Work that leaves the user as it is, and for which no token is asked for. -/
def Unattributing {α : Type} (x : Activity Batcher α) : Prop := Moves (· ≠ .token) SameUser x

theorem unattributing_modify {f : Batcher → Batcher} (hf : ∀ b, (f b).user = b.user) :
    Unattributing (modify f : Activity Batcher PUnit) :=
  moves_modify fun _ b' h => (hf b').trans h

theorem unattributing_await {w : Wait} (hw : w ≠ .token) : Unattributing (await w) :=
  moves_await SameUser.refl hw

theorem unattributing_sleep (span : Span) : Unattributing (Activity.sleep span) :=
  moves_sleep SameUser.refl nofun

theorem unattributing_send (batch : Batch) : Unattributing (send batch) := by
  refine Maintains.bind maintains_get fun b => ?_
  cases b.sink with
  | service accepts => exact unattributing_await nofun
  | ingest profile csrf =>
      refine Maintains.bind (moves_step fun _ _ _ h => h) fun request => ?_
      cases request with
      | none => exact maintains_pure _
      | some r =>
          refine Maintains.bind (unattributing_await nofun) fun a => ?_
          cases a with
          | error f => exact maintains_pure _
          | ok response => exact maintains_pure _

theorem unattributing_flushAuth : Unattributing flushAuth := by
  refine Maintains.bind maintains_get fun before => ?_
  refine Maintains.ite (maintains_pure _) ?_
  refine Maintains.bind (moves_step fun _ _ _ h => h) fun batch => ?_
  refine Maintains.bind (unattributing_modify fun _ => rfl) fun _ => ?_
  refine Maintains.bind (unattributing_send batch) fun outcome => ?_
  cases outcome with
  | ok _ => exact unattributing_modify fun _ => rfl
  | error _ =>
      refine unattributing_modify fun b => ?_
      dsimp only
      split <;> rfl

theorem unattributing_deliver (batch : Batch) : Unattributing (deliver batch) := by
  refine Maintains.bind (unattributing_modify fun _ => rfl) fun _ => ?_
  refine Maintains.bind (unattributing_send batch) fun outcome => ?_
  cases outcome <;> exact unattributing_modify fun _ => rfl

theorem unattributing_flushRequests : Unattributing flushRequests := by
  refine Maintains.bind (unattributing_modify user_cancelPending) fun _ => ?_
  refine Maintains.bind ?_ fun batch => ?_
  · exact moves_step fun now _ b h => (user_drainRequests b now).trans h
  · cases batch with
    | none => exact maintains_pure _
    | some batch => exact unattributing_deliver batch

theorem unattributing_perform (job : BatchJob) : Unattributing (perform job) := by
  cases job with
  | flushAuth =>
      exact Maintains.bind unattributing_flushAuth fun _ => maintains_pure _
  | deliver batch =>
      exact Maintains.bind (unattributing_deliver batch) fun _ =>
        maintains_pure _
  | farewell request =>
      exact Maintains.bind (unattributing_await nofun) fun _ =>
        maintains_pure _
  | deferredSend task wait =>
      refine Maintains.bind (unattributing_sleep wait) fun _ => ?_
      refine Maintains.bind ?_ fun _ => ?_
      · exact triple_change fun _ i b h => (user_startDelivery b i.now).trans h
      refine Maintains.bind (unattributing_modify fun b => ?_) fun _ =>
        maintains_pure _
      split <;> rfl
  | periodicFlush task =>
      refine Maintains.bind maintains_get fun b => ?_
      refine Maintains.bind (unattributing_sleep _) fun _ => ?_
      exact Maintains.bind unattributing_flushAuth fun _ => maintains_pure _

end Batcher

end ClientSession

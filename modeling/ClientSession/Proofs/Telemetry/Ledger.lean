import ClientSession.Telemetry.Batcher

/-!
# A ledger of session events

Each session event that a batcher accepts gets a ticket. The ledger says where the tickets are: in
the queue, under way in a send, in a send that succeeded, in two sends that failed, or in a send
that was dropped. What was accepted before everything was discarded is not accounted for any longer.

- `Ledger.Balanced`: each ticket that is accounted for is in one place.
- `Ledger.Balanced.track` and its siblings: what happens to tickets keeps it so.
-/

namespace ClientSession

namespace Batcher

/-- A session event, by the order in which the events were accepted, and the number of sends of it
that have failed. -/
structure Ticket where
  number : Nat
  event : Event
  failures : Nat

/-- A ticket in a send, by the number of the flight that sends it. -/
structure Parcel where
  flight : Nat
  ticket : Ticket

structure Ledger where
  /-- How many events have been accepted. -/
  accepted : Nat
  /-- How many of these were accepted before everything was last discarded. -/
  cleared : Nat
  waiting : List Ticket
  underway : List Parcel
  /-- In sends that succeeded. -/
  delivered : List Ticket
  /-- In two sends that failed. -/
  spent : List Ticket
  /-- In sends that were dropped. -/
  dropped : List Ticket

/-- The ticket as it waits in the queue. -/
def Ticket.queued (k : Ticket) : QueuedEvent := ⟨k.event, decide (0 < k.failures)⟩

/-- The ticket after another send of it failed. -/
def Ticket.failed (k : Ticket) : Ticket := { k with failures := k.failures + 1 }

namespace Ledger

def empty : Ledger := ⟨0, 0, [], [], [], [], []⟩

variable (L : Ledger)

/-- The tickets that a flight sends. -/
def held (n : Nat) : List Ticket := (L.underway.filter (·.flight = n)).map (·.ticket)

/-- The flight sends nothing any longer. -/
def release (n : Nat) : Ledger := { L with underway := L.underway.filter (·.flight ≠ n) }

/-- The ticket is accounted for. -/
def counts (k : Ticket) : Bool := L.cleared ≤ k.number

def track (e : Event) : Ledger :=
  { L with accepted := L.accepted + 1, waiting := L.waiting ++ [⟨L.accepted, e, 0⟩] }

def clear : Ledger := { L with cleared := L.accepted, waiting := [] }

/-- A flight begins to send all that waits. -/
def take (n : Nat) : Ledger :=
  { L with waiting := [], underway := L.underway ++ L.waiting.map (⟨n, ·⟩) }

def deliver (n : Nat) : Ledger :=
  { L.release n with delivered := L.delivered ++ L.held n }

/-- The send of a flight fails: what is accounted for waits again, in front of the rest, unless
another send of it has failed before. -/
def fail (n : Nat) : Ledger :=
  let failed := ((L.held n).filter L.counts).map Ticket.failed
  { L.release n with
    waiting := failed.filter (·.failures < 2) ++ L.waiting
    spent := L.spent ++ failed.filter fun k => !decide (k.failures < 2) }

def drop (n : Nat) : Ledger := { L.release n with dropped := L.dropped ++ L.held n }

/-! ## What a flight sends -/

section Held

variable {L : Ledger} {m n : Nat}

theorem held_release_self : (L.release n).held n = [] := by
  rw [held, release, List.filter_filter, List.map_eq_nil_iff, List.filter_eq_nil_iff]
  simp

theorem held_release_of_ne (h : m ≠ n) : (L.release n).held m = L.held m := by
  rw [held, held, release, List.filter_filter]
  refine congrArg _ (List.filter_congr fun p _ => ?_)
  by_cases hm : p.flight = m
  · simp [hm, h]
  · simp [hm]

theorem held_take_self (h : L.held n = []) : (L.take n).held n = L.waiting := by
  have hall : (L.waiting.map (Parcel.mk n)).filter (·.flight = n) =
        L.waiting.map (Parcel.mk n) := by
    refine List.filter_eq_self.mpr fun p hp => ?_
    obtain ⟨k, -, rfl⟩ := List.mem_map.mp hp
    exact decide_eq_true rfl
  rw [held, take, List.filter_append, List.map_append, ← held, h, hall, List.nil_append,
    List.map_map]
  exact L.waiting.map_id

theorem held_take_of_ne (h : m ≠ n) : (L.take n).held m = L.held m := by
  have hnone : (L.waiting.map (Parcel.mk n)).filter (·.flight = m) = [] := by
    refine List.filter_eq_nil_iff.mpr fun p hp => ?_
    obtain ⟨k, -, rfl⟩ := List.mem_map.mp hp
    simpa using h.symm
  rw [held, take, List.filter_append, List.map_append, hnone, ← held]
  exact List.append_nil _

end Held

/-! ## Balance -/

/-- The tickets at all places. -/
def tickets : List Ticket :=
  L.waiting ++ L.underway.map (·.ticket) ++ L.delivered ++ L.spent ++ L.dropped

/-- How often a number stands on tickets. -/
def tally (t : Nat) (ks : List Ticket) : Nat := ks.countP (·.number = t)

/-- Each ticket that is accounted for is in one place, no other number stands on tickets that could
be, and what waits is accounted for. -/
structure Balanced : Prop where
  ordered : L.cleared ≤ L.accepted
  once : ∀ t, L.cleared ≤ t → t < L.accepted → tally t L.tickets = 1
  none : ∀ t, L.accepted ≤ t → tally t L.tickets = 0
  counted : ∀ k ∈ L.waiting, L.counts k = true

variable {L}

@[simp] theorem tally_append (t : Nat) (ks ls : List Ticket) :
    tally t (ks ++ ls) = tally t ks + tally t ls := List.countP_append

theorem tally_pos {t : Nat} {ks : List Ticket} :
    0 < tally t ks ↔ ∃ k ∈ ks, k.number = t := by
  simp [tally, List.countP_pos_iff]

theorem tally_filter (t : Nat) (p : Ticket → Bool) (ks : List Ticket) :
    tally t ks = tally t (ks.filter p) + tally t (ks.filter fun k => !p k) := by
  have hsplit := List.countP_eq_countP_filter_add ks (fun k => decide (k.number = t)) p
  simpa [tally] using hsplit

/-- What a flight sends and what the others send is all that is under way. -/
theorem tally_underway (t n : Nat) :
    tally t (L.underway.map (·.ticket)) =
      tally t (L.held n) + tally t ((L.release n).underway.map (·.ticket)) := by
  rw [tally, tally, tally, held, release, List.countP_map, List.countP_map, List.countP_map]
  simpa using List.countP_eq_countP_filter_add L.underway
    ((fun k => decide (k.number = t)) ∘ Parcel.ticket) fun p => decide (p.flight = n)

/-- Of a number that is accounted for all tickets are. -/
theorem tally_counts {t : Nat} (ht : L.cleared ≤ t) (ks : List Ticket) :
    tally t (ks.filter L.counts) = tally t ks := by
  rw [tally, tally, List.countP_filter]
  refine List.countP_congr fun k _ => ?_
  simp only [counts, Bool.and_eq_true, decide_eq_true_eq, and_iff_left_iff_imp]
  rintro rfl
  exact ht

theorem tally_failed (t : Nat) (ks : List Ticket) :
    tally t (ks.map Ticket.failed) = tally t ks := by
  rw [tally, tally, List.countP_map]
  rfl

theorem tally_tickets (t : Nat) :
    tally t L.tickets = tally t L.waiting + tally t (L.underway.map (·.ticket)) +
      tally t L.delivered + tally t L.spent + tally t L.dropped := by
  simp only [tickets, tally_append]

theorem balanced_empty : empty.Balanced :=
  ⟨Nat.le_refl 0, fun _ _ h => (nomatch h), fun _ _ => rfl, fun _ h => (nomatch h)⟩

/-- The number of a ticket has been given. -/
theorem Balanced.lt_accepted (h : L.Balanced) {k : Ticket} (hk : k ∈ L.tickets) :
    k.number < L.accepted := by
  refine Nat.lt_of_not_le fun hle => ?_
  have hpositive : 0 < tally k.number L.tickets := tally_pos.mpr ⟨k, hk, rfl⟩
  exact absurd (h.none _ hle) (Nat.ne_of_gt hpositive)

theorem mem_tickets_of_held {n : Nat} {k : Ticket} (hk : k ∈ L.held n) : k ∈ L.tickets := by
  obtain ⟨p, hp, rfl⟩ := List.mem_map.mp hk
  simp only [tickets, List.mem_append]
  exact .inl (.inl (.inl (.inr (List.mem_map.mpr ⟨p, (List.mem_filter.mp hp).1, rfl⟩))))

/-- Tickets that are only moved stay in balance. -/
theorem Balanced.moved {L' : Ledger} (h : L.Balanced) (haccepted : L'.accepted = L.accepted)
    (hcleared : L'.cleared = L.cleared)
    (htally : ∀ t, L.cleared ≤ t → tally t L'.tickets = tally t L.tickets)
    (hcounted : ∀ k ∈ L'.waiting, L'.counts k = true) : L'.Balanced where
  ordered := by
    rw [haccepted, hcleared]
    exact h.ordered
  once t ht hlt := by
    rw [hcleared] at ht
    rw [haccepted] at hlt
    exact (htally t ht).trans (h.once t ht hlt)
  none t ht := by
    rw [haccepted] at ht
    exact (htally t (Nat.le_trans h.ordered ht)).trans (h.none t ht)
  counted := hcounted

namespace Balanced

variable (h : L.Balanced)

include h

theorem track (e : Event) : (L.track e).Balanced := by
  have htally : ∀ t, tally t (L.track e).tickets =
      tally t L.tickets + if L.accepted = t then 1 else 0 := by
    intro t
    have hnew : tally t (L.track e).waiting =
        tally t L.waiting + if L.accepted = t then 1 else 0 := by
      rw [Ledger.track, tally_append]
      simp [tally, List.countP_cons]
    rw [tally_tickets, tally_tickets, hnew]
    simp only [Ledger.track]
    omega
  refine ⟨Nat.le_succ_of_le h.ordered, fun t ht hlt => ?_, fun t ht => ?_, fun k hk => ?_⟩
  · rw [htally]
    rcases Nat.lt_succ_iff_lt_or_eq.mp hlt with hlt | rfl
    · rw [h.once t ht hlt, if_neg (Nat.ne_of_gt hlt)]
    · rw [h.none _ (Nat.le_refl _), if_pos rfl]
  · rw [htally, h.none t (Nat.le_of_succ_le ht), if_neg (Nat.ne_of_lt ht)]
  · rcases List.mem_append.mp hk with hk | hk
    · exact h.counted k hk
    · obtain rfl := List.mem_singleton.mp hk
      exact decide_eq_true h.ordered

theorem clear : L.clear.Balanced := by
  refine ⟨Nat.le_refl _, fun t ht hlt => absurd ht (Nat.not_le.mpr hlt), fun t ht => ?_,
    fun k hk => nomatch hk⟩
  have hnone := h.none t ht
  rw [tally_tickets] at hnone ⊢
  have hempty : tally t L.clear.waiting = 0 := rfl
  simp only [Ledger.clear] at hempty ⊢
  omega

theorem take (n : Nat) : (L.take n).Balanced := by
  refine h.moved rfl rfl (fun t ht => ?_) fun k hk => nomatch hk
  have htaken : tally t ((L.take n).underway.map (·.ticket)) =
      tally t (L.underway.map (·.ticket)) + tally t L.waiting := by
    rw [Ledger.take, List.map_append, tally_append, List.map_map]
    exact congrArg _ (congrArg (tally t) L.waiting.map_id)
  have hempty : tally t (L.take n).waiting = 0 := rfl
  rw [tally_tickets, tally_tickets, htaken, hempty]
  simp only [Ledger.take]
  omega

theorem deliver (n : Nat) : (L.deliver n).Balanced := by
  refine h.moved rfl rfl (fun t ht => ?_) h.counted
  have hunderway := tally_underway (L := L) t n
  rw [tally_tickets, tally_tickets]
  simp only [Ledger.deliver, Ledger.release, tally_append] at hunderway ⊢
  omega

theorem drop (n : Nat) : (L.drop n).Balanced := by
  refine h.moved rfl rfl (fun t ht => ?_) h.counted
  have hunderway := tally_underway (L := L) t n
  rw [tally_tickets, tally_tickets]
  simp only [Ledger.drop, Ledger.release, tally_append] at hunderway ⊢
  omega

theorem fail (n : Nat) : (L.fail n).Balanced := by
  refine h.moved rfl rfl (fun t ht => ?_) fun k hk => ?_
  · have hunderway := tally_underway (L := L) t n
    have hfailed : tally t (((L.held n).filter L.counts).map Ticket.failed) = tally t (L.held n) :=
      (tally_failed t _).trans (tally_counts ht _)
    have hsplit := tally_filter t (fun k => decide (k.failures < 2))
      (((L.held n).filter L.counts).map Ticket.failed)
    rw [tally_tickets, tally_tickets]
    simp only [Ledger.fail, Ledger.release, tally_append] at hunderway ⊢
    omega
  · rcases List.mem_append.mp hk with hk | hk
    · obtain ⟨k', hk', rfl⟩ := List.mem_map.mp (List.mem_filter.mp hk).1
      exact (List.mem_filter.mp hk').2
    · exact h.counted k hk

end Balanced

end Ledger

end Batcher

end ClientSession

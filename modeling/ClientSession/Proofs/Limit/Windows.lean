import ClientSession.Proofs.Limit.Refill
import Mathlib.Data.List.Induction

/-!
# Windows

From the reading at which a bucket is made, time is cut into windows of one interval each. What the
bucket gives is settled by the window of the highest reading so far: as many tokens as the capacity,
and none left over from an earlier window.

- `Bucket.Used.metered`: a token that is asked for is given if and only if fewer have been given in
  the window.
- `Draw.Metered.upTo_le`, `Draw.Metered.span_le`: how many tokens that lets through.
-/

namespace ClientSession

instance : Max Instant := ⟨fun s t => if s ≤ t then t else s⟩

theorem Instant.nanos_max (s t : Instant) : (max s t).nanos = max s.nanos t.nanos := by
  show (if s.nanos ≤ t.nanos then t else s).nanos = _
  rw [Int.max_def]
  split <;> rfl

/-- One use of a bucket: the reading of the clock, whether a token was asked for, and whether one
was given. -/
structure Draw where
  reading : Instant
  asks : Bool
  granted : Bool
deriving DecidableEq

namespace Draw

/-- The highest of a reading and those of the uses that followed. -/
def highest (t : Instant) (ds : List Draw) : Instant := ds.foldl (fun t d => max t d.reading) t

/-- The uses that followed a reading, each at the highest reading so far. -/
def timed (t : Instant) : List Draw → List Draw
  | [] => []
  | d :: ds => { d with reading := max t d.reading } :: timed (max t d.reading) ds

/-- The first use, if there is one, is at the reading. -/
def BeginAt (start : Instant) (ds : List Draw) : Prop :=
  ∀ d, ds.head? = some d → d.reading = start

variable {start t : Instant} {ds : List Draw} {d : Draw}

theorem BeginAt.snoc (h : BeginAt start ds) (hd : ds = [] → d.reading = start) :
    BeginAt start (ds ++ [d]) := by
  cases ds with
  | nil =>
      intro d' hd'
      obtain rfl := Option.some.inj hd'
      exact hd rfl
  | cons d' ds => exact h

theorem BeginAt.init (h : BeginAt start (ds ++ [d])) : BeginAt start ds := by
  intro d' hd
  refine h d' ?_
  rw [List.head?_append, hd]
  rfl

theorem highest_snoc : highest t (ds ++ [d]) = max (highest t ds) d.reading := by
  rw [highest, List.foldl_append]
  rfl

theorem timed_snoc (t : Instant) (ds : List Draw) (d : Draw) :
    timed t (ds ++ [d]) = timed t ds ++ [{ d with reading := highest t (ds ++ [d]) }] := by
  induction ds generalizing t with
  | nil => rfl
  | cons d' ds ih => exact congrArg _ (ih _)

theorem le_reading_of_mem_timed (h : d ∈ timed t ds) : t.nanos ≤ d.reading.nanos := by
  induction ds generalizing t with
  | nil => cases h
  | cons d' ds ih =>
      have hmax : t.nanos ≤ (max t d'.reading).nanos := by
        rw [Instant.nanos_max]
        exact Int.le_max_left _ _
      rcases List.mem_cons.mp h with rfl | h
      · exact hmax
      · exact le_trans hmax (ih h)

/-- While the clock does not go back, each reading is the highest so far. -/
theorem timed_eq (h : ds.Pairwise fun d d' => d.reading ≤ d'.reading)
    (ht : ∀ d ∈ ds, t ≤ d.reading) : timed t ds = ds := by
  induction ds generalizing t with
  | nil => rfl
  | cons d ds ih =>
      obtain ⟨hd, hds⟩ := List.pairwise_cons.mp h
      have hmax : max t d.reading = d.reading := if_pos (ht d List.mem_cons_self)
      rw [timed, hmax, ih hds hd]

theorem le_reading_of_beginAt (hstart : BeginAt start ds)
    (hclock : ds.Pairwise fun d d' => d.reading ≤ d'.reading) : ∀ d ∈ ds, start ≤ d.reading := by
  cases ds with
  | nil => exact nofun
  | cons d ds =>
      obtain ⟨hd, -⟩ := List.pairwise_cons.mp hclock
      have hfirst : d.reading = start := hstart d rfl
      rw [← hfirst]
      intro d' hd'
      rcases List.mem_cons.mp hd' with rfl | hd'
      · exact Int.le_refl _
      · exact hd d' hd'

end Draw

namespace EndpointLimit

variable (l : EndpointLimit) (start : Instant)

/-- The number of the window of a reading. -/
def window (t : Instant) : Int := (t.nanos - start.nanos) / l.interval.nanos

/-- The instant at which the window of a reading is over. -/
def windowEnd (t : Instant) : Instant :=
  ⟨start.nanos + (l.window start t + 1) * l.interval.nanos⟩

/-- The tokens that were given in a window. -/
def grantsIn (k : Int) (ds : List Draw) : Nat :=
  (Draw.timed start ds).countP fun d => d.granted && decide (l.window start d.reading = k)

variable {l start} {s t : Instant} {k : Int} {ds : List Draw} {d : Draw}

theorem window_mono (hl : 0 < l.intervalMs) (h : s.nanos ≤ t.nanos) :
    l.window start s ≤ l.window start t :=
  Int.ediv_le_ediv (l.nanos_interval_pos hl) (Int.sub_le_sub_right h _)

theorem window_eq_iff (hl : 0 < l.intervalMs) : l.window start t = k ↔
    start.nanos + k * l.interval.nanos ≤ t.nanos ∧
      t.nanos < start.nanos + k * l.interval.nanos + l.interval.nanos := by
  have hpos := l.nanos_interval_pos hl
  have hle : k ≤ l.window start t ↔ k * l.interval.nanos ≤ t.nanos - start.nanos :=
    Int.le_ediv_iff_mul_le hpos
  have hlt : l.window start t < k + 1 ↔ t.nanos - start.nanos < (k + 1) * l.interval.nanos :=
    Int.ediv_lt_iff_lt_mul hpos
  rw [Int.add_mul, Int.one_mul] at hlt
  omega

theorem grantsIn_snoc : l.grantsIn start k (ds ++ [d]) = l.grantsIn start k ds +
    if d.granted = true ∧ l.window start (Draw.highest start (ds ++ [d])) = k then 1 else 0 := by
  simp only [grantsIn, Draw.timed_snoc, List.countP_append, List.countP_singleton,
    Bool.and_eq_true, decide_eq_true_eq]

/-- Nothing has been given in a window to come. -/
theorem grantsIn_eq_zero (hl : 0 < l.intervalMs)
    (h : l.window start (Draw.highest start ds) < k) : l.grantsIn start k ds = 0 := by
  induction ds using List.reverseRecOn with
  | nil => rfl
  | append_singleton ds d ih =>
      have hmax : (Draw.highest start ds).nanos ≤ (Draw.highest start (ds ++ [d])).nanos := by
        rw [Draw.highest_snoc, Instant.nanos_max]
        exact Int.le_max_left _ _
      have hnone : ¬(d.granted = true ∧ l.window start (Draw.highest start (ds ++ [d])) = k) :=
        fun hd => Int.ne_of_lt h hd.2
      rw [grantsIn_snoc, if_neg hnone, ih (lt_of_le_of_lt (window_mono hl hmax) h)]

end EndpointLimit

namespace Bucket

/-- Uses a bucket, and tells whether it gave a token. -/
def draw (b : Bucket) (asks : Bool) : Bool × Bucket := if asks then b.take else (false, b)

/-- The bucket that a use finds. -/
def ready (b : Option Bucket) (l : EndpointLimit) (now : Instant) : Bucket :=
  (b.getD (full l now)).refill l now

/-- All uses of a bucket under a limit, and the bucket after them. -/
inductive Used (l : EndpointLimit) : List Draw → Option Bucket → Prop where
  | missing : Used l [] none
  | snoc {ds : List Draw} {b : Option Bucket} (h : Used l ds b) (now : Instant) (asks : Bool) :
      Used l (ds ++ [⟨now, asks, ((ready b l now).draw asks).1⟩])
        (some ((ready b l now).draw asks).2)

/-- The bucket has what the window of a reading has left, and was refilled where it begins. -/
structure StandsAt (l : EndpointLimit) (start : Instant) (ds : List Draw) (t : Instant)
    (b : Bucket) : Prop where
  refilled : b.lastRefill.nanos = start.nanos + l.window start t * l.interval.nanos
  left : b.tokens + l.grantsIn start (l.window start t) ds = l.capacity

variable {l : EndpointLimit} {start t now : Instant} {ds : List Draw} {b : Bucket}

theorem draw_fst_iff {asks : Bool} : (b.draw asks).1 = true ↔ asks = true ∧ 0 < b.tokens := by
  unfold draw take
  cases asks with
  | false => simp
  | true =>
      rw [if_pos rfl]
      split <;> simp <;> omega

theorem draw_tokens (b : Bucket) (asks : Bool) :
    (b.draw asks).2.tokens + (if (b.draw asks).1 = true then 1 else 0) = b.tokens := by
  unfold draw take
  cases asks with
  | false => rfl
  | true =>
      rw [if_pos rfl]
      split
      · rfl
      · exact Nat.sub_add_cancel (Nat.pos_of_ne_zero ‹_›)

theorem draw_lastRefill (b : Bucket) (asks : Bool) :
    (b.draw asks).2.lastRefill = b.lastRefill := by
  unfold draw take
  split
  · split <;> rfl
  · rfl

namespace StandsAt

theorem full (l : EndpointLimit) (start : Instant) : StandsAt l start [] start (full l start) := by
  have hzero : l.window start start = 0 := by
    rw [EndpointLimit.window, Int.sub_self, Int.zero_ediv]
  refine ⟨?_, rfl⟩
  rw [hzero, Int.zero_mul, Int.add_zero]
  rfl

theorem lastRefill_le (h : StandsAt l start ds t b) (hl : 0 < l.intervalMs) :
    b.lastRefill.nanos ≤ t.nanos := by
  have hle := Int.ediv_mul_le (t.nanos - start.nanos) (Int.ne_of_gt (l.nanos_interval_pos hl))
  rw [h.refilled, EndpointLimit.window]
  omega

theorem lt_nextRefill (h : StandsAt l start ds t b) (hl : 0 < l.intervalMs) :
    t.nanos < b.lastRefill.nanos + l.interval.nanos := by
  have hlt := Int.lt_ediv_add_one_mul_self (t.nanos - start.nanos) (l.nanos_interval_pos hl)
  rw [Int.add_mul, Int.one_mul] at hlt
  rw [h.refilled, EndpointLimit.window]
  omega

theorem nextRefill_eq (h : StandsAt l start ds t b) : b.nextRefill l = l.windowEnd start t := by
  rw [nextRefill, EndpointLimit.windowEnd, h.refilled, Int.add_mul, Int.one_mul, Int.add_assoc]

/-- A refill is due if and only if the reading is in a later window than the highest before. -/
theorem due_iff (h : StandsAt l start ds t b) (hl : 0 < l.intervalMs) :
    b.Due l now ↔ l.window start t < l.window start (max t now) := by
  have hbegins := h.lastRefill_le hl
  have hends := h.lt_nextRefill hl
  have hrefilled := h.refilled
  have hlater : l.window start t < l.window start (max t now) ↔
      (l.window start t + 1) * l.interval.nanos ≤ (max t now).nanos - start.nanos := by
    rw [← Int.add_one_le_iff, EndpointLimit.window, EndpointLimit.window,
      Int.le_ediv_iff_mul_le (l.nanos_interval_pos hl)]
  rw [hlater, Instant.nanos_max, Int.add_mul, Int.one_mul]
  constructor
  · rintro ⟨-, hdue⟩
    omega
  · intro hdue
    have hlt : b.lastRefill.nanos < now.nanos := by omega
    exact ⟨hlt, by omega⟩

/-- Whole intervals lie between two refills, so the later one begins a window too. -/
theorem nanos_lastStart (h : StandsAt l start ds t b) (hl : 0 < l.intervalMs) (now : Instant) :
    (b.lastStart l now).nanos = start.nanos + l.window start now * l.interval.nanos := by
  have hpos := Int.ne_of_gt (l.nanos_interval_pos hl)
  have hsince : now.nanos - start.nanos =
      now.nanos - b.lastRefill.nanos + l.window start t * l.interval.nanos := by
    rw [h.refilled]
    omega
  rw [lastStart, if_neg hpos, EndpointLimit.window, hsince, Int.add_mul_ediv_right _ _ hpos,
    Int.add_mul, h.refilled]
  dsimp only
  omega

theorem refill (h : StandsAt l start ds (Draw.highest start ds) b) (hl : 0 < l.intervalMs)
    (now : Instant) :
    StandsAt l start ds (max (Draw.highest start ds) now) (b.refill l now) := by
  by_cases hdue : b.Due l now
  · have hlater := (h.due_iff hl).mp hdue
    have hnow : max (Draw.highest start ds) now = now :=
      if_pos (Int.le_of_lt (lt_of_lt_of_le (h.lt_nextRefill hl) hdue.2))
    rw [refill_of_due hdue]
    refine ⟨?_, ?_⟩
    · rw [hnow]
      exact h.nanos_lastStart hl now
    · rw [EndpointLimit.grantsIn_eq_zero hl hlater, Nat.add_zero]
  · have hsame : l.window start (max (Draw.highest start ds) now) =
        l.window start (Draw.highest start ds) := by
      refine le_antisymm (Int.not_lt.mp fun hlt => hdue ((h.due_iff hl).mpr hlt)) ?_
      refine EndpointLimit.window_mono hl ?_
      rw [Instant.nanos_max]
      exact Int.le_max_left _ _
    rw [refill_of_not_due hdue]
    refine ⟨?_, ?_⟩
    · rw [hsame, h.refilled]
    · rw [hsame, h.left]

theorem draw {d : Draw} (h : StandsAt l start ds (Draw.highest start (ds ++ [d])) b)
    (hd : d.granted = (b.draw d.asks).1) :
    StandsAt l start (ds ++ [d]) (Draw.highest start (ds ++ [d])) (b.draw d.asks).2 := by
  refine ⟨?_, ?_⟩
  · rw [draw_lastRefill, h.refilled]
  · have htokens := b.draw_tokens d.asks
    rw [← hd] at htokens
    rw [EndpointLimit.grantsIn_snoc, ← h.left, ← htokens]
    simp only [and_true]
    omega

end StandsAt

/-- The bucket that a use finds stands where the highest reading is, if the bucket after the uses
before does. -/
theorem StandsAt.ready {b : Option Bucket} {d : Draw}
    (h : b = none ∧ ds = [] ∨ ∃ c, b = some c ∧ StandsAt l start ds (Draw.highest start ds) c)
    (hl : 0 < l.intervalMs) (hstart : Draw.BeginAt start (ds ++ [d])) :
    StandsAt l start ds (Draw.highest start (ds ++ [d])) (Bucket.ready b l d.reading) := by
  rw [Draw.highest_snoc]
  rcases h with ⟨rfl, rfl⟩ | ⟨c, rfl, hc⟩
  · have hfirst : d.reading = start := hstart d rfl
    have hfull : StandsAt l start [] (Draw.highest start []) (Bucket.full l start) := .full l start
    rw [hfirst]
    exact hfull.refill hl start
  · exact hc.refill hl d.reading

namespace Used

theorem standsAt {b : Option Bucket} (h : Used l ds b) (hl : 0 < l.intervalMs)
    (hstart : Draw.BeginAt start ds) :
    b = none ∧ ds = [] ∨ ∃ c, b = some c ∧ StandsAt l start ds (Draw.highest start ds) c := by
  induction h with
  | missing => exact .inl ⟨rfl, rfl⟩
  | @snoc ds b h now asks ih =>
      refine .inr ⟨_, rfl, ?_⟩
      exact (StandsAt.ready (ih hstart.init) hl hstart).draw rfl

end Used

end Bucket

namespace Draw

/-- A token is given exactly to a use that asks for one while fewer than the capacity have been
given in the window of the highest reading. -/
def Metered (l : EndpointLimit) (start : Instant) (ds : List Draw) : Prop :=
  ∀ before d after, ds = before ++ d :: after →
    (d.granted = true ↔ d.asks = true ∧
      l.grantsIn start (l.window start (highest start (before ++ [d]))) before < l.capacity)

end Draw

theorem Bucket.Used.metered {l : EndpointLimit} {start : Instant} {ds : List Draw}
    {b : Option Bucket} (h : Used l ds b) (hl : 0 < l.intervalMs)
    (hstart : Draw.BeginAt start ds) : Draw.Metered l start ds := by
  induction h with
  | missing => exact fun before d after heq => by simp at heq
  | @snoc ds b h now asks ih =>
      intro before d after heq
      rcases List.eq_nil_or_concat after with rfl | ⟨after, z, rfl⟩
      · obtain ⟨rfl, hlast⟩ := List.append_inj' heq rfl
        obtain rfl := List.singleton_inj.mp hlast
        have hready := StandsAt.ready (h.standsAt hl hstart.init) hl hstart
        rw [Bucket.draw_fst_iff, ← hready.left]
        simp only [Nat.lt_add_left_iff_pos]
      · rw [List.concat_eq_append, ← List.cons_append, ← List.append_assoc] at heq
        exact ih hstart.init before d after (List.append_inj' heq rfl).1

namespace Draw

variable {l : EndpointLimit} {start : Instant} {ds : List Draw} {d : Draw}

theorem Metered.init (h : Metered l start (ds ++ [d])) : Metered l start ds := by
  rintro before d' after rfl
  exact h before d' (after ++ [d]) (by simp)

/-- No window gives more than the capacity. -/
theorem Metered.grantsIn_le (h : Metered l start ds) (k : Int) :
    l.grantsIn start k ds ≤ l.capacity := by
  induction ds using List.reverseRecOn with
  | nil => exact Nat.zero_le _
  | append_singleton ds d ih =>
      rw [EndpointLimit.grantsIn_snoc]
      split
      · rename_i hd
        obtain ⟨hgranted, rfl⟩ := hd
        exact ((h ds d [] rfl).mp hgranted).2
      · exact ih h.init

/-- What falls under one of two descriptions is counted by them together. -/
theorem countP_le_add {α : Type} {p q r : α → Bool} (as : List α)
    (h : ∀ a ∈ as, p a = true → q a = true ∨ r a = true) :
    as.countP p ≤ as.countP q + as.countP r := by
  induction as with
  | nil => exact Nat.zero_le _
  | cons a as ih =>
      have hrest := ih fun b hb => h b (List.mem_cons_of_mem _ hb)
      have ha := h a List.mem_cons_self
      simp only [List.countP_cons]
      cases hp : p a with
      | false =>
          simp only [Bool.false_eq_true, if_false]
          omega
      | true =>
          rcases ha hp with hq | hr
          · rw [hq]
            simp only [if_true]
            omega
          · rw [hr]
            simp only [if_true]
            omega

/-- The tokens given while the highest reading is in the first windows. -/
theorem Metered.upTo_le (h : Metered l start ds) (hl : 0 < l.intervalMs) (n : Nat) :
    ((timed start ds).countP fun d => d.granted &&
      decide (d.reading.nanos < start.nanos + n * l.interval.nanos)) ≤ n * l.capacity := by
  induction n with
  | zero =>
      rw [Nat.zero_mul]
      refine Nat.le_of_eq (List.countP_eq_zero.mpr fun d hd => ?_)
      have hle := le_reading_of_mem_timed hd
      simp only [Bool.and_eq_true, decide_eq_true_eq]
      omega
  | succ n ih =>
      have hwindow := h.grantsIn_le n
      rw [Nat.add_mul, Nat.one_mul]
      -- What is new is given in the window of this number.
      refine le_trans (countP_le_add _ fun d _ hd => ?_) (Nat.add_le_add ih hwindow)
      simp only [Bool.and_eq_true, decide_eq_true_eq, EndpointLimit.window_eq_iff hl] at hd ⊢
      obtain ⟨hgranted, hlt⟩ := hd
      rw [Nat.cast_add, Nat.cast_one, Int.add_mul, Int.one_mul] at hlt
      rcases Int.lt_or_le d.reading.nanos (start.nanos + n * l.interval.nanos) with hbefore | hle
      · exact .inl ⟨hgranted, hbefore⟩
      · exact .inr ⟨hgranted, hle, by omega⟩

/-- The tokens given in any span as long as an interval, while the clock does not go back. -/
theorem Metered.span_le (h : Metered l start ds) (hl : 0 < l.intervalMs)
    (hstart : BeginAt start ds) (hclock : ds.Pairwise fun d d' => d.reading ≤ d'.reading)
    (t : Instant) :
    (ds.countP fun d => d.granted && decide (t ≤ d.reading ∧
      d.reading.nanos < t.nanos + l.interval.nanos)) ≤ 2 * l.capacity := by
  have htimed : timed start ds = ds := timed_eq hclock (le_reading_of_beginAt hstart hclock)
  have hfirst := h.grantsIn_le (l.window start t)
  have hsecond := h.grantsIn_le (l.window start t + 1)
  rw [EndpointLimit.grantsIn, htimed] at hfirst hsecond
  -- Such a span meets at most two windows.
  refine le_trans (countP_le_add _ fun d _ hd => ?_)
    (le_trans (Nat.add_le_add hfirst hsecond) (by omega))
  have hwindow : l.window start t = l.window start t := rfl
  obtain ⟨hbegins, hends⟩ := (EndpointLimit.window_eq_iff hl).mp hwindow
  simp only [Bool.and_eq_true, decide_eq_true_eq, EndpointLimit.window_eq_iff hl] at hd ⊢
  obtain ⟨hgranted, hle, hlt⟩ := hd
  have hle' : t.nanos ≤ d.reading.nanos := hle
  rw [Int.add_mul, Int.one_mul]
  rcases Int.lt_or_le d.reading.nanos (start.nanos + l.window start t * l.interval.nanos +
    l.interval.nanos) with hbefore | hafter
  · exact .inl ⟨hgranted, by omega, hbefore⟩
  · exact .inr ⟨hgranted, by omega, by omega⟩

end Draw

end ClientSession

import ClientSession.Proofs.Limit.Windows
import ClientSession.Limit.Limiter

/-!
# Uses of a bucket

Whoever asks a limiter about a pair of endpoint and user uses the bucket of the pair: it is made if
it is missing, refilled, and a token is taken from it if one is asked for. No other bucket changes.

- `Limiter.tryTake_uses`, `Limiter.evaluate_uses`: taking a token and looking are uses.
- `Limiter.tryTake_error`, `Limiter.evaluate_error`: they fault only out of the calendar.
- `Limiter.Uses.again`: a use that was refused changes nothing for another at that reading.
-/

namespace ClientSession

/-- An entry is found if it was found before and passes the test. -/
theorem Table.find?_filter {κ α : Type} [KeyOrder κ] [DecidableEq κ] (t : Table κ α)
    (p : κ → Bool) (k : κ) :
    (t.filter fun k' _ => p k').find? k = if p k = true then t.find? k else none := by
  obtain ⟨es, hes⟩ := t
  simp only [filter, find?]
  clear hes
  induction es with
  | nil => simp
  | cons e es ih =>
      cases hp : p e.1 with
      | true =>
          simp only [List.filter_cons, hp, if_true]
          by_cases hk : e.1 = k
          · subst hk
            simp [hp]
          · simpa [hk] using ih
      | false =>
          simp only [List.filter_cons, hp, Bool.false_eq_true, if_false]
          rw [ih]
          by_cases hk : e.1 = k
          · subst hk
            simp [hp]
          · simp [hk]

namespace Limiter

theorem limit?_configure (l : Limiter) (endpoint name : String) (limit : EndpointLimit) :
    (l.configure endpoint limit).limit? name =
      if endpoint = name then some limit else l.limit? name :=
  Table.find?_insert l.limits endpoint name limit

/-- The buckets of an endpoint that is configured are dropped. -/
theorem find?_configure (l : Limiter) (endpoint name : String) (limit : EndpointLimit) :
    (l.configure endpoint limit).buckets.find? name =
      if belongsTo name endpoint = true then none else l.buckets.find? name := by
  rw [configure, Table.find?_filter l.buckets fun name => !belongsTo name endpoint]
  cases belongsTo name endpoint <;> rfl

/-- One use of a bucket: no other bucket changes, and no limit. -/
structure Uses (l : Limiter) (name : String) (limit : EndpointLimit) (now : Instant)
    (asks granted : Bool) (l' : Limiter) : Prop where
  limits : l'.limits = l.limits
  granted_eq : granted = ((Bucket.ready (l.buckets.find? name) limit now).draw asks).1
  own : l'.buckets.find? name =
    some ((Bucket.ready (l.buckets.find? name) limit now).draw asks).2
  other : ∀ n, n ≠ name → l'.buckets.find? n = l.buckets.find? n

/-- The reading or the next refill of the bucket is out of the calendar. -/
def Strained (l : Limiter) (name : String) (limit : EndpointLimit) (now : Instant) : Prop :=
  ¬(now.InCalendar ∧
    ((Bucket.ready (l.buckets.find? name) limit now).nextRefill limit).InCalendar)

variable {l l' l'' : Limiter} {endpoint name : String} {user : Option String}
  {limit : EndpointLimit} {now : Instant}

section Uses

variable {asks granted : Bool}

theorem uses_store : l.Uses name limit now asks ((l.bucket name limit now).draw asks).1
    (l.store name ((l.bucket name limit now).draw asks).2) where
  limits := rfl
  granted_eq := rfl
  own := by
    rw [store, Table.find?_insert, if_pos rfl]
    rfl
  other n hn := by rw [store, Table.find?_insert, if_neg (Ne.symm hn)]

theorem Uses.limit?_eq (h : l.Uses name limit now asks granted l') (endpoint : String) :
    l'.limit? endpoint = l.limit? endpoint := by
  rw [limit?, h.limits, ← limit?]

/-- A bucket is used once more. -/
theorem Uses.used {ds : List Draw} {d : Draw} (h : l.Uses name limit d.reading d.asks d.granted l')
    (hused : Bucket.Used limit ds (l.buckets.find? name)) :
    Bucket.Used limit (ds ++ [d]) (l'.buckets.find? name) := by
  have hd : d = ⟨d.reading, d.asks,
      ((Bucket.ready (l.buckets.find? name) limit d.reading).draw d.asks).1⟩ :=
    congrArg (Draw.mk d.reading d.asks) h.granted_eq
  rw [h.own, hd]
  exact hused.snoc d.reading d.asks

/-- A bucket that refuses a token has none. -/
theorem Uses.tokens_eq_zero (h : l.Uses name limit now true false l') :
    (Bucket.ready (l.buckets.find? name) limit now).tokens = 0 := by
  by_contra hne
  have htoken := Bucket.draw_fst_iff.mpr ⟨rfl, Nat.pos_of_ne_zero hne⟩
  rw [← h.granted_eq] at htoken
  cases htoken

/-- A bucket that has refused a token is found as it was at the same reading. -/
theorem Uses.ready_eq (h : l.Uses name limit now true false l') :
    Bucket.ready (l'.buckets.find? name) limit now =
      Bucket.ready (l.buckets.find? name) limit now := by
  rw [h.own, Bucket.draw, if_pos rfl, Bucket.take, if_pos h.tokens_eq_zero]
  exact Bucket.refill_refill _ _ _

/-- So another use at that reading is as the first. -/
theorem Uses.again (h : l.Uses name limit now true false l')
    (h' : l'.Uses name limit now true granted l'') : l.Uses name limit now true granted l'' := by
  refine ⟨h'.limits.trans h.limits, ?_, ?_, fun n hn => ?_⟩
  · rw [h'.granted_eq, h.ready_eq]
  · rw [h'.own, h.ready_eq]
  · rw [h'.other n hn, h.other n hn]

theorem Uses.strained_iff (h : l.Uses name limit now true false l') :
    l'.Strained name limit now ↔ l.Strained name limit now := by
  rw [Strained, h.ready_eq, ← Strained]

end Uses

theorem tryTake_uses {r : Option Span × Limiter}
    (h : l.tryTake endpoint user limit now = .ok r) :
    l.Uses (bucketName endpoint user) limit now true r.1.isNone r.2 := by
  let b := l.bucket (bucketName endpoint user) limit now
  have hstore : l.Uses (bucketName endpoint user) limit now true b.take.1
      (l.store (bucketName endpoint user) b.take.2) := uses_store
  have htry : (if b.take.1 then .ok (none, l.store (bucketName endpoint user) b.take.2)
      else do return (some (← b.timeToNext limit now), l.store (bucketName endpoint user) b)) =
        Except.ok r := h
  by_cases hempty : b.tokens = 0
  · have htake : b.take = (false, b) := if_pos hempty
    rw [htake] at hstore htry
    cases hwait : b.timeToNext limit now with
    | error f =>
        rw [hwait] at htry
        cases htry
    | ok wait =>
        rw [hwait] at htry
        cases htry
        exact hstore
  · have htake : b.take = (true, { b with tokens := b.tokens - 1 }) := if_neg hempty
    rw [htake] at hstore htry
    cases htry
    exact hstore

/-- Taking a token faults only where the wait for the next leaves the calendar. -/
theorem tryTake_error {f : Fault} (h : l.tryTake endpoint user limit now = .error f) :
    l.Strained (bucketName endpoint user) limit now := by
  rintro ⟨hnow, hnext⟩
  obtain ⟨wait, next, hwait, -⟩ := Bucket.plus_timeToNext hnow hnext
  let b := l.bucket (bucketName endpoint user) limit now
  have htry : (if b.take.1 then .ok (none, l.store (bucketName endpoint user) b.take.2)
      else do return (some (← b.timeToNext limit now), l.store (bucketName endpoint user) b)) =
        Except.error f := h
  have hwait' : b.timeToNext limit now = .ok wait := hwait
  rw [hwait'] at htry
  split at htry <;> cases htry

/-- Looking whether a call may be made takes no token. -/
theorem evaluate_uses {r : Decision × Limiter} (h : l.evaluate endpoint user now = .ok r) :
    l.limit? endpoint = none ∧ r.2 = l ∨ ∃ limit, l.limit? endpoint = some limit ∧
      l.Uses (bucketName endpoint user) limit now false false r.2 := by
  unfold evaluate at h
  split at h
  · rename_i hlimit
    cases h
    exact .inl ⟨hlimit, rfl⟩
  · rename_i limit hlimit
    refine .inr ⟨limit, hlimit, ?_⟩
    have hstore : l.Uses (bucketName endpoint user) limit now false false
        (l.store (bucketName endpoint user) (l.bucket (bucketName endpoint user) limit now)) :=
      uses_store
    dsimp only at h
    split at h
    · cases h
      exact hstore
    · cases hwait : (l.bucket (bucketName endpoint user) limit now).timeToNext limit now with
      | error f =>
          rw [hwait] at h
          cases h
      | ok wait =>
          rw [hwait] at h
          cases hover : now.plus wait with
          | error f =>
              simp only [bind, Except.bind, hover] at h
              cases h
          | ok next =>
              simp only [bind, Except.bind, hover] at h
              cases h
              exact hstore

theorem evaluate_error {f : Fault} (h : l.evaluate endpoint user now = .error f) :
    ∃ limit, l.limit? endpoint = some limit ∧
      l.Strained (bucketName endpoint user) limit now := by
  unfold evaluate at h
  split at h
  · cases h
  · rename_i limit hlimit
    refine ⟨limit, hlimit, ?_⟩
    rintro ⟨hnow, hnext⟩
    obtain ⟨wait, next, hwait, hover⟩ := Bucket.plus_timeToNext hnow hnext
    have hwait' : (l.bucket (bucketName endpoint user) limit now).timeToNext limit now =
        .ok wait := hwait
    dsimp only at h
    split at h
    · cases h
    · rw [hwait'] at h
      simp only [bind, Except.bind, hover] at h
      cases h

end Limiter

end ClientSession

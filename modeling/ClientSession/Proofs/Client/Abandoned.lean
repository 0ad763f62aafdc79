import ClientSession.Proofs.Client.Fortunes

/-!
# Passes that are abandoned

A pass may be dropped wherever it waits. That leaves the session as it finds it, so what has become
of it is settled by the answers until then. Before a first retry the token is still stored, unless
it was refused, and then the tab has taken leave of its session. Every retry takes the credential
away first, without a word; from then on the session is lost silently, until a new token is stored
or a refusal ends it.

- `Client.sameSession_of_drop`: dropping a pass leaves the session.
- `Client.not_lost_iff`: what is left of a stored session, by the trials of the pass.
- `Client.abandoned_iff`: when the session is not lost silently.
-/

namespace ClientSession

open Activity

namespace Client

variable {v : Vault} {c c' s : Client} {now last : Instant} {hs : List (Halt Client)}
  {ts : List Trial} {r r₁ : Run Client ValidationResult}

/-! ## Dropping a pass -/

/-- A drop leaves the session as it finds it. -/
def Parting : Pact Unit Client := fun _ i p c _ => p = .drops → SameSession i.state c

theorem parting_lasting : Lasting Parting (fun _ _ _ => True) fun _ _ _ => True where
  aside _ _ _ _ _ _ := trivial
  recalls _ _ _ _ _ _ := trivial
  faults _ _ _ _ hp := nomatch hp
  stays _ _ _ _ hp := nomatch hp
  drops _ _ _ _ h ha := fun hp => (h hp).trans ha.sameSession
  waits _ _ _ _ _ _ := by
    refine ⟨(), ?_, fun now c _ => .refl c, fun _ _ _ _ => trivial, fun _ _ _ _ => trivial⟩
    intro hp
    cases hp
  calls _ _ _ _ _ := by
    refine ⟨(), ?_, fun now c _ => .refl c, fun _ _ _ => trivial⟩
    intro hp
    cases hp
  refuses _ _ _ _ _ := trivial

theorem parting_pass : Triple Parting (fun _ _ _ => True) pass fun _ _ _ _ => True := by
  have hruns : Concluding Parting (fun _ _ _ => True) (fun _ _ _ => True)
      fun _ _ _ _ => True := by
    constructor
    · exact parting_lasting.calling
    · exact parting_lasting.calling
    · exact fun _ _ _ _ => trivial
    · exact fun _ _ _ _ => trivial
    · exact fun _ _ _ _ _ => trivial
    · exact fun _ _ _ _ _ => trivial
  exact hruns.runPass.guarded fun _ _ _ h hp => (h hp).trans ⟨rfl, rfl⟩

/-- Wherever a pass is dropped, the session is left as it is found. -/
theorem sameSession_of_drop {w : Wait} {drop : Client → Client}
    {resume : w.Answer → Instant → Client → Run Client ValidationResult}
    (h : Way (pass now c) now hs (.wait s w drop resume) last) (c' : Client) :
    SameSession c' (drop c') := by
  have hmeets := parting_pass.meets () ⟨none, now, c⟩ c trivial
  obtain ⟨_, _, -, _, -, hdrop, -⟩ := Run.Path.meets (i := ⟨none, now, c⟩) h hmeets
  exact hdrop last c' rfl

/-! ## Silent losses -/

/-- While no token is refused, one stays stored, and so does a new one. -/
theorem keptAfter_of_unrefused {b : Bool} {cues : List Cue} (h : ∀ q ∈ cues, q.expels = false) :
    keptAfter b cues = true ↔ b = true ∨ ∃ q ∈ cues, q.storable?.isSome := by
  induction cues generalizing b with
  | nil => simp [keptAfter]
  | cons q cues ih =>
      have hfirst : keptAfter b (q :: cues) = keptAfter (q.storable?.isSome || b) cues := by
        simp [keptAfter, h q (List.mem_cons_self ..)]
      rw [hfirst, ih fun q' hq' => h q' (List.mem_cons_of_mem _ hq')]
      simp only [Bool.or_eq_true, List.exists_mem_cons_iff]
      rw [← or_assoc, or_comm (a := b = true)]

/-- The tab finds a token if one is stored, as it remembers a token only while one is. -/
theorem Undergone.hasToken_eq {b : Bool} {cues : List Cue} (h : Undergone v b cues c c')
    (htidy : Tidy v c) : (c'.tabs.hasToken c.own).1 = b := by
  rw [Tabs.hasToken_eq h.sharing.shares.healthy, ← h.own, h.sharing.stores_eq, h.kept]
  cases b with
  | true => exact Bool.or_true _
  | false =>
      rw [h.tidy htidy h.kept]
      rfl

theorem Undergone.ended_iff {b : Bool} {cues : List Cue} (h : Undergone v b cues c c') :
    (∃ reason, Tabs.Ended c.own reason c.tabs c'.tabs) ↔ ∃ q ∈ cues, q.expels = true := by
  simp only [Tabs.ended_iff_mem_ownNews, h.noted, mem_farewells]
  constructor
  · rintro ⟨_, -, hq⟩
    exact hq
  · intro hq
    exact ⟨_, rfl, hq⟩

/-- The session is lost silently: the credential was taken away for a retry, no token was refused on
the way, and the last retry has brought none that can be stored. -/
structure Lost (ts : List Trial) : Prop where
  retried : 1 < ts.length
  unrefused : ∀ x ∈ haltsOf ts, x.cue.expels = false
  unstored : ∀ t, ts.getLast? = some t → ∀ x ∈ t.halts, x.cue.storable? = none

/-- What is left of a stored session after trials, if it is not lost. -/
theorem not_lost_iff {t : Trial} (ht : ts.getLast? = some t) :
    (keptAfter (if 1 < ts.length then false else true) (t.halts.map (·.cue)) = true ∨
      ∃ q ∈ (haltsOf ts).map (·.cue), q.expels = true) ↔ ¬Lost ts := by
  by_cases hrefused : ∃ q ∈ (haltsOf ts).map (·.cue), q.expels = true
  · constructor
    · intro _ hlost
      obtain ⟨q, hq, hexpels⟩ := hrefused
      obtain ⟨x, hx, rfl⟩ := List.mem_map.mp hq
      rw [hlost.unrefused x hx] at hexpels
      cases hexpels
    · exact fun _ => .inr hrefused
  · have hunrefused : ∀ x ∈ haltsOf ts, x.cue.expels = false := fun x hx =>
      Bool.eq_false_iff.mpr fun hexpels => hrefused ⟨x.cue, List.mem_map_of_mem hx, hexpels⟩
    have hlast : ∀ q ∈ t.halts.map (·.cue), q.expels = false := by
      intro q hq
      obtain ⟨x, hx, rfl⟩ := List.mem_map.mp hq
      exact hunrefused x
        (List.mem_flatMap.mpr ⟨t, List.mem_of_getLast? ht, List.mem_append_left _ hx⟩)
    rw [keptAfter_of_unrefused hlast]
    constructor
    · rintro ((honce | ⟨q, hq, hstorable⟩) | hexpelled) hlost
      · rw [if_pos hlost.retried] at honce
        cases honce
      · obtain ⟨x, hx, rfl⟩ := List.mem_map.mp hq
        rw [hlost.unstored t ht x hx] at hstorable
        cases hstorable
      · exact hrefused hexpelled
    · intro hlost
      by_contra hnone
      refine hlost ⟨?_, hunrefused, ?_⟩
      · by_contra honce
        exact hnone (.inl (.inl (if_neg honce)))
      · intro t' ht' x hx
        obtain rfl := Option.some.inj (ht.symm.trans ht')
        by_contra hstorable
        refine hnone (.inl (.inr ⟨x.cue, List.mem_map_of_mem hx, ?_⟩))
        exact Option.isSome_iff_ne_none.mpr hstorable

/-- Dropped at a wait, a pass has left a token stored, or the tab has taken leave of its session
since it began, if and only if it has not lost the session silently. -/
theorem abandoned_iff {w : Wait} {drop : Client → Client}
    {resume : w.Answer → Instant → Client → Run Client ValidationResult} (hc : Sharing v c)
    (hkept : c.tabs.keeps v Tabs.tokenKey = true)
    (h : Way (pass now c) now hs (.wait s w drop resume) last) (hfound : SameSession s c') :
    ∃ ts, PassAccount now c (.wait s w drop resume) ts ∧ haltsOf ts = hs ∧
      ((((drop c').tabs.hasToken c.own).1 = true ∨
        ∃ reason, Tabs.Ended c.own reason c.tabs (drop c').tabs) ↔ ¬Lost ts) := by
  obtain ⟨ts, r₁, hts, hhalts, hclose⟩ := trials_of_pass h
  refine ⟨ts, hclose.account hts.account, hhalts, ?_⟩
  obtain ⟨t, ht, hundergone⟩ := trialled_of_pass hc hts hclose fun _ _ hf => nomatch hf
  obtain ⟨drop', resume', rfl⟩ := hclose.wait
  rw [Nat.zero_add, hkept] at hundergone
  have hleft := (hundergone.same hfound).same (sameSession_of_drop h c')
  have htidy : Tidy v c := by
    intro hgone
    rw [hkept] at hgone
    cases hgone
  rw [hleft.hasToken_eq htidy, hleft.ended_iff]
  exact not_lost_iff ht

/-- A client with a token is dropped at its second check. The source has given it a new one. -/
theorem abandoned_iff_holding : ∃ hs s w drop resume last,
    Sharing ⟨Config.defaultNamespace, ⟨"", "", "", ""⟩⟩ holding ∧
      holding.tabs.keeps ⟨Config.defaultNamespace, ⟨"", "", "", ""⟩⟩ Tabs.tokenKey = true ∧
      Way (pass ⟨1748779200000000000⟩ holding) ⟨1748779200000000000⟩ hs (.wait s w drop resume)
        last ∧ hs.length = 3 ∧ SameSession s s ∧
      ∃ ts, PassAccount ⟨1748779200000000000⟩ holding (.wait s w drop resume) ts ∧
        haltsOf ts = hs ∧ ((drop s).tabs.hasToken holding.own).1 = true ∧ ¬Lost ts := by
  have hcomes : (pass ⟨1748779200000000000⟩ holding).comesTo ⟨1748779200000000000⟩
      ([⟨1748779201000000000⟩, ⟨1748779203000000000⟩, ⟨1748779204000000000⟩].map
        (·, answerDown ⟨⟨"t2"⟩, some ⟨1748783000000000000⟩⟩)) (fun hs r _ => hs.length = 3 &&
          r.waitsSo fun s drop => ((drop s).tabs.hasToken holding.own).1) = true := by
    decide +kernel
  obtain ⟨hs, r, last, hway, htest⟩ := Run.exists_path SameSession.refl hcomes
  rw [Bool.and_eq_true, decide_eq_true_eq] at htest
  obtain ⟨s, w, drop, resume, rfl, htoken⟩ := Run.wait_of_waitsSo htest.2
  obtain ⟨ts, hts, hhalts, hiff⟩ := abandoned_iff sharing_holding keeps_holding hway (.refl s)
  exact ⟨hs, s, w, drop, resume, last, sharing_holding, keeps_holding, hway, htest.1, .refl s, ts,
    hts, hhalts, htoken, hiff.mp (.inl htoken)⟩

/-- Dropped while it waits for a new token a pass may leave none, and nobody has been told. -/
theorem not_kept_or_told : ¬∀ (v : Vault) (c c' s : Client) (now last : Instant)
    (hs : List (Halt Client)) (w : Wait) (drop : Client → Client)
    (resume : w.Answer → Instant → Client → Run Client ValidationResult), Sharing v c →
    c.tabs.keeps v Tabs.tokenKey = true → Way (pass now c) now hs (.wait s w drop resume) last →
    SameSession s c' → ((drop c').tabs.hasToken c.own).1 = true ∨
      ∃ reason, Tabs.Ended c.own reason c.tabs (drop c').tabs := by
  intro hclaim
  have hcomes : (pass ⟨1748779200000000000⟩ holding).comesTo ⟨1748779200000000000⟩
      ([⟨1748779201000000000⟩, ⟨1748779203000000000⟩].map
        (·, answerDown ⟨⟨"t2"⟩, some ⟨1748783000000000000⟩⟩)) (fun _ r _ =>
          r.waitsSo fun s drop => !((drop s).tabs.hasToken holding.own).1 &&
            decide (Tabs.ownNews holding.own holding.tabs (drop s).tabs = [])) = true := by
    decide +kernel
  obtain ⟨hs, r, last, hway, htest⟩ := Run.exists_path SameSession.refl hcomes
  obtain ⟨s, w, drop, resume, rfl, hlost⟩ := Run.wait_of_waitsSo htest
  rw [Bool.and_eq_true, Bool.not_eq_true', decide_eq_true_eq] at hlost
  rcases hclaim _ _ s s _ _ hs w drop resume sharing_holding keeps_holding hway (.refl s) with
    hkept | ⟨reason, hended⟩
  · rw [hlost.1] at hkept
    cases hkept
  · rw [Tabs.ended_iff_mem_ownNews, hlost.2] at hended
    cases hended

end Client

end ClientSession

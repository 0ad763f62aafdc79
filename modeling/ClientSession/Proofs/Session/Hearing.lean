import ClientSession.Proofs.Session.Recollection

/-!
# Who loses a session

When a tab clears a session whose token is stored, every other open tab that listens loses its
session too, and for the reason that another tab removed the token. Where no token is stored, and
when a token is stored in place of another one, no tab loses a session.

- `Tabs.clearSession_ended_iff`: the ends of sessions that clearing one brings about.
- `Tabs.clearSession_forgets`: the tabs that lose their session remember nothing of it.
-/

namespace ClientSession.Tabs

variable {w w' w'' : Tabs} {v : Vault} {i j : Nat} {reason : EndReason}

/-- The end of a tab's session has been noted since. -/
def Ended (j : Nat) (reason : EndReason) (w w' : Tabs) : Prop :=
  Occurrence.ended j reason ∈ w.news w'

instance (j : Nat) (reason : EndReason) (w w' : Tabs) : Decidable (Ended j reason w w') :=
  inferInstanceAs (Decidable (_ ∈ _))

/-- The tab is open and listens for changes. -/
def Listening (w : Tabs) (j : Nat) : Prop :=
  (w.tab? j).isSome ∧ Listener.tab j ∈ w.listeners.map (·.2)

theorem Erodes.listening (h : Erodes w w') (j : Nat) : w'.Listening j ↔ w.Listening j := by
  rw [Listening, Listening, h.isSome_tab?, h.listeners]

theorem not_ended_of_history (h : w'.history = w.history) : ¬Ended j reason w w' := by
  rw [Ended, news_of_history h]
  exact List.not_mem_nil

theorem ended_trans (h : w.history <+: w'.history) (h' : w'.history <+: w''.history) :
    Ended j reason w w'' ↔ Ended j reason w w' ∨ Ended j reason w' w'' := by
  rw [Ended, Ended, Ended, news_trans h h', List.mem_append]

theorem ended_note {o : Occurrence} (w : Tabs) :
    Ended j reason w (w.note o) ↔ o = .ended j reason := by
  rw [Ended, news_note, List.mem_singleton, eq_comm]

/-- Where no end of a session may be noted in passing none is noted. -/
theorem Fades.not_ended (h : Fades v false w w') : ¬Ended j reason w w' := by
  intro hended
  rcases h.passing_or_removal hended with hpassing | ⟨i, key, -, heq⟩
  · cases hpassing
  · cases heq

theorem Installed.not_ended {t : BearerToken} {e : Instant} (h : Installed v i t e w w') :
    ¬Ended j reason w w' := by
  intro hended
  rcases h.noted _ hended with hpassing | heq
  · cases hpassing
  · cases heq

/-! ## Hearing of a removal -/

section Consequences

variable {clearAgain : Nat → Tabs → Tabs}

/-- A tab whose session ends where no token is stored is the only one to lose a session. -/
theorem endWith_ended_iff (hc : ClearsAgain v false clearAgain) (hw : w.Fadeable v false)
    (hi : (w.tab? i).isSome) {why : EndReason} :
    Ended j reason w (endWith clearAgain i why w) ↔ j = i ∧ reason = why := by
  have hu : (w.note (.ended i why)).Fadeable v false :=
    ⟨⟨hw.shares.healthy, hw.shares.vault_eq⟩, hw.gone⟩
  -- Its own end is noted first, and its reactions bring about no further one.
  have hreact : Fades v false (w.note (.ended i why)) (endWith clearAgain i why w) := by
    refine .foldl fun w' r _ hw' => ?_
    have hi' : (w'.tab? i).isSome := (hw'.erodes.isSome_tab? i).trans hi
    exact reactWith_fades hc (hu.of_fades hw') hi' r.2 why
  have hhist : w.history <+: (w.note (.ended i why)).history := List.prefix_append _ _
  rw [ended_trans hhist hreact.erodes.history, or_iff_left hreact.not_ended, ended_note]
  constructor
  · intro heq
    cases heq
    exact ⟨rfl, rfl⟩
  · rintro ⟨rfl, rfl⟩
    rfl

/-- A tab that hears that another one removed the token loses its session. -/
theorem hearWith_ended_iff (hc : ClearsAgain v false clearAgain) (hw : w.Fadeable v false)
    (l : Listener) :
    Ended j reason w (hearWith clearAgain ⟨tokenKey, none, i⟩ l w) ↔
      l = .tab j ∧ j ≠ i ∧ (w.tab? j).isSome ∧ reason = .crossTab := by
  cases l with
  | note name =>
      rw [hearWith, ended_note]
      constructor
      · intro heq
        cases heq
      · rintro ⟨heq, -⟩
        cases heq
  | tab k =>
      have hforget : Fades v false w (w.forget k) := .of_step (.forget k)
      rw [hearWith]
      split
      · rename_i hk
        obtain ⟨hne, hopen, -, -⟩ := hk
        have hopen' : ((w.forget k).tab? k).isSome := (hforget.erodes.isSome_tab? k).trans hopen
        have hend : Ended j reason w (endWith clearAgain k .crossTab (w.forget k)) ↔
            j = k ∧ reason = .crossTab := endWith_ended_iff hc (hw.of_fades hforget) hopen'
        rw [hend]
        constructor
        · rintro ⟨rfl, rfl⟩
          exact ⟨rfl, hne, hopen, rfl⟩
        · rintro ⟨heq, -, -, rfl⟩
          cases heq
          exact ⟨rfl, rfl⟩
      · rename_i hk
        refine ⟨fun h => absurd h (not_ended_of_history rfl), ?_⟩
        rintro ⟨heq, hne, hopen, -⟩
        cases heq
        exact absurd ⟨hne, hopen, rfl, rfl⟩ hk

/-- All listeners that are open tabs lose their session, but for the tab that removed the token. -/
theorem heard_ended_iff (hc : ∀ ends, ClearsAgain v ends clearAgain) (hw : w.Fadeable v false)
    (listeners : List (Nat × Listener)) :
    Ended j reason w (listeners.foldl
        (fun w l => hearWith clearAgain ⟨tokenKey, none, i⟩ l.2 w) w) ↔
      Listener.tab j ∈ listeners.map (·.2) ∧ j ≠ i ∧ (w.tab? j).isSome ∧ reason = .crossTab := by
  induction listeners generalizing w with
  | nil =>
      constructor
      · intro hended
        exact absurd hended (not_ended_of_history rfl)
      · rintro ⟨hmem, -⟩
        cases hmem
  | cons l listeners ih =>
      have hfirst : Fades v true w (hearWith clearAgain ⟨tokenKey, none, i⟩ l.2 w) :=
        hearWith_fades (hc true) hw.shares.fadeable (fun _ => rfl) l.2
      have hw' : (hearWith clearAgain ⟨tokenKey, none, i⟩ l.2 w).Fadeable v false :=
        ⟨hfirst.erodes.shares hw.shares, fun _ => hfirst.erodes.keeps_eq_false (hw.gone rfl)⟩
      have hrest := heard_fades (hc true) hw'.shares.fadeable (c := ⟨tokenKey, none, i⟩)
        (fun _ => rfl) listeners
      rw [List.foldl_cons, ended_trans hfirst.erodes.history hrest.erodes.history,
        hearWith_ended_iff (hc false) hw, ih hw', hfirst.erodes.isSome_tab?, List.map_cons,
        List.mem_cons, @eq_comm _ (Listener.tab j)]
      constructor
      · rintro (⟨hl, h⟩ | ⟨hl, h⟩)
        · exact ⟨.inl hl, h⟩
        · exact ⟨.inr hl, h⟩
      · rintro ⟨hl | hl, h⟩
        · exact .inl ⟨hl, h⟩
        · exact .inr ⟨hl, h⟩

/-- Discarding a token that is stored ends the session of every other tab that listens. -/
theorem discardWith_ended_iff (hc : ∀ ends, ClearsAgain v ends clearAgain) (hw : w.Shares v)
    (hi : (w.tab? i).isSome) :
    Ended j reason w (discardWith clearAgain i tokenKey w) ↔
      w.keeps v tokenKey = true ∧ j ≠ i ∧ w.Listening j ∧ reason = .crossTab := by
  have hk : tokenKey ∈ sessionKeys := List.mem_cons_self ..
  cases hs : w.keeps v tokenKey with
  | false =>
      rw [discardWith_of_gone hw.neighbours hi hs]
      constructor
      · intro hended
        exact absurd hended (not_ended_of_history rfl)
      · rintro ⟨hmem, -⟩
        cases hmem
  | true =>
      let u := (w.without v tokenKey).note (.changed ⟨tokenKey, none, i⟩)
      have hdrop : Fades v true w u := .of_step (.drop i tokenKey hk hs)
      have hgone : u.keeps v tokenKey = false := by
        rw [keeps_note, keeps_without]
        simp
      have hu : u.Fadeable v false := ⟨hdrop.erodes.shares hw, fun _ => hgone⟩
      have hheard := heard_fades (hc true) hu.shares.fadeable (c := ⟨tokenKey, none, i⟩)
        (fun _ => rfl) w.listeners
      have hquiet : ¬Ended j reason w u := by
        rw [Ended, news_drop, List.mem_singleton]
        intro heq
        cases heq
      rw [discardWith_of_keeps hw.neighbours hi hk hs]
      show Ended j reason w (w.listeners.foldl _ u) ↔ _
      rw [ended_trans hdrop.erodes.history hheard.erodes.history, or_iff_right hquiet,
        heard_ended_iff hc hu, hdrop.erodes.isSome_tab?, Listening]
      constructor
      · rintro ⟨hl, hne, hopen, hr⟩
        exact ⟨rfl, hne, ⟨hopen, hl⟩, hr⟩
      · rintro ⟨-, hne, ⟨hopen, hl⟩, hr⟩
        exact ⟨hl, hne, hopen, hr⟩

theorem clearWith_ended_iff (hc : ∀ ends, ClearsAgain v ends clearAgain) (hw : w.Shares v)
    (hi : (w.tab? i).isSome) :
    Ended j reason w (clearWith clearAgain i w) ↔
      w.keeps v tokenKey = true ∧ j ≠ i ∧ w.Listening j ∧ reason = .crossTab := by
  have hk : tokenKey ∈ sessionKeys := List.mem_cons_self ..
  let u := discardWith clearAgain i tokenKey w
  have hfirst : Fades v true w u := discardWith_fades (hc true) hw.fadeable hi hk
  have hu : u.Fadeable v false :=
    ⟨hfirst.erodes.shares hw, fun _ => discardWith_keeps (hc true) hw hi hk⟩
  have hi' : (u.tab? i).isSome := (hfirst.erodes.isSome_tab? i).trans hi
  -- The token comes first; once it is gone no further end of a session is noted.
  have hdiscards : Fades v false u ([expiryKey, claimsKey].foldl
      (fun w key => discardWith clearAgain i key w) u) :=
    discards_fade (hc false) hu hi' fun key hkey => List.mem_cons_of_mem _ hkey
  have hrest : Fades v false u (clearWith clearAgain i w) := hdiscards.trans (.of_step (.forget i))
  rw [ended_trans hfirst.erodes.history hrest.erodes.history, or_iff_left hrest.not_ended,
    discardWith_ended_iff hc hw hi]

/-! ## Forgetting -/

/-- A tab that hears that another one removed the token forgets its session. -/
theorem hearWith_forgets (hc : ClearsAgain v true clearAgain) (hw : w.Shares v) (hne : j ≠ i)
    (hopen : (w.tab? j).isSome) :
    (hearWith clearAgain ⟨tokenKey, none, i⟩ (.tab j) w).cache j = .empty := by
  have hforget : Fades v true w (w.forget j) := .of_step (.forget j)
  have hopen' : ((w.forget j).tab? j).isSome := (hforget.erodes.isSome_tab? j).trans hopen
  have hend := endWith_fades hc (hw.fadeable.of_fades hforget) hopen' .crossTab
  rw [hearWith, if_pos ⟨hne, hopen, rfl, rfl⟩]
  exact hend.erodes.cache_eq_empty (cache_forget w j)

theorem heard_forgets (hc : ClearsAgain v true clearAgain) (hw : w.Shares v) (hne : j ≠ i)
    (hopen : (w.tab? j).isSome) {listeners : List (Nat × Listener)}
    (hl : Listener.tab j ∈ listeners.map (·.2)) :
    (listeners.foldl (fun w l => hearWith clearAgain ⟨tokenKey, none, i⟩ l.2 w) w).cache j =
      .empty := by
  induction listeners generalizing w with
  | nil => cases hl
  | cons l listeners ih =>
      have hfirst : Fades v true w (hearWith clearAgain ⟨tokenKey, none, i⟩ l.2 w) :=
        hearWith_fades hc hw.fadeable (fun _ => rfl) l.2
      have hw' := hfirst.erodes.shares hw
      rw [List.map_cons, List.mem_cons] at hl
      rw [List.foldl_cons]
      rcases hl with heq | hl
      -- What is heard after the tab has forgotten its session brings nothing back.
      · have hempty := hearWith_forgets hc hw hne hopen
        rw [heq] at hempty
        have hrest := heard_fades hc hw'.fadeable (c := ⟨tokenKey, none, i⟩) (fun _ => rfl) listeners
        exact hrest.erodes.cache_eq_empty hempty
      · exact ih hw' ((hfirst.erodes.isSome_tab? j).trans hopen) hl

theorem discardWith_forgets (hc : ClearsAgain v true clearAgain) (hw : w.Shares v)
    (hi : (w.tab? i).isSome) (hs : w.keeps v tokenKey = true) (hne : j ≠ i) (hj : w.Listening j) :
    (discardWith clearAgain i tokenKey w).cache j = .empty := by
  have hk : tokenKey ∈ sessionKeys := List.mem_cons_self ..
  have hdrop : Fades v true w ((w.without v tokenKey).note (.changed ⟨tokenKey, none, i⟩)) :=
    .of_step (.drop i tokenKey hk hs)
  rw [discardWith_of_keeps hw.neighbours hi hk hs]
  exact heard_forgets hc (hdrop.erodes.shares hw) hne ((hdrop.erodes.isSome_tab? j).trans hj.1) hj.2

theorem clearWith_forgets (hc : ClearsAgain v true clearAgain) (hw : w.Shares v)
    (hi : (w.tab? i).isSome) (hs : w.keeps v tokenKey = true) (hj : w.Listening j) :
    (clearWith clearAgain i w).cache j = .empty := by
  have hk : tokenKey ∈ sessionKeys := List.mem_cons_self ..
  by_cases hne : j = i
  · rw [hne]
    exact cache_forget _ i
  · have hfirst : Fades v true w (discardWith clearAgain i tokenKey w) :=
      discardWith_fades hc hw.fadeable hi hk
    have hrest : Fades v true (discardWith clearAgain i tokenKey w) (clearWith clearAgain i w) :=
      (discards_fade hc (hw.fadeable.of_fades hfirst) ((hfirst.erodes.isSome_tab? i).trans hi)
        fun key hkey => List.mem_cons_of_mem _ hkey).trans (.of_step (.forget i))
    exact hrest.erodes.cache_eq_empty (discardWith_forgets hc hw hi hs hne hj)

end Consequences

/-- Where a token is stored, clearing a session leaves no tab that listens a memory of it. -/
theorem clearSession_forgets (hw : w.Shares v) (hi : (w.tab? i).isSome)
    (hs : w.keeps v tokenKey = true) (hj : w.Listening j) :
    (w.clearSession i).cache j = .empty :=
  clearWith_forgets (clearNested_fades v true _) hw hi hs hj

/-- Clearing a session ends that of every other tab that listens, if a token is stored. -/
theorem clearSession_ended_iff (hw : w.Shares v) (hi : (w.tab? i).isSome) :
    Ended j reason w (w.clearSession i) ↔
      w.keeps v tokenKey = true ∧ j ≠ i ∧ w.Listening j ∧ reason = .crossTab :=
  clearWith_ended_iff (fun ends => clearNested_fades v ends _) hw hi

end ClientSession.Tabs

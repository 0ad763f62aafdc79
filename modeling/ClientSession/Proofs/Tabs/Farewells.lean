import ClientSession.Proofs.Tabs.Gathering

/-!
# What a tab notes of its own session

A tab that clears its session takes no leave of it; the others do. When its session ends it takes
leave, and once: the end is noted, and then each of its reactions. Storing a token makes nobody take
leave.

- `Tabs.ownNews_clearSession`, `Tabs.ownNews_endSession`, `Tabs.ownNews_install`: what each makes a
  tab note of its own session.
-/

namespace ClientSession.Tabs

variable {w w' w'' : Tabs} {v : Vault} {i j : Nat} {reason : EndReason}

/-- What has been noted since of the ends of a tab's session. -/
def ownNews (j : Nat) (w w' : Tabs) : List Occurrence := (w.news w').filter (·.concerns j)

theorem ownNews_of_history (h : w'.history = w.history) : ownNews j w w' = [] := by
  rw [ownNews, news_of_history h, List.filter_nil]

theorem ownNews_trans (h : w.history <+: w'.history) (h' : w'.history <+: w''.history) :
    ownNews j w w'' = ownNews j w w' ++ ownNews j w' w'' := by
  rw [ownNews, news_trans h h', List.filter_append]
  rfl

/-- An end of the session is among what the tab notes of it. -/
theorem ended_iff_mem_ownNews : Ended j reason w w' ↔ .ended j reason ∈ ownNews j w w' := by
  rw [ownNews, List.mem_filter, Ended]
  simp [Occurrence.concerns]

theorem count_ownNews : (ownNews j w w').count (.ended j reason) =
    (w.news w').count (.ended j reason) := by
  rw [ownNews, List.count_filter]
  simp [Occurrence.concerns]

/-- A farewell names the end of the session once. -/
theorem count_farewell (w : Tabs) (j : Nat) (reason reason' : EndReason) :
    (w.farewell j reason').count (.ended j reason) = if reason' = reason then 1 else 0 := by
  have hreactions : ((w.tab j).reactions.map fun r => Occurrence.reacted j r.2 reason').count
      (.ended j reason) = 0 := by
    refine List.count_eq_zero.mpr fun h => ?_
    obtain ⟨r, -, hr⟩ := List.mem_map.mp h
    cases hr
  rw [farewell, List.count_cons, hreactions, Nat.zero_add]
  simp

/-- The tab that clears its session takes no leave of it. -/
theorem ownNews_clearSession (hw : w.Neighbours v) (hi : (w.tab? i).isSome) :
    ownNews i w (w.clearSession i) = [] := by
  cases hs : w.keeps v tokenKey with
  | false => exact (mild_clearWith v (clearNested w.depth) w i ⟨hw, hs⟩ hi).noted i
  | true =>
      obtain ⟨again, hclear⟩ := clearSession_eq hs i
      have hbrings := clearWith_brings hw hi hs (mild_clearWith v again)
      have hself : w.leaving i i = [] := if_neg fun h => h.1 rfl
      rw [ownNews, hclear, hbrings.noted, leavings, hself, List.flatten_replicate_nil]

/-- A tab whose session ends takes leave of it, and once. -/
theorem ownNews_endSession (hw : w.Shares v) (hi : (w.tab? i).isSome) (reason : EndReason) :
    ownNews i w (w.endSession i reason) = w.farewell i reason := by
  have hclear := (clearSession_fades hw.fadeable hi).erodes
  obtain ⟨habides, hbereft⟩ := clearSession_bereft hw.neighbours hi
  have hend := endWith_brings (mild_clearNested v (w.clearSession i).depth) hbereft
    ((habides.isSome_tab? i).trans hi) reason
  have hnoted : ownNews i (w.clearSession i) (w.endSession i reason) =
      (w.clearSession i).farewell i reason := by
    rw [ownNews, endSession, hend.noted, if_pos rfl]
  have hlater := (endSession_fades_clearSession hw hi reason).erodes.history
  rw [ownNews_trans hclear.history hlater, ownNews_clearSession hw.neighbours hi, List.nil_append,
    hnoted, hclear.farewell_eq]

/-- Storing a token notes nothing that concerns a tab. -/
theorem install_history (hw : w.Shares v) (hi : (w.tab? i).isSome) (t : BearerToken)
    (given : Option Instant) : ∃ l, (w.install i t given).2.history = w.history ++ l ∧
      ∀ o ∈ l, o.concerns j = false := by
  have hshares : ∀ items, (w.withItems items).Shares v := fun _ => ⟨hw.healthy, hw.vault_eq⟩
  have hopen : ∀ items, ((w.withItems items).tab? i).isSome := fun _ => hi
  have hnothing : ∃ l, w.history = w.history ++ l ∧ ∀ o ∈ l, o.concerns j = false :=
    ⟨[], (List.append_nil _).symm, fun _ ho => nomatch ho⟩
  unfold install
  split
  · exact hnothing
  · dsimp only
    split
    · exact hnothing
    · rw [writeKey_of_shares hw hi, writeKey_of_shares (hshares _) (hopen _), withItems_withItems]
      split
      · exact hnothing
      · -- The claims of the last session are removed, of which only other listeners are told.
        rw [removeKey_claims (hshares _) (hopen _)]
        refine ⟨.changed ⟨claimsKey, none, i⟩ :: echoes claimsKey w.listeners, rfl, fun o ho => ?_⟩
        rcases List.mem_cons.mp ho with rfl | ho
        · rfl
        · obtain ⟨⟨n, l⟩, -, hl⟩ := List.mem_filterMap.mp ho
          cases l with
          | tab k => cases hl
          | note name =>
              obtain rfl := Option.some.inj hl
              rfl

theorem ownNews_install (hw : w.Shares v) (hi : (w.tab? i).isSome) (t : BearerToken)
    (given : Option Instant) : ownNews j w (w.install i t given).2 = [] := by
  obtain ⟨l, hl, hconcerns⟩ := install_history (j := j) hw hi t given
  rw [ownNews, news, hl, List.drop_left, List.filter_eq_nil_iff]
  intro o ho
  rw [hconcerns o ho]
  exact Bool.false_ne_true

end ClientSession.Tabs

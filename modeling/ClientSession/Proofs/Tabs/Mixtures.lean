import ClientSession.Proofs.Tabs.Ordeals
import ClientSession.Proofs.Tabs.Transparency

/-!
# Who wrote the stored session

The token of a session and its expiry are stored under keys of their own, one after the other, and
either of the two calls may fail. So what is stored may be the token of one session and the expiry
of another. The visits are numbered from one, and zero stands for what was stored before them.

- `author`: the number of the visit that wrote what is stored of a part.
- `Penned.step`: what a visit makes of the authors.
- `Ordeal.same_author_iff`: when the two parts have one author, and what a tab that is opened anew
  reads.
- `not_same_author`: a token under the expiry of an earlier one.
-/

namespace ClientSession

open Tabs

/-- The parts of a session that decide which token is given, and how long. -/
inductive Part where
  | token
  | expiry

namespace Part

def key : Part → String
  | .token => tokenKey
  | .expiry => expiryKey

/-- What is stored of a session for a part. -/
def text (s : StoredSession) : Part → String
  | .token => s.token.text
  | .expiry => toString s.expiry.floorSeconds

/-- The backend as the call finds it that writes the part. -/
def finds (b : Backend) : Part → Backend
  | .token => b
  | .expiry => b.advance

end Part

theorem Tabs.Enters.item {w w' : Tabs} {i : Nat} {t : BearerToken} {e : Instant}
    (h : Enters i t e w w') (p : Part) : w'.item i p.key =
      if (p.finds w.backend).fails .set then w.item i p.key
      else some ((w.vault i).conceal (p.text ⟨t, e⟩)) := by
  cases p with
  | token => exact h.token
  | expiry => exact h.expiry

namespace Visit

variable {x : Visit} {w : Tabs}

/-- The visit writes a part of a session. -/
def writes (x : Visit) (p : Part) : Bool :=
  x.deed.session?.isSome && !(p.finds x.found.backend).fails .set

/-- The part is stored after the visit. -/
def leavesStored (x : Visit) (p : Part) : Bool := x.left?.any fun w => w.stores x.tab p.key

/-- The visit writes the part or removes it. -/
def touches (x : Visit) (p : Part) : Bool :=
  x.writes p || (x.found.stores x.tab p.key && !x.leavesStored p)

/-- The author of what is stored of a part after the visit of a number. -/
def author (p : Part) (number : Nat) (before : Option Nat) (x : Visit) : Option Nat :=
  if x.writes p then some number else if x.leavesStored p then before else none

theorem leavesStored_eq (hx : x.left? = some w) (p : Part) :
    x.leavesStored p = w.stores x.tab p.key := by
  rw [leavesStored, hx, Option.any_some]

/-- A deed that stores no session writes nothing; it may remove what is stored. -/
theorem item_of_session_none (h : x.Yields w) (hs : x.deed.session? = none) (p : Part) :
    w.item x.tab p.key = none ∨ w.item x.tab p.key = x.found.item x.tab p.key := by
  cases h with
  | reads _ h =>
      right
      rw [item, item, h.items, vault_congr h.bare]
  | same _ h =>
      right
      rw [item, item, h.backend, h.vault]
  | clears _ h hc =>
      rw [item, item, vault_congr h.bare]
      exact h.item _
  | stores hd he h =>
      rw [hd, Deed.session?_install, he] at hs
      cases hs

/-- A deed that stores a session leaves what it cannot write as it was. -/
theorem item_of_session {s : StoredSession} (h : x.Yields w) (hs : x.deed.session? = some s)
    (p : Part) : w.item x.tab p.key =
      if x.writes p then some ((x.found.vault x.tab).conceal (p.text s))
      else x.found.item x.tab p.key := by
  cases h with
  | reads hnone _ => rw [hs] at hnone; cases hnone
  | same hnone _ => rw [hs] at hnone; cases hnone
  | clears hnone _ _ => rw [hs] at hnone; cases hnone
  | @stores t given e _ hd he h =>
      have hsession := hs
      rw [hd, Deed.session?_install, he] at hsession
      obtain rfl := Option.some.inj hsession
      rw [h.item, writes, hs]
      cases (p.finds x.found.backend).fails .set <;> rfl

/-- A part that is stored after a visit that did not write it is as it was. -/
theorem item_of_kept (h : x.Yields w) {p : Part} (hwrites : x.writes p = false)
    (hstored : w.stores x.tab p.key = true) :
    w.item x.tab p.key = x.found.item x.tab p.key := by
  cases hs : x.deed.session? with
  | none =>
      rcases item_of_session_none h hs p with e | e
      · rw [← isSome_item, e] at hstored
        cases hstored
      · exact e
  | some s => rw [item_of_session h hs, hwrites, if_neg Bool.false_ne_true]

/-- A part that was written is one of the session that the visit stores. -/
theorem session_of_writes {p : Part} (hwrites : x.writes p = true) :
    ∃ s, x.deed.session? = some s := by
  rw [writes, Bool.and_eq_true] at hwrites
  exact Option.isSome_iff_exists.mp hwrites.1

theorem author_of_writes {p : Part} (hwrites : x.writes p = true) (number : Nat)
    (before : Option Nat) : x.author p number before = some number := if_pos hwrites

theorem author_of_kept (hx : x.left? = some w) {p : Part} (hwrites : x.writes p = false)
    (hstored : w.stores x.tab p.key = true) (number : Nat) (before : Option Nat) :
    x.author p number before = before := by
  rw [author, hwrites, if_neg Bool.false_ne_true, leavesStored_eq hx, if_pos hstored]

theorem touches_of_kept (hx : x.left? = some w) {p : Part} (hwrites : x.writes p = false)
    (hstored : w.stores x.tab p.key = true) : x.touches p = false := by
  rw [touches, hwrites, leavesStored_eq hx, hstored, Bool.not_true, Bool.and_false, Bool.or_false]

theorem touches_of_writes {p : Part} (hwrites : x.writes p = true) : x.touches p = true := by
  rw [touches, hwrites, Bool.true_or]

theorem Yields.vault (h : x.Yields w) (j : Nat) : w.vault j = x.found.vault j := by
  cases h with
  | reads _ h => exact vault_congr h.bare j
  | same _ h => exact h.vault j
  | clears _ h _ => exact vault_congr h.bare j
  | stores _ _ h => exact vault_congr h.bare j

/-- The token of a session that a visit stores is not blank, and its end is in the calendar. -/
theorem usable_of_session {s : StoredSession} (hx : x.left? = some w)
    (hs : x.deed.session? = some s) : s.token.isBlank = false ∧ s.expiry.InCalendar := by
  have hdated := (isSome_of_left? hx).2.1
  rcases yields hx with ⟨hnone, _⟩ | ⟨hnone, _⟩ | ⟨hnone, _, _⟩ | ⟨hd, he, _⟩
  · rw [hs] at hnone; cases hnone
  · rw [hs] at hnone; cases hnone
  · rw [hs] at hnone; cases hnone
  · rw [hd, Deed.session?_install, he] at hs
    obtain rfl := Option.some.inj hs
    rw [hd] at hdated
    exact inCalendar_of_term? he hdated

end Visit

/-! ## Authors -/

/-- The number of the visit that wrote what is stored of a part after visits to a tab. -/
def author (w : Tabs) (i : Nat) (p : Part) (visits : List Visit) : Option Nat :=
  (visits.zipIdx 1).foldl (fun before x => x.1.author p x.2 before)
    (if w.stores i p.key then some 0 else none)

theorem author_snoc (w : Tabs) (i : Nat) (p : Part) (visits : List Visit) (x : Visit) :
    author w i p (visits ++ [x]) = x.author p (visits.length + 1) (author w i p visits) := by
  simp [author, List.zipIdx_append, Nat.add_comm]

/-- The last visit that wrote or removed a part of the session. -/
def lastTouch (visits : List Visit) : Option Visit :=
  visits.reverse.find? fun x => x.touches .token || x.touches .expiry

theorem lastTouch_snoc (visits : List Visit) (x : Visit) :
    lastTouch (visits ++ [x]) =
      if x.touches .token || x.touches .expiry then some x else lastTouch visits := by
  rw [lastTouch, List.reverse_append, List.reverse_singleton, List.singleton_append,
    List.find?_cons]
  split <;> simp_all [lastTouch]

/-- Parts that are stored have the authors that the visits say, who stored sessions of which these
are the parts. They are the same author exactly if the last visit that touched a part wrote both. -/
structure Penned (w : Tabs) (i : Nat) (visits : List Visit) (u : Tabs) : Prop where
  vault : u.vault i = w.vault i
  held : ∀ p, (author w i p visits).isSome = u.stores i p.key
  bound : ∀ p n, author w i p visits = some n → n ≤ visits.length
  text : ∀ p n, author w i p visits = some (n + 1) → ∃ x s, visits[n]? = some x ∧
    x.deed.session? = some s ∧ s.token.isBlank = false ∧ s.expiry.InCalendar ∧
      u.item i p.key = some ((w.vault i).conceal (p.text s))
  same : (∀ p : Part, u.stores i p.key = true) →
    (author w i .token visits = author w i .expiry visits ↔
      ∀ x ∈ lastTouch visits, x.writes .token = x.writes .expiry)

namespace Penned

variable {w u u' : Tabs} {i : Nat} {visits : List Visit} {x : Visit}

theorem start (w : Tabs) (i : Nat) : Penned w i [] w where
  vault := rfl
  held p := by cases h : w.stores i p.key <;> simp [author, h]
  bound p n h := by
    have h' : (if w.stores i p.key then some 0 else none) = some n := h
    split at h' <;> cases h'
    exact Nat.le_refl _
  text p n h := by
    have h' : (if w.stores i p.key then some 0 else none) = some (n + 1) := h
    split at h' <;> cases h'
  same hs := by
    have hzero : ∀ p, author w i p [] = some 0 := fun p => if_pos (hs p)
    rw [hzero, hzero]
    exact iff_of_true rfl nofun

theorem of_undisturbed (h : Penned w i visits u) (hu : u.Undisturbed u') :
    Penned w i visits u' where
  vault := by
    rw [vault_congr hu.bare]
    exact h.vault
  held p := by
    rw [hu.stores]
    exact h.held p
  bound := h.bound
  text p n hn := by
    rw [hu.item]
    exact h.text p n hn
  same hs := h.same fun p => hu.stores i p.key ▸ hs p

section Step

variable (h : Penned w x.tab visits x.found) (hx : x.left? = some u)
include h hx

theorem held_next (p : Part) :
    (author w x.tab p (visits ++ [x])).isSome = u.stores x.tab p.key := by
  rw [author_snoc]
  cases hwrites : x.writes p with
  | true =>
      obtain ⟨s, hs⟩ := Visit.session_of_writes hwrites
      rw [Visit.author_of_writes hwrites, ← isSome_item,
        Visit.item_of_session (Visit.yields hx) hs, hwrites, if_pos rfl]
      rfl
  | false =>
      cases hstored : u.stores x.tab p.key with
      | false =>
          rw [Visit.author, hwrites, Visit.leavesStored_eq hx, hstored]
          rfl
      | true =>
          rw [Visit.author_of_kept hx hwrites hstored, h.held, ← isSome_item,
            ← Visit.item_of_kept (Visit.yields hx) hwrites hstored, isSome_item, hstored]

/-- An author after a visit is the visit itself, or it was the author before of what was kept. -/
theorem author_next {p : Part} {n : Nat} (hn : author w x.tab p (visits ++ [x]) = some n) :
    (x.writes p = true ∧ n = visits.length + 1) ∨
      (x.writes p = false ∧ u.stores x.tab p.key = true ∧ author w x.tab p visits = some n) := by
  have hstored : u.stores x.tab p.key = true := by
    rw [← held_next h hx, hn, Option.isSome_some]
  rw [author_snoc] at hn
  cases hwrites : x.writes p with
  | true =>
      rw [Visit.author_of_writes hwrites] at hn
      exact .inl ⟨rfl, (Option.some.inj hn).symm⟩
  | false =>
      rw [Visit.author_of_kept hx hwrites hstored] at hn
      exact .inr ⟨rfl, hstored, hn⟩

theorem text_next {p : Part} {n : Nat} (hn : author w x.tab p (visits ++ [x]) = some (n + 1)) :
    ∃ y s, (visits ++ [x])[n]? = some y ∧ y.deed.session? = some s ∧ s.token.isBlank = false ∧
      s.expiry.InCalendar ∧ u.item x.tab p.key = some ((w.vault x.tab).conceal (p.text s)) := by
  rcases author_next h hx hn with ⟨hwrites, hnumber⟩ | ⟨hwrites, hstored, hbefore⟩
  · obtain rfl : n = visits.length := Nat.succ.inj hnumber
    obtain ⟨s, hs⟩ := Visit.session_of_writes hwrites
    obtain ⟨ht, he⟩ := Visit.usable_of_session hx hs
    refine ⟨x, s, List.getElem?_concat_length, hs, ht, he, ?_⟩
    rw [Visit.item_of_session (Visit.yields hx) hs, hwrites, if_pos rfl, h.vault]
  · obtain ⟨y, s, hy, hs, ht, he, hitem⟩ := h.text p n hbefore
    refine ⟨y, s, ?_, hs, ht, he, ?_⟩
    · rw [List.getElem?_append_left (List.getElem?_eq_some_iff.mp hy).1, hy]
    · rw [Visit.item_of_kept (Visit.yields hx) hwrites hstored, hitem]

/-- The parts differ in their authors where only one of them was written just now. -/
theorem ne_of_writes_one {p q : Part} (hp : x.writes p = true) (hq : x.writes q = false) :
    author w x.tab p (visits ++ [x]) ≠ author w x.tab q (visits ++ [x]) := by
  intro heq
  have hauthor : author w x.tab p (visits ++ [x]) = some (visits.length + 1) := by
    rw [author_snoc, Visit.author_of_writes hp]
  rw [hauthor] at heq
  rcases author_next h hx heq.symm with ⟨hwrites, -⟩ | ⟨-, -, hbefore⟩
  · rw [hq] at hwrites
    cases hwrites
  · exact Nat.not_succ_le_self _ (h.bound q _ hbefore)

theorem same_next (hstored : ∀ p : Part, u.stores x.tab p.key = true) :
    author w x.tab .token (visits ++ [x]) = author w x.tab .expiry (visits ++ [x]) ↔
      ∀ y ∈ lastTouch (visits ++ [x]), y.writes .token = y.writes .expiry := by
  rw [lastTouch_snoc]
  cases ht : x.writes .token with
  | true =>
      rw [Visit.touches_of_writes ht, Bool.true_or, if_pos rfl]
      cases he : x.writes .expiry with
      | true =>
          rw [author_snoc, author_snoc, Visit.author_of_writes ht, Visit.author_of_writes he]
          simp [ht, he]
      | false => simp [ne_of_writes_one h hx ht he, ht, he]
  | false =>
      cases he : x.writes .expiry with
      | true =>
          rw [Visit.touches_of_writes he, Bool.or_true, if_pos rfl]
          simp [(ne_of_writes_one h hx he ht).symm, ht, he]
      | false =>
          -- Neither part was touched: what was stored still is, and by whom.
          have hunwritten : ∀ p, x.writes p = false := fun p => by cases p <;> assumption
          rw [author_snoc, author_snoc, Visit.author_of_kept hx ht (hstored _),
            Visit.author_of_kept hx he (hstored _), Visit.touches_of_kept hx ht (hstored _),
            Visit.touches_of_kept hx he (hstored _), Bool.or_self, if_neg Bool.false_ne_true]
          refine h.same fun p => ?_
          rw [← isSome_item, ← Visit.item_of_kept (Visit.yields hx) (hunwritten p) (hstored p),
            isSome_item, hstored]

theorem step : Penned w x.tab (visits ++ [x]) u where
  vault := ((Visit.yields hx).vault x.tab).trans h.vault
  held := held_next h hx
  bound p n hn := by
    rw [List.length_append, List.length_singleton]
    rcases author_next h hx hn with ⟨-, rfl⟩ | ⟨-, -, hbefore⟩
    · exact Nat.le_refl _
    · exact Nat.le_succ_of_le (h.bound p n hbefore)
  text p n hn := text_next h hx hn
  same := same_next h hx

end Step

end Penned

theorem Ordeal.penned {w u : Tabs} {i : Nat} {visits : List Visit} (h : Ordeal w visits u)
    (hw : w.Sole i) : Penned w i visits u := by
  refine (h.invariant (A := Penned w i) hw (.start w i) (fun _ _ _ hu hA => hA.of_undisturbed hu)
    ?_).2
  rintro visits x u - rfl hx hA
  exact hA.step hx

/-! ## Reading anew -/

namespace Tabs

/-- The token that a tab gives which is opened anew once storage has recovered. -/
def rereadToken (w : Tabs) (i : Nat) (now : Instant) : Option BearerToken :=
  (((w.withFailures [] []).reopened i).token w.slots.length now).1

variable {w : Tabs} {i : Nat}

/-- A tab that remembers nothing gives the stored token until the stored end. -/
theorem token_of_stored (h : w.backend.Healthy) (hc : w.cache i = .empty) {t : BearerToken}
    {e : Instant} (ht : (w.storedToken i).1 = some t) (he : w.storedEnd? i t = some e)
    (now : Instant) : (w.token i now).1 = if e ≤ now then none else some t := by
  have hread := tokenRead h i now
  generalize w.token i now = r at hread
  cases hread with
  | remembered hlive =>
      rw [hc] at hlive
      cases hlive
  | past hcold hpast => exact (if_pos (hpast t e ht he)).symm
  | found hcold ht' he' hlt =>
      obtain rfl := Option.some.inj (ht.symm.trans ht')
      obtain rfl := Option.some.inj (he.symm.trans he')
      exact (if_neg (Int.not_le.mpr hlt)).symm

theorem rereadToken_eq (hw : w.Sole i) {t : BearerToken} {e : Instant} (ht : t.isBlank = false)
    (he : e.InCalendar) (htoken : w.item i tokenKey = some ((w.vault i).conceal t.text))
    (hexpiry : w.item i expiryKey = some ((w.vault i).conceal (toString e.floorSeconds)))
    (now : Instant) :
    w.rereadToken i now = if e.startOfSecond ≤ now then none else some t := by
  let u := (w.withFailures [] []).forget i
  have hbare : ∀ j, u.bare? j = w.bare? j := fun j => bare?_setCache (w.withFailures [] []) i j _
  have hshares : u.Shares (w.vault i) := by
    refine ⟨⟨rfl, rfl⟩, fun j hj => ?_⟩
    rw [isSome_tab?_congr hbare] at hj
    rw [hw.alone j hj, vault_congr hbare]
  have hi : (u.tab? i).isSome := by
    rw [isSome_tab?_congr hbare]
    exact hw.here
  have hend : u.storedEnd? i t = some e.startOfSecond := by
    rw [storedEnd?, storedExpiry_of_item hshares hi hexpiry, Instant.ofSeconds?_floorSeconds he,
      Option.some_or]
  have hreread : w.rereadToken i now = (u.token i now).1 :=
    (answersLike_reopened ⟨rfl, rfl⟩ i now).token
  rw [hreread]
  exact token_of_stored hshares.healthy (cache_forget _ i)
    (storedToken_of_item hshares hi ht htoken) hend now

end Tabs

/-- After any visits to the one open tab, parts that are stored have authors. They have the same
one exactly if the last visit that wrote or removed a part did not write only one of the two. A tab
that is opened anew gives the token of the one author until the end of the session of the other. -/
theorem Ordeal.same_author_iff {w u : Tabs} {i : Nat} {visits : List Visit}
    (h : Ordeal w visits u) (hw : w.Sole i) :
    (∀ p, (author w i p visits).isSome = u.stores i p.key) ∧
      ((∀ m n, author w i .token visits = some m → author w i .expiry visits = some n → m = n) ↔
        ((∀ p : Part, u.stores i p.key = true) →
          ∀ x ∈ lastTouch visits, x.writes .token = x.writes .expiry)) ∧
      ∀ m n, author w i .token visits = some (m + 1) → author w i .expiry visits = some (n + 1) →
        ∃ x s y s', visits[m]? = some x ∧ x.deed.session? = some s ∧
          visits[n]? = some y ∧ y.deed.session? = some s' ∧
            ∀ now, u.rereadToken i now =
              if s'.expiry.startOfSecond ≤ now then none else some s.token := by
  have hpenned := h.penned hw
  refine ⟨hpenned.held, ⟨fun hsame hstored => ?_, fun hwhole m n hm hn => ?_⟩, fun m n hm hn => ?_⟩
  · obtain ⟨m, hm⟩ := Option.isSome_iff_exists.mp ((hpenned.held .token).trans (hstored .token))
    obtain ⟨n, hn⟩ := Option.isSome_iff_exists.mp ((hpenned.held .expiry).trans (hstored .expiry))
    refine (hpenned.same hstored).mp ?_
    rw [hm, hn, hsame m n hm hn]
  · have hstored : ∀ p : Part, u.stores i p.key = true := by
      intro p
      rw [← hpenned.held]
      cases p with
      | token => rw [hm, Option.isSome_some]
      | expiry => rw [hn, Option.isSome_some]
    have heq := (hpenned.same hstored).mpr (hwhole hstored)
    rw [hm, hn] at heq
    exact Option.some.inj heq
  · obtain ⟨x, s, hx, hs, ht, -, htoken⟩ := hpenned.text .token m hm
    obtain ⟨y, s', hy, hs', -, he, hexpiry⟩ := hpenned.text .expiry n hn
    rw [← hpenned.vault] at htoken hexpiry
    exact ⟨x, s, y, s', hx, hs, hy, hs', rereadToken_eq (h.sole hw) ht he htoken hexpiry⟩

/-- A tab stores a token for an hour and then another one for a minute. Which calls fail meanwhile
is left open. -/
def twoSessions (faults : List Bool) : List (List Bool × Instant × Deed) :=
  [([], ⟨1748779200000000000⟩, .act (.install ⟨"t1"⟩ (some ⟨1748782800000000000⟩))),
    (faults, ⟨1748779200000000000⟩, .act (.install ⟨"t2"⟩ (some ⟨1748779260000000000⟩)))]

/-- The first session stays whole when all calls for the second one fail: a tab that is opened anew
gives its token for the hour. -/
theorem same_author_iff_plain : ∃ visits u, Ordeal Client.plain.tabs visits u ∧
    Client.plain.tabs.Sole 0 ∧ author Client.plain.tabs 0 .token visits = some 1 ∧
      author Client.plain.tabs 0 .expiry visits = some 1 ∧
        ∀ now, u.rereadToken 0 now =
          if (⟨1748782800000000000⟩ : Instant) ≤ now then none else some ⟨"t1"⟩ := by
  have hpasses : Ordeal.passes 0 Client.plain.tabs (twoSessions [true, true, true])
      (fun visits u => u.stores 0 expiryKey && decide (
        author Client.plain.tabs 0 .token visits = some 1 ∧
          (lastTouch visits).map (fun x => (x.writes .token, x.writes .expiry)) =
            some (true, true) ∧
          visits[0]?.map (·.deed.session?) =
            some (some ⟨⟨"t1"⟩, ⟨1748782800000000000⟩⟩))) = true := by
    decide +kernel
  obtain ⟨visits, u, hordeal, htest⟩ := Ordeal.exists_of_passes hpasses
  obtain ⟨hexpiry, htest⟩ := Bool.and_eq_true_iff.mp htest
  obtain ⟨htoken, hlast, hfirst⟩ := of_decide_eq_true htest
  obtain ⟨hheld, hsame, hreads⟩ := Ordeal.same_author_iff hordeal sole_plain
  obtain ⟨n, hn⟩ := Option.isSome_iff_exists.mp ((hheld .expiry).trans hexpiry)
  have hwhole : ∀ x ∈ lastTouch visits, x.writes .token = x.writes .expiry := by
    intro x hx
    rw [Option.mem_def.mp hx, Option.map_some] at hlast
    obtain ⟨ht, he⟩ := Prod.mk.inj (Option.some.inj hlast)
    rw [ht, he]
  obtain rfl : 1 = n := hsame.mpr (fun _ => hwhole) 1 n htoken hn
  obtain ⟨x, s, y, s', hx, hs, hy, hs', hgives⟩ := hreads 0 0 htoken hn
  have hsession : ∀ x s, visits[0]? = some x → x.deed.session? = some s →
      s = ⟨⟨"t1"⟩, ⟨1748782800000000000⟩⟩ := by
    intro x s hx hs
    rw [hx, Option.map_some, hs] at hfirst
    exact Option.some.inj (Option.some.inj hfirst)
  obtain rfl := hsession x s hx hs
  obtain rfl := hsession y s' hy hs'
  exact ⟨visits, u, hordeal, sole_plain, htoken, hn, hgives⟩

/-- The token of the second session is written and its expiry is not. -/
theorem not_same_author : ¬∀ (visits : List Visit) (u : Tabs), Ordeal Client.plain.tabs visits u →
    ∀ m n, author Client.plain.tabs 0 .token visits = some m →
      author Client.plain.tabs 0 .expiry visits = some n → m = n := by
  intro hclaim
  have hpasses : Ordeal.passes 0 Client.plain.tabs (twoSessions [false, true]) (fun visits _ =>
      decide (author Client.plain.tabs 0 .token visits = some 2 ∧
        author Client.plain.tabs 0 .expiry visits = some 1)) = true := by
    decide +kernel
  obtain ⟨visits, u, hordeal, htest⟩ := Ordeal.exists_of_passes hpasses
  obtain ⟨htoken, hexpiry⟩ := of_decide_eq_true htest
  exact absurd (hclaim visits u hordeal 2 1 htoken hexpiry) (by decide)

end ClientSession

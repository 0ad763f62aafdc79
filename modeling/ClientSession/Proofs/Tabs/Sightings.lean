import ClientSession.Proofs.Tabs.Gathering

/-!
# Seeing sessions end

What tabs note says that a session ended, not what was stored at that moment: reactions to the end
may remove more. Here the tabs are watched. Everything happens to them as it does otherwise, and of
each end of a session it is kept whose it was, why and through which tab it came, and how the tabs
were right then.

- `Watched`: tabs that are watched, with all that happens to tabs.
- `Watched.Mirrors`: to watch them makes no difference, and what is seen is what the tabs note.
-/

namespace ClientSession

open Tabs

/-- The end of a session: of which tab, why, through which tab, and the tabs at that moment. -/
structure Sighting where
  tab : Nat
  reason : EndReason
  origin : Nat
  tabs : Tabs

/-- What the tabs note of it. -/
def Sighting.occurrence (s : Sighting) : Occurrence := .ended s.tab s.reason

def Occurrence.isEnd : Occurrence → Bool
  | .ended _ _ => true
  | _ => false

/-- Tabs, and the ends of sessions that were seen. -/
structure Watched where
  tabs : Tabs
  seen : List Sighting

namespace Watched

/-- Nothing is seen. -/
def on (f : Tabs → Tabs) (x : Watched) : Watched := { x with tabs := f x.tabs }

section Consequences

variable (again : Nat → Watched → Watched)

def reactWith (i : Nat) (r : Reaction) (reason : EndReason) (x : Watched) : Watched :=
  match r with
  | .clear => again i (x.on (·.note (.reacted i r reason)))
  | _ => x.on (·.note (.reacted i r reason))

/-- The end of the session is seen, and noted. -/
def sight (i : Nat) (reason : EndReason) (origin : Nat) (x : Watched) : Watched :=
  ⟨x.tabs.note (.ended i reason), x.seen ++ [⟨i, reason, origin, x.tabs⟩]⟩

def endWith (i : Nat) (reason : EndReason) (origin : Nat) (x : Watched) : Watched :=
  (x.tabs.tab i).reactions.foldl (fun x r => reactWith again i r.2 reason x)
    (x.sight i reason origin)

def hearWith (c : Change) (l : Listener) (x : Watched) : Watched :=
  match l with
  | .note name => x.on (·.note (.heard name c.key))
  | .tab j =>
    if j ≠ c.origin ∧ (x.tabs.tab? j).isSome ∧ c.key = tokenKey ∧ c.newValue = none then
      endWith again j .crossTab c.origin (x.on (·.forget j))
    else x

def publishWith (c : Change) (x : Watched) : Watched :=
  x.tabs.listeners.foldl (fun x l => hearWith again c l.2 x) (x.on (·.note (.changed c)))

def removeWith (i : Nat) (key : String) (x : Watched) : Watched :=
  let r := (x.tabs.vault i).remove key x.tabs.backend
  let x := x.on fun w => { w with backend := r.2 }
  if r.1 && Vault.concernsSession key then publishWith again ⟨key, none, i⟩ x else x

def discardWith (i : Nat) (key : String) (x : Watched) : Watched :=
  let r := x.tabs.hasKey i key
  if r.1 then removeWith again i key (x.on fun _ => r.2) else x.on fun _ => r.2

def clearWith (i : Nat) (x : Watched) : Watched :=
  (sessionKeys.foldl (fun x key => discardWith again i key x) x).on (·.forget i)

end Consequences

def clearNested : Nat → Nat → Watched → Watched
  | 0, i, x => x.on (·.forget i)
  | depth + 1, i, x => clearWith (clearNested depth) i x

def removeKey (i : Nat) (key : String) (x : Watched) : Watched :=
  removeWith (clearNested x.tabs.depth) i key x

def clearVault (i : Nat) (x : Watched) : Watched :=
  let r := (x.tabs.vault i).keys x.tabs.backend
  r.1.foldl (fun x key => x.removeKey i key) (x.on fun w => { w with backend := r.2 })

def clearSession (i : Nat) (x : Watched) : Watched := clearWith (clearNested x.tabs.depth) i x

def endSession (i : Nat) (reason : EndReason) (x : Watched) : Watched :=
  endWith (clearNested (x.clearSession i).tabs.depth) i reason i (x.clearSession i)

/-! ## Watching makes no difference -/

/-- The ends of sessions that are noted are those that were noted earlier and those that were seen.
-/
def Told (earlier : List Occurrence) (x : Watched) : Prop :=
  x.tabs.history.filter (·.isEnd) = earlier ++ x.seen.map Sighting.occurrence

/-- What happens to watched tabs is what happens to them otherwise, and what is seen is what they
note. -/
structure Mirrors (F : Watched → Watched) (f : Tabs → Tabs) : Prop where
  tabs : ∀ x, (F x).tabs = f x.tabs
  told : ∀ earlier x, Told earlier x → Told earlier (F x)

namespace Mirrors

variable {F G : Watched → Watched} {f g : Tabs → Tabs}

protected theorem id : Mirrors (fun x => x) fun w => w := ⟨fun _ => rfl, fun _ _ h => h⟩

theorem comp (hF : Mirrors F f) (hG : Mirrors G g) : Mirrors (fun x => G (F x)) fun w => g (f w) :=
  ⟨fun x => by rw [hG.tabs, hF.tabs], fun earlier x h => hG.told _ _ (hF.told earlier x h)⟩

/-- Nothing is seen where no end of a session is noted. -/
theorem on (h : ∀ w, (f w).history.filter (·.isEnd) = w.history.filter (·.isEnd)) :
    Mirrors (Watched.on f) f :=
  ⟨fun _ => rfl, fun _ x hx => (h x.tabs).trans hx⟩

theorem note {o : Occurrence} (ho : o.isEnd = false) :
    Mirrors (Watched.on (·.note o)) (·.note o) := by
  refine .on fun w => ?_
  show (w.history ++ [o]).filter (·.isEnd) = _
  simp [ho]

theorem forget (i : Nat) : Mirrors (Watched.on (·.forget i)) (·.forget i) := .on fun _ => rfl

theorem foldl {α : Type} {F : Watched → α → Watched} {f : Tabs → α → Tabs}
    (h : ∀ a, Mirrors (fun x => F x a) fun w => f w a) (l : List α) :
    Mirrors (fun x => l.foldl F x) fun w => l.foldl f w := by
  induction l with
  | nil => exact .id
  | cons a l ih => exact (h a).comp ih

/-- It is decided by the tabs what happens. -/
theorem choose {α : Type} {F : α → Watched → Watched} {f : α → Tabs → Tabs}
    (h : ∀ a, Mirrors (F a) (f a)) (by' : Tabs → α) :
    Mirrors (fun x => F (by' x.tabs) x) fun w => f (by' w) w :=
  ⟨fun x => (h _).tabs x, fun earlier x hx => (h _).told earlier x hx⟩

theorem ite (hF : Mirrors F f) (hG : Mirrors G g) (p : Tabs → Prop) [DecidablePred p] :
    Mirrors (fun x => if p x.tabs then F x else G x) fun w => if p w then f w else g w := by
  refine ⟨fun x => ?_, fun earlier x hx => ?_⟩
  · by_cases hp : p x.tabs
    · rw [if_pos hp, if_pos hp, hF.tabs]
    · rw [if_neg hp, if_neg hp, hG.tabs]
  · by_cases hp : p x.tabs
    · rw [if_pos hp]
      exact hF.told earlier x hx
    · rw [if_neg hp]
      exact hG.told earlier x hx

end Mirrors

theorem mirrors_sight (i : Nat) (reason : EndReason) (origin : Nat) :
    Mirrors (sight i reason origin) (·.note (.ended i reason)) := by
  refine ⟨fun _ => rfl, fun earlier x hx => ?_⟩
  show (x.tabs.history ++ [Occurrence.ended i reason]).filter (·.isEnd) = _
  unfold Told at hx
  rw [List.filter_append, hx]
  simp [sight, Sighting.occurrence, Occurrence.isEnd]

section Consequences

variable {again : Nat → Watched → Watched} {clearAgain : Nat → Tabs → Tabs}
  (h : ∀ i, Mirrors (again i) (clearAgain i))
include h

theorem mirrors_reactWith (i : Nat) (r : Reaction) (reason : EndReason) :
    Mirrors (reactWith again i r reason) (Tabs.reactWith clearAgain i r reason) := by
  have hnote : Mirrors (Watched.on (·.note (.reacted i r reason))) (·.note (.reacted i r reason)) :=
    .note rfl
  cases r with
  | note name => exact hnote
  | stopWork => exact hnote
  | clear => exact hnote.comp (h i)

theorem mirrors_endWith (i : Nat) (reason : EndReason) (origin : Nat) :
    Mirrors (endWith again i reason origin) (Tabs.endWith clearAgain i reason) :=
  .choose (fun reactions => (mirrors_sight i reason origin).comp
    (.foldl (fun r : Nat × Reaction => mirrors_reactWith h i r.2 reason) reactions))
    fun w => (w.tab i).reactions

theorem mirrors_hearWith (c : Change) (l : Listener) :
    Mirrors (hearWith again c l) (Tabs.hearWith clearAgain c l) := by
  cases l with
  | note name => exact .note rfl
  | tab j =>
      exact .ite ((Mirrors.forget j).comp (mirrors_endWith h j .crossTab c.origin)) .id
        fun w => j ≠ c.origin ∧ (w.tab? j).isSome ∧ c.key = tokenKey ∧ c.newValue = none

theorem mirrors_publishWith (c : Change) :
    Mirrors (publishWith again c) (Tabs.publishWith clearAgain c) :=
  .choose (fun listeners => (Mirrors.note rfl).comp
    (.foldl (fun l : Nat × Listener => mirrors_hearWith h c l.2) listeners)) fun w => w.listeners

theorem mirrors_removeWith (i : Nat) (key : String) :
    Mirrors (removeWith again i key) (Tabs.removeWith clearAgain i key) :=
  .choose (fun r : Bool × Backend =>
    (Mirrors.on (f := fun w => { w with backend := r.2 }) fun _ => rfl).comp
      (.ite (mirrors_publishWith h ⟨key, none, i⟩) .id fun _ => r.1 && Vault.concernsSession key))
    fun w => (w.vault i).remove key w.backend

theorem mirrors_discardWith (i : Nat) (key : String) :
    Mirrors (discardWith again i key) (Tabs.discardWith clearAgain i key) := by
  have hprobe : Mirrors (Watched.on fun w => (w.hasKey i key).2) fun w => (w.hasKey i key).2 :=
    .on fun _ => rfl
  exact .ite (hprobe.comp (mirrors_removeWith h i key)) hprobe fun w => (w.hasKey i key).1

theorem mirrors_clearWith (i : Nat) :
    Mirrors (clearWith again i) (Tabs.clearWith clearAgain i) :=
  (Mirrors.foldl (mirrors_discardWith h i) sessionKeys).comp (.forget i)

end Consequences

theorem mirrors_clearNested (depth i : Nat) :
    Mirrors (clearNested depth i) (Tabs.clearNested depth i) := by
  induction depth generalizing i with
  | zero => exact .forget i
  | succ depth ih => exact mirrors_clearWith ih i

theorem mirrors_removeKey (i : Nat) (key : String) :
    Mirrors (removeKey i key) fun w => w.removeKey i key :=
  .choose (fun depth => mirrors_removeWith (mirrors_clearNested depth) i key) Tabs.depth

theorem mirrors_clearVault (i : Nat) : Mirrors (clearVault i) fun w => w.clearVault i :=
  .choose (fun r : List String × Backend =>
    (Mirrors.on (f := fun w => { w with backend := r.2 }) fun _ => rfl).comp
      (.foldl (mirrors_removeKey i) r.1)) fun w => (w.vault i).keys w.backend

theorem mirrors_clearSession (i : Nat) : Mirrors (clearSession i) fun w => w.clearSession i :=
  .choose (fun depth => mirrors_clearWith (mirrors_clearNested depth) i) Tabs.depth

theorem mirrors_endSession (i : Nat) (reason : EndReason) :
    Mirrors (endSession i reason) fun w => w.endSession i reason :=
  (mirrors_clearSession i).comp
    (.choose (fun depth => mirrors_endWith (mirrors_clearNested depth) i reason i) Tabs.depth)

end Watched

end ClientSession

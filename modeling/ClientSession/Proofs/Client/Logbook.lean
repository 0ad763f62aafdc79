import ClientSession.Proofs.Client.Counters
import ClientSession.Proofs.Erasure

/-!
# A log of calls

A logbook is a client together with an entry for each call that was begun, be it asked for by itself
or attempted for a caller that retries. An entry says what the call has waited for and what has
become of it. What callers and tasks do with a logbook is what they do with its client, each call
being entered at the end of its first stretch and kept up to date by it alone.

- `Run.logged`: a call that is entered.
- `Logbook.erases_workplace`: but for the entries, a logbook is its client.
- `CallEntry.Sound.account`: what an entry may be one of.
-/

namespace ClientSession

open Activity

/-- What has become of a call. -/
inductive CallFate where
  | underway
  | dropped
  | returned (result : CallResult)

/-- An entry of a logbook: what a call has waited for, in order, and what has become of it. -/
structure CallEntry where
  waits : List Wait
  fate : CallFate

/-- A client and its log. -/
structure Logbook where
  client : Client
  entries : List CallEntry

/-- Where a call is entered and what it has waited for; nowhere, if it has just begun. -/
abbrev Place := Option (Nat × List Wait)

namespace Place

/-- What has been waited for. -/
def waits : Place → List Wait
  | some p => p.2
  | none => []

/-- Where the call is entered, or will be. -/
def index (entries : List CallEntry) : Place → Nat
  | some p => p.1
  | none => entries.length

/-- The entries with this one in its place. -/
def enter (entries : List CallEntry) (e : CallEntry) : Place → List CallEntry
  | some p => entries.set p.1 e
  | none => entries ++ [e]

end Place

namespace Logbook

variable {α : Type}

def setClient (b : Logbook) (c : Client) : Logbook := { b with client := c }

/-- The client as a call leaves it, and the call's entry. -/
def write (b : Logbook) (place : Place) (c : Client) (waits : List Wait) (fate : CallFate) :
    Logbook :=
  ⟨c, place.enter b.entries ⟨waits, fate⟩⟩

end Logbook

/-- A call that is entered and remembers where. -/
def Run.logged : Run Client CallResult → Place → Logbook → Run Logbook CallResult
  | .done c r, place, b => .done (b.write place c place.waits (.returned r)) r
  | .fault c f, _, b => .fault (b.setClient c) f
  | .stay c, _, b => .stay (b.setClient c)
  | .wait c w drop resume, place, b =>
    let waits := place.waits ++ [w]
    let place' : Place := some (place.index b.entries, waits)
    .wait (b.write place c waits .underway) w
      (fun b => b.write place' (drop b.client) waits .dropped)
      fun a now b => (resume a now b.client).logged place' b

namespace Logbook

/-- What is not a call is not entered. -/
def aside (x : Activity Client α) : Activity Logbook α := x.within (·.client) setClient

/-- A call is entered. -/
def logged (x : Activity Client CallResult) : Activity Logbook CallResult := fun now b =>
  (x now b.client).logged none b

/-- Makes a call and enters it. -/
def send (request : Request) : Activity Logbook CallResult := logged (Client.send request)

/-- Makes a call, with so many attempts left after the first; each is entered. -/
def sendRetrying (policy : RetryPolicy) (request : Request) :
    (left done : Nat) → Activity Logbook CallResult
  | 0, _ => send request
  | left + 1, done => do
    match ← send request with
    | .ok response => return .ok response
    | .error e =>
      if e.kind.isRetryable then
        aside (modify (·.count .retry))
        aside (Client.backOff policy done)
        sendRetrying policy request left (done + 1)
      else return .error e

def sendWithRetry (request : Request) : Activity Logbook CallResult := do
  let policy := (← get).client.retry
  sendRetrying policy request policy.maxRetries 0

def serve : Operation → Activity Logbook Reply
  | .send r => do return .called (← send r)
  | .sendWithRetry r => do return .called (← sendWithRetry r)
  | k => aside (Client.serve k)

/-- A client with its log, its callers and its tasks. -/
def workplace : Workplace Logbook Operation Reply Job TaskName where
  call := serve
  perform j := aside (Client.perform j)
  goesBy := Client.workplace.goesBy
  orders b := b.client.agenda
  heeded b := b.setClient { b.client with agenda := [] }
  abandon b j := b.setClient (b.client.abandonJob j)

/-! ## Erasure -/

/-- The activities are the same but for the log. -/
abbrev Erases (x : Activity Logbook α) (y : Activity Client α) : Prop := x.ErasesTo (·.client) y

end Logbook

/-! ## Entries -/

theorem OnlySleeps.countP_isCall {ws : List Wait} (h : OnlySleeps ws) :
    ws.countP (·.isCall) = 0 := by
  refine List.countP_eq_zero.mpr fun w hw hcall => ?_
  exact List.any_eq_false.mp h.any_isCall w hw hcall

theorem EndsInCall.countP_isCall {ws : List Wait} (h : EndsInCall ws) :
    ws.countP (·.isCall) = 1 := by
  obtain ⟨us, q, rfl, hus⟩ := h
  rw [List.countP_append, hus.countP_isCall]
  rfl

namespace CallEntry

/-- The call failed. -/
def hasFailed (e : CallEntry) : Bool :=
  match e.fate with
  | .returned (.error _) => true
  | _ => false

/-- The call was refused without being made. -/
def isRefused (e : CallEntry) : Bool :=
  match e.fate with
  | .returned (.error e) => e.isRefusal
  | _ => false

/-- How often the call was made. -/
def calls (e : CallEntry) : Nat := e.waits.countP (·.isCall)

/-- The call has returned. -/
def isReturned (e : CallEntry) : Bool :=
  match e.fate with
  | .returned _ => true
  | _ => false

/-- The call waits for its turn under a limit, or was dropped while it did. -/
def isHeld (e : CallEntry) : Bool := !e.isReturned && !e.waits.any (·.isCall)

/-- An entry of a call that has begun: it waits for its turn or was dropped then, it was made, or it
was refused. -/
inductive Sound (e : CallEntry) : Prop
  | held (hwaits : OnlySleeps e.waits) (hfate : e.isReturned = false)
  | made (hwaits : EndsInCall e.waits) (hfate : e.isRefused = false)
  | refused (hwaits : OnlySleeps e.waits) (hfate : e.isRefused = true)

variable {e : CallEntry}

theorem isReturned_of_isRefused (h : e.isRefused = true) : e.isReturned = true := by
  obtain ⟨ws, fate⟩ := e
  cases fate with
  | returned r => rfl
  | _ => cases h

/-- An entry is one of a call that was made, of one that was refused, or of one that is held. -/
theorem Sound.account (h : e.Sound) : e.calls + e.isRefused.toNat + e.isHeld.toNat = 1 := by
  rw [calls, isHeld]
  cases h with
  | held hwaits hfate =>
      have hrefused : e.isRefused = false := Bool.eq_false_iff.mpr fun h => by
        rw [isReturned_of_isRefused h] at hfate
        cases hfate
      rw [hwaits.countP_isCall, hwaits.any_isCall, hfate, hrefused]
      rfl
  | made hwaits hfate =>
      rw [hwaits.countP_isCall, hwaits.any_isCall, hfate, Bool.not_true, Bool.and_false]
      rfl
  | refused hwaits hfate =>
      rw [hwaits.countP_isCall, hfate, isReturned_of_isRefused hfate]
      rfl

/-- So the entries of a log are those made, those refused and those held. -/
theorem length_eq {entries : List CallEntry} (h : ∀ e ∈ entries, e.Sound) :
    entries.length = (entries.map calls).sum + entries.countP (·.isRefused) +
      entries.countP (·.isHeld) := by
  induction entries with
  | nil => rfl
  | cons e entries ih =>
      have hown := (h e (List.mem_cons_self ..)).account
      have hrest := ih fun e' he' => h e' (List.mem_cons_of_mem _ he')
      have hcount : ∀ q : CallEntry → Bool,
          (e :: entries).countP q = entries.countP q + (q e).toNat := by
        intro q
        rw [List.countP_cons]
        cases q e <;> rfl
      rw [List.length_cons, List.map_cons, List.sum_cons, hcount, hcount]
      omega

end CallEntry

namespace Place

variable {place : Place} {entries : List CallEntry} {e : CallEntry}

/-- The entry in the place is one of a call that is underway. -/
def Fits (place : Place) (entries : List CallEntry) : Prop :=
  ∀ p, place = some p → entries[p.1]? = some ⟨p.2, .underway⟩

theorem lt_of_fits {p : Nat × List Wait} (h : Fits (some p) entries) : p.1 < entries.length :=
  (List.getElem?_eq_some_iff.mp (h p rfl)).1

theorem length_enter : (place.enter entries e).length = entries.length + place.isNone.toNat := by
  cases place with
  | none => simp [enter]
  | some p => simp [enter]

theorem mem_enter {e' : CallEntry} (h : e' ∈ place.enter entries e) : e' = e ∨ e' ∈ entries := by
  cases place with
  | none => simpa [enter, or_comm] using h
  | some p => exact (List.mem_or_eq_of_mem_set h).symm

theorem getElem?_enter_self (h : place.Fits entries) :
    (place.enter entries e)[place.index entries]? = some e := by
  cases place with
  | none => simp [enter, index]
  | some p => simp [enter, index, lt_of_fits h]

theorem getElem?_enter_of_ne {k : Nat} {e' : CallEntry} (h : entries[k]? = some e')
    (hne : k ≠ place.index entries) : (place.enter entries e)[k]? = some e' := by
  have hlt := (List.getElem?_eq_some_iff.mp h).1
  cases place with
  | none => rw [enter, List.getElem?_append_left hlt, h]
  | some p =>
      have hne' : p.1 ≠ k := Ne.symm hne
      rw [enter, List.getElem?_set_ne hne', h]

/-- The entry that gives way, if there is one. -/
def old (place : Place) : List CallEntry := place.toList.map fun p => ⟨p.2, .underway⟩

theorem exists_split (h : place.Fits entries) (e : CallEntry) : ∃ before after,
    entries = before ++ (place.old ++ after) ∧ place.enter entries e = before ++ e :: after := by
  cases place with
  | none => exact ⟨entries, [], by simp [old], rfl⟩
  | some p =>
      obtain ⟨hlt, hget⟩ := List.getElem?_eq_some_iff.mp (h p rfl)
      refine ⟨entries.take p.1, entries.drop (p.1 + 1), ?_, ?_⟩
      · rw [old, Option.toList_some, List.map_singleton, ← hget, List.singleton_append,
          ← List.drop_eq_getElem_cons hlt, List.take_append_drop]
      · rw [enter, List.set_eq_take_append_cons_drop, if_pos hlt]

/-- What is not counted of calls that are underway is counted of the new entry alone. -/
theorem countP_enter (h : place.Fits entries) {q : CallEntry → Bool}
    (hq : ∀ ws, q ⟨ws, .underway⟩ = false) :
    (place.enter entries e).countP q = entries.countP q + (q e).toNat := by
  obtain ⟨before, after, hentries, henter⟩ := exists_split h e
  have hold : place.old.countP q = 0 := by
    refine List.countP_eq_zero.mpr fun e' he' hqe => ?_
    obtain ⟨p, -, rfl⟩ := List.mem_map.mp he'
    rw [hq] at hqe
    cases hqe
  rw [henter, hentries, List.countP_append, List.countP_cons, List.countP_append,
    List.countP_append, hold]
  cases q e with
  | false => simp
  | true =>
      have hone : true.toNat = 1 := rfl
      rw [if_pos rfl]
      omega

theorem sum_calls_enter (h : place.Fits entries) :
    ((place.enter entries e).map CallEntry.calls).sum + place.waits.countP (·.isCall) =
      (entries.map CallEntry.calls).sum + e.calls := by
  obtain ⟨before, after, hentries, henter⟩ := exists_split h e
  have hold : (place.old.map CallEntry.calls).sum = place.waits.countP (·.isCall) := by
    cases place with
    | none => rfl
    | some p => simp [old, waits, CallEntry.calls]
  rw [henter, hentries, List.map_append, List.sum_append_nat, List.map_cons, List.sum_cons,
    List.map_append, List.sum_append_nat, List.map_append, List.sum_append_nat, hold]
  omega

end Place

end ClientSession

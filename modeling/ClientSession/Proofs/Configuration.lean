import ClientSession.Config
import ClientSession.Proofs.Json.Ranges
import ClientSession.Proofs.Json.Reading
import ClientSession.Proofs.Json.Spelling
import ClientSession.Proofs.Url.Rereading

/-!
# A configuration is read back

A configuration that was given is the one that its own JSON text gives: what is written is what is
read, and the base is not rewritten once more. Only a base whose host holds labels too long to be
decoded is refused.

- `Config.Given`: what can be given, by a document or by a base, and by settings on top of it.
- `Config.Given.bounded`, `Config.Given.regular`: its numbers have their widths, its base is regular.
- `Config.reads_toJson`: a configuration is read from its JSON form.
- `Config.ofJson_toJson`: and given again by its text.
- `Config.document_iff_of_decode`: a text is read up to the end of its document, and may go on.
-/

namespace ClientSession

open Json

/-! ## Fields that hold counts -/

theorem forall_mem_some {α : Type} {P : α → Prop} {v : α} (h : P v) : ∀ w ∈ some v, P w := by
  rintro _ ⟨⟩
  exact h

theorem forall_getD {α : Type} {P : α → Prop} {part : Option α} {std : α} (h : ∀ v ∈ part, P v)
    (hstd : P std) : P (part.getD std) := by
  cases part with
  | none => exact hstd
  | some v => exact h v rfl

section Counts

variable {δ α : Type} {shape : RecordShape δ α} {depth : Nat} {taken : List String → δ}

theorem readsField_count {name expected : String} {get : δ → Option Nat} {set : δ → Nat → δ}
    {n : Nat}
    (hfield : shape.fields.find? (·.name = name) = some (countField name expected get set))
    (hn : n ≤ maxCount64) (hget : ∀ names, name ∉ names → get (taken names) = none)
    (hset : ∀ names, set (taken names) n = taken (names ++ [name])) :
    shape.ReadsField depth taken (name, .ofNat n) :=
  RecordShape.readsField_keep hfield
    ((reads_natural expected (Nat.le_refl _) hn).mono (Nat.zero_le _)) hget hset

theorem readsField_string {name : String} {isOptional : Bool} {get : δ → Option String}
    {set : δ → String → δ} {s : String}
    (hfield : shape.fields.find? (·.name = name) =
      some (.keep name isOptional get set decodeString))
    (hget : ∀ names, name ∉ names → get (taken names) = none)
    (hset : ∀ names, set (taken names) s = taken (names ++ [name])) :
    shape.ReadsField depth taken (name, .string s) :=
  RecordShape.readsField_keep hfield ((reads_string s).mono (Nat.zero_le _)) hget hset

theorem keeps_count {P : δ → Prop} {name expected : String} {get : δ → Option Nat}
    {set : δ → Nat → δ} (hset : ∀ d n, P d → n ≤ maxCount64 → P (set d n)) :
    (countField name expected get set).Keeps P :=
  FieldShape.keeps_keep (gives_decodeNatural expected maxCount64) hset

end Counts

/-! ## Sections -/

namespace SessionConfig

/-- The counts have the width in which they are read. -/
structure Bounded (c : SessionConfig) : Prop where
  refreshBufferSecs : c.refreshBufferSecs ≤ maxCount64
  refreshCheckIntervalSecs : c.refreshCheckIntervalSecs ≤ maxCount64
  timeoutFallbackSecs : c.timeoutFallbackSecs ≤ maxCount64

structure Draft.Bounded (d : Draft) : Prop where
  refreshBufferSecs : ∀ n ∈ d.refreshBufferSecs, n ≤ maxCount64
  refreshCheckIntervalSecs : ∀ n ∈ d.refreshCheckIntervalSecs, n ≤ maxCount64
  timeoutFallbackSecs : ∀ n ∈ d.timeoutFallbackSecs, n ≤ maxCount64

theorem bounded_default : (default : SessionConfig).Bounded :=
  ⟨by decide, by decide, by decide⟩

theorem gives_decode (depth : Nat) (cs : List Char) : Gives Bounded (shape.decode depth cs) := by
  have hfields : ∀ f ∈ shape.fields, f.Keeps Draft.Bounded := by
    simp only [shape, List.forall_mem_cons]
    exact ⟨keeps_count fun d n hd hn => { hd with refreshBufferSecs := forall_mem_some hn },
      keeps_count fun d n hd hn => { hd with refreshCheckIntervalSecs := forall_mem_some hn },
      keeps_count fun d n hd hn => { hd with timeoutFallbackSecs := forall_mem_some hn }, nofun⟩
  intro c rest hread
  obtain ⟨d, hd, hfinish⟩ :=
    RecordShape.gives_decode hfields ⟨nofun, nofun, nofun⟩ depth cs c rest hread
  cases hfinish
  have hstd := bounded_default
  exact ⟨forall_getD hd.refreshBufferSecs hstd.refreshBufferSecs,
    forall_getD hd.refreshCheckIntervalSecs hstd.refreshCheckIntervalSecs,
    forall_getD hd.timeoutFallbackSecs hstd.timeoutFallbackSecs⟩

/-- The draft that has the named parts. -/
def having (c : SessionConfig) (names : List String) : Draft where
  refreshBufferSecs := if "refreshBufferSecs" ∈ names then some c.refreshBufferSecs else none
  refreshCheckIntervalSecs :=
    if "refreshCheckIntervalSecs" ∈ names then some c.refreshCheckIntervalSecs else none
  timeoutFallbackSecs := if "timeoutFallbackSecs" ∈ names then some c.timeoutFallbackSecs else none

theorem reads_toJson {c : SessionConfig} (h : c.Bounded) : Reads shape.decode 2 c c.toJson := by
  refine RecordShape.reads_object c.having Nat.one_pos rfl ?_
    (show ["refreshBufferSecs", "refreshCheckIntervalSecs", "timeoutFallbackSecs"].Nodup by decide)
    rfl
  simp only [List.forall_mem_cons]
  refine ⟨?_, ?_, ?_, nofun⟩
  · exact readsField_count rfl h.refreshBufferSecs (fun names hno => by simp [having, hno])
      (fun names => by simp [having])
  · exact readsField_count rfl h.refreshCheckIntervalSecs (fun names hno => by simp [having, hno])
      (fun names => by simp [having])
  · exact readsField_count rfl h.timeoutFallbackSecs (fun names hno => by simp [having, hno])
      (fun names => by simp [having])

end SessionConfig

namespace BatcherConfig

/-- The counts have the width in which they are read. -/
structure Bounded (c : BatcherConfig) : Prop where
  authFlushIntervalSecs : c.authFlushIntervalSecs ≤ maxCount64
  authBatchSize : c.authBatchSize ≤ maxCount64
  requestMaxQueue : c.requestMaxQueue ≤ maxCount64
  dedupWindowMs : c.dedupWindowMs ≤ maxCount64
  minSendIntervalSecs : c.minSendIntervalSecs ≤ maxCount64

structure Draft.Bounded (d : Draft) : Prop where
  authFlushIntervalSecs : ∀ n ∈ d.authFlushIntervalSecs, n ≤ maxCount64
  authBatchSize : ∀ n ∈ d.authBatchSize, n ≤ maxCount64
  requestMaxQueue : ∀ n ∈ d.requestMaxQueue, n ≤ maxCount64
  dedupWindowMs : ∀ n ∈ d.dedupWindowMs, n ≤ maxCount64
  minSendIntervalSecs : ∀ n ∈ d.minSendIntervalSecs, n ≤ maxCount64

theorem bounded_default : (default : BatcherConfig).Bounded :=
  ⟨by decide, by decide, by decide, by decide, by decide⟩

theorem gives_decode (depth : Nat) (cs : List Char) : Gives Bounded (shape.decode depth cs) := by
  have hfields : ∀ f ∈ shape.fields, f.Keeps Draft.Bounded := by
    simp only [shape, List.forall_mem_cons]
    exact ⟨keeps_count fun d n hd hn => { hd with authFlushIntervalSecs := forall_mem_some hn },
      keeps_count fun d n hd hn => { hd with authBatchSize := forall_mem_some hn },
      keeps_count fun d n hd hn => { hd with requestMaxQueue := forall_mem_some hn },
      keeps_count fun d n hd hn => { hd with dedupWindowMs := forall_mem_some hn },
      keeps_count fun d n hd hn => { hd with minSendIntervalSecs := forall_mem_some hn },
      FieldShape.keeps_keep (fun _ _ => gives_true _) fun d v hd _ => { hd with }, nofun⟩
  intro c rest hread
  obtain ⟨d, hd, hfinish⟩ :=
    RecordShape.gives_decode hfields ⟨nofun, nofun, nofun, nofun, nofun⟩ depth cs c rest hread
  cases hfinish
  have hstd := bounded_default
  exact ⟨forall_getD hd.authFlushIntervalSecs hstd.authFlushIntervalSecs,
    forall_getD hd.authBatchSize hstd.authBatchSize,
    forall_getD hd.requestMaxQueue hstd.requestMaxQueue,
    forall_getD hd.dedupWindowMs hstd.dedupWindowMs,
    forall_getD hd.minSendIntervalSecs hstd.minSendIntervalSecs⟩

/-- The draft that has the named parts. -/
def having (c : BatcherConfig) (names : List String) : Draft where
  authFlushIntervalSecs :=
    if "authFlushIntervalSecs" ∈ names then some c.authFlushIntervalSecs else none
  authBatchSize := if "authBatchSize" ∈ names then some c.authBatchSize else none
  requestMaxQueue := if "requestMaxQueue" ∈ names then some c.requestMaxQueue else none
  dedupWindowMs := if "dedupWindowMs" ∈ names then some c.dedupWindowMs else none
  minSendIntervalSecs := if "minSendIntervalSecs" ∈ names then some c.minSendIntervalSecs else none
  excludedEndpoints := if "excludedEndpoints" ∈ names then some c.excludedEndpoints else none

theorem reads_toJson {c : BatcherConfig} (h : c.Bounded) : Reads shape.decode 3 c c.toJson := by
  have hendpoints : Reads (decodeList decodeString) 2 c.excludedEndpoints
      (.array (c.excludedEndpoints.map .string)) := by
    refine reads_list Nat.one_pos ?_
    rw [List.forall₂_map_right_iff]
    exact List.forall₂_same.mpr fun s _ => (reads_string s).mono (Nat.zero_le 1)
  refine RecordShape.reads_object c.having Nat.two_pos rfl ?_
    (show ["authFlushIntervalSecs", "authBatchSize", "requestMaxQueue", "dedupWindowMs",
      "minSendIntervalSecs", "excludedEndpoints"].Nodup by decide) rfl
  simp only [List.forall_mem_cons]
  refine ⟨?_, ?_, ?_, ?_, ?_, ?_, nofun⟩
  · exact readsField_count rfl h.authFlushIntervalSecs (fun names hno => by simp [having, hno])
      (fun names => by simp [having])
  · exact readsField_count rfl h.authBatchSize (fun names hno => by simp [having, hno])
      (fun names => by simp [having])
  · exact readsField_count rfl h.requestMaxQueue (fun names hno => by simp [having, hno])
      (fun names => by simp [having])
  · exact readsField_count rfl h.dedupWindowMs (fun names hno => by simp [having, hno])
      (fun names => by simp [having])
  · exact readsField_count rfl h.minSendIntervalSecs (fun names hno => by simp [having, hno])
      (fun names => by simp [having])
  · exact RecordShape.readsField_keep rfl hendpoints (fun names hno => by simp [having, hno])
      (fun names => by simp [having])

end BatcherConfig

namespace NotifyConfig

/-- The counts have the width in which they are read. -/
structure Bounded (c : NotifyConfig) : Prop where
  defaultCooldownSecs : c.defaultCooldownSecs ≤ maxCount64
  cooldownOverrides : ∀ e ∈ c.cooldownOverrides.entries, e.2 ≤ maxCount64

structure Draft.Bounded (d : Draft) : Prop where
  defaultCooldownSecs : ∀ n ∈ d.defaultCooldownSecs, n ≤ maxCount64
  cooldownOverrides : ∀ t ∈ d.cooldownOverrides, ∀ e ∈ t.entries, e.2 ≤ maxCount64

theorem bounded_default : (default : NotifyConfig).Bounded := ⟨by decide, by decide⟩

theorem gives_decode (depth : Nat) (cs : List Char) : Gives Bounded (shape.decode depth cs) := by
  have htable := gives_decodeTable kindKeys (gives_decodeNatural "u64" maxCount64)
  have hfields : ∀ f ∈ shape.fields, f.Keeps Draft.Bounded := by
    simp only [shape, List.forall_mem_cons]
    exact ⟨keeps_count fun d n hd hn => { hd with defaultCooldownSecs := forall_mem_some hn },
      FieldShape.keeps_keep htable fun d t hd ht =>
        { hd with cooldownOverrides := forall_mem_some ht }, nofun⟩
  intro c rest hread
  obtain ⟨d, hd, hfinish⟩ :=
    RecordShape.gives_decode hfields ⟨nofun, nofun⟩ depth cs c rest hread
  cases hfinish
  have hstd := bounded_default
  exact ⟨forall_getD hd.defaultCooldownSecs hstd.defaultCooldownSecs,
    forall_getD (P := fun t : Table FailureKind Nat => ∀ e ∈ t.entries, e.2 ≤ maxCount64)
      hd.cooldownOverrides hstd.cooldownOverrides⟩

/-- The draft that has the named parts. -/
def having (c : NotifyConfig) (names : List String) : Draft where
  defaultCooldownSecs := if "defaultCooldownSecs" ∈ names then some c.defaultCooldownSecs else none
  cooldownOverrides := if "cooldownOverrides" ∈ names then some c.cooldownOverrides else none

theorem kindKeys_meaning_label (k : FailureKind) : kindKeys.meaning k.label = .ok k := by
  cases k <;> rfl

theorem reads_toJson {c : NotifyConfig} (h : c.Bounded) : Reads shape.decode 3 c c.toJson := by
  have hoverrides : Reads (decodeTable kindKeys (decodeNatural "u64" maxCount64)) 2
      c.cooldownOverrides (.object (c.cooldownOverrides.entries.map fun e =>
        (e.1.label, .ofNat e.2))) := by
    refine reads_table Nat.one_pos ?_
    rw [List.forall₂_map_right_iff]
    exact List.forall₂_same.mpr fun e he => ⟨kindKeys_meaning_label e.1,
      (reads_natural "u64" (Nat.le_refl _) (h.cooldownOverrides e he)).mono (Nat.zero_le 1)⟩
  refine RecordShape.reads_object c.having Nat.two_pos rfl ?_
    (show ["defaultCooldownSecs", "cooldownOverrides"].Nodup by decide) rfl
  simp only [List.forall_mem_cons]
  refine ⟨?_, ?_, nofun⟩
  · exact readsField_count rfl h.defaultCooldownSecs (fun names hno => by simp [having, hno])
      (fun names => by simp [having])
  · exact RecordShape.readsField_keep rfl hoverrides (fun names hno => by simp [having, hno])
      (fun names => by simp [having])

end NotifyConfig

namespace EndpointLimit

/-- The numbers have the widths in which they are read. -/
structure Bounded (l : EndpointLimit) : Prop where
  capacity : l.capacity ≤ maxUnsigned32
  intervalMs : l.intervalMs ≤ maxUnsigned64
  maxWaitMs : l.maxWaitMs ≤ maxUnsigned64

structure Draft.Bounded (d : Draft) : Prop where
  capacity : ∀ n ∈ d.capacity, n ≤ maxUnsigned32
  intervalMs : ∀ n ∈ d.intervalMs, n ≤ maxUnsigned64
  maxWaitMs : ∀ n ∈ d.maxWaitMs, n ≤ maxUnsigned64

theorem gives_decode (depth : Nat) (cs : List Char) : Gives Bounded (shape.decode depth cs) := by
  have hfields : ∀ f ∈ shape.fields, f.Keeps Draft.Bounded := by
    simp only [shape, List.forall_mem_cons]
    exact ⟨FieldShape.keeps_keep (gives_decodeNatural "u32" maxUnsigned32)
        fun d n hd hn => { hd with capacity := forall_mem_some hn },
      FieldShape.keeps_keep (gives_decodeNatural "u64" maxUnsigned64)
        fun d n hd hn => { hd with intervalMs := forall_mem_some hn },
      FieldShape.keeps_keep (gives_decodeNatural "u64" maxUnsigned64)
        fun d n hd hn => { hd with maxWaitMs := forall_mem_some hn }, nofun⟩
  intro l rest hread
  obtain ⟨⟨capacity, interval, wait⟩, hd, hfinish⟩ :=
    RecordShape.gives_decode hfields ⟨nofun, nofun, nofun⟩ depth cs l rest hread
  cases capacity with
  | none => cases hfinish
  | some capacity =>
      cases interval with
      | none => cases hfinish
      | some interval =>
          cases wait with
          | none => cases hfinish
          | some wait =>
              cases hfinish
              exact ⟨hd.capacity capacity rfl, hd.intervalMs interval rfl, hd.maxWaitMs wait rfl⟩

/-- The draft that has the named parts. -/
def having (l : EndpointLimit) (names : List String) : Draft where
  capacity := if "capacity" ∈ names then some l.capacity else none
  intervalMs := if "intervalMs" ∈ names then some l.intervalMs else none
  maxWaitMs := if "maxWaitMs" ∈ names then some l.maxWaitMs else none

/-- The fields of a limit are in the order of their keys. -/
theorem toJson_eq (l : EndpointLimit) :
    l.toJson = .object [("capacity", .ofNat l.capacity), ("intervalMs", .ofNat l.intervalMs),
      ("maxWaitMs", .ofNat l.maxWaitMs)] := by
  have hkeys : ["capacity", "intervalMs", "maxWaitMs"].Pairwise
      fun a b => KeyOrder.before a b = true := by decide
  exact ofFields_entries ⟨[("capacity", .ofNat l.capacity), ("intervalMs", .ofNat l.intervalMs),
    ("maxWaitMs", .ofNat l.maxWaitMs)], List.Pairwise.of_map Prod.fst (fun _ _ h => h) hkeys⟩

theorem reads_toJson {l : EndpointLimit} (h : l.Bounded) : Reads shape.decode 2 l l.toJson := by
  rw [toJson_eq]
  refine RecordShape.reads_object l.having Nat.one_pos rfl ?_
    (show ["capacity", "intervalMs", "maxWaitMs"].Nodup by decide) rfl
  simp only [List.forall_mem_cons]
  refine ⟨?_, ?_, ?_, nofun⟩
  · exact RecordShape.readsField_keep rfl
      ((reads_natural "u32" (by decide) h.capacity).mono (Nat.zero_le 1))
      (fun names hno => by simp [having, hno]) (fun names => by simp [having])
  · exact RecordShape.readsField_keep rfl
      ((reads_natural "u64" (Nat.le_refl _) h.intervalMs).mono (Nat.zero_le 1))
      (fun names hno => by simp [having, hno]) (fun names => by simp [having])
  · exact RecordShape.readsField_keep rfl
      ((reads_natural "u64" (Nat.le_refl _) h.maxWaitMs).mono (Nat.zero_le 1))
      (fun names hno => by simp [having, hno]) (fun names => by simp [having])

end EndpointLimit

namespace IdentityConfig

/-- The draft that has the named parts. -/
def having (c : IdentityConfig) (names : List String) : Draft where
  domain := if "domain" ∈ names then some c.domain else none
  clientId := if "clientId" ∈ names then some c.clientId else none
  audience := if "audience" ∈ names then some c.audience else none

theorem reads_toJson (c : IdentityConfig) : Reads shape.decode 2 c c.toJson := by
  refine RecordShape.reads_object c.having Nat.one_pos rfl ?_
    (show ["domain", "clientId", "audience"].Nodup by decide) rfl
  simp only [List.forall_mem_cons]
  refine ⟨?_, ?_, ?_, nofun⟩
  · exact readsField_string rfl (fun names hno => by simp [having, hno])
      (fun names => by simp [having])
  · exact readsField_string rfl (fun names hno => by simp [having, hno])
      (fun names => by simp [having])
  · exact readsField_string rfl (fun names hno => by simp [having, hno])
      (fun names => by simp [having])

end IdentityConfig

/-! ## What can be given -/

namespace Config

/-- The numbers of the sections have the widths in which they are read. -/
structure Bounded (c : Config) : Prop where
  session : c.session.Bounded
  batcher : c.batcher.Bounded
  notify : c.notify.Bounded
  rateLimits : ∀ e ∈ c.rateLimits.entries, e.2.Bounded

/-- A part that is set on top of a configuration. -/
inductive Setting where
  | storageNamespace (text : String)
  | session (s : SessionConfig)
  | batcher (b : BatcherConfig)
  | notify (n : NotifyConfig)
  | rateLimit (endpoint : String) (l : EndpointLimit)
  | identity (i : IdentityConfig)

/-- The numbers of the part have the widths in which they are read. -/
def Setting.Bounded : Setting → Prop
  | .session s => s.Bounded
  | .batcher b => b.Bounded
  | .notify n => n.Bounded
  | .rateLimit _ l => l.Bounded
  | _ => True

def set (c : Config) : Setting → Config
  | .storageNamespace text => { c with storageNamespace := text }
  | .session s => { c with session := s }
  | .batcher b => { c with batcher := b }
  | .notify n => { c with notify := n }
  | .rateLimit endpoint l => c.withRateLimit endpoint l
  | .identity i => { c with identity := some i }

/-- A configuration of a document or of a base, with parts set on top of it. -/
inductive Given : Config → Prop where
  | document {text : String} {c : Config} (h : ofJson text = .ok c) : Given c
  | base {text : String} {c : Config} (h : ofBaseText text = .ok c) : Given c
  | set {c : Config} (s : Setting) (hs : s.Bounded) (h : Given c) : Given (c.set s)

@[simp] theorem set_base (c : Config) (s : Setting) : (c.set s).base = c.base := by
  cases s <;> rfl

theorem Bounded.set {c : Config} (h : c.Bounded) {s : Setting} (hs : s.Bounded) :
    (c.set s).Bounded := by
  cases s with
  | storageNamespace text => exact { h with }
  | session s => exact { h with session := hs }
  | batcher b => exact { h with batcher := hs }
  | notify n => exact { h with notify := hs }
  | rateLimit endpoint l =>
      refine { h with rateLimits := fun e he => ?_ }
      rcases Table.mem_entries_insert he with rfl | he
      · exact hs
      · exact h.rateLimits e he
  | identity i => exact { h with }

/-- What a document may say before all of it is there. -/
structure Draft.Sound (d : Draft) : Prop where
  base : ∀ u ∈ d.base, ∃ text, Url.parse text = .ok u
  session : ∀ s ∈ d.session, s.Bounded
  batcher : ∀ b ∈ d.batcher, b.Bounded
  notify : ∀ n ∈ d.notify, n.Bounded
  rateLimits : ∀ t ∈ d.rateLimits, ∀ e ∈ t.entries, e.2.Bounded

theorem gives_decodeUrl (depth : Nat) (cs : List Char) :
    Gives (fun u => ∃ text, Url.parse text = .ok u) (decodeUrl depth cs) := by
  refine gives_decodeText (fun text u hu => ⟨text, ?_⟩) depth cs
  split at hu
  · rw [← Except.ok.inj hu]
    assumption
  · cases hu

theorem gives_decode (depth : Nat) (cs : List Char) :
    Gives (fun c => c.Bounded ∧ ∃ text, Url.parse text = .ok c.base) (shape.decode depth cs) := by
  have hlimits := gives_decodeTable textKeys EndpointLimit.gives_decode
  have hfields : ∀ f ∈ shape.fields, f.Keeps Draft.Sound := by
    simp only [shape, List.forall_mem_cons]
    exact ⟨FieldShape.keeps_keep gives_decodeUrl
        fun d u hd hu => { hd with base := forall_mem_some hu },
      FieldShape.keeps_keep (fun _ _ => gives_true _) fun d _ hd _ => { hd with },
      FieldShape.keeps_keep SessionConfig.gives_decode
        fun d s hd hs => { hd with session := forall_mem_some hs },
      FieldShape.keeps_keep BatcherConfig.gives_decode
        fun d b hd hb => { hd with batcher := forall_mem_some hb },
      FieldShape.keeps_keep NotifyConfig.gives_decode
        fun d n hd hn => { hd with notify := forall_mem_some hn },
      FieldShape.keeps_keep hlimits fun d t hd ht => { hd with rateLimits := forall_mem_some ht },
      FieldShape.keeps_keep (fun _ _ => gives_true _) fun d _ hd _ => { hd with }, nofun⟩
  intro c rest hread
  obtain ⟨d, hd, hfinish⟩ :=
    RecordShape.gives_decode hfields ⟨nofun, nofun, nofun, nofun, nofun⟩ depth cs c rest hread
  obtain ⟨base, storageNamespace, session, batcher, notify, rateLimits, identity⟩ := d
  cases base with
  | none => cases hfinish
  | some u =>
      cases hfinish
      exact ⟨⟨forall_getD hd.session SessionConfig.bounded_default,
        forall_getD hd.batcher BatcherConfig.bounded_default,
        forall_getD hd.notify NotifyConfig.bounded_default,
        forall_getD (P := fun t : Table String EndpointLimit => ∀ e ∈ t.entries, e.2.Bounded)
          hd.rateLimits nofun⟩, hd.base u rfl⟩

theorem withBase_eq_ok {c d : Config} {u : Url} (h : c.withBase u = .ok d) :
    ∃ base, u.asBase? = some base ∧ d = { c with base := base } := by
  rw [withBase] at h
  split at h
  · cases h
    exact ⟨_, ‹_›, rfl⟩
  · cases h

/-- What a document gives is bounded and has a base that was read. -/
theorem of_ofJson {text : String} {c : Config} (h : ofJson text = .ok c) :
    c.Bounded ∧ ∃ written u, Url.parse written = .ok u ∧ u.asBase? = some c.base := by
  rw [ofJson] at h
  split at h
  · rename_i d hd
    obtain ⟨base, hbase, rfl⟩ := withBase_eq_ok h
    rw [decodeFirst] at hd
    obtain ⟨⟨_, rest⟩, hread, hd⟩ := bind_eq_ok_iff.mp hd
    cases hd
    obtain ⟨hbounded, written, hwritten⟩ := gives_decode _ _ d rest hread
    exact ⟨{ hbounded with }, written, d.base, hwritten, hbase⟩
  · cases h

theorem of_ofBaseText {text : String} {c : Config} (h : ofBaseText text = .ok c) :
    c.Bounded ∧ ∃ written u, Url.parse written = .ok u ∧ u.asBase? = some c.base := by
  rw [ofBaseText] at h
  split at h
  · rename_i u hu
    obtain ⟨base, hbase, rfl⟩ := withBase_eq_ok h
    exact ⟨⟨SessionConfig.bounded_default, BatcherConfig.bounded_default,
      NotifyConfig.bounded_default, nofun⟩, text, u, hu, hbase⟩
  · cases h

/-- The numbers of what is given are bounded, and its base was read and taken as one. -/
theorem Given.sound {c : Config} (h : c.Given) :
    c.Bounded ∧ ∃ written u, Url.parse written = .ok u ∧ u.asBase? = some c.base := by
  induction h with
  | document h => exact of_ofJson h
  | base h => exact of_ofBaseText h
  | set s hs _ ih => exact ⟨ih.1.set hs, by rw [set_base]; exact ih.2⟩

/-! ## Reading the JSON form -/

/-- The draft that has the named parts. -/
def having (c : Config) (names : List String) : Draft where
  base := if "apiBase" ∈ names then some c.base else none
  storageNamespace := if "storageNamespace" ∈ names then some c.storageNamespace else none
  session := if "session" ∈ names then some c.session else none
  batcher := if "batcher" ∈ names then some c.batcher else none
  notify := if "notify" ∈ names then some c.notify else none
  rateLimits := if "rateLimits" ∈ names then some c.rateLimits else none
  identity := if "identity" ∈ names then some c.identity else none

/-- A configuration is read from its JSON form if its base is. -/
theorem reads_toJson {c : Config} (h : c.Bounded) (hbase : Url.parse c.base.text = .ok c.base) :
    Reads shape.decode 4 c c.toJson := by
  have hurl : Reads decodeUrl 3 c.base (.string c.base.text) :=
    (reads_text (by rw [hbase])).mono (Nat.zero_le 3)
  have hlimits : Reads (decodeTable textKeys EndpointLimit.shape.decode) 3 c.rateLimits
      (.object (c.rateLimits.entries.map fun e => (e.1, e.2.toJson))) := by
    refine reads_table Nat.two_pos ?_
    rw [List.forall₂_map_right_iff]
    exact List.forall₂_same.mpr fun e he =>
      ⟨rfl, EndpointLimit.reads_toJson (h.rateLimits e he)⟩
  refine RecordShape.reads_object c.having (by decide) rfl
    (List.forall_mem_append.mpr ⟨?_, fun f hf => ?_⟩) ?_ ?_
  · simp only [List.forall_mem_cons]
    refine ⟨?_, ?_, ?_, ?_, ?_, ?_, nofun⟩
    · exact RecordShape.readsField_keep rfl hurl (fun names hno => by simp [having, hno])
        (fun names => by simp [having])
    · exact readsField_string rfl (fun names hno => by simp [having, hno])
        (fun names => by simp [having])
    · exact RecordShape.readsField_keep rfl
        ((SessionConfig.reads_toJson h.session).mono (by decide))
        (fun names hno => by simp [having, hno]) (fun names => by simp [having])
    · exact RecordShape.readsField_keep rfl (BatcherConfig.reads_toJson h.batcher)
        (fun names hno => by simp [having, hno]) (fun names => by simp [having])
    · exact RecordShape.readsField_keep rfl (NotifyConfig.reads_toJson h.notify)
        (fun names hno => by simp [having, hno]) (fun names => by simp [having])
    · exact RecordShape.readsField_keep rfl hlimits (fun names hno => by simp [having, hno])
        (fun names => by simp [having])
  · cases hi : c.identity with
    | none =>
        rw [hi] at hf
        cases hf
    | some i =>
        rw [hi] at hf
        rw [List.mem_singleton.mp hf]
        exact RecordShape.readsField_keep rfl
          ((IdentityConfig.reads_toJson i).option.mono (by decide))
          (fun names hno => by simp [having, hno]) (fun names => by simp [having, hi])
  · have hnames : (["apiBase", "storageNamespace", "session", "batcher", "notify", "rateLimits"] ++
        ["identity"]).Nodup := by decide
    cases c.identity with
    | none => exact hnames.of_append_left
    | some i => exact hnames
  · obtain ⟨base, storageNamespace, session, batcher, notify, rateLimits, identity⟩ := c
    cases identity <;> rfl

/-- What is given is given again by its text, if the host of its base can be decoded. -/
theorem Given.ofJson_of_isReadable {c : Config} (h : c.Given) (hreadable : c.base.isReadable = true) :
    ofJson (compact c.toJson) = .ok c := by
  obtain ⟨hbounded, written, u, hu, hbase⟩ := h.sound
  have hparse := (Url.regular_of_asBase? hu hbase).parse_text
  rw [hreadable, if_pos rfl] at hparse
  have hread := ((reads_toJson hbounded hparse).mono (by decide)).first
  rw [ofJson, hread]
  dsimp only
  rw [withBase, (Url.isBase_of_parse hu hbase).asBase?]

/-- The configuration of a host alone. -/
def hostConfig : Config :=
  ⟨⟨"https".toList, some ⟨[], "api.test".toList, none⟩, .segments [[]], none, none⟩,
    defaultNamespace, default, default, default, Table.empty, none⟩

theorem ofBaseText_host : ofBaseText "https://api.test" = .ok hostConfig := by
  have hchars : ∀ c ∈ "api.test".toList, Url.Domain.IsNameChar c := by
    have hall : "api.test".toList.all (fun c => c.toNat < 0x80 && !Text.isCapital c.toNat &&
        !Url.Domain.isForbidden c) = true := by decide
    intro c hc
    have hc := List.all_eq_true.mp hall c hc
    simp only [Bool.and_eq_true, decide_eq_true_eq, Bool.not_eq_true'] at hc
    exact ⟨hc.1.1, fun _ => hc.1.2, hc.2⟩
  have hname : Url.Domain.ascii? (Url.decode "api.test".toList) = some "api.test".toList :=
    Url.Domain.ascii?_of_isNameChar hchars (by decide)
  have hhost : Url.specialHost "api.test".toList = .ok "api.test".toList := by
    rw [Url.specialHost_name (by decide), hname]
    rfl
  have hparse : Url.parse "https://api.test" = .ok hostConfig.base :=
    Url.parse_of_host (by decide) (fun c hc => (Url.stays_of_isNameChar (hchars c hc)).1)
      (fun hc => (Url.stays_of_isNameChar (hchars ':' hc)).2.1 rfl) hhost
  rw [ofBaseText, hparse]
  rfl

theorem getLast?_path_of_isBase {base : Url} (h : base.IsBase) :
    base.path.text.getLast? = some '/' := by
  obtain ⟨front, hpath⟩ := h.path_eq
  rw [hpath, Url.Path.text, List.flatMap_append]
  exact List.getLast?_concat

theorem spelled_fields : ∀ f ∈ shape.fields, f.Spelled := by
  have hcount (expected : String) (bound : Nat) :
      ∀ depth, Spelled (decodeNatural expected bound depth) := spelled_decodeNumber _ _
  have hstring : ∀ depth, Spelled (decodeString depth) := spelled_decodeText _ _
  have hsession : ∀ f ∈ SessionConfig.shape.fields, f.Spelled := by
    simp only [SessionConfig.shape, List.forall_mem_cons]
    exact ⟨.keep (hcount _ _), .keep (hcount _ _), .keep (hcount _ _), nofun⟩
  have hbatcher : ∀ f ∈ BatcherConfig.shape.fields, f.Spelled := by
    simp only [BatcherConfig.shape, List.forall_mem_cons]
    exact ⟨.keep (hcount _ _), .keep (hcount _ _), .keep (hcount _ _),
      .keep (hcount _ _), .keep (hcount _ _), .keep (.list hstring), nofun⟩
  have hnotify : ∀ f ∈ NotifyConfig.shape.fields, f.Spelled := by
    simp only [NotifyConfig.shape, List.forall_mem_cons]
    exact ⟨.keep (hcount _ _), .keep (.table (hcount _ _)), nofun⟩
  have hlimit : ∀ f ∈ EndpointLimit.shape.fields, f.Spelled := by
    simp only [EndpointLimit.shape, List.forall_mem_cons]
    exact ⟨.keep (hcount _ _), .keep (hcount _ _), .keep (hcount _ _), nofun⟩
  have hidentity : ∀ f ∈ IdentityConfig.shape.fields, f.Spelled := by
    simp only [IdentityConfig.shape, List.forall_mem_cons]
    exact ⟨.keep hstring, .keep hstring, .keep hstring, nofun⟩
  simp only [shape, List.forall_mem_cons]
  exact ⟨.keep (spelled_decodeText _ _), .keep hstring,
    .keep (RecordShape.spelled_decode hsession),
    .keep (RecordShape.spelled_decode hbatcher),
    .keep (RecordShape.spelled_decode hnotify),
    .keep (.table (RecordShape.spelled_decode hlimit)),
    .keep (.option (RecordShape.spelled_decode hidentity)), nofun⟩

/-- A text that a configuration is read from is a document exactly if only blanks are left. -/
theorem document_iff_of_decode {depth : Nat} {cs rest : List Char} {c : Config}
    (h : shape.decode depth cs = .ok (c, rest)) : Document cs ↔ skipSpace rest = [] := by
  obtain ⟨frame, text, hskip, hinside⟩ := RecordShape.inside_decode spelled_fields h
  exact document_iff hskip hinside

/-- **What gives a configuration begins with a document**, but need not end with it: it is one
itself exactly if nothing but blanks is left unread. The base is one of the web, and its path ends
in a slash. -/
theorem document_iff_of_ofJson {text : String} {c : Config} (h : ofJson text = .ok c) :
    (c.base.scheme = "http".toList ∨ c.base.scheme = "https".toList) ∧
      c.base.path.text.getLast? = some '/' ∧
      ∃ d rest, shape.decode maxDepth text.toList = .ok (d, rest) ∧ d.withBase d.base = .ok c ∧
        Spells .value (skipSpace text.toList) rest ∧
        (Document text.toList ↔ skipSpace rest = []) := by
  obtain ⟨-, written, u, hu, hbase⟩ := of_ofJson h
  have hb := Url.isBase_of_parse hu hbase
  refine ⟨hb.scheme_cases, getLast?_path_of_isBase hb, ?_⟩
  rw [ofJson] at h
  split at h
  · rename_i d hd
    obtain ⟨⟨d', rest⟩, hread, hd⟩ := bind_eq_ok_iff.mp hd
    cases hd
    exact ⟨d, rest, hread, h, RecordShape.spelled_decode spelled_fields _ _ _ _ hread,
      document_iff_of_decode hread⟩
  · cases h

/-- A document that names a base, and a word behind it. -/
def trailedText : String := "\x7b\"apiBase\":\"https://api.test/\"\x7d trailing"

theorem decode_trailedText :
    shape.decode maxDepth trailedText.toList = .ok (hostConfig, " trailing".toList) := by
  have hgiven : hostConfig.Given := .base ofBaseText_host
  obtain ⟨-, written, u, hu, hbase⟩ := hgiven.sound
  have hparse := (Url.regular_of_asBase? hu hbase).parse_text
  rw [show hostConfig.base.isReadable = true by decide, if_pos rfl] at hparse
  have hurl : Reads decodeUrl 0 hostConfig.base (.string hostConfig.base.text) :=
    reads_text (by rw [hparse])
  have hreads : Reads shape.decode 2 hostConfig
      (.object [("apiBase", .string hostConfig.base.text)]) := by
    refine RecordShape.reads_object hostConfig.having Nat.one_pos rfl ?_
      (show ["apiBase"].Nodup by decide) rfl
    rw [List.forall_mem_singleton]
    exact RecordShape.readsField_keep rfl (hurl.mono (Nat.zero_le 1))
      (fun names hno => by simp [having, hno]) (fun names => by simp [having])
  have htext : trailedText.toList =
      print (.object [("apiBase", .string hostConfig.base.text)]) ++ " trailing".toList := by decide
  rw [htext]
  have hstops : Stops " trailing".toList := by
    rintro c ⟨⟩
    decide
  exact hreads.reads maxDepth _ (by decide) hstops

theorem ofJson_trailedText : ofJson trailedText = .ok hostConfig := by
  have hfirst : decodeFirst shape.decode trailedText.toList = .ok hostConfig := by
    rw [decodeFirst, decode_trailedText]
    rfl
  rw [ofJson, hfirst]
  rfl

theorem document_iff_of_ofJson_trailedText :
    ofJson trailedText = .ok hostConfig ∧
      ∃ d rest, shape.decode maxDepth trailedText.toList = .ok (d, rest) ∧
        (Document trailedText.toList ↔ skipSpace rest = []) := by
  obtain ⟨-, -, d, rest, hread, -, -, hdocument⟩ := document_iff_of_ofJson ofJson_trailedText
  exact ⟨ofJson_trailedText, d, rest, hread, hdocument⟩

/-- The word behind the document makes it no document, and is not looked at. -/
theorem not_document_of_ofJson :
    ∃ c, ofJson trailedText = .ok c ∧ ¬Document trailedText.toList := by
  refine ⟨hostConfig, ofJson_trailedText, ?_⟩
  rw [document_iff_of_decode decode_trailedText]
  decide

end Config

end ClientSession

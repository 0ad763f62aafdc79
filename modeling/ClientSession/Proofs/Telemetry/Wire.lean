import ClientSession.Proofs.Json.Reading
import ClientSession.Proofs.Time.Stamps
import ClientSession.Telemetry.Event

/-!
# Batches are read back

A batch has a JSON form as long as the years of its timestamps have four digits, and is what is read
from that form: what is missing stays missing, what is empty stays empty, and timestamps keep their
nanoseconds. The fields of an object may as well be in the order of their keys.

- `Event.reads_fields`: an event is read from its fields in any order.
- `Batch.reads_toJson?`: so is a batch.
- `Batch.read?_toJson?`: a batch has no form, or is read back from it.
-/

namespace ClientSession

open Json

namespace Event

/-- The numbers of an event have the widths in which they are read. -/
structure Bounded (e : Event) : Prop where
  status : ∀ s ∈ e.status, s ≤ maxUnsigned16
  durationMs : e.durationMs ≤ maxUnsigned64

/-! ## Fields -/

/-- The field of a part that may be missing. -/
def optionalField {α : Type} (name : String) (write : α → Json) (part : Option α) :
    List (String × Json) :=
  (part.map fun v => (name, write v)).toList

theorem forall_optionalField {α : Type} {name : String} {write : α → Json} {part : Option α}
    {P : String × Json → Prop} (h : ∀ v, part = some v → P (name, write v)) :
    ∀ f ∈ optionalField name write part, P f := by
  cases part with
  | none => exact fun f hf => absurd hf List.not_mem_nil
  | some v =>
      intro f hf
      rw [List.mem_singleton.mp hf]
      exact h v rfl

theorem optionalField_names {α : Type} (name : String) (write : α → Json) (part : Option α) :
    ((optionalField name write part).map Prod.fst).Sublist [name] := by
  cases part with
  | none => exact List.nil_sublist _
  | some v => exact List.Sublist.refl _

/-- A part that is there has its field. -/
theorem eq_none_of_not_mem {α : Type} {name : String} {write : α → Json} {part : Option α}
    (h : name ∉ (optionalField name write part).map Prod.fst) : part = none := by
  cases part with
  | none => rfl
  | some v => exact absurd (List.mem_singleton.mpr rfl) h

/-- The tags, unless there are none. -/
def someTags (e : Event) : Option (Table String String) :=
  if e.tags.isEmpty then none else some e.tags

theorem someTags_eq_none_iff {e : Event} : e.someTags = none ↔ e.tags = Table.empty := by
  unfold someTags
  split
  · rename_i hempty
    exact iff_of_true rfl (Table.ext_entries (List.isEmpty_iff.mp hempty))
  · rename_i hsome
    refine iff_of_false (Option.some_ne_none _) ?_
    intro hempty
    rw [hempty] at hsome
    exact hsome rfl

/-- The JSON form of tags. -/
def tagsJson (tags : Table String String) : Json :=
  .object (tags.map Json.string).entries

/-- The fields of an event whose timestamp has a text. -/
def fields (e : Event) (stamp : String) : List (String × Json) :=
  [("type", .string e.kind.label), ("name", .string e.name)] ++
    optionalField "method" .string e.method ++ optionalField "status" .ofNat e.status ++
    [("durationMs", .ofNat e.durationMs), ("timestamp", .string stamp),
      ("success", .bool e.success)] ++
    optionalField "error" .string e.error ++ optionalField "userId" .string e.userId ++
    optionalField "tags" tagsJson e.someTags

theorem toJson?_eq (e : Event) :
    e.toJson? = (Rfc3339.write? e.timestamp).map fun stamp => .object (e.fields stamp) := by
  have htags : (if e.tags.isEmpty then []
      else [("tags", Json.object (e.tags.entries.map fun t => (t.1, .string t.2)))]) =
        optionalField "tags" tagsJson e.someTags := by
    unfold someTags
    split <;> rfl
  rw [toJson?, htags]
  rfl

theorem fields_names (e : Event) (stamp : String) :
    ((e.fields stamp).map Prod.fst).Sublist ["type", "name", "method", "status", "durationMs",
      "timestamp", "success", "error", "userId", "tags"] := by
  have hmethod := optionalField_names "method" Json.string e.method
  have hstatus := optionalField_names "status" Json.ofNat e.status
  have herror := optionalField_names "error" Json.string e.error
  have huser := optionalField_names "userId" Json.string e.userId
  have htags := optionalField_names "tags" tagsJson e.someTags
  simp only [fields, List.map_append]
  exact (((((List.Sublist.refl ["type", "name"]).append hmethod).append hstatus).append
    (List.Sublist.refl ["durationMs", "timestamp", "success"])).append herror).append huser
      |>.append htags

theorem nodup_fields (e : Event) (stamp : String) : ((e.fields stamp).map Prod.fst).Nodup :=
  (e.fields_names stamp).nodup (by decide)

/-- The parts of an event have no fields that could be out of order. -/
theorem orderedFields_fields (e : Event) (stamp : String) :
    orderedFields (e.fields stamp) = e.fields stamp := by
  have hsame : ∀ f ∈ e.fields stamp, (f.1, ordered f.2) = f := by
    simp only [fields, List.forall_mem_append, List.forall_mem_cons]
    refine ⟨⟨⟨⟨⟨⟨⟨rfl, rfl, nofun⟩, forall_optionalField fun _ _ => rfl⟩,
      forall_optionalField fun _ _ => rfl⟩, rfl, rfl, rfl, nofun⟩,
      forall_optionalField fun _ _ => rfl⟩, forall_optionalField fun _ _ => rfl⟩,
      forall_optionalField fun tags _ => ?_⟩
    have htexts : orderedFields (tags.map Json.string).entries = (tags.map Json.string).entries := by
      rw [orderedFields_eq_map, Table.map, List.map_map]
      rfl
    rw [tagsJson, ordered, htexts, ofFields_entries]
  rw [orderedFields_eq_map]
  exact (List.map_congr_left hsame).trans (List.map_id _)

/-! ## Reading an event -/

/-- The draft that has the named parts of an event. -/
def having (e : Event) (names : List String) : Draft where
  kind := if "type" ∈ names then some e.kind else none
  name := if "name" ∈ names then some e.name else none
  method := if "method" ∈ names then some e.method else none
  status := if "status" ∈ names then some e.status else none
  durationMs := if "durationMs" ∈ names then some e.durationMs else none
  timestamp := if "timestamp" ∈ names then some e.timestamp else none
  success := if "success" ∈ names then some e.success else none
  error := if "error" ∈ names then some e.error else none
  userId := if "userId" ∈ names then some e.userId else none
  tags := if "tags" ∈ names then some e.tags else none

theorem reads_kind (k : EventKind) : Reads decodeKind 0 k (.string k.label) := by
  refine ⟨opens_string _, fun d rest hd hrest => ?_⟩
  have hmeaning : EventKind.ofLabel? k.label = some k := by
    cases k <;> rfl
  have hread : Reads decodeLabel 0 k (.string k.label) := reads_text (by rw [hmeaning])
  have hlabel := hread.reads d rest hd hrest
  have hskip := (opens_string k.label).skipSpace rest
  rw [print, quote_append] at hskip hlabel ⊢
  rw [decodeKind, hskip]
  simp only [if_true, hlabel]

theorem reads_tags (tags : Table String String) :
    Reads (decodeTable textKeys decodeString) 2 tags (tagsJson tags) := by
  refine reads_table Nat.one_pos ?_
  simp only [Table.map, List.forall₂_map_right_iff]
  exact List.forall₂_same.mpr fun t _ => ⟨rfl, (reads_string t.2).mono (Nat.zero_le 1)⟩

/-- Each field of an event is read into any draft of other fields. -/
theorem readsField_fields {e : Event} (he : e.Bounded) {stamp : String}
    (hstamp : Rfc3339.read? stamp = some e.timestamp) :
    ∀ f ∈ e.fields stamp, shape.ReadsField 2 e.having f := by
  have hkind := (reads_kind e.kind).mono (Nat.zero_le 2)
  have htext : ∀ s, Reads decodeString 2 s (.string s) := fun s =>
    (reads_string s).mono (Nat.zero_le 2)
  have hduration : Reads (decodeNatural "u64" maxUnsigned64) 2 e.durationMs (.ofNat e.durationMs) :=
    (reads_natural "u64" (Nat.le_refl _) he.durationMs).mono (Nat.zero_le 2)
  have htime : Reads decodeStamp 2 e.timestamp (.string stamp) := by
    refine Reads.mono (reads_text ?_) (Nat.zero_le 2)
    rw [hstamp]
  have hsuccess := (reads_bool e.success).mono (Nat.zero_le 2)
  simp only [fields, List.forall_mem_append, List.forall_mem_cons]
  refine ⟨⟨⟨⟨⟨⟨⟨?_, ?_, nofun⟩, forall_optionalField ?_⟩, forall_optionalField ?_⟩,
    ?_, ?_, ?_, nofun⟩, forall_optionalField ?_⟩, forall_optionalField ?_⟩, forall_optionalField ?_⟩
  · exact RecordShape.readsField_keep rfl hkind (fun names h => by simp [having, h])
      (fun names => by simp [having])
  · exact RecordShape.readsField_keep rfl (htext e.name) (fun names h => by simp [having, h])
      (fun names => by simp [having])
  · intro m hm
    exact RecordShape.readsField_keep rfl (htext m).option (fun names h => by simp [having, h])
      (fun names => by simp [having, hm])
  · intro s hs
    have hstatus : Reads (decodeNatural "u16" maxUnsigned16) 2 s (.ofNat s) :=
      (reads_natural "u16" (by decide) (he.status s hs)).mono (Nat.zero_le 2)
    exact RecordShape.readsField_keep rfl hstatus.option (fun names h => by simp [having, h])
      (fun names => by simp [having, hs])
  · exact RecordShape.readsField_keep rfl hduration (fun names h => by simp [having, h])
      (fun names => by simp [having])
  · exact RecordShape.readsField_keep rfl htime (fun names h => by simp [having, h])
      (fun names => by simp [having])
  · exact RecordShape.readsField_keep rfl hsuccess (fun names h => by simp [having, h])
      (fun names => by simp [having])
  · intro s hs
    exact RecordShape.readsField_keep rfl (htext s).option (fun names h => by simp [having, h])
      (fun names => by simp [having, hs])
  · intro u hu
    exact RecordShape.readsField_keep rfl (htext u).option (fun names h => by simp [having, h])
      (fun names => by simp [having, hu])
  · intro tags htags
    have heq : tags = e.tags := by
      unfold someTags at htags
      split at htags
      · cases htags
      · exact (Option.some.inj htags).symm
    exact RecordShape.readsField_keep rfl (reads_tags tags) (fun names h => by simp [having, h])
      (fun names => by simp [having, heq])

/-- A draft with the parts that are there is the draft of the event. -/
theorem finish_having (e : Event) {names : List String}
    (hrequired : ["type", "name", "durationMs", "timestamp", "success"] ⊆ names)
    (hmethod : "method" ∉ names → e.method = none) (hstatus : "status" ∉ names → e.status = none)
    (herror : "error" ∉ names → e.error = none) (huser : "userId" ∉ names → e.userId = none)
    (htags : "tags" ∉ names → e.tags = Table.empty) :
    shape.finish (e.having names) = .ok e := by
  have hdefault : ∀ {α : Type} (name : String) (v w : α), (name ∉ names → v = w) →
      (if name ∈ names then some v else none).getD w = v := by
    intro α name v w h
    split
    · rfl
    · rename_i hno
      exact (h hno).symm
  have hthere : ∀ {α : Type} (name : String) (v : α), name ∈ names →
      require name (if name ∈ names then some v else none) = .ok v := by
    intro α name v h
    rw [if_pos h]
    rfl
  simp only [List.cons_subset] at hrequired
  obtain ⟨htype, hname, hduration, htime, hsuccess, -⟩ := hrequired
  simp only [shape, having, hthere _ _ htype, hthere _ _ hname, hthere _ _ hduration,
    hthere _ _ htime, hthere _ _ hsuccess, hdefault _ _ _ hmethod, hdefault _ _ _ hstatus,
    hdefault _ _ _ herror, hdefault _ _ _ huser, hdefault _ _ _ htags, bind, Except.bind, pure,
    Except.pure]

/-- An event is read from its fields, in whatever order they stand. -/
theorem reads_fields {e : Event} (he : e.Bounded) {stamp : String}
    (hstamp : Rfc3339.read? stamp = some e.timestamp) {fs : List (String × Json)}
    (hperm : fs.Perm (e.fields stamp)) : Reads shape.decode 3 e (.object fs) := by
  have hnames : ∀ {name : String}, name ∈ (e.fields stamp).map Prod.fst → name ∈ fs.map Prod.fst :=
    fun h => (hperm.map Prod.fst).mem_iff.mpr h
  refine RecordShape.reads_object e.having Nat.two_pos rfl
    (fun f hf => readsField_fields he hstamp f (hperm.mem_iff.mp hf))
    ((hperm.map Prod.fst).nodup_iff.mpr (e.nodup_fields stamp))
    (finish_having e ?_ ?_ ?_ ?_ ?_ ?_)
  · intro name hname
    refine hnames ?_
    simp only [fields, List.map_append, List.mem_append]
    simp only [List.mem_cons, List.not_mem_nil, or_false] at hname
    rcases hname with rfl | rfl | rfl | rfl | rfl <;> simp
  all_goals
    intro hno
    have hno := mt hnames hno
    simp only [fields, List.map_append, List.mem_append, not_or] at hno
    obtain ⟨⟨⟨⟨⟨⟨-, hmethod⟩, hstatus⟩, -⟩, herror⟩, huser⟩, htags⟩ := hno
  · exact eq_none_of_not_mem hmethod
  · exact eq_none_of_not_mem hstatus
  · exact eq_none_of_not_mem herror
  · exact eq_none_of_not_mem huser
  · exact someTags_eq_none_iff.mp (eq_none_of_not_mem htags)

/-- The event's JSON form, with its fields in the order of their keys or not, is read as the
event. -/
theorem reads_toJson? {e : Event} (he : e.Bounded) (hzone : e.timestamp.offset = 0) {j : Json}
    (h : e.toJson? = some j) :
    Reads shape.decode 3 e j ∧ Reads shape.decode 3 e j.ordered := by
  rw [toJson?_eq, Option.map_eq_some_iff] at h
  obtain ⟨stamp, hwrite, rfl⟩ := h
  have hstamp := Rfc3339.read?_write? hzone hwrite
  refine ⟨reads_fields he hstamp (List.Perm.refl _), ?_⟩
  rw [ordered, orderedFields_fields]
  obtain ⟨gs, hgs, hperm⟩ := ofFields_perm (e.nodup_fields stamp)
  rw [hgs]
  exact reads_fields he hstamp hperm

theorem toJson?_eq_none_iff {e : Event} (hzone : e.timestamp.offset = 0) :
    e.toJson? = none ↔ ¬ (0 ≤ e.timestamp.date.year ∧ e.timestamp.date.year ≤ 9999) := by
  rw [toJson?_eq, Option.map_eq_none_iff, Rfc3339.write?_eq_none_iff hzone]

end Event

namespace Batch

/-! ## Reading a batch -/

/-- The draft that has the named parts of a batch. -/
def having (b : Batch) (names : List String) : Draft where
  id := if "batchId" ∈ names then some b.id else none
  events := if "metrics" ∈ names then some b.events else none

/-- A batch is read from its two fields when its events are read. -/
theorem reads_fields {b : Batch} {js : List Json}
    (h : List.Forall₂ (Reads Event.shape.decode 3) b.events js) {fs : List (String × Json)}
    (hperm : fs.Perm [("batchId", .string b.id), ("metrics", .array js)]) :
    Reads shape.decode 5 b (.object fs) := by
  have hid : Reads decodeString 4 b.id (.string b.id) := (reads_string b.id).mono (Nat.zero_le 4)
  have hevents : Reads (decodeList Event.shape.decode) 4 b.events (.array js) :=
    reads_list (by decide) h
  have hbatch : "batchId" ∈ fs.map Prod.fst := (hperm.map Prod.fst).mem_iff.mpr (by simp)
  have hmetrics : "metrics" ∈ fs.map Prod.fst := (hperm.map Prod.fst).mem_iff.mpr (by simp)
  refine RecordShape.reads_object b.having (by decide) rfl (fun f hf => ?_)
    ((hperm.map Prod.fst).nodup_iff.mpr (show ["batchId", "metrics"].Nodup by decide)) ?_
  · have hfield := hperm.mem_iff.mp hf
    simp only [List.mem_cons, List.not_mem_nil, or_false] at hfield
    rcases hfield with rfl | rfl
    · exact RecordShape.readsField_keep rfl hid (fun names h => by simp [having, h])
        (fun names => by simp [having])
    · exact RecordShape.readsField_keep rfl hevents (fun names h => by simp [having, h])
        (fun names => by simp [having])
  · simp only [shape, having, if_pos hbatch, if_pos hmetrics]
    rfl

theorem forall₂_of_mapM {α β : Type} {f : α → Option β} {as : List α} {bs : List β}
    (h : as.mapM f = some bs) : List.Forall₂ (fun a b => f a = some b) as bs := by
  induction as generalizing bs with
  | nil =>
      rw [List.mapM_nil] at h
      cases h
      exact .nil
  | cons a as ih =>
      rw [List.mapM_cons] at h
      obtain ⟨b, hb, h⟩ := Option.bind_eq_some_iff.mp h
      obtain ⟨bs', hbs, h⟩ := Option.bind_eq_some_iff.mp h
      cases h
      exact .cons hb (ih hbs)

theorem mapM_eq_none_iff {α β : Type} {f : α → Option β} {as : List α} :
    as.mapM f = none ↔ ∃ a ∈ as, f a = none := by
  induction as with
  | nil => simp
  | cons a as ih =>
      rw [List.mapM_cons]
      cases hb : f a with
      | none => simp [hb]
      | some b => cases hbs : as.mapM f <;> simp_all

/-- The JSON form of a batch, with the fields in the order of their keys or not, is read as the
batch. -/
theorem reads_toJson? {b : Batch} (hbounded : ∀ e ∈ b.events, e.Bounded)
    (hzone : ∀ e ∈ b.events, e.timestamp.offset = 0) {j : Json} (h : b.toJson? = some j) :
    Reads shape.decode 5 b j ∧ Reads shape.decode 5 b j.ordered := by
  rw [toJson?, Option.map_eq_some_iff] at h
  obtain ⟨js, hjs, rfl⟩ := h
  have hreads : List.Forall₂ (fun e j => Reads Event.shape.decode 3 e j ∧
      Reads Event.shape.decode 3 e j.ordered) b.events js := by
    have hforms := (List.forall₂_and_left _ _).mpr
      ⟨fun e (he : e ∈ b.events) => he, forall₂_of_mapM hjs⟩
    refine hforms.imp ?_
    rintro e j ⟨he, hj⟩
    exact Event.reads_toJson? (hbounded e he) (hzone e he) hj
  refine ⟨reads_fields (hreads.imp fun _ _ h => h.1) (List.Perm.refl _), ?_⟩
  have hordered : List.Forall₂ (Reads Event.shape.decode 3) b.events (js.map ordered) := by
    rw [List.forall₂_map_right_iff]
    exact hreads.imp fun _ _ h => h.2
  let fields : List (String × Json) :=
    [("batchId", .string b.id), ("metrics", .array (js.map ordered))]
  have hnames : (fields.map Prod.fst).Nodup := show ["batchId", "metrics"].Nodup by decide
  obtain ⟨gs, hgs, hperm⟩ := ofFields_perm hnames
  have hobject : (Json.object [("batchId", .string b.id), ("metrics", .array js)]).ordered =
      .object gs := by
    rw [← hgs, ordered]
    simp only [orderedFields, ordered, orderedItems_eq_map, fields]
  rw [hobject]
  exact reads_fields hordered hperm

theorem toJson?_eq_none_iff {b : Batch} (hzone : ∀ e ∈ b.events, e.timestamp.offset = 0) :
    b.toJson? = none ↔
      ∃ e ∈ b.events, ¬ (0 ≤ e.timestamp.date.year ∧ e.timestamp.date.year ≤ 9999) := by
  rw [toJson?, Option.map_eq_none_iff, mapM_eq_none_iff]
  constructor
  · rintro ⟨e, he, h⟩
    exact ⟨e, he, (Event.toJson?_eq_none_iff (hzone e he)).mp h⟩
  · rintro ⟨e, he, h⟩
    exact ⟨e, he, (Event.toJson?_eq_none_iff (hzone e he)).mpr h⟩

/-- A batch of any events at universal time is read back from its JSON text, whether the fields
stand as they are declared or in the order of their keys; it has no JSON form exactly when the year
of some timestamp has no four digits. -/
theorem read?_toJson? (b : Batch) (hbounded : ∀ e ∈ b.events, e.Bounded)
    (hzone : ∀ e ∈ b.events, e.timestamp.offset = 0) :
    (∀ j, b.toJson? = some j → read? (compact j) = some b ∧ read? (compact j.ordered) = some b) ∧
      (b.toJson? = none ↔
        ∃ e ∈ b.events, ¬ (0 ≤ e.timestamp.date.year ∧ e.timestamp.date.year ≤ 9999)) := by
  refine ⟨fun j hj => ?_, toJson?_eq_none_iff hzone⟩
  obtain ⟨hdeclared, hordered⟩ := reads_toJson? hbounded hzone hj
  constructor
  · rw [read?, (hdeclared.mono (by decide)).whole]
    rfl
  · rw [read?, (hordered.mono (by decide)).whole]
    rfl

/-- A call with marks in its texts and tags, and a session event before 1970. -/
def oddBatch : Batch where
  id := "batch_\"0\"_\n"
  events := [
    { kind := .api, name := "/v1/\\\x01", method := some "GET", status := some maxUnsigned16,
      durationMs := maxUnsigned64, timestamp := .universal ⟨1748782800000000120⟩, success := true,
      error := none, userId := some "",
      tags := (Table.empty.insert "é" "").insert "" "\x7d" },
    .auth "login" false ⟨-1⟩]

theorem read?_toJson?_oddBatch :
    (∀ e ∈ oddBatch.events, e.Bounded) ∧ (∀ e ∈ oddBatch.events, e.timestamp.offset = 0) ∧
      ∃ j, oddBatch.toJson? = some j ∧ read? (compact j) = some oddBatch := by
  have hbounded : ∀ e ∈ oddBatch.events, e.Bounded := by
    simp only [oddBatch, List.forall_mem_cons]
    exact ⟨⟨by decide, by decide⟩, ⟨by decide, by decide⟩, nofun⟩
  have hzone : ∀ e ∈ oddBatch.events, e.timestamp.offset = 0 := by decide
  have hyears : ¬ ∃ e ∈ oddBatch.events,
      ¬ (0 ≤ e.timestamp.date.year ∧ e.timestamp.date.year ≤ 9999) := by decide +kernel
  obtain ⟨hread, hfails⟩ := read?_toJson? oddBatch hbounded hzone
  refine ⟨hbounded, hzone, ?_⟩
  cases hj : oddBatch.toJson? with
  | none => exact absurd (hfails.mp hj) hyears
  | some j => exact ⟨j, rfl, (hread j hj).1⟩

end Batch

end ClientSession

import ActionSheet.Proofs.Record.Recasting
import ActionSheet.Record.Write

/-!
# Records are read back

For each type of record, its form, and three facts about its writer and its reader: what is written
fits the form, it is the encoding of one value only, and a reader recovers the value from whatever
the encoding is recast to. The first and the third are put together field by field, in the order of
the declaration, and out of the same facts about the types of the fields.

The readers of flat records look all their fields up at once. The reader of a row does not: it takes
the word for the kind first and goes on without it, since the kind decides which other fields there
are. What the fields of a row are depends on its kind for the same reason, so `identifying` is a
field of a leading row and just another unknown member of one that follows.

A row span is a machine word. A row with a wider one cannot be stored, and is the only value of
these types that does not come back.
-/

namespace ActionSheet.Record

/-! ## The forms of the records -/

namespace Form

def needed (name : String) (form : Form) : FieldForm Form := ⟨name, form, none⟩

/-- A field with a value for when it is missing. -/
def defaulted (name : String) (form : Form) (default : Json) : FieldForm Form :=
  ⟨name, form, some default⟩

def workflow : Form := .record [
  needed "workflow_id" .scalar,
  needed "name" .scalar,
  needed "state_code" .scalar,
  needed "status_code" .scalar,
  needed "type" .scalar,
  needed "category" .scalar,
  defaulted "primary_entity" .scalar .null,
  defaulted "sdk_message_id" .scalar .null,
  defaulted "xaml" .scalar .null]

def message : Form := .record [needed "sdk_message_id" .scalar, needed "name" .scalar]

def snapshot : Form := .record [
  defaulted "workflows" (.list workflow) (.array []),
  defaulted "messages" (.list message) (.array [])]

def filter : Form := .record [
  defaulted "state_code" .scalar (.integer 1),
  defaulted "status_code" .scalar (.integer 2),
  defaulted "workflow_type" .scalar (.integer 1),
  defaulted "category" .scalar (.integer 3)]

def namespaces : Form := .record [
  defaulted "core" .scalar (.text "http://schemas.microsoft.com/winfx/2006/xaml"),
  defaulted "annotation_prefix" .scalar (.text "mxsw")]

def config : Form := .record [
  defaulted "database_url" .scalar .null,
  defaulted "filter" filter (Filter.toJson {}),
  defaulted "namespaces" namespaces (Namespaces.toJson {})]

def action : Form := .record [
  needed "name" .scalar,
  needed "message_name" .scalar,
  needed "primary_entity" .scalar,
  needed "raw_definition" .scalar]

def argument : Form := .record [
  needed "property_name" .scalar,
  needed "type_name" .scalar,
  needed "required" .scalar,
  needed "direction" .scalar,
  needed "target" .scalar,
  needed "entity" .scalar,
  needed "description" .scalar]

def spannedCell : Form := .record [needed "value" .scalar, needed "row_span" .scalar]

/-- A row of the sheet, which has the fields of its kind. -/
def row : Row → Form
  | .leading .. => .record [
      needed "kind" .scalar,
      needed "identifying" (.list spannedCell),
      needed "argument" argument]
  | .following _ => .record [needed "kind" .scalar, needed "argument" argument]

end Form

/-! ## What is written fits -/

@[simp] theorem fits_text (s : String) : Fits .scalar (.text s) := ⟨.scalar _, .text s⟩

@[simp] theorem fits_uuid (u : Uuid) : Fits .scalar u.toJson := fits_text u.toText

@[simp] theorem fits_code (n : Int32) : Fits .scalar (codeToJson n) := ⟨.scalar _, .integer _⟩

@[simp] theorem fits_natural (n : Nat) : Fits .scalar (.natural n) := ⟨.scalar _, .integer _⟩

@[simp] theorem fits_textOrNull (s : Option String) : Fits .scalar (.textOrNull s) := by
  cases s with
  | none => exact ⟨.scalar _, .null⟩
  | some s => exact fits_text s

@[simp] theorem fits_uuidOrNull (u : Option Uuid) :
    Fits .scalar ((u.map Uuid.toJson).getD .null) := by
  cases u with
  | none => exact ⟨.scalar _, .null⟩
  | some u => exact fits_uuid u

@[simp] theorem fits_workflow (w : Workflow) : Fits Form.workflow w.toJson :=
  .record (by simp [Form.needed, Form.defaulted])

@[simp] theorem fits_message (m : Message) : Fits Form.message m.toJson :=
  .record (by simp [Form.needed])

theorem fits_snapshot (s : Snapshot) : Fits Form.snapshot s.toJson :=
  .record (by simp [Form.defaulted, Fits.list])

@[simp] theorem fits_filter (f : Filter) : Fits Form.filter f.toJson :=
  .record (by simp [Form.defaulted])

@[simp] theorem fits_namespaces (n : Namespaces) : Fits Form.namespaces n.toJson :=
  .record (by simp [Form.defaulted])

theorem fits_config (c : Config) : Fits Form.config c.toJson :=
  .record (by simp [Form.defaulted])

theorem fits_action (a : Action) : Fits Form.action a.toJson :=
  .record (by simp [Form.needed])

@[simp] theorem fits_argument (a : Argument) : Fits Form.argument a.toJson :=
  .record (by simp [Form.needed])

@[simp] theorem fits_spannedCell (c : SpannedCell) : Fits Form.spannedCell c.toJson :=
  .record (by simp [Form.needed])

theorem fits_row (r : Row) : Fits (Form.row r) r.toJson := by
  cases r with
  | leading cells a => exact .record (by simp [Form.needed, Fits.list])
  | following a => exact .record (by simp [Form.needed])

/-! ## What is written is recovered -/

theorem recovers_text (s : String) : Recovers .scalar Json.text text s := .scalar (text_text s)

theorem recovers_uuid (u : Uuid) : Recovers .scalar Uuid.toJson uuid u := .scalar (uuid_toJson u)

theorem recovers_code (n : Int32) : Recovers .scalar codeToJson int32 n :=
  .scalar (int32_codeToJson n)

theorem recovers_textOrNull (s : Option String) :
    Recovers .scalar Json.textOrNull (nullable text) s :=
  .scalar (nullable_textOrNull s)

theorem recovers_uuidOrNull (u : Option Uuid) :
    Recovers .scalar (fun u => (u.map Uuid.toJson).getD .null) (nullable uuid) u :=
  .scalar (nullable_uuidOrNull u)

theorem recovers_workflow (w : Workflow) :
    Recovers Form.workflow Workflow.toJson workflow w := by
  intro j r h
  obtain ⟨known, rs, hknown, rfl, hfound⟩ := h.exists_fields Shape.workflow.names rfl (by decide)
  obtain _ | ⟨fid, _ | ⟨fname, _ | ⟨fstate, _ | ⟨fstatus, _ | ⟨fkind, _ | ⟨fcategory,
    _ | ⟨fentity, _ | ⟨fmessage, _ | ⟨fbody, _ | _⟩⟩⟩⟩⟩⟩⟩⟩⟩ := hfound
  obtain ⟨id, rfl, hid⟩ := (recovers_uuid w.id).required fid
  obtain ⟨name, rfl, hname⟩ := (recovers_text w.name).required fname
  obtain ⟨state, rfl, hstate⟩ := (recovers_code w.state).required fstate
  obtain ⟨status, rfl, hstatus⟩ := (recovers_code w.status).required fstatus
  obtain ⟨kind, rfl, hkind⟩ := (recovers_code w.kind).required fkind
  obtain ⟨category, rfl, hcategory⟩ := (recovers_code w.category).required fcategory
  obtain ⟨entity, rfl, hentity⟩ := (recovers_textOrNull w.primaryEntity).defaulted (d := none) fentity
  obtain ⟨message, rfl, hmessage⟩ := (recovers_uuidOrNull w.message).defaulted (d := none) fmessage
  obtain ⟨body, rfl, hbody⟩ := (recovers_textOrNull w.body).defaulted (d := none) fbody
  refine ⟨⟨id, name, state, status, kind, category, entity, message, body⟩, rfl, ?_⟩
  simp only [workflow, optional, hknown, hid, hname, hstate, hstatus, hkind, hcategory, hentity,
    hmessage, hbody, Option.bind_eq_bind,
    Option.bind_some, Option.pure_def]

theorem recovers_message (m : Message) : Recovers Form.message Message.toJson message m := by
  intro j r h
  obtain ⟨known, rs, hknown, rfl, hfound⟩ := h.exists_fields Shape.message.names rfl (by decide)
  obtain _ | ⟨fid, _ | ⟨fname, _ | _⟩⟩ := hfound
  obtain ⟨id, rfl, hid⟩ := (recovers_uuid m.id).required fid
  obtain ⟨name, rfl, hname⟩ := (recovers_text m.name).required fname
  refine ⟨⟨id, name⟩, rfl, ?_⟩
  simp only [message, hknown, hid, hname, Option.bind_eq_bind,
    Option.bind_some, Option.pure_def]

theorem recovers_snapshot (s : Snapshot) : Recovers Form.snapshot Snapshot.toJson snapshot s := by
  intro j r h
  obtain ⟨known, rs, hknown, rfl, hfound⟩ := h.exists_fields Shape.snapshot.names rfl (by decide)
  obtain _ | ⟨fworkflows, _ | ⟨fmessages, _ | _⟩⟩ := hfound
  obtain ⟨workflows, rfl, hworkflows⟩ :=
    (Recovers.list fun w (_ : w ∈ s.workflows) => recovers_workflow w).defaulted (d := []) fworkflows
  obtain ⟨messages, rfl, hmessages⟩ :=
    (Recovers.list fun m (_ : m ∈ s.messages) => recovers_message m).defaulted (d := []) fmessages
  refine ⟨⟨workflows, messages⟩, rfl, ?_⟩
  simp only [snapshot, hknown, hworkflows, hmessages, Option.bind_eq_bind,
    Option.bind_some, Option.pure_def]

theorem recovers_filter (f : Filter) : Recovers Form.filter Filter.toJson filter f := by
  intro j r h
  obtain ⟨known, rs, hknown, rfl, hfound⟩ := h.exists_fields Shape.filter.names rfl (by decide)
  obtain _ | ⟨fstate, _ | ⟨fstatus, _ | ⟨fkind, _ | ⟨fcategory, _ | _⟩⟩⟩⟩ := hfound
  obtain ⟨state, rfl, hstate⟩ := (recovers_code f.state).defaulted (d := 1) fstate
  obtain ⟨status, rfl, hstatus⟩ := (recovers_code f.status).defaulted (d := 2) fstatus
  obtain ⟨kind, rfl, hkind⟩ := (recovers_code f.kind).defaulted (d := 1) fkind
  obtain ⟨category, rfl, hcategory⟩ := (recovers_code f.category).defaulted (d := 3) fcategory
  refine ⟨⟨state, status, kind, category⟩, rfl, ?_⟩
  simp only [filter, hknown, hstate, hstatus, hkind, hcategory, Option.bind_eq_bind,
    Option.bind_some, Option.pure_def]

theorem recovers_namespaces (n : Namespaces) :
    Recovers Form.namespaces Namespaces.toJson namespaces n := by
  intro j r h
  obtain ⟨known, rs, hknown, rfl, hfound⟩ := h.exists_fields Shape.namespaces.names rfl (by decide)
  obtain _ | ⟨fcore, _ | ⟨fmark, _ | _⟩⟩ := hfound
  obtain ⟨core, rfl, hcore⟩ := (recovers_text n.core).defaulted fcore
  obtain ⟨annotationPrefix, rfl, hmark⟩ := (recovers_text n.annotationPrefix).defaulted fmark
  refine ⟨⟨core, annotationPrefix⟩, rfl, ?_⟩
  simp only [namespaces, hknown, hcore, hmark, Option.bind_eq_bind,
    Option.bind_some, Option.pure_def]

theorem recovers_config (c : Config) : Recovers Form.config Config.toJson config c := by
  intro j r h
  obtain ⟨known, rs, hknown, rfl, hfound⟩ := h.exists_fields Shape.config.names rfl (by decide)
  obtain _ | ⟨furl, _ | ⟨ffilter, _ | ⟨fnamespaces, _ | _⟩⟩⟩ := hfound
  obtain ⟨url, rfl, hurl⟩ := (recovers_textOrNull c.databaseUrl).defaulted (d := none) furl
  obtain ⟨f, rfl, hfilter⟩ := (recovers_filter c.filter).defaulted ffilter
  obtain ⟨n, rfl, hnamespaces⟩ := (recovers_namespaces c.namespaces).defaulted fnamespaces
  refine ⟨⟨url, f, n⟩, rfl, ?_⟩
  simp only [config, optional, hknown, hurl, hfilter, hnamespaces, Option.bind_eq_bind,
    Option.bind_some, Option.pure_def]

theorem recovers_action (a : Action) : Recovers Form.action Action.toJson action a := by
  intro j r h
  obtain ⟨known, rs, hknown, rfl, hfound⟩ := h.exists_fields
    ["name", "message_name", "primary_entity", "raw_definition"] rfl (by decide)
  obtain _ | ⟨fname, _ | ⟨fmessage, _ | ⟨fentity, _ | ⟨fdefinition, _ | _⟩⟩⟩⟩ := hfound
  obtain ⟨name, rfl, hname⟩ := (recovers_text a.name).required fname
  obtain ⟨messageName, rfl, hmessage⟩ := (recovers_text a.messageName).required fmessage
  obtain ⟨entity, rfl, hentity⟩ := (recovers_text a.primaryEntity).required fentity
  obtain ⟨definition, rfl, hdefinition⟩ := (recovers_text a.definition).required fdefinition
  refine ⟨⟨name, messageName, entity, definition⟩, rfl, ?_⟩
  simp only [action, hknown, hname, hmessage, hentity, hdefinition, Option.bind_eq_bind,
    Option.bind_some, Option.pure_def]

theorem recovers_argument (a : Argument) :
    Recovers Form.argument Argument.toJson argument a := by
  intro j r h
  obtain ⟨known, rs, hknown, rfl, hfound⟩ := h.exists_fields
    ["property_name", "type_name", "required", "direction", "target", "entity", "description"] rfl
    (by decide)
  obtain _ | ⟨fname, _ | ⟨ftype, _ | ⟨frequired, _ | ⟨fdirection, _ | ⟨ftarget, _ | ⟨fentity,
    _ | ⟨fdescription, _ | _⟩⟩⟩⟩⟩⟩⟩ := hfound
  obtain ⟨name, rfl, hname⟩ := (recovers_text a.name).required fname
  obtain ⟨type, rfl, htype⟩ := (recovers_text a.type).required ftype
  obtain ⟨need, rfl, hrequired⟩ := (recovers_text a.required).required frequired
  obtain ⟨direction, rfl, hdirection⟩ := (recovers_text a.direction).required fdirection
  obtain ⟨target, rfl, htarget⟩ := (recovers_text a.target).required ftarget
  obtain ⟨entity, rfl, hentity⟩ := (recovers_text a.entity).required fentity
  obtain ⟨description, rfl, hdescription⟩ := (recovers_text a.description).required fdescription
  refine ⟨⟨name, type, need, direction, target, entity, description⟩, rfl, ?_⟩
  simp only [argument, hknown, hname, htype, hrequired, hdirection, htarget, hentity, hdescription,
    Option.bind_eq_bind, Option.bind_some, Option.pure_def]

theorem recovers_spannedCell {c : SpannedCell} (hspan : c.rowSpan < UInt64.size) :
    Recovers Form.spannedCell SpannedCell.toJson spannedCell c := by
  intro j r h
  obtain ⟨known, rs, hknown, rfl, hfound⟩ := h.exists_fields ["value", "row_span"] rfl (by decide)
  obtain _ | ⟨fvalue, _ | ⟨fspan, _ | _⟩⟩ := hfound
  obtain ⟨value, rfl, hvalue⟩ := (recovers_text c.value).required fvalue
  obtain ⟨span, rfl, hspan⟩ := (Recovers.scalar (natural64_natural hspan)).required fspan
  refine ⟨⟨value, span⟩, rfl, ?_⟩
  simp only [spannedCell, hknown, hvalue, hspan, Option.bind_eq_bind, Option.bind_some,
    Option.pure_def]

/-! ## Rows -/

/-- The reader of a row goes on with what is not the word for its kind. -/
theorem fields?_filter_kind {names : List String} (hkind : "kind" ∉ names)
    {members : List (String × Json)} (hnodup : ((called names members).map (·.1)).Nodup) :
    Layout.fields? names (.named ((Json.named members).filter (·.1 != some "kind"))) =
      some (called names members) := by
  have hfilter : (Json.named members).filter (·.1 != some "kind") =
      Json.named (members.filter (·.1 != "kind")) := by
    rw [Json.named, List.filter_map]
    rfl
  have hcalled : called names (members.filter (·.1 != "kind")) = called names members := by
    rw [called, List.filter_filter]
    refine List.filter_congr fun m _ => ?_
    cases hm : names.contains m.1 with
    | false => rfl
    | true =>
        have hne : m.1 ≠ "kind" := fun heq => hkind (heq ▸ List.contains_iff_mem.1 hm)
        exact bne_iff_ne.2 hne
  rw [← hcalled] at hnodup
  rw [hfilter, fields?_named hnodup, hcalled]

theorem row_record {members : List (String × Json)} {kind : String} {leading : Bool}
    (hnodup : ((called ["kind"] members).map (·.1)).Nodup)
    (hkind : members.lookup "kind" = some (.text kind))
    (hleading : isLeadingKind? kind = some leading) :
    row (Json.record members) =
      rowOfKind leading (.named ((Json.named members).filter (·.1 != some "kind"))) := by
  have hlayout : Source.layout? (Json.record members) = some (.named (Json.named members)) := rfl
  have hread : required text "kind" (called ["kind"] members) = some kind := by
    rw [required, lookup_called _ (List.mem_singleton_self _), hkind]
    rfl
  rw [row, hlayout]
  simp only [Option.bind_eq_bind, Option.bind_some, fields?_named hnodup, hread, hleading]

theorem Found.eq_of_scalar {name : String} {v r : Json} {o : Option Json}
    (h : Found (Form.needed name .scalar) v o r) : o = some v ∧ r = v := by
  cases h with
  | kept h =>
      cases h
      exact ⟨rfl, rfl⟩
  | missing h => cases h

theorem recovers_row {r : Row} (hspans : ∀ c ∈ r.identifying, c.rowSpan < UInt64.size) :
    Recovers (Form.row r) Row.toJson row r := by
  intro j result h
  cases r with
  | leading cells a =>
      -- The reader asks twice, for the kind and then for the rest, so `exists_fields` is no help.
      obtain ⟨members, rs, rfl, rfl, hfound, hunique⟩ := Recast.exists_members h (by decide)
      obtain _ | ⟨fkind, _ | ⟨fcells, _ | ⟨fargument, _ | _⟩⟩⟩ := hfound
      obtain ⟨hkind, rfl⟩ := fkind.eq_of_scalar
      have hnames := hunique ["identifying", "argument"] (by decide)
      rw [← lookup_called ["identifying", "argument"] (by decide)] at fcells fargument
      obtain ⟨cells', rfl, hcells⟩ :=
        (Recovers.list fun c hc => recovers_spannedCell (hspans c hc)).required fcells
      obtain ⟨a', rfl, hargument⟩ := (recovers_argument a).required fargument
      refine ⟨.leading cells' a', rfl, ?_⟩
      rw [row_record (hunique ["kind"] (by decide)) hkind rfl, rowOfKind, if_pos rfl,
        fields?_filter_kind (by decide) hnames]
      simp only [hcells, hargument, Option.bind_eq_bind, Option.bind_some, Option.pure_def]
  | following a =>
      obtain ⟨members, rs, rfl, rfl, hfound, hunique⟩ := Recast.exists_members h (by decide)
      obtain _ | ⟨fkind, _ | ⟨fargument, _ | _⟩⟩ := hfound
      obtain ⟨hkind, rfl⟩ := fkind.eq_of_scalar
      have hnames := hunique ["argument"] (by decide)
      rw [← lookup_called ["argument"] (by decide)] at fargument
      obtain ⟨a', rfl, hargument⟩ := (recovers_argument a).required fargument
      refine ⟨.following a', rfl, ?_⟩
      rw [row_record (hunique ["kind"] (by decide)) hkind rfl, rowOfKind, if_neg (by decide),
        fields?_filter_kind (by decide) hnames]
      simp only [hargument, Option.bind_eq_bind, Option.bind_some, Option.pure_def]

/-! ## An encoding is that of one value -/

theorem workflow_inj {w w' : Workflow} : w.toJson = w'.toJson ↔ w = w' := by
  cases w
  cases w'
  simp [Workflow.toJson]

theorem message_inj {m m' : Message} : m.toJson = m'.toJson ↔ m = m' := by
  cases m
  cases m'
  simp [Message.toJson]

theorem snapshot_inj {s s' : Snapshot} : s.toJson = s'.toJson ↔ s = s' := by
  cases s
  cases s'
  simp [Snapshot.toJson, Json.list_inj workflow_inj, Json.list_inj message_inj]

theorem config_inj {c c' : Config} : c.toJson = c'.toJson ↔ c = c' := by
  obtain ⟨url, ⟨⟩, ⟨⟩⟩ := c
  obtain ⟨url', ⟨⟩, ⟨⟩⟩ := c'
  simp [Config.toJson, Filter.toJson, Namespaces.toJson]

theorem action_inj {a a' : Action} : a.toJson = a'.toJson ↔ a = a' := by
  cases a
  cases a'
  simp [Action.toJson]

theorem argument_inj {a a' : Argument} : a.toJson = a'.toJson ↔ a = a' := by
  cases a
  cases a'
  simp [Argument.toJson]

theorem spannedCell_inj {c c' : SpannedCell} : c.toJson = c'.toJson ↔ c = c' := by
  cases c
  cases c'
  simp [SpannedCell.toJson]

theorem row_inj {r r' : Row} : r.toJson = r'.toJson ↔ r = r' := by
  cases r with
  | leading cells a =>
      cases r' with
      | leading cells' a' => simp [Row.toJson, Json.list_inj spannedCell_inj, argument_inj]
      | following a' => simp [Row.toJson]
  | following a =>
      cases r' with
      | leading cells' a' => simp [Row.toJson]
      | following a' => simp [Row.toJson, argument_inj]

/-- Every record comes back from its encoding, from the printed text of it, and from any recasting. -/
theorem stored_records_round_trip :
    (∀ s : Snapshot, RoundTrips Form.snapshot Snapshot.toJson snapshot s) ∧
    (∀ w : Workflow, RoundTrips Form.workflow Workflow.toJson workflow w) ∧
    (∀ m : Message, RoundTrips Form.message Message.toJson message m) ∧
    (∀ c : Config, RoundTrips Form.config Config.toJson config c) ∧
    (∀ a : Action, RoundTrips Form.action Action.toJson action a) ∧
    ∀ r : Row, (∀ c ∈ r.identifying, c.rowSpan < UInt64.size) →
      RoundTrips (Form.row r) Row.toJson row r :=
  ⟨fun s => (recovers_snapshot s).roundTrips (fits_snapshot s) snapshot_inj,
    fun w => (recovers_workflow w).roundTrips (fits_workflow w) workflow_inj,
    fun m => (recovers_message m).roundTrips (fits_message m) message_inj,
    fun c => (recovers_config c).roundTrips (fits_config c) config_inj,
    fun a => (recovers_action a).roundTrips (fits_action a) action_inj,
    fun r hspans => (recovers_row hspans).roundTrips (fits_row r) row_inj⟩

/-- Settings stored without their address, all codes but one and both names, with an unknown member in
front; and a row of which the spans are machine words. -/
theorem stored_records_round_trip_partial :
    config (Json.record [("colour", .text "red"), ("filter", .record [("category", .integer 4)])]) =
      some { filter := { category := 4 } } ∧
    (∀ c ∈ [SpannedCell.mk "Approve" 2], c.rowSpan < UInt64.size) ∧
    row (Row.leading [⟨"Approve", 2⟩] { name := "Target", type := "String" }).toJson =
      some (.leading [⟨"Approve", 2⟩] { name := "Target", type := "String" }) := by
  obtain ⟨-, -, -, hconfig, -, hrow⟩ := stored_records_round_trip
  have hspans : ∀ c ∈ [SpannedCell.mk "Approve" 2], c.rowSpan < UInt64.size := by
    decide
  refine ⟨?_, hspans, (hrow (.leading _ _) hspans).value⟩
  have hfilter : Recast Form.filter (Filter.toJson { state := 7, category := 4 })
      (.record [("category", .integer 4)]) (Filter.toJson { category := 4 }) :=
    .record (.missing rfl (.missing rfl (.missing rfl (.kept (.scalar _) .nil))))
      (List.forall_mem_nil _) (.refl _)
  have hextra : ∀ m ∈ [("colour", Json.text "red")],
      m.1 ∉ ["database_url", "filter", "namespaces"] := by
    intro m hm
    rw [List.mem_singleton.1 hm]
    decide
  have hrecast : Recast Form.config
      (Config.toJson { databaseUrl := some "db", filter := { state := 7, category := 4 } })
      (.record [("colour", .text "red"), ("filter", .record [("category", .integer 4)])])
      (Config.toJson { filter := { category := 4 } }) :=
    .record (.missing rfl (.kept hfilter (.missing rfl .nil))) hextra (.swap _ _ _)
  obtain ⟨c, hc, hread⟩ := (hconfig _).completed _ _ hrecast
  rwa [config_inj.1 hc] at hread

end ActionSheet.Record

import ActionSheet.Command.Run
import ActionSheet.Proofs.Record.RoundTrip
import ActionSheet.Proofs.Report.Shares
import ActionSheet.Storage.Folder

/-!
# Runs over a stored catalog

A run that reads its catalog from a file depends on two files, its settings and the snapshot. When
both can be loaded, nothing in them can make it fail any more: bodies that are no documents are
warnings of the report, and the only thing left to go wrong is writing the result. When one of them
cannot be loaded, the run ends before it has written anything.

Reading has to leave a file system as it is. `Shows` says so, and tells what is there to be read; it
is all that is used of a file system, so a write that fails may leave what it likes. The address of a
database is carried through the settings to the end of a run, and `Report.ofCatalog_congr` is why
it does not show in the report.
-/

namespace ActionSheet

variable {σ : Type}

/-! ## Reading -/

/-- A run goes on with what its first part gives, from the state that part leaves. -/
theorem run_bind_of_run {α β : Type} {x : StateM σ α} {s s' : σ} {a : α} (h : x.run s = (a, s'))
    (f : α → StateM σ β) : (x >>= f).run s = (f a).run s' := by
  rw [StateT.run_bind, h]
  rfl

theorem run_bind_of_ok {ε α β : Type} {x : ExceptT ε (StateM σ) α} {s s' : σ} {a : α}
    (h : x.run.run s = (.ok a, s')) (f : α → ExceptT ε (StateM σ) β) :
    (x >>= f).run.run s = (f a).run.run s' := by
  rw [ExceptT.run_bind, run_bind_of_run h]

theorem run_bind_of_error {ε α β : Type} {x : ExceptT ε (StateM σ) α} {s s' : σ} {e : ε}
    (h : x.run.run s = (.error e, s')) (f : α → ExceptT ε (StateM σ) β) :
    (x >>= f).run.run s = (.error e, s') := by
  rw [ExceptT.run_bind, run_bind_of_run h]
  rfl

/-- Reading leaves a file system as it is, and shows at every path what `look` tells. -/
def Files.Shows (files : Files (StateM σ)) (look : σ → String → Option ByteArray) : Prop :=
  ∀ path s, (files.read path).run s = (look s path, s)

/-- What is at a path is a text, and a reader makes a value of it. -/
def Holds {α : Type} (disk : String → Option ByteArray) (parse : String → Option α) (path : String)
    (a : α) : Prop :=
  ∃ bytes text, disk path = some bytes ∧ String.fromUTF8? bytes = some text ∧ parse text = some a

theorem FileFault.interpret_eq_ok {α : Type} {disk : String → Option ByteArray}
    {parse : String → Option α} {path : String} {a : α} :
    interpret parse path (disk path) = .ok a ↔ Holds disk parse path a := by
  rw [Holds]
  cases hbytes : disk path with
  | none => simp [interpret]
  | some bytes =>
      cases htext : String.fromUTF8? bytes with
      | none => simp [interpret, htext]
      | some text => cases ha : parse text <;> simp [interpret, htext, ha]

theorem FileFault.exists_interpret {α : Type} {disk : String → Option ByteArray}
    {parse : String → Option α} {path : String} (h : ¬∃ a, Holds disk parse path a) :
    ∃ fault, interpret parse path (disk path) = .error fault := by
  cases hi : interpret parse path (disk path) with
  | error fault => exact ⟨fault, rfl⟩
  | ok a => exact absurd ⟨a, interpret_eq_ok.1 hi⟩ h

theorem fromUTF8?_toUTF8 (s : String) : String.fromUTF8? s.toUTF8 = some s := by
  rw [String.fromUTF8?]
  exact dif_pos s.isValidUTF8

/-- A snapshot is read from the text that is printed for it. -/
theorem Holds.printed {disk : String → Option ByteArray} {path : String} {s : Snapshot}
    (hdisk : disk path = some s.toJson.print.toUTF8) (hpath : Format.ofPath path = .json) :
    Holds disk (Snapshot.parse? (Format.ofPath path)) path s := by
  rw [hpath]
  exact ⟨_, _, hdisk, fromUTF8?_toUTF8 _,
    ((Record.recovers_snapshot s).roundTrips (Record.fits_snapshot s) Record.snapshot_inj).text⟩

theorem Files.Shows.run_load {α : Type} {files : Files (StateM σ)}
    {look : σ → String → Option ByteArray} (h : files.Shows look) (parse : String → Option α)
    (path : String) (s : σ) :
    (files.load parse path).run s = (FileFault.interpret parse path (look s path), s) := by
  rw [load, run_bind_of_run (h path s)]
  rfl

/-! ## What the report depends on -/

theorem Config.overrideUrl_filter (c : Config) (url : Option String) :
    (c.overrideUrl url).filter = c.filter := by
  cases url with
  | none => rfl
  | some url => rw [overrideUrl]; split <;> rfl

theorem Config.overrideUrl_namespaces (c : Config) (url : Option String) :
    (c.overrideUrl url).namespaces = c.namespaces := by
  cases url with
  | none => rfl
  | some url => rw [overrideUrl]; split <;> rfl

theorem Report.ofActions_congr {c c' : Config} (h : c.namespaces = c'.namespaces)
    (actions : List Action) : ofActions c actions = ofActions c' actions := by
  have hadd : add c = add c' := by
    funext r a
    rw [add, add, h]
  rw [ofActions, ofActions, hadd]

/-- A report is made from the filter and the namespaces of the settings and from nothing else in
them. -/
theorem Report.ofCatalog_congr {c c' : Config} (hfilter : c.filter = c'.filter)
    (hnames : c.namespaces = c'.namespaces) (catalog : Catalog) :
    ofCatalog c catalog = ofCatalog c' catalog := by
  rw [ofCatalog, ofCatalog, hfilter, ofActions_congr hnames]

namespace Command

/-! ## The two files -/

/-- The settings that a run finds: those in the file that is named, or the standard ones if none
is. -/
def FindsSettings (disk : String → Option ByteArray) : Option String → Config → Prop
  | none, c => c = {}
  | some path, c => Holds disk Config.parse? path c

/-- Both files of a run can be loaded: they hold some settings and a snapshot. -/
structure Loads (disk : String → Option ByteArray) (vs : Variables) (o : Options) (fixture : String)
    (c : Config) (snapshot : Snapshot) : Prop where
  settings : FindsSettings disk (settingsPath? vs o) c
  catalog : Holds disk (Snapshot.parse? (Format.ofPath fixture)) fixture snapshot

section

variable {files : Files (StateM σ)} {look : σ → String → Option ByteArray} {s : σ}
  {vs : Variables} {o : Options} {fixture : String} {c : Config} {snapshot : Snapshot}

theorem run_settings_some (hfiles : files.Shows look) (vs : Variables) (path : String) (s : σ) :
    (settings files vs (some path)).run s =
      ((FileFault.interpret Config.parse? path (look s path)).map
        (·.overrideUrl (vs.get? Variables.databaseUrl)), s) := by
  rw [settings]
  exact run_bind_of_run (hfiles.run_load _ path s) _

/-- The settings of a run come from its file, and the address from a variable. -/
theorem run_settings (hfiles : files.Shows look) (vs : Variables) {path : Option String}
    (h : FindsSettings (look s) path c) :
    (settings files vs path).run s = (.ok (c.overrideUrl (vs.get? Variables.databaseUrl)), s) := by
  cases path with
  | none =>
      cases h
      rfl
  | some path =>
      rw [run_settings_some hfiles, FileFault.interpret_eq_ok.2 h]
      rfl

theorem exists_run_settings (hfiles : files.Shows look) (vs : Variables) {path : Option String}
    (h : ¬∃ c, FindsSettings (look s) path c) :
    ∃ fault, (settings files vs path).run s = (.error fault, s) := by
  cases path with
  | none => exact absurd ⟨_, rfl⟩ h
  | some path =>
      obtain ⟨fault, hfault⟩ := FileFault.exists_interpret h
      rw [run_settings_some hfiles, hfault]
      exact ⟨fault, rfl⟩

/-- With a file to read it from, the catalog depends on no settings. -/
theorem run_catalog_eq (hfiles : files.Shows look) (hfixture : o.fixture = some fixture)
    (config : Config) (s : σ) :
    (catalog files o config).run s =
      (((FileFault.interpret (Snapshot.parse? (Format.ofPath fixture)) fixture
        (look s fixture)).mapError .file).map fun x => .memory (Catalog.ofSnapshot x), s) := by
  rw [catalog, hfixture]
  exact run_bind_of_run (hfiles.run_load _ fixture s) _

theorem run_catalog (hfiles : files.Shows look) (hfixture : o.fixture = some fixture)
    (config : Config)
    (h : Holds (look s) (Snapshot.parse? (Format.ofPath fixture)) fixture snapshot) :
    (catalog files o config).run s = (.ok (.memory (Catalog.ofSnapshot snapshot)), s) := by
  rw [run_catalog_eq hfiles hfixture, FileFault.interpret_eq_ok.2 h]
  rfl

theorem exists_run_catalog (hfiles : files.Shows look) (hfixture : o.fixture = some fixture)
    (config : Config)
    (h : ¬∃ snapshot, Holds (look s) (Snapshot.parse? (Format.ofPath fixture)) fixture snapshot) :
    ∃ fault, (catalog files o config).run s = (.error (.file fault), s) := by
  obtain ⟨fault, hfault⟩ := FileFault.exists_interpret h
  rw [run_catalog_eq hfiles hfixture, hfault]
  exact ⟨fault, rfl⟩

/-! ## The report -/

/-- The report of a snapshot under the settings that count for it. -/
def snapshotReport (c : Config) (snapshot : Snapshot) : Report :=
  Report.ofCatalog { filter := c.filter, namespaces := c.namespaces } (Catalog.ofSnapshot snapshot)

theorem ofSource_overrideUrl (c : Config) (snapshot : Snapshot) (url url' : Option String) :
    Report.ofSource ((c.overrideUrl url).overrideUrl url')
      (.memory (Catalog.ofSnapshot snapshot)) = .ok (snapshotReport c snapshot) := by
  rw [snapshotReport, ← Report.ofCatalog_congr (c := (c.overrideUrl url).overrideUrl url')]
  · rfl
  · rw [Config.overrideUrl_filter, Config.overrideUrl_filter]
  · rw [Config.overrideUrl_namespaces, Config.overrideUrl_namespaces]

theorem rendered_html (h : o.format = .html) (occasion : Occasion) (r : Report) :
    rendered o occasion r = r.table.html := by
  rw [rendered, h]
  rfl

/-- The first part of a run, in which it settles its settings. -/
theorem run_settled {path : Option String} {x : Except FileFault Config}
    (h : (settings files vs path).run s = (x, s)) :
    (ExceptT.mk (m := StateM σ) do
      return (← settings files vs path).mapError Failure.file).run.run s =
        (x.mapError .file, s) := by
  rw [ExceptT.run_mk, run_bind_of_run h]
  rfl

theorem run_product (hfiles : files.Shows look) (hfixture : o.fixture = some fixture)
    (occasion : Occasion) (h : Loads (look s) vs o fixture c snapshot) :
    (product files vs occasion o).run.run s =
      (.ok (rendered o occasion (snapshotReport c snapshot)), s) := by
  rw [product, run_bind_of_ok (run_settled (run_settings hfiles vs h.settings))]
  refine (run_bind_of_ok (run_catalog hfiles hfixture _ h.catalog) _).trans ?_
  simp only [ofSource_overrideUrl]
  rfl

theorem exists_run_product (hfiles : files.Shows look) (hfixture : o.fixture = some fixture)
    (occasion : Occasion) (h : ¬∃ c snapshot, Loads (look s) vs o fixture c snapshot) :
    ∃ fault, (product files vs occasion o).run.run s = (.error (.file fault), s) := by
  rw [product]
  -- The catalog is only opened with settings in hand.
  by_cases hsettings : ∃ c, FindsSettings (look s) (settingsPath? vs o) c
  · obtain ⟨c, hc⟩ := hsettings
    have hcatalog : ¬∃ snapshot,
        Holds (look s) (Snapshot.parse? (Format.ofPath fixture)) fixture snapshot :=
      fun ⟨snapshot, hsnapshot⟩ => h ⟨c, snapshot, hc, hsnapshot⟩
    obtain ⟨fault, hfault⟩ := exists_run_catalog hfiles hfixture
      ((c.overrideUrl (vs.get? Variables.databaseUrl)).overrideUrl o.databaseUrl) hcatalog
    refine ⟨fault, ?_⟩
    rw [run_bind_of_ok (run_settled (run_settings hfiles vs hc))]
    exact run_bind_of_error hfault _
  · obtain ⟨fault, hfault⟩ := exists_run_settings hfiles vs hsettings
    exact ⟨fault, run_bind_of_error (run_settled hfault) _⟩

/-! ## Giving out -/

/-- What comes of giving a text out. Nothing stands on standard output when a file was asked for, and
only a write can fail. -/
inductive GivesOut (files : Files (StateM σ)) (s : σ) (text : String) :
    Option String → Outcome → σ → Prop
  | shown : GivesOut files s text none (.done (text ++ "\n")) s
  | stored {path : String} {s' : σ} (h : (files.write path text).run s = (true, s')) :
      GivesOut files s text (some path) (.done "") s'
  | refused {path : String} {s' : σ} (h : (files.write path text).run s = (false, s')) :
      GivesOut files s text (some path) (.failed (.unwritable path)) s'

theorem exists_run_deliver (files : Files (StateM σ)) (o : Options) (text : String) (s : σ) :
    ∃ outcome s', (deliver files o text).run s = (outcome, s') ∧
      GivesOut files s text o.output outcome s' := by
  rw [deliver]
  cases o.output with
  | none => exact ⟨_, _, rfl, .shown⟩
  | some path =>
      cases hwrite : (files.write path text).run s with
      | mk written s' =>
          refine ⟨_, s', run_bind_of_run hwrite _, ?_⟩
          cases written with
          | true => exact .stored hwrite
          | false => exact .refused hwrite

end

/-! ## Whole runs -/

/-- What a run is started with. -/
structure Start (σ : Type) where
  state : σ
  environment : Variables
  occasion : Occasion
  arguments : List String

namespace Start

/-- The run that is started, to its end. -/
def ends (t : Start σ) (files : Files (StateM σ)) : Ending × σ :=
  (run files t.environment t.occasion t.arguments).run t.state

/-- A run gets under way and is to read its catalog from a file: its variables can be settled, and
its arguments are options. -/
structure Begins (t : Start σ) (files : Files (StateM σ)) (vs : Variables) (o : Options)
    (fixture : String) : Prop where
  known : (knownVariables files t.environment).run t.state = (.ok vs, t.state)
  options : Invocation.ofArguments t.arguments = .run o
  fixture : o.fixture = some fixture

variable {files : Files (StateM σ)} {look : σ → String → Option ByteArray} {t : Start σ}
  {vs : Variables} {o : Options} {fixture : String}

/-- A run that gets under way ends as it is executed, and has made its notes. -/
theorem ends_eq_of_execute (hknown : (knownVariables files t.environment).run t.state =
    (.ok vs, t.state)) (hoptions : Invocation.ofArguments t.arguments = .run o)
    {outcome : Outcome} {s : σ}
    (hexecute : (execute files vs t.occasion o).run t.state = (outcome, s)) :
    t.ends files = (⟨notes vs o, outcome⟩, s) := by
  rw [ends, run, run_bind_of_run hknown]
  simp only [hoptions]
  rw [run_bind_of_run hexecute]
  rfl

theorem Begins.exists_ends (hfiles : files.Shows look) (h : t.Begins files vs o fixture)
    {c : Config} {snapshot : Snapshot} (hloads : Loads (look t.state) vs o fixture c snapshot) :
    ∃ outcome s, t.ends files = (⟨notes vs o, outcome⟩, s) ∧
      GivesOut files t.state (rendered o t.occasion (snapshotReport c snapshot)) o.output
        outcome s := by
  obtain ⟨outcome, s, hdeliver, hgives⟩ :=
    exists_run_deliver files o (rendered o t.occasion (snapshotReport c snapshot)) t.state
  refine ⟨outcome, s, ends_eq_of_execute h.known h.options ?_, hgives⟩
  rw [execute, run_bind_of_run (run_product hfiles h.fixture t.occasion hloads)]
  exact hdeliver

theorem Begins.exists_fault (hfiles : files.Shows look) (h : t.Begins files vs o fixture)
    (hloads : ¬∃ c snapshot, Loads (look t.state) vs o fixture c snapshot) :
    ∃ fault, t.ends files = (⟨notes vs o, .failed (.file fault)⟩, t.state) := by
  obtain ⟨fault, hfault⟩ := exists_run_product hfiles h.fixture t.occasion hloads
  refine ⟨fault, ends_eq_of_execute h.known h.options ?_⟩
  rw [execute, run_bind_of_run hfault]
  rfl

/-- A run over a stored catalog whose settings and snapshot load gives out the report of that
snapshot under the filter and the namespaces of the settings, to which each action adds its share
whatever its body is, and only the writing can fail. If one of the two files does not load, the run
fails and leaves every file and standard output alone. The sheet depends on the filter, the
namespaces and the snapshot alone. -/
theorem ends_of_stored_catalog (hfiles : files.Shows look) (h : t.Begins files vs o fixture) :
    (∀ c snapshot, Loads (look t.state) vs o fixture c snapshot →
      (∃ shares : List Share,
        List.Forall₂ (Action.HasShare { filter := c.filter, namespaces := c.namespaces })
          ((Catalog.ofSnapshot snapshot).actions c.filter) shares ∧
        snapshotReport c snapshot = Report.ofShares shares) ∧
      (o.format = .html →
        rendered o t.occasion (snapshotReport c snapshot) =
          (snapshotReport c snapshot).table.html) ∧
      ∃ outcome s, t.ends files = (⟨notes vs o, outcome⟩, s) ∧
        GivesOut files t.state (rendered o t.occasion (snapshotReport c snapshot)) o.output
          outcome s) ∧
    ((¬∃ c snapshot, Loads (look t.state) vs o fixture c snapshot) →
      ∃ fault, t.ends files = (⟨notes vs o, .failed (.file fault)⟩, t.state) ∧
        (t.ends files).1.outcome.output = "") ∧
    ∀ (t' : Start σ) (vs' : Variables) (o' : Options) (fixture' : String) (c c' : Config)
      (snapshot : Snapshot), t'.Begins files vs' o' fixture' →
      Loads (look t.state) vs o fixture c snapshot →
      Loads (look t'.state) vs' o' fixture' c' snapshot →
      c.filter = c'.filter → c.namespaces = c'.namespaces →
      o.format = .html → o'.format = .html →
      ∃ text outcome s outcome' s',
        t.ends files = (⟨notes vs o, outcome⟩, s) ∧
        GivesOut files t.state text o.output outcome s ∧
        t'.ends files = (⟨notes vs' o', outcome'⟩, s') ∧
        GivesOut files t'.state text o'.output outcome' s' := by
  refine ⟨fun c snapshot hloads => ⟨?_, ?_, h.exists_ends hfiles hloads⟩, fun hloads => ?_,
    fun t' vs' o' fixture' c c' snapshot h' hloads hloads' hfilter hnames hhtml hhtml' => ?_⟩
  · obtain ⟨shares, hshares⟩ := exists_shares { filter := c.filter, namespaces := c.namespaces }
      ((Catalog.ofSnapshot snapshot).actions c.filter)
    exact ⟨shares, hshares, Report.ofActions_eq_ofShares hshares⟩
  · exact fun hhtml => rendered_html hhtml _ _
  · obtain ⟨fault, hends⟩ := h.exists_fault hfiles hloads
    refine ⟨fault, hends, ?_⟩
    rw [hends]
    rfl
  · obtain ⟨outcome, s, hends, hgives⟩ := h.exists_ends hfiles hloads
    obtain ⟨outcome', s', hends', hgives'⟩ := h'.exists_ends hfiles hloads'
    have hreport : snapshotReport c snapshot = snapshotReport c' snapshot := by
      rw [snapshotReport, snapshotReport, hfilter, hnames]
    rw [rendered_html hhtml] at hgives
    rw [rendered_html hhtml', ← hreport] at hgives'
    exact ⟨_, outcome, s, outcome', s', hends, hgives, hends', hgives'⟩

/-! A folder of blank settings and a snapshot of one definition, whose body is never closed. -/

def unclosedSnapshot : Snapshot where
  workflows := [{
    id := .nil, name := "a", state := 1, status := 2, kind := 1, category := 3,
    primaryEntity := none, message := some .nil, body := some "<a>" }]
  messages := [⟨.nil, "m"⟩]

def unclosedFolder : Folder :=
  ⟨[("c", " ".toUTF8), ("s.json", unclosedSnapshot.toJson.print.toUTF8)]⟩

/-- A run that is to read the snapshot in a folder, with an address of a database from somewhere. -/
def addressedStart (f : Folder) (addresses : Variables) (arguments : List String) :
    Start Folder where
  state := f
  environment := (Variables.configPath, "c") :: addresses
  occasion := ⟨.nil, ""⟩
  arguments := "-f" :: "s.json" :: arguments

theorem loads_unclosed {vs : Variables} {o : Options} (h : settingsPath? vs o = some "c") :
    Loads (Folder.read? unclosedFolder) vs o "s.json" {} unclosedSnapshot := by
  refine ⟨?_, Holds.printed rfl (by decide +kernel)⟩
  rw [h]
  exact ⟨_, " ", by decide +kernel, fromUTF8?_toUTF8 _, by decide +kernel⟩

theorem ends_of_stored_catalog_unclosed :
    Folder.files.Shows Folder.read? ∧
    (addressedStart unclosedFolder [(Variables.databaseUrl, "d")] []).ends Folder.files =
      (⟨[.settingsFrom "c"], .done (Table.empty.html ++ "\n")⟩, unclosedFolder) ∧
    (addressedStart unclosedFolder [] ["--database-url=e"]).ends Folder.files =
      (⟨[.settingsFrom "c"], .done (Table.empty.html ++ "\n")⟩, unclosedFolder) ∧
    ∃ fault, (addressedStart {} [] []).ends Folder.files =
      (⟨[.settingsFrom "c"], .failed (.file fault)⟩, {}) := by
  have hfiles : Folder.files.Shows Folder.read? := fun _ _ => rfl
  have hbegins : (addressedStart unclosedFolder [(Variables.databaseUrl, "d")] []).Begins
      Folder.files [(Variables.configPath, "c"), (Variables.databaseUrl, "d")]
      { fixture := some "s.json" } "s.json" := ⟨rfl, rfl, rfl⟩
  have hbegins' : (addressedStart unclosedFolder [] ["--database-url=e"]).Begins Folder.files
      [(Variables.configPath, "c")] { fixture := some "s.json", databaseUrl := some "e" }
      "s.json" := ⟨rfl, rfl, rfl⟩
  have hmissing : (addressedStart {} [] []).Begins Folder.files [(Variables.configPath, "c")]
      { fixture := some "s.json" } "s.json" := ⟨rfl, rfl, rfl⟩
  have hempty : (snapshotReport {} unclosedSnapshot).table = Table.empty := by
    decide +kernel
  obtain ⟨hreport, -, hsame⟩ := ends_of_stored_catalog hfiles hbegins
  obtain ⟨-, hfault, -⟩ := ends_of_stored_catalog hfiles hmissing
  have hfirst : (addressedStart unclosedFolder [(Variables.databaseUrl, "d")] []).ends
      Folder.files =
        (⟨[.settingsFrom "c"], .done (Table.empty.html ++ "\n")⟩, unclosedFolder) := by
    obtain ⟨-, hhtml, outcome, s, hends, hgives⟩ := hreport {} unclosedSnapshot (loads_unclosed rfl)
    rw [hhtml rfl, hempty] at hgives
    cases hgives
    exact hends
  refine ⟨hfiles, hfirst, ?_, ?_⟩
  · obtain ⟨text, outcome, s, outcome', s', hends, hgives, hends', hgives'⟩ := hsame _ _ _ _ {} {}
      unclosedSnapshot hbegins' (loads_unclosed rfl) (loads_unclosed rfl) rfl rfl rfl rfl
    cases hgives
    cases hgives'
    rw [hends', ← Outcome.done.inj (congrArg (·.1.outcome) (hfirst.symm.trans hends))]
    rfl
  · obtain ⟨fault, hends, -⟩ := hfault fun ⟨c, snapshot, h⟩ => by
      obtain ⟨bytes, text, hbytes, -⟩ := h.catalog
      cases hbytes
    exact ⟨fault, hends⟩

end Start

end Command

end ActionSheet

import ActionSheet.Proofs.Command.StoredCatalog

/-!
# The address of a database

A run without a file to read its catalog from goes by an address. An option, a variable and the file
of settings can give one, and what a run goes by is the first of the three that is not empty. Those of
the variable and of the option are put over what is there already by `Config.overrideUrl`, which takes
an empty text for no address and leaves everything else in the settings alone
(`Config.foldr_overrideUrl`).

The file is not put over anything. An address that is empty there is an address, and a run for which
neither option nor variable says anything goes by it instead of missing one
(`Start.Settles.ends_eq`).
-/

namespace ActionSheet

/-! ## Addresses -/

/-- An address, if it is not empty. -/
def spoken? (url : Option String) : Option String :=
  url.filter (!·.isEmpty)

/-- The first of some addresses that is not empty. -/
def firstAddress? (urls : List (Option String)) : Option String :=
  urls.findSome? spoken?

theorem spoken?_eq_some {url : Option String} {x : String} (h : spoken? url = some x) :
    url = some x :=
  (Option.filter_eq_some_iff.1 h).1

theorem spoken?_eq_none {url : Option String} (h : spoken? url = none) :
    url = none ∨ url = some "" := by
  cases url with
  | none => exact .inl rfl
  | some url =>
      have hempty : url.isEmpty = true := by simpa [spoken?] using h
      exact .inr (congrArg some (String.isEmpty_iff.1 hempty))

/-- The last of some addresses counts where none of the others says anything. -/
theorem firstAddress?_concat (urls : List (Option String)) (url : Option String) :
    firstAddress? (urls ++ [url]) = (firstAddress? urls).or (spoken? url) := by
  rw [firstAddress?, List.findSome?_append, List.findSome?_singleton, firstAddress?]

/-- Overriding puts in an address that is not empty, and changes nothing else. -/
theorem Config.overrideUrl_eq (c : Config) (url : Option String) :
    c.overrideUrl url = { c with databaseUrl := (spoken? url).or c.databaseUrl } := by
  cases url with
  | none => rfl
  | some url =>
      rw [overrideUrl, spoken?, Option.filter_some]
      cases url.isEmpty <;> rfl

/-- Addresses that are put over settings one after the other come to the one put in last that is not
empty. -/
theorem Config.foldr_overrideUrl (c : Config) (urls : List (Option String)) :
    urls.foldr (fun url d => d.overrideUrl url) c =
      { c with databaseUrl := (firstAddress? urls).or c.databaseUrl } := by
  induction urls with
  | nil => rfl
  | cons url urls ih =>
      rw [List.foldr_cons, ih, overrideUrl_eq, firstAddress?, firstAddress?, List.findSome?_cons]
      cases spoken? url <;> rfl

namespace Command

/-! ## Settling the settings -/

variable {m : Type → Type} [Monad m]

/-- The settings that a run goes by: those of its file, under the address of the variable, under the
address of the option. -/
def settled (files : Files m) (vs : Variables) (o : Options) : m (Except Failure Config) := do
  let config ← settings files vs (settingsPath? vs o)
  return (config.mapError .file).map (·.overrideUrl o.databaseUrl)

/-- What a run makes under the settings that it goes by. -/
def productUnder (files : Files m) (occasion : Occasion) (o : Options) (config : Config) :
    ExceptT Failure m String := do
  let source ← ExceptT.mk (catalog files o config)
  match Report.ofSource config source with
  | .error fault => throw (.repository fault)
  | .ok report => return rendered o occasion report

/-- A run settles its settings and knows nothing of them but what they come to. -/
theorem product_eq [LawfulMonad m] (files : Files m) (vs : Variables) (occasion : Occasion)
    (o : Options) :
    product files vs occasion o =
      ExceptT.mk (settled files vs o) >>= productUnder files occasion o := by
  apply ExceptT.ext
  rw [product, settled, ExceptT.run_bind, ExceptT.run_bind, ExceptT.run_mk, ExceptT.run_mk,
    bind_assoc, bind_assoc]
  refine bind_congr fun config => ?_
  rw [pure_bind, pure_bind]
  cases config <;> rfl

section

variable {σ : Type} {files : Files (StateM σ)} {look : σ → String → Option ByteArray} {s : σ}
  {vs : Variables} {o : Options} {c : Config}

theorem run_settledSettings (hfiles : files.Shows look)
    (h : FindsSettings (look s) (settingsPath? vs o) c) :
    (settled files vs o).run s =
      (.ok { c with
        databaseUrl :=
          (firstAddress? [o.databaseUrl, vs.get? Variables.databaseUrl]).or c.databaseUrl }, s) := by
  rw [settled, run_bind_of_run (run_settings hfiles vs h), ← Config.foldr_overrideUrl]
  rfl

/-- What a run without a file for its catalog comes to, with an address or without one. -/
def Failure.ofAddress : Option String → Failure
  | some url => .noDatabaseSupport url
  | none => .noSource

theorem run_catalog_of_address (files : Files (StateM σ)) (ho : o.fixture = none) (config : Config)
    (s : σ) : (catalog files o config).run s = (.error (.ofAddress config.databaseUrl), s) := by
  rw [catalog, ho]
  cases config.databaseUrl <;> rfl

theorem run_product_of_address (hfiles : files.Shows look) (ho : o.fixture = none)
    (occasion : Occasion) (h : FindsSettings (look s) (settingsPath? vs o) c) :
    (product files vs occasion o).run.run s =
      (.error (.ofAddress
        ((firstAddress? [o.databaseUrl, vs.get? Variables.databaseUrl]).or c.databaseUrl)), s) := by
  rw [product_eq]
  refine (run_bind_of_ok (run_settledSettings hfiles h) (productUnder files occasion o)).trans ?_
  exact run_bind_of_error (run_catalog_of_address files ho _ s) _

end

namespace Start

variable {σ : Type} {files : Files (StateM σ)} {look : σ → String → Option ByteArray} {t : Start σ}
  {vs : Variables} {o : Options} {c : Config}

/-- A run gets under way and finds its settings: its variables can be settled, its arguments are
options, and the file of settings can be loaded if there is to be one. -/
structure Settles (t : Start σ) (files : Files (StateM σ)) (look : σ → String → Option ByteArray)
    (vs : Variables) (o : Options) (c : Config) : Prop where
  known : (knownVariables files t.environment).run t.state = (.ok vs, t.state)
  options : Invocation.ofArguments t.arguments = .run o
  settings : FindsSettings (look t.state) (settingsPath? vs o) c

theorem Settles.ends_eq (hfiles : files.Shows look) (h : t.Settles files look vs o c)
    (ho : o.fixture = none) :
    t.ends files = (⟨notes vs o, .failed (.ofAddress
      ((firstAddress? [o.databaseUrl, vs.get? Variables.databaseUrl]).or c.databaseUrl))⟩,
      t.state) := by
  refine ends_eq_of_execute h.known h.options ?_
  rw [execute, run_bind_of_run (run_product_of_address hfiles ho t.occasion h.settings)]
  rfl

/-- The settings that a run goes by are those of its file, or the standard ones, in everything but
the address. Without a file for its catalog the run ends by the first address that is not empty among
those of the option, of the variable and of the file. If there is none, it ends for want of an
address where the file has none either; an empty one in the file it takes for an address. -/
theorem ends_by_address (hfiles : files.Shows look) (h : t.Settles files look vs o c) :
    (∃ url, (settled files vs o).run t.state =
      (.ok { databaseUrl := url, filter := c.filter, namespaces := c.namespaces }, t.state)) ∧
    (o.fixture = none →
      (∀ url,
        firstAddress? [o.databaseUrl, vs.get? Variables.databaseUrl, c.databaseUrl] = some url →
        t.ends files = (⟨notes vs o, .failed (.noDatabaseSupport url)⟩, t.state)) ∧
      (firstAddress? [o.databaseUrl, vs.get? Variables.databaseUrl, c.databaseUrl] = none →
        (c.databaseUrl = none →
          t.ends files = (⟨notes vs o, .failed .noSource⟩, t.state)) ∧
        (c.databaseUrl ≠ none → c.databaseUrl = some "" ∧
          t.ends files = (⟨notes vs o, .failed (.noDatabaseSupport "")⟩, t.state)))) := by
  refine ⟨⟨_, run_settledSettings hfiles h.settings⟩, fun ho => ?_⟩
  have hall := firstAddress?_concat [o.databaseUrl, vs.get? Variables.databaseUrl] c.databaseUrl
  rw [h.ends_eq hfiles ho]
  rw [List.cons_append, List.cons_append, List.nil_append] at hall
  rw [hall]
  cases firstAddress? [o.databaseUrl, vs.get? Variables.databaseUrl] with
  | some url =>
      refine ⟨fun url' hurl => ?_, nofun⟩
      cases hurl
      rfl
  | none =>
      rw [Option.none_or, Option.none_or]
      refine ⟨fun url hurl => ?_, fun hnone => ⟨fun hfile => ?_, fun hfile => ?_⟩⟩
      · rw [spoken?_eq_some hurl]
        rfl
      · rw [hfile]
        rfl
      · have hempty := (spoken?_eq_none hnone).resolve_left hfile
        rw [hempty]
        exact ⟨rfl, rfl⟩

/-! Runs in a folder with a file of settings, which names an address or leaves it empty. -/

def addressFolder (address : String) : Folder :=
  ⟨[("c.yaml", ("database_url: '" ++ address ++ "'").toUTF8)]⟩

def addressStart (address : String) (environment : Variables) (arguments : List String) :
    Start Folder where
  state := addressFolder address
  environment := environment
  occasion := ⟨.nil, ""⟩
  arguments := arguments

theorem settles_address {address : String} {vs : Variables} {arguments : List String} {o : Options}
    (hoptions : Invocation.ofArguments arguments = .run o)
    (hpath : settingsPath? vs o = some "c.yaml")
    (hparse : Config.parse? ("database_url: '" ++ address ++ "'") =
      some { databaseUrl := some address }) :
    (addressStart address vs arguments).Settles Folder.files Folder.read? vs o
      { databaseUrl := some address } := by
  refine ⟨rfl, hoptions, ?_⟩
  rw [hpath]
  exact ⟨_, _, rfl, fromUTF8?_toUTF8 _, hparse⟩

/-- An empty option and an empty variable leave the address of the file; with neither a file nor
anything else there is none. -/
theorem ends_by_address_file :
    ((addressStart "d" [(Variables.databaseUrl, "")] ["-c", "c.yaml", "--database-url="]).ends
      Folder.files).1.outcome = .failed (.noDatabaseSupport "d") ∧
    ((addressStart "d" [(Variables.databaseUrl, "")] []).ends Folder.files).1.outcome =
      .failed .noSource := by
  have hfiles : Folder.files.Shows Folder.read? := fun _ _ => rfl
  have hnamed : (addressStart "d" [(Variables.databaseUrl, "")]
      ["-c", "c.yaml", "--database-url="]).Settles Folder.files Folder.read?
        [(Variables.databaseUrl, "")] { config := some "c.yaml", databaseUrl := some "" }
        { databaseUrl := some "d" } :=
    settles_address (by decide +kernel) rfl (by decide +kernel)
  have hnone : (addressStart "d" [(Variables.databaseUrl, "")] []).Settles Folder.files Folder.read?
      [(Variables.databaseUrl, "")] {} {} := ⟨rfl, rfl, rfl⟩
  refine ⟨?_, ?_⟩
  · rw [((ends_by_address hfiles hnamed).2 rfl).1 "d" (by decide +kernel)]
  · rw [(((ends_by_address hfiles hnone).2 rfl).2 (by decide +kernel)).1 rfl]

/-- So it is not the case that an empty address counts as none wherever it stands. -/
theorem ends_of_empty_address :
    ¬∀ (t : Start Folder) (vs : Variables) (o : Options) (c : Config),
      t.Settles Folder.files Folder.read? vs o c → o.fixture = none →
        t.ends Folder.files = (⟨notes vs o, .failed (.ofAddress
          (firstAddress? [o.databaseUrl, vs.get? Variables.databaseUrl, c.databaseUrl]))⟩,
          t.state) := by
  intro hall
  have hfiles : Folder.files.Shows Folder.read? := fun _ _ => rfl
  have hempty : (addressStart "" [] ["-c", "c.yaml"]).Settles Folder.files Folder.read? []
      { config := some "c.yaml" } { databaseUrl := some "" } :=
    settles_address (by decide +kernel) rfl (by decide +kernel)
  have hends := hall _ _ _ _ hempty rfl
  rw [hempty.ends_eq hfiles rfl] at hends
  cases congrArg (·.1.outcome) hends

end Start

end Command

end ActionSheet

import ScriptHost.Proofs.Manifest.Demands
import ScriptHost.Proofs.Session.Changes

/-!
# The modules of a manifest

A manifest declares modules by name, each with the path of its file.

* Loading reads the file of every declared module and keeps the source under its name, except for
  the one name that cannot be stored.
* A session that is created from the manifest has the kept modules in a record's order.  Importing
  one of them runs the program that its file compiles to, now and after any further parsing.
-/

namespace ScriptHost

namespace Manifest

variable {tree : FileTree}
variable {directory : Path}
variable {path : String}

/-- What reading the declared modules gives: every file is read, and the names stay in order. -/
theorem readModules_eq_ok
    {declared : List (String × HostValue)}
    {modules : List (String × String)}
    (succeeds : readModules tree directory path declared = .ok modules) :
    Entries.names modules = (Entries.names declared).filter (· ≠ unstorableName) ∧
      ∀ name value, Entries.last? declared name = some value →
        ∃ specifier source, value = .text specifier ∧
          tree.read (directory.resolve specifier) specifier = .ok source ∧
          (name ≠ unstorableName → Entries.last? modules name = some source) := by
  induction declared generalizing modules with
  | nil =>
      obtain rfl := Except.ok.inj succeeds
      simp
  | cons entry rest ih =>
      obtain ⟨key, value⟩ := entry
      cases value with
      | text specifier =>
          simp only [readModules, bind_eq_ok, Except.ok.injEq] at succeeds
          obtain ⟨source, read, others, further, rfl⟩ := succeeds
          obtain ⟨names, sources⟩ := ih further
          constructor
          · by_cases dropped : key = unstorableName <;> simp [dropped, names]
          · intro name value last
            rw [Entries.last?_cons] at last
            cases later : Entries.last? rest name with
            | some other =>
                obtain ⟨specifier', source', text, read', kept⟩ := sources name other later
                refine ⟨specifier', source', ?_, read', fun storable => ?_⟩
                · rw [← text]
                  simpa [later] using last.symm
                · by_cases dropped : key = unstorableName
                  · simpa [dropped] using kept storable
                  · simp [dropped, Entries.last?_cons, kept storable]
            | none =>
                have absent : Entries.last? others name = none := by
                  rw [Entries.last?_eq_none_iff, names]
                  intro member
                  exact (Entries.last?_eq_none_iff rest name).1 later
                    (List.mem_of_mem_filter member)
                by_cases here : key = name
                · subst here
                  refine ⟨specifier, source, ?_, read, fun storable => ?_⟩
                  · simpa [later] using last.symm
                  · simp [storable, Entries.last?_cons, absent]
                · simp [later, here] at last
      | _ => cases succeeds

/-- The modules that the document at a path declares, where `parse` reads documents. -/
def declared?
    (parse : String → Except String HostValue)
    (tree : FileTree)
    (path : String) : Option (List (String × HostValue)) := do
  let content ← (tree.read (tree.root.resolve path) path).toOption
  let document ← (parse content).toOption
  let entries ← optionalRecord? (some document)
  optionalRecord? (Entries.get? entries "modules")

/-- A manifest that was loaded has the modules that its document declares. -/
theorem declared?_of_loadWith
    {parse : String → Except String HostValue}
    {manifest : Manifest}
    (loaded : loadWith parse tree path = .ok manifest) :
    ∃ declared, declared? parse tree path = some declared ∧
      readModules tree (tree.root.resolve path).parent path declared = .ok manifest.modules := by
  obtain ⟨text, document, parts, declared, read, parsed, top, listed, readAll, -⟩ :=
    loadWith_eq_ok loaded
  refine ⟨declared, ?_, readAll⟩
  simp [declared?, read, parsed, top, listed, Except.toOption]

/-- The modules of a manifest, as a session lists them: the declared ones but for the name that
cannot be stored. -/
theorem names_enumerate_modules
    {declared : List (String × HostValue)}
    {modules : List (String × String)}
    (names : Entries.names modules = (Entries.names declared).filter (· ≠ unstorableName)) :
    (Entries.ofPairs modules).enumerate.names =
      (Entries.ofPairs declared).enumerate.names.filter (· ≠ unstorableName) := by
  have plain : Entries.index? unstorableName = none := by decide
  rw [Entries.names_enumerate, Entries.names_enumerate, Entries.names_ofPairs,
    Entries.names_ofPairs, names, Entries.eraseDups_filter, Entries.listed_filter_ne _ plain]

end Manifest

namespace Session

open ScriptHost.Language

variable {π σ μ : Type}
variable {observer : Option Observer}
variable {logger : Logger}

/-- The modules that compiling and storing pairs with distinct names leaves in a session that had
none. -/
theorem modules_storing
    {session : Session Program Unit μ}
    (none : session.modules = [])
    {pairs : Entries String}
    (distinct : pairs.names.Nodup) :
    (session.storing pairs).modules = pairs.mapValues load := by
  change session.modules.overwrite (pairs.mapValues load) = _
  rw [none]
  change Entries.ofPairs (pairs.mapValues load) = _
  rw [Entries.ofPairs_eq_self_iff, Entries.names_mapValues]
  exact distinct

/-- A new session has the modules of its options in a record's order, each loaded. -/
theorem modules_of_create
    {options : SessionOptions μ}
    {start session : Session Program Unit μ}
    (none : start.modules = [])
    (created : (create (host observer logger) options).on start = (.ok (), session)) :
    session.modules = (Entries.ofPairs options.modules).enumerate.mapValues load ∧
      ∀ pair ∈ (Entries.ofPairs options.modules).enumerate,
        ∃ program, Language.compile pair.2 = .ok program := by
  obtain ⟨bindings, first, bound, created⟩ := Action.on_bind_eq_ok created
  obtain ⟨-, rfl⟩ := Prod.mk.inj bound
  obtain ⟨_, second, changed, created⟩ := Action.on_bind_eq_ok created
  obtain ⟨-, rfl⟩ := Prod.mk.inj changed
  obtain ⟨_, third, registered, created⟩ := Action.on_bind_eq_ok created
  obtain ⟨_, fourth, added, parsed⟩ := Action.on_bind_eq_ok created
  have before : third.modules = [] := by
    have keeps : Action.Keeps (fun session : Session Program Unit μ => session.modules = [])
        (fun _ => True) (registerAll options.functions) :=
      keeps_registerAll (fun _ kept => kept) _
    have kept := (keeps { start with bindings := bindings } none).1
    rwa [registered] at kept
  have distinct : (Entries.ofPairs options.modules).enumerate.names.Nodup :=
    Entries.nodup_names_enumerate (Entries.nodup_names_ofPairs _)
  have compiling := compile_eq_ok_of_addModules observer logger added
  rw [on_addModules observer logger third _ compiling] at added
  obtain ⟨-, rfl⟩ := Prod.mk.inj added
  refine ⟨?_, compiling⟩
  cases source : options.source with
  | none =>
      rw [source] at parsed
      obtain ⟨-, rfl⟩ := Prod.mk.inj parsed
      exact modules_storing before distinct
  | some text =>
      rw [source] at parsed
      have modules : session.modules = reloaded (third.storing _).modules :=
        congrArg Script.modules (script_parse observer logger parsed)
      rw [modules, modules_storing before distinct, reloaded_mapValues_load distinct]

/-- Wherever the name is imported, its program runs in the scope of the import. -/
def RunsOnImport (session : Session Program Unit μ) (name : String) (body : Program) : Prop :=
  ∀ debug depth last rest scope,
    runStatements debug session.importable (run debug session.importable depth) last
        (.importModule name :: rest) scope =
      run debug session.importable depth body scope >>= fun inner =>
        runStatements debug session.importable (run debug session.importable depth) .none rest
          inner.scope

theorem runsOnImport_of_get?
    {session : Session Program Unit μ}
    {name source : String}
    {body : Program}
    (stored : session.modules.get? name = some ⟨source, some body⟩) :
    session.RunsOnImport name body := by
  have importable : session.importable name = some body := by
    rw [Session.importable, Entries.get?_mapValues, stored]
    rfl
  intro debug depth last rest scope
  rw [runStatements, importable]

end Session

open Session ScriptHost.Language

/-- No declared module is lost but for the name that cannot be stored.  If a manifest is loaded and
a session is created from it, the session's modules are the declared ones without that name, in a
record's order.  Each has the content of the file that the manifest names for it, and wherever it is
imported, the program of that content runs, also after another source was parsed. -/
theorem create_modules_of_manifest
    {μ : Type}
    {parse : String → Except String HostValue}
    {tree : FileTree}
    {path : String}
    {manifest : Manifest}
    (loaded : Manifest.loadWith parse tree path = .ok manifest)
    (observer : Option Observer)
    (logger : Logger)
    (functions : List (Registration (HostFunction μ)))
    (others : List (String × HostValue))
    (memory : μ)
    {session : Session Program Unit μ}
    (created : (create (host observer logger) (manifest.sessionOptions functions others)).on
      (.empty () memory manifest.policy) = (.ok (), session)) :
    ∃ declared, Manifest.declared? parse tree path = some declared ∧
      session.modules.names =
        (Entries.ofPairs declared).enumerate.names.filter (· ≠ Manifest.unstorableName) ∧
      ∀ name ∈ session.modules.names, ∃ specifier source body,
        Entries.last? declared name = some (.text specifier) ∧
          tree.read ((tree.root.resolve path).parent.resolve specifier) specifier = .ok source ∧
          Language.compile source = .ok body ∧
          session.RunsOnImport name body ∧
          ∀ text program, (session.parsed text program).RunsOnImport name body := by
  obtain ⟨declared, declares, sources⟩ := Manifest.declared?_of_loadWith loaded
  obtain ⟨names, files⟩ := Manifest.readModules_eq_ok sources
  obtain ⟨stored, compiling⟩ := modules_of_create rfl created
  change session.modules = (Entries.ofPairs manifest.modules).enumerate.mapValues load at stored
  have listing : session.modules.names =
      (Entries.ofPairs declared).enumerate.names.filter (· ≠ Manifest.unstorableName) := by
    rw [stored, Entries.names_mapValues, Manifest.names_enumerate_modules names]
  refine ⟨declared, declares, listing, ?_⟩
  intro name member
  rw [listing] at member
  obtain ⟨there, storable⟩ := List.mem_filter.1 member
  have inside : name ∈ Entries.names declared := by
    rw [Entries.mem_names_enumerate, Entries.names_ofPairs] at there
    exact List.mem_eraseDups.1 there
  obtain ⟨value, last⟩ := Option.ne_none_iff_exists'.1 fun none =>
    (Entries.last?_eq_none_iff declared name).1 none inside
  obtain ⟨specifier, source, rfl, readFile, kept⟩ := files name value last
  have distinct := Entries.nodup_names_ofPairs manifest.modules
  have found : (Entries.ofPairs manifest.modules).enumerate.get? name = some source := by
    rw [Entries.get?_enumerate distinct, Entries.get?_ofPairs]
    exact kept (of_decide_eq_true storable)
  obtain ⟨body, compiled⟩ := compiling (name, source)
    ((Entries.get?_eq_some_iff (Entries.nodup_names_enumerate distinct) name source).1 found)
  have gets : session.modules.get? name = some ⟨source, some body⟩ := by
    rw [stored, Entries.get?_mapValues, found]
    simp [load, compiled, Except.toOption]
  refine ⟨specifier, source, body, last, readFile, compiled, runsOnImport_of_get? gets, ?_⟩
  intro text program
  have again : (session.parsed text program).modules = session.modules := by
    rw [modules_parsed, stored, reloaded_mapValues_load (Entries.nodup_names_enumerate distinct)]
  rw [← again] at gets
  exact runsOnImport_of_get? gets

/-- Two modules are declared, one of them under the name that cannot be stored. -/
def protoTree : FileTree :=
  .ofPaths "/w" [("m.yaml", "modules: \x7b__proto__: p, extra: e\x7d".toUTF8.toList),
    ("p", "x".toUTF8.toList), ("e", "y".toUTF8.toList)] []

theorem loaded_protoTree :
    ∃ manifest session, Manifest.load protoTree "m.yaml" = .ok manifest ∧
      (create (host none .printing) (manifest.sessionOptions [] [])).on
        (.empty () () manifest.policy) = (.ok (), session) ∧
      manifest.modules = [("extra", "y")] := by
  have checked : (Manifest.load protoTree "m.yaml").toOption.map (fun manifest =>
      (manifest.source, manifest.modules, manifest.vars.length, manifest.duplicateFunctions)) =
        some (none, [("extra", "y")], 0, none) := by
    decide +kernel
  cases loaded : Manifest.load protoTree "m.yaml" with
  | error fault =>
      rw [loaded] at checked
      cases checked
  | ok manifest =>
      rw [loaded] at checked
      obtain ⟨path, source, modules, vars, debug, policy⟩ := manifest
      simp only [Except.toOption, Option.map_some, Option.some.injEq, Prod.mk.injEq,
        List.length_eq_zero_iff] at checked
      obtain ⟨rfl, rfl, rfl, rfl⟩ := checked
      refine ⟨_, _, rfl, Prod.ext ?_ rfl, rfl⟩
      with_unfolding_all rfl

theorem declared_protoTree :
    ∃ declared, Manifest.declared? Yaml.document protoTree "m.yaml" = some declared ∧
      (Entries.ofPairs declared).enumerate.names = ["__proto__", "extra"] := by
  have checked : (Manifest.declared? Yaml.document protoTree "m.yaml").map (fun declared =>
      (Entries.ofPairs declared).enumerate.names) = some ["__proto__", "extra"] := by
    decide +kernel
  exact Option.map_eq_some_iff.1 checked

theorem create_modules_of_protoTree :
    ∃ manifest session, Manifest.load protoTree "m.yaml" = .ok manifest ∧
      (create (host none .printing) (manifest.sessionOptions [] [])).on
        (.empty () () manifest.policy) = (.ok (), session) ∧
      session.modules.names = ["extra"] ∧
      ∃ source body, Language.compile source = .ok body ∧ session.RunsOnImport "extra" body := by
  obtain ⟨manifest, session, loaded, created, -⟩ := loaded_protoTree
  obtain ⟨declared, declares, names, imports⟩ :=
    create_modules_of_manifest loaded none .printing [] [] () created
  obtain ⟨expected, found, listed⟩ := declared_protoTree
  obtain rfl : declared = expected := Option.some.inj (declares.symm.trans found)
  rw [listed] at names
  obtain ⟨_, source, body, -, -, compiled, runs, -⟩ := imports "extra" (by rw [names]; decide)
  exact ⟨manifest, session, loaded, created, names.trans (by decide), source, body, compiled, runs⟩

/-- The module under the name that cannot be stored is lost. -/
theorem module_of_protoTree_lost :
    ∃ manifest session declared, Manifest.load protoTree "m.yaml" = .ok manifest ∧
      (create (host none .printing) (manifest.sessionOptions [] [])).on
        (.empty () () manifest.policy) = (.ok (), session) ∧
      Manifest.declared? Yaml.document protoTree "m.yaml" = some declared ∧
      "__proto__" ∈ (Entries.ofPairs declared).enumerate.names ∧
      "__proto__" ∉ session.modules.names := by
  obtain ⟨manifest, session, loaded, created, modules⟩ := loaded_protoTree
  obtain ⟨declared, declares, listed⟩ := declared_protoTree
  refine ⟨manifest, session, declared, loaded, created, declares, ?_, ?_⟩
  · rw [listed]
    decide
  · rw [(modules_of_create rfl created).1, Entries.names_mapValues]
    change "__proto__" ∉ (Entries.ofPairs manifest.modules).enumerate.names
    rw [modules, Entries.mem_names_enumerate]
    decide

end ScriptHost

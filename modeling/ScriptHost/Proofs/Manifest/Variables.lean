import ScriptHost.Language.Evaluation
import ScriptHost.Proofs.Bindings
import ScriptHost.Proofs.Entries.Listing
import ScriptHost.Proofs.Manifest.Demands
import ScriptHost.Proofs.Session.Calls
import ScriptHost.Proofs.Session.Construction

/-!
# The variables of a manifest

A session that is created from a manifest starts with the variables that the manifest declares and
with others that are given besides.  Where both have a name, the value of the others counts.

* `get?_variablesWith` and `mergedOrder_enumerate` describe the two together as one record.
* `bindings_of_create`: a new session has the encodings of the host values that it was given.  What
  comes after them, functions, modules and the source, leaves them alone.
* `create_variables_of_manifest` puts this together for a manifest that was loaded.
-/

namespace ScriptHost

/-- The variable has the encoding of a host value. -/
def Bindings.Holds (bindings : Bindings) (name : String) (value : HostValue) : Prop :=
  ∃ encoded, value.encode = .ok encoded ∧ bindings.get? name = some encoded

namespace Manifest

/-- The variables that a document declares. -/
def variablesOf (document : HostValue) : Entries HostValue :=
  propertiesOf (Entries.get? (propertiesOf (some document)) "variables")

/-- A manifest that was loaded has the variables that its document declares. -/
theorem variablesOf_of_loadWith
    {parse : String → Except String HostValue}
    {tree : FileTree}
    {path : String}
    {manifest : Manifest}
    (loaded : loadWith parse tree path = .ok manifest) :
    ∃ text document, tree.read (tree.root.resolve path) path = .ok text ∧
      parse text = .ok document ∧ variablesOf document = manifest.vars := by
  obtain ⟨text, document, parts, -, read, parsed, top, -, -, assigned⟩ := loadWith_eq_ok loaded
  refine ⟨text, document, read, parsed, ?_⟩
  rw [variablesOf, propertiesOf_eq top, propertiesOf_eq assigned]

/-- The value at a name is the last one among the others, or else in the manifest. -/
theorem get?_variablesWith
    (manifest : Manifest)
    (others : List (String × HostValue))
    (name : String) :
    Entries.get? (manifest.variablesWith others) name =
      (Entries.last? others name).or (Entries.last? manifest.vars name) := by
  rw [variablesWith, Entries.get?_enumerate (Entries.nodup_names_ofPairs _),
    Entries.ofPairs_append, Entries.get?_overwrite, Entries.get?_ofPairs]

end Manifest

namespace Session

variable {π σ μ : Type}

theorem keptByLoading_bindings (host : Host π σ) (bindings : Bindings) :
    KeptByLoading host (fun session : Session π σ μ => session.bindings = bindings)
      fun _ _ => True where
  notes _ _ kept := kept
  compiles _ := trivial
  setsProgram kept _ := kept
  putsModule _ kept _ := kept

/-- A session that is created has the encodings of the host values that it was given as its
variables. -/
theorem bindings_of_create
    {host : Host π σ}
    {source : Option String}
    {entries : List (String × HostValue)}
    {functions : List (Registration (HostFunction μ))}
    {modules : List (String × String)}
    {start session : Session π σ μ}
    (fresh : start.bindings = .empty)
    (created : (create host ⟨source, .host entries, functions, modules⟩).on start =
      (.ok (), session)) :
    ∃ vars, HostValue.encodeEntries entries = .ok vars ∧
      session.bindings = .ofVariables vars := by
  rw [on_create host source entries functions modules fresh] at created
  cases encoded : HostValue.encodeEntries entries with
  | error fault =>
      rw [encoded] at created
      cases created
  | ok vars =>
      rw [encoded] at created
      have set : (start.setting vars).bindings = .ofVariables vars := by
        rw [setting, fresh]
        rfl
      have kept := ((keptByLoading_bindings host _).keeps_createRest (fun _ kept => kept) source
        functions modules _ set).1
      exact ⟨vars, rfl, by simpa only [created] using kept⟩

end Session

/-- Where names are distinct, the encodings of host values are bound under the same names in the same
order. -/
theorem Bindings.names_and_holds_of_encodeEntries
    {entries : List (String × HostValue)}
    {vars : List Variable}
    (distinct : (Entries.names entries).Nodup)
    (encoded : HostValue.encodeEntries entries = .ok vars) :
    (Bindings.ofVariables vars).names = Entries.names entries ∧
      ∀ name value, Entries.get? entries name = some value →
        (Bindings.ofVariables vars).Holds name value := by
  have names := HostValue.names_encodeEntries encoded
  rw [← names] at distinct
  rw [Bindings.ofVariables_of_nodup distinct]
  exact ⟨names, fun name value found => HostValue.get?_encodeEntries encoded found⟩

open Session

/-- A session that is created from a manifest that was loaded starts with the variables of the
manifest and the others together, each name once.  A name of the others has the encoding of the
value that they give it, even if that is nothing, and any other name that of its value in the
manifest.  The names that are array indices come first, in ascending order, then the manifest's
other names as they stand there, and then those that only the others have. -/
theorem create_variables_of_manifest
    {π σ μ : Type}
    {parse : String → Except String HostValue}
    {tree : FileTree}
    {path : String}
    {manifest : Manifest}
    (loaded : Manifest.loadWith parse tree path = .ok manifest)
    (host : Host π σ)
    (functions : List (Registration (HostFunction μ)))
    (others : List (String × HostValue))
    (engineState : σ)
    (memory : μ)
    {session : Session π σ μ}
    (created : (create host (manifest.sessionOptions functions others)).on
      (.empty engineState memory manifest.policy) = (.ok (), session)) :
    ∃ text document, tree.read (tree.root.resolve path) path = .ok text ∧
      parse text = .ok document ∧
      let declared := Manifest.variablesOf document
      Entries.MergedOrder declared.names (Entries.names others) session.bindings.names ∧
        (∀ name value, Entries.last? others name = some value →
          session.bindings.Holds name value) ∧
        (∀ name value, name ∉ Entries.names others → Entries.last? declared name = some value →
          session.bindings.Holds name value) ∧
        ∀ name, Entries.last? others name = some .absent →
          session.bindings.get? name = some .none := by
  obtain ⟨text, document, read, parsed, declares⟩ := Manifest.variablesOf_of_loadWith loaded
  refine ⟨text, document, read, parsed, ?_⟩
  obtain ⟨vars, encoded, bound⟩ := bindings_of_create rfl created
  have order : Entries.MergedOrder (Entries.names manifest.vars) (Entries.names others)
      (Entries.names (manifest.variablesWith others)) :=
    Entries.mergedOrder_enumerate manifest.vars others
  obtain ⟨names, values⟩ := Bindings.names_and_holds_of_encodeEntries order.distinct encoded
  rw [declares, bound, names]
  have holds : ∀ name value, Entries.last? others name = some value →
      (Bindings.ofVariables vars).Holds name value := by
    intro name value last
    refine values name value ?_
    rw [Manifest.get?_variablesWith, last, Option.some_or]
  refine ⟨order, holds, ?_, ?_⟩
  · intro name value absent last
    refine values name value ?_
    rw [Manifest.get?_variablesWith, (Entries.last?_eq_none_iff others name).2 absent,
      Option.none_or, last]
  · intro name last
    obtain ⟨_, encodes, found⟩ := holds name .absent last
    obtain rfl := Except.ok.inj encodes
    exact found

/-- A manifest with variables, the names of some of which are array indices. -/
def overriddenTree : FileTree :=
  .ofPaths "/w"
    [("m.yaml", "variables: \x7b\"10\": w, b: x, __proto__: y, \"2\": z\x7d".toUTF8.toList)] []

def overriddenDocument : HostValue :=
  .record false [("variables", .record false
    [("2", .text "z"), ("10", .text "w"), ("b", .text "x"), ("__proto__", .text "y")])]

def overriddenManifest : Manifest :=
  ⟨"/w/m.yaml", none, [],
    [("2", .text "z"), ("10", .text "w"), ("b", .text "x"), ("__proto__", .text "y")], false, none⟩

/-- Variables that take precedence, one of them with nothing as its value. -/
def overridingVariables : List (String × HostValue) :=
  [("c", .bool true), ("__proto__", .absent), ("1", .text "v"), ("2", .null)]

theorem created_overriddenTree :
    ∃ session : Session Language.Program Unit Unit,
      (create (Language.host none .printing)
        (overriddenManifest.sessionOptions [] overridingVariables)).on
          (.empty () () overriddenManifest.policy) = (.ok (), session) := by
  have encodes : HostValue.encodeEntries
      (Entries.ofPairs (overriddenManifest.vars ++ overridingVariables)) =
        .ok [("2", .none), ("10", .str "w"), ("b", .str "x"), ("__proto__", .none),
          ("c", .bool (.ofNat 1)), ("1", .str "v")] := by
    rfl
  obtain ⟨vars, encoded, -⟩ :=
    HostValue.exists_encodeEntries_of_perm (Entries.enumerate_perm _) encodes
  refine ⟨_, Prod.ext ?_ rfl⟩
  rw [Manifest.sessionOptions, on_create _ _ _ _ _ rfl, Manifest.variablesWith, encoded]
  with_unfolding_all rfl

theorem create_variables_of_overriddenTree :
    ∃ session : Session Language.Program Unit Unit,
      Manifest.loadWith (fun _ => .ok overriddenDocument) overriddenTree "m.yaml" =
          .ok overriddenManifest ∧
        (create (Language.host none .printing)
          (overriddenManifest.sessionOptions [] overridingVariables)).on
            (.empty () () overriddenManifest.policy) = (.ok (), session) ∧
        Entries.MergedOrder ["2", "10", "b", "__proto__"] ["c", "__proto__", "1", "2"]
          session.bindings.names ∧
        session.bindings.Holds "2" .null ∧ session.bindings.Holds "b" (.text "x") ∧
        session.bindings.get? "__proto__" = some .none := by
  have loaded : Manifest.loadWith (fun _ => .ok overriddenDocument) overriddenTree "m.yaml" =
      .ok overriddenManifest := by
    rfl
  obtain ⟨session, created⟩ := created_overriddenTree
  obtain ⟨_, document, -, parsed, order, overridden, kept, absent⟩ :=
    create_variables_of_manifest loaded (Language.host none .printing) [] overridingVariables () ()
      created
  obtain rfl := Except.ok.inj parsed
  exact ⟨session, loaded, created, order, overridden "2" .null rfl,
    kept "b" (.text "x") (by decide) rfl, absent "__proto__" rfl⟩

end ScriptHost

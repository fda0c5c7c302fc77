import ScriptHost.Manifest
import ScriptHost.Proofs.Codec.Keys

/-!
# What is demanded of a manifest

Loading a manifest looks at its parts and reads the files that they name, in turn.  What it demands
on the way is listed here, without loading anything twice.

* `Demand` is a single demand: that a file can be read, that a text is a document, or that a part has
  its shape.  `Demand.Met` says what is demanded and `Demand.fault` what is said of the failure.
* `demands` lists them in their order.  A file is demanded right after the part that names it.
* `verdict_loadWith`: apart from its result, loading a manifest is making these demands one by one.
* `loadWith_eq_ok`: what a manifest has that was loaded.
* `loadWith_outcome`: a manifest is loaded exactly if all demands are met, and otherwise the first one
  that is not met decides the fault.
-/

namespace ScriptHost

/-- The value is an object other than a list.  Among plain data these are the records. -/
def HostValue.IsObject : HostValue → Prop
  | absent | null | bool _ | number _ | integer _ | text _ | list _ => False
  | reference _ (.symbol _) | reference _ (.function _ _ _) => False
  | _ => True

theorem HostValue.isSome_properties?_iff (value : HostValue) :
    value.properties?.isSome ↔ value.IsObject := by
  cases value with
  | reference identity target => cases target <;> simp [properties?, IsObject]
  | _ => simp [properties?, IsObject]

namespace Manifest

/-- Something that is demanded of a manifest. -/
inductive Demand where
  /-- The file at the path can be read; `specifier` is how the path was written. -/
  | readable (path : Path) (specifier : String)
  /-- The text is a document. -/
  | document (text : String)
  /-- The part has the shape that a manifest with this problem lacks.  A key that is missing has no
  part. -/
  | shape (problem : ManifestProblem) (part : Option HostValue)

/-- Nothing is there. -/
def IsMissing (part : Option HostValue) : Prop :=
  part = none ∨ part = some .absent

/-- What shape the parts of a manifest have. -/
def IsShaped : ManifestProblem → Option HostValue → Prop
  | .topLevel, part | .modules, part | .variableMapping, part =>
      IsMissing part ∨ part = some .null ∨ ∃ value, part = some value ∧ value.IsObject
  | .main, part => IsMissing part ∨ ∃ text, part = some (.text text)
  | .modulePath _, part => ∃ text, part = some (.text text)
  | .debug, part => IsMissing part ∨ part = some .null ∨ ∃ flag, part = some (.bool flag)
  | .duplicateFunctions, part =>
      IsMissing part ∨ ∃ name ∈ ["shadow", "first", "reject"], part = some (.text name)

namespace Demand

/-- Is there what is demanded? -/
def Met (parse : String → Except String HostValue) (tree : FileTree) : Demand → Prop
  | readable path _ => ∃ content, tree.node path = .file content
  | document text => ∃ value, parse text = .ok value
  | shape problem part => IsShaped problem part

/-- The fault of a manifest that does not have what is demanded. -/
def fault
    (parse : String → Except String HostValue)
    (tree : FileTree)
    (manifest : String) : Demand → Fault
  | readable path specifier =>
      match tree.node path with
      | .directory => .directoryRead
      | _ => .fileNotFound specifier path.text
  | document text =>
      match parse text with
      | .error reason => .unreadableManifest manifest reason
      | .ok _ => .unreadableManifest manifest ""
  | shape problem _ => .invalidManifest manifest problem

/-- What a fault tells of the demand that was not met. -/
def IsReported
    (parse : String → Except String HostValue)
    (tree : FileTree)
    (manifest : String)
    (fault : Fault) : Demand → Prop
  | readable path specifier =>
      (tree.node path = .missing ∧ fault.code? = some .configFileNotFound ∧
          fault.message = "File not found: " ++ specifier ∧ fault.path? = some path.text) ∨
        (tree.node path = .directory ∧ fault.code? = none ∧ fault.systemCode? = some "EISDIR")
  | document text =>
      fault.code? = some .configParseFailed ∧ fault.path? = some manifest ∧
        ∃ reason, parse text = .error reason ∧
          fault.message = "Cannot parse manifest " ++ manifest ++ ": " ++ reason
  | shape problem _ =>
      fault.code? = some .configInvalid ∧ fault.path? = some manifest ∧
        fault.message = "Invalid manifest " ++ manifest ++ ": " ++ problem.message

end Demand

/-- The properties of a part; there are none unless it is an object. -/
def propertiesOf (part : Option HostValue) : Entries HostValue :=
  (part.bind HostValue.properties?).getD []

/-- What is demanded of the file that a part names. -/
def fileDemands (directory : Path) : Option HostValue → List Demand
  | some (.text specifier) => [.readable (directory.resolve specifier) specifier]
  | _ => []

/-- What is demanded of modules, one after the other: each names a file, which can be read. -/
def moduleDemands (directory : Path) (modules : Entries HostValue) : List Demand :=
  modules.flatMap fun entry =>
    .shape (.modulePath entry.1) (some entry.2) :: fileDemands directory (some entry.2)

/-- What is demanded of the parts of a manifest. -/
def partDemands (directory : Path) (parts : Entries HostValue) : List Demand :=
  .shape .main (parts.get? "main") :: (fileDemands directory (parts.get? "main") ++
    .shape .modules (parts.get? "modules") ::
      (moduleDemands directory (propertiesOf (parts.get? "modules")) ++
        [.shape .variableMapping (parts.get? "variables"), .shape .debug (parts.get? "debug"),
          .shape .duplicateFunctions (parts.get? "duplicateFunctions")]))

/-- What is demanded of the text of a manifest. -/
def textDemands
    (parse : String → Except String HostValue)
    (directory : Path)
    (text : String) : List Demand :=
  .document text ::
    match parse text with
    | .error _ => []
    | .ok value =>
        .shape .topLevel (some value) :: partDemands directory (propertiesOf (some value))

/-- What is demanded of the manifest at a path, in order. -/
def demands
    (parse : String → Except String HostValue)
    (tree : FileTree)
    (manifest : String) : List Demand :=
  let path := tree.root.resolve manifest
  .readable path manifest ::
    match tree.node path with
    | .file content => textDemands parse path.parent (Utf8.decode content)
    | _ => []

/-- Whether a part has its shape, as loading a manifest finds it out. -/
def shape? : ManifestProblem → Option HostValue → Option Unit
  | .topLevel, part | .modules, part | .variableMapping, part =>
      (optionalRecord? part).map fun _ => ()
  | .main, part => (optionalText? part).map fun _ => ()
  | .modulePath _, some (.text _) => some ()
  | .modulePath _, _ => none
  | .debug, part => (optionalFlag? part).map fun _ => ()
  | .duplicateFunctions, part => (optionalPolicy? part).map fun _ => ()

theorem isSome_optionalRecord?_iff (part : Option HostValue) :
    (optionalRecord? part).isSome ↔
      IsMissing part ∨ part = some .null ∨ ∃ value, part = some value ∧ value.IsObject := by
  cases part with
  | none => simp [optionalRecord?, IsMissing]
  | some value =>
      have object := value.isSome_properties?_iff
      cases value <;> simp [optionalRecord?, IsMissing, object]

theorem isSome_optionalText?_iff (part : Option HostValue) :
    (optionalText? part).isSome ↔ IsMissing part ∨ ∃ text, part = some (.text text) := by
  cases part with
  | none => simp [optionalText?, IsMissing]
  | some value => cases value <;> simp [optionalText?, IsMissing]

theorem isSome_optionalFlag?_iff (part : Option HostValue) :
    (optionalFlag? part).isSome ↔
      IsMissing part ∨ part = some .null ∨ ∃ flag, part = some (.bool flag) := by
  cases part with
  | none => simp [optionalFlag?, IsMissing]
  | some value => cases value <;> simp [optionalFlag?, IsMissing]

theorem isSome_optionalPolicy?_iff (part : Option HostValue) :
    (optionalPolicy? part).isSome ↔
      IsMissing part ∨ ∃ name ∈ ["shadow", "first", "reject"], part = some (.text name) := by
  cases part with
  | none => simp [optionalPolicy?, IsMissing]
  | some value =>
      cases value with
      | text name =>
          simp [optionalPolicy?, IsMissing, DuplicatePolicy.known, DuplicatePolicy.name,
            eq_comm (b := name)]
      | _ => simp [optionalPolicy?, IsMissing]

theorem isSome_shape?_iff (problem : ManifestProblem) (part : Option HostValue) :
    (shape? problem part).isSome ↔ IsShaped problem part := by
  cases problem with
  | modulePath name =>
      cases part with
      | none => simp [shape?, IsShaped]
      | some value => cases value <;> simp [shape?, IsShaped]
  | main => simpa [shape?, IsShaped] using isSome_optionalText?_iff part
  | debug => simpa [shape?, IsShaped] using isSome_optionalFlag?_iff part
  | duplicateFunctions => simpa [shape?, IsShaped] using isSome_optionalPolicy?_iff part
  | _ => simpa [shape?, IsShaped] using isSome_optionalRecord?_iff part

section Loading

variable {parse : String → Except String HostValue}
variable {tree : FileTree}
variable {manifest : String}

/-- Makes a demand, as loading a manifest does. -/
def Demand.check
    (parse : String → Except String HostValue)
    (tree : FileTree)
    (manifest : String) : Demand → Except Fault Unit
  | readable path specifier => verdict (tree.read path specifier)
  | document text =>
      match parse text with
      | .ok _ => .ok ()
      | .error reason => .error (.unreadableManifest manifest reason)
  | shape problem part => require manifest problem (shape? problem part)

/-- A demand that is not met has its fault. -/
theorem Demand.check_eq_error_iff (demand : Demand) {fault : Fault} :
    demand.check parse tree manifest = .error fault ↔
      ¬ demand.Met parse tree ∧ fault = demand.fault parse tree manifest := by
  cases demand with
  | readable path specifier =>
      cases found : tree.node path <;>
        simp [check, Met, Demand.fault, verdict, FileTree.read, found, Except.map, eq_comm]
  | document text =>
      cases parsed : parse text <;> simp [check, Met, Demand.fault, parsed, eq_comm]
  | shape problem part =>
      have shaped := isSome_shape?_iff problem part
      cases found : shape? problem part with
      | none =>
          have unshaped : ¬ IsShaped problem part := by simpa [found] using shaped
          simp [check, Met, Demand.fault, found, require, unshaped, eq_comm]
      | some _ =>
          have fits : IsShaped problem part := by simpa [found] using shaped
          simp [check, Met, found, require, fits]

theorem Demand.check_eq_ok_iff (demand : Demand) :
    demand.check parse tree manifest = .ok () ↔ demand.Met parse tree := by
  cases made : demand.check parse tree manifest with
  | error fault => simp [(demand.check_eq_error_iff.1 made).1]
  | ok _ =>
      by_contra unmet
      have fails : demand.check parse tree manifest = .error (demand.fault parse tree manifest) :=
        demand.check_eq_error_iff.2 ⟨by simpa using unmet, rfl⟩
      rw [made] at fails
      cases fails

theorem Demand.isReported_fault {demand : Demand} (unmet : ¬ demand.Met parse tree) :
    demand.IsReported parse tree manifest (demand.fault parse tree manifest) := by
  cases demand with
  | readable path specifier =>
      cases found : tree.node path with
      | file content => exact absurd ⟨content, found⟩ unmet
      | directory =>
          rw [Demand.fault, found]
          exact .inr ⟨found, rfl, rfl⟩
      | missing =>
          rw [Demand.fault, found]
          exact .inl ⟨found, rfl, rfl, rfl⟩
  | document text =>
      cases parsed : parse text with
      | ok value => exact absurd ⟨value, parsed⟩ unmet
      | error reason =>
          rw [Demand.fault, parsed]
          exact ⟨rfl, rfl, reason, parsed, rfl⟩
  | shape problem part => exact ⟨rfl, rfl, rfl⟩

/-- A computation makes a demand and then those of what follows it. -/
theorem verdict_bind_eq_forM
    {α β : Type}
    {check : Demand → Except Fault Unit}
    {demand : Demand}
    {demands : List Demand}
    {computation : Except Fault α}
    {next : α → Except Fault β}
    (first : verdict computation = check demand)
    (rest : ∀ a, computation = .ok a → verdict (next a) = forM demands check) :
    verdict (computation >>= next) = forM (demand :: demands) check := by
  rw [List.forM_cons, ← first]
  cases made : computation with
  | error fault => rfl
  | ok a => exact rest a made

theorem verdict_map {α β : Type} (f : α → β) (computation : Except Fault α) :
    verdict (computation.map f) = verdict computation := by
  cases computation <;> rfl

theorem verdict_require {α : Type} (problem : ManifestProblem) (part : Option α) :
    verdict (require manifest problem part) =
      require manifest problem (part.map fun _ => ()) := by
  cases part <;> rfl

theorem require_eq_ok
    {α : Type}
    {problem : ManifestProblem}
    {part : Option α}
    {value : α} :
    require manifest problem part = .ok value ↔ part = some value := by
  cases part <;> simp [require]

theorem propertiesOf_eq
    {part : Option HostValue}
    {entries : Entries HostValue}
    (found : optionalRecord? part = some entries) :
    propertiesOf part = entries := by
  rcases part with _ | value
  · exact Option.some.inj found
  · cases value <;> first
      | exact Option.some.inj found
      | exact congrArg (Option.getD · []) found

theorem fileDemands_eq
    {part : Option HostValue}
    {name : Option String}
    (found : optionalText? part = some name)
    (directory : Path) :
    fileDemands directory part =
      name.toList.map fun specifier => .readable (directory.resolve specifier) specifier := by
  rcases part with _ | value
  · obtain rfl := Option.some.inj found
    rfl
  · cases value <;> first
      | (obtain rfl := Option.some.inj found; rfl)
      | cases found

theorem read_eq_ok
    {path : Path}
    {specifier text : String}
    (read : tree.read path specifier = .ok text) :
    ∃ content, tree.node path = .file content ∧ Utf8.decode content = text := by
  cases found : tree.node path <;> simp_all [FileTree.read]

theorem verdict_readModules (directory : Path) (modules : List (String × HostValue)) :
    verdict (readModules tree directory manifest modules) =
      forM (moduleDemands directory modules) (Demand.check parse tree manifest) := by
  induction modules with
  | nil => rfl
  | cons entry rest ih =>
      obtain ⟨name, value⟩ := entry
      rw [moduleDemands, List.flatMap_cons, List.cons_append, List.forM_cons]
      cases value with
      | text specifier =>
          change _ = forM (.readable (directory.resolve specifier) specifier ::
            moduleDemands directory rest) _
          refine verdict_bind_eq_forM rfl fun source _ => ?_
          rw [verdict_bind_ok, ih]
      | _ => rfl

/-- Apart from its result, loading a manifest is making the demands on it one by one. -/
theorem verdict_loadWith :
    verdict (loadWith parse tree manifest) =
      forM (demands parse tree manifest) (Demand.check parse tree manifest) := by
  refine verdict_bind_eq_forM rfl fun text read => ?_
  obtain ⟨content, found, rfl⟩ := read_eq_ok read
  rw [found]
  change _ = forM (textDemands parse (tree.root.resolve manifest).parent (Utf8.decode content)) _
  rw [textDemands, List.forM_cons]
  cases parsed : parse (Utf8.decode content) with
  | error reason =>
      rw [Demand.check, parsed]
      rfl
  | ok value =>
      rw [Demand.check, parsed]
      change verdict (require _ .topLevel _ >>= _) = forM (Demand.shape .topLevel _ :: _) _
      refine verdict_bind_eq_forM (verdict_require _ _) fun parts top => ?_
      rw [propertiesOf_eq (require_eq_ok.1 top)]
      refine verdict_bind_eq_forM (verdict_require _ _) fun main named => ?_
      rw [fileDemands_eq (require_eq_ok.1 named)]
      -- The main source is read or not; what follows is the same.
      rcases main with _ | specifier
      on_goal 1 => change verdict (require _ .modules _ >>= _) = forM (Demand.shape .modules _ :: _) _
      on_goal 2 => refine verdict_bind_eq_forM (verdict_map _ _) fun source _ => ?_
      all_goals
        refine verdict_bind_eq_forM (verdict_require _ _) fun modules declared => ?_
        rw [propertiesOf_eq (require_eq_ok.1 declared), List.forM_append, ← verdict_readModules]
        refine verdict_bind fun _ => ?_
        refine verdict_bind_eq_forM (verdict_require _ _) fun _ _ => ?_
        refine verdict_bind_eq_forM (verdict_require _ _) fun _ _ => ?_
        exact verdict_bind_eq_forM (verdict_require _ _) fun _ _ => rfl

end Loading

/-- A manifest that was loaded has the modules and the variables of its document. -/
theorem loadWith_eq_ok
    {parse : String → Except String HostValue}
    {tree : FileTree}
    {path : String}
    {manifest : Manifest}
    (loaded : loadWith parse tree path = .ok manifest) :
    ∃ text document parts modules,
      tree.read (tree.root.resolve path) path = .ok text ∧ parse text = .ok document ∧
        optionalRecord? (some document) = some parts ∧
        optionalRecord? (Entries.get? parts "modules") = some modules ∧
        readModules tree (tree.root.resolve path).parent path modules = .ok manifest.modules ∧
        optionalRecord? (Entries.get? parts "variables") = some manifest.vars := by
  obtain ⟨text, read, loaded⟩ := bind_eq_ok.1 loaded
  cases parsed : parse text with
  | error reason =>
      rw [parsed] at loaded
      cases loaded
  | ok document =>
      rw [parsed] at loaded
      obtain ⟨_, same, loaded⟩ := bind_eq_ok.1 loaded
      obtain rfl := Except.ok.inj same
      obtain ⟨parts, top, loaded⟩ := bind_eq_ok.1 loaded
      obtain ⟨main, -, loaded⟩ := bind_eq_ok.1 loaded
      -- The main source is read or not; what follows is the same.
      rcases main with _ | specifier
      all_goals
        obtain ⟨_, -, loaded⟩ := bind_eq_ok.1 loaded
        simp only [bind_eq_ok, require_eq_ok, Except.ok.injEq] at loaded top
        obtain ⟨modules, listed, sources, readAll, vars, assigned, _, -, _, -, rfl⟩ := loaded
        exact ⟨text, document, parts, modules, read, parsed, top, listed, readAll, assigned⟩

/-- A manifest is loaded exactly if every demand on it is met.  Otherwise the first demand that is
not met decides the fault, whatever may be wrong with those after it: a file that is missing is
reported with its path as written and where it was looked for, a directory as the file system does,
and a manifest that is no document or has a part of the wrong shape with its own path. -/
theorem loadWith_outcome
    (parse : String → Except String HostValue)
    (tree : FileTree)
    (manifest : String) :
    ((∃ loaded, loadWith parse tree manifest = .ok loaded) ↔
        ∀ demand ∈ demands parse tree manifest, demand.Met parse tree) ∧
      (∀ fault, loadWith parse tree manifest = .error fault ↔
        ∃ earlier demand later, demands parse tree manifest = earlier ++ demand :: later ∧
          (∀ other ∈ earlier, other.Met parse tree) ∧ ¬ demand.Met parse tree ∧
          fault = demand.fault parse tree manifest) ∧
      ∀ demand : Demand, ¬ demand.Met parse tree →
        demand.IsReported parse tree manifest (demand.fault parse tree manifest) := by
  refine ⟨?_, fun fault => ?_, fun demand => Demand.isReported_fault⟩
  · rw [← verdict_eq_ok, verdict_loadWith]
    constructor
    · intro passed demand member
      exact demand.check_eq_ok_iff.1 (check_of_forM_eq_ok passed demand member)
    · intro met
      have passed : ∀ demand ∈ demands parse tree manifest,
          demand.check parse tree manifest = .ok () :=
        fun demand member => demand.check_eq_ok_iff.2 (met demand member)
      have all := forM_append_of_ok passed []
      rwa [List.append_nil] at all
  · rw [← verdict_eq_error, verdict_loadWith, forM_eq_error_iff]
    simp only [Demand.check_eq_ok_iff, Demand.check_eq_error_iff]

example :
    demands
      (fun _ => .ok (.record false [("modules", .record false [("a", .null), ("b", .text "../b")]),
        ("main", .text "m"), ("debug", .null)]))
      (.ofPaths "/w" [("d/m.yaml", [])] []) "d/m.yaml" =
    [.readable ⟨["w", "d", "m.yaml"]⟩ "d/m.yaml", .document "",
      .shape .topLevel (some (.record false
        [("modules", .record false [("a", .null), ("b", .text "../b")]), ("main", .text "m"),
          ("debug", .null)])),
      .shape .main (some (.text "m")), .readable ⟨["w", "d", "m"]⟩ "m",
      .shape .modules (some (.record false [("a", .null), ("b", .text "../b")])),
      .shape (.modulePath "a") (some .null),
      .shape (.modulePath "b") (some (.text "../b")), .readable ⟨["w", "b"]⟩ "../b",
      .shape .variableMapping none, .shape .debug (some .null),
      .shape .duplicateFunctions none] := by
  rfl

end Manifest
end ScriptHost

import ScriptHost.Proofs.Session.Calls

/-!
# Parsing a source of the line language

Parsing compiles the source and then every module again from its stored source.

* `parse_eq_ok` and `on_parse` say when it succeeds, and `parsed` what it leaves.
* Parsing twice gives modules the same meaning as parsing once: compiling a module again from its
  stored source changes nothing any more.
-/

namespace ScriptHost

namespace Language

open Entries

/-- A module with what its source compiles to. -/
def load (source : String) : Module Program :=
  ⟨source, (compile source).toOption⟩

/-- The source of every module has a program. -/
def ModulesCompile (modules : Entries (Module Program)) : Prop :=
  ∀ entry ∈ modules, ∃ program, compile entry.2.source = .ok program

/-- The modules, each compiled again from its stored source. -/
def reloaded (modules : Entries (Module Program)) : Entries (Module Program) :=
  modules.overwrite (modules.mapValues fun stored => load stored.source)

theorem names_reloaded (modules : Entries (Module Program)) :
    (reloaded modules).names = modules.names :=
  names_overwrite _ _ fun _ member => by simpa using member

theorem get?_reloaded (modules : Entries (Module Program)) (name : String) :
    (reloaded modules).get? name =
      (last? modules name).map fun stored => load stored.source := by
  rw [reloaded, get?_overwrite, last?_mapValues]
  cases there : last? modules name with
  | some stored => rfl
  | none =>
      have absent := (last?_eq_none_iff modules name).1 there
      rw [(get?_eq_none_iff modules name).2 absent]
      rfl

theorem get?_reloaded_reloaded (modules : Entries (Module Program)) (name : String) :
    (reloaded (reloaded modules)).get? name = (reloaded modules).get? name := by
  have sources : (last? (reloaded modules) name).map Module.source =
      (last? modules name).map Module.source := by
    refine last?_overwrite Module.source _ _ ?_ name
    intro other _
    rw [last?_mapValues, Option.map_map]
    rfl
  have loaded := congrArg (Option.map load) sources
  rw [Option.map_map, Option.map_map] at loaded
  rw [get?_reloaded, get?_reloaded]
  exact loaded

theorem reloaded_mapValues_load
    {pairs : Entries String}
    (distinct : pairs.names.Nodup) :
    reloaded (pairs.mapValues load) = pairs.mapValues load := by
  have stored : (pairs.mapValues load).names.Nodup := by
    rwa [Entries.names_mapValues]
  refine Entries.eq_of_names_of_get? ?_ (names_reloaded _) fun name => ?_
  · rwa [names_reloaded]
  · rw [get?_reloaded, ← Entries.get?_ofPairs, (Entries.ofPairs_eq_self_iff _).2 stored,
      Entries.get?_mapValues, Option.map_map]
    rfl

end Language

namespace Session

open ScriptHost.Language

variable {μ : Type}
variable (observer : Option Observer)
variable (logger : Logger)

/-- The session after a source was given to the engine. -/
def tried (session : Session Program Unit μ) (source : String) : Session Program Unit μ :=
  { session with
    journal := { session.journal with sources := session.journal.sources ++ [source] } }

/-- The session after modules were compiled and stored. -/
def storing
    (session : Session Program Unit μ)
    (pairs : List (String × String)) : Session Program Unit μ :=
  { session with
    modules := session.modules.overwrite (Entries.mapValues load pairs)
    journal :=
      { session.journal with sources := session.journal.sources ++ pairs.map Prod.snd } }

/-- The session after a source was parsed to a program. -/
def parsed
    (session : Session Program Unit μ)
    (source : String)
    (program : Program) : Session Program Unit μ :=
  let stored := (session.tried source).storing (session.modules.mapValues Module.source)
  { stored with program := some program }

theorem engine_compile_eq_ok
    {source : String}
    {state : Unit}
    {found : Option Program}
    (made : ((host observer logger).engine.compile source state).1 = .ok found) :
    ∃ program, Language.compile source = .ok program ∧ found = some program := by
  change (Language.compile source).map some = .ok found at made
  cases compiled : Language.compile source with
  | error fault =>
      rw [compiled] at made
      cases made
  | ok program =>
      rw [compiled] at made
      cases made
      exact ⟨program, rfl, rfl⟩

theorem on_compile (session : Session Program Unit μ) (source : String) :
    (Session.compile (host observer logger) source).on session =
      match Language.compile source with
      | .ok program => (.ok (some program), session.tried source)
      | .error fault => (.error (.malformed fault), session.tried source) := by
  rw [Session.compile]
  cases compiled : Language.compile source <;>
    simp [host, engine, compiled, Action.on_bind, Except.map, tried]

theorem on_addModule
    (session : Session Program Unit μ)
    (name source : String) :
    (addModule (host observer logger) name source).on session =
      match Language.compile source with
      | .ok _ => (.ok (), session.storing [(name, source)])
      | .error fault => (.error (.malformed fault), session.tried source) := by
  rw [addModule, Action.on_bind, on_compile]
  cases compiled : Language.compile source with
  | error fault => rfl
  | ok program =>
      simp [tried, storing, Entries.mapValues, Entries.overwrite, load, compiled, Except.toOption]

theorem on_addModules
    (session : Session Program Unit μ)
    (pairs : List (String × String))
    (compiling : ∀ pair ∈ pairs, ∃ program, Language.compile pair.2 = .ok program) :
    (addModules (host observer logger) pairs).on session = (.ok (), session.storing pairs) := by
  induction pairs generalizing session with
  | nil => simp [addModules, storing, Entries.mapValues]
  | cons pair rest ih =>
      obtain ⟨program, compiled⟩ := compiling pair List.mem_cons_self
      have first : (addModule (host observer logger) pair.1 pair.2).on session =
          (.ok (), session.storing [pair]) := by
        rw [on_addModule, compiled]
      rw [addModules, Action.on_bind_of_ok first, ih _ fun other member =>
        compiling other (List.mem_cons_of_mem _ member)]
      simp [storing, Entries.mapValues, Entries.overwrite]

theorem compile_eq_ok_of_addModules
    {session after : Session Program Unit μ}
    {pairs : List (String × String)}
    (added : (addModules (host observer logger) pairs).on session = (.ok (), after)) :
    ∀ pair ∈ pairs, ∃ program, Language.compile pair.2 = .ok program := by
  induction pairs generalizing session with
  | nil => simp
  | cons pair rest ih =>
      obtain ⟨_, middle, first, others⟩ := Action.on_bind_eq_ok added
      rw [on_addModule] at first
      intro other member
      rcases List.mem_cons.1 member with rfl | member
      · cases compiled : Language.compile other.2 with
        | ok program => exact ⟨program, rfl⟩
        | error fault => simp [compiled] at first
      · exact ih others other member

theorem on_parse
    (session : Session Program Unit μ)
    {source : String}
    {program : Program}
    (compiled : Language.compile source = .ok program)
    (compiling : ModulesCompile session.modules) :
    (parse (host observer logger) source).on session = (.ok (), session.parsed source program) := by
  have first : (Session.compile (host observer logger) source).on session =
      (.ok (some program), session.tried source) := by
    rw [on_compile, compiled]
  rw [parse, Action.on_bind_of_ok first, Action.on_bind_of_ok (Action.on_modify _ _),
    Action.on_bind_of_ok (Action.on_get _), on_addModules]
  · rfl
  · intro pair member
    obtain ⟨entry, there, rfl⟩ := List.mem_map.1 member
    exact compiling entry there

theorem on_parse_of_error
    (session : Session Program Unit μ)
    {source : String}
    {fault : SourceFault}
    (refused : Language.compile source = .error fault) :
    (parse (host observer logger) source).on session =
      (.error (.malformed fault), session.tried source) := by
  have stopped : (Session.compile (host observer logger) source).on session =
      (.error (.malformed fault), session.tried source) := by
    rw [on_compile, refused]
  rw [parse, Action.on_bind_of_error stopped]

theorem parse_eq_ok
    {session after : Session Program Unit μ}
    {source : String}
    {program : Program}
    (compiled : Language.compile source = .ok program)
    (succeeded : (parse (host observer logger) source).on session = (.ok (), after)) :
    ModulesCompile session.modules ∧
      after = session.parsed source program := by
  have first : (Session.compile (host observer logger) source).on session =
      (.ok (some program), session.tried source) := by
    rw [on_compile, compiled]
  have compiling : ModulesCompile session.modules := by
    rw [parse, Action.on_bind_of_ok first, Action.on_bind_of_ok (Action.on_modify _ _),
      Action.on_bind_of_ok (Action.on_get _)] at succeeded
    intro entry there
    exact compile_eq_ok_of_addModules observer logger succeeded _ (List.mem_map_of_mem there)
  refine ⟨compiling, ?_⟩
  rw [on_parse observer logger session compiled compiling] at succeeded
  exact (congrArg Prod.snd succeeded).symm

theorem modules_parsed
    (session : Session Program Unit μ)
    (source : String)
    (program : Program) :
    (session.parsed source program).modules = reloaded session.modules := by
  simp [parsed, storing, tried, reloaded, Entries.mapValues, Function.comp_def]

/-- The program of a module that can be imported. -/
def importable (session : Session Program Unit μ) (name : String) : Option Program :=
  ((session.modules.mapValues Module.program).get? name).join

theorem importable_parsed_isSome
    {session : Session Program Unit μ}
    (compiling : ModulesCompile session.modules)
    (source : String)
    (program : Program)
    {name : String}
    (there : name ∈ session.modules.names) :
    ((session.parsed source program).importable name).isSome := by
  rw [importable, modules_parsed, Entries.get?_mapValues, get?_reloaded]
  cases last : Entries.last? session.modules name with
  | none => exact absurd there ((Entries.last?_eq_none_iff _ _).1 last)
  | some stored =>
      obtain ⟨found, compiled⟩ := compiling (name, stored) (Entries.mem_of_last?_eq_some last)
      simp [load, compiled, Except.toOption]

/-- Modules that were compiled again from their sources keep their meaning when that is repeated. -/
theorem importable_parsed_of_reloaded
    {session other : Session Program Unit μ}
    (again : other.modules = reloaded session.modules)
    (first second : String)
    (program more : Program) :
    (other.parsed second more).importable = (session.parsed first program).importable := by
  funext name
  simp only [importable, modules_parsed, again, Entries.get?_mapValues, get?_reloaded_reloaded]

theorem length_modules_parsed
    (session : Session Program Unit μ)
    (source : String)
    (program : Program) :
    (session.parsed source program).modules.length = session.modules.length := by
  have names := congrArg List.length (names_reloaded session.modules)
  rw [modules_parsed]
  simpa [Entries.names] using names

end Session
end ScriptHost

import ScriptHost.Proofs.Session.Invariant

/-!
# Stored programs

A script stores the source of each of its modules together with the program of that source.  Parsing
compiles all of them again after it has replaced the program, so it would leave a script half
changed if one of them did not compile any more.

* `ModulesLoaded`: the modules have distinct names, and each holds what its source compiles to.
  This is a lasting invariant.
* In a script that has it, parsing fails only on account of the source that is parsed, and then
  nothing is changed; otherwise nothing but the program is.
-/

namespace ScriptHost

namespace Language

/-- The names are distinct, and every module holds the program that its source compiles to. -/
structure ModulesLoaded (modules : Entries (Module Program)) : Prop where
  distinct : modules.names.Nodup
  compiled : ∀ entry ∈ modules, ∃ program,
    compile entry.2.source = .ok program ∧ entry.2.program = some program

namespace ModulesLoaded

variable {modules : Entries (Module Program)}

theorem empty : ModulesLoaded [] where
  distinct := List.nodup_nil
  compiled := by
    rintro _ ⟨⟩

theorem modulesCompile (loaded : ModulesLoaded modules) : ModulesCompile modules := by
  intro entry member
  obtain ⟨program, compiles, -⟩ := loaded.compiled entry member
  exact ⟨program, compiles⟩

theorem mapValues_load (loaded : ModulesLoaded modules) :
    (modules.mapValues Module.source).mapValues load = modules := by
  have same : ∀ entry ∈ modules, (entry.1, load entry.2.source) = entry := by
    rintro ⟨name, source, stored⟩ member
    obtain ⟨program, compiles, holds⟩ := loaded.compiled _ member
    obtain rfl : stored = some program := holds
    simp [load, compiles, Except.toOption]
  calc (modules.mapValues Module.source).mapValues load
    _ = modules.map fun entry => (entry.1, load entry.2.source) := by
      simp [Entries.mapValues]
    _ = modules.map id := List.map_congr_left same
    _ = modules := List.map_id modules

/-- Compiling every module again changes none of them. -/
theorem reloaded_eq (loaded : ModulesLoaded modules) : reloaded modules = modules := by
  have distinct : (modules.mapValues Module.source).names.Nodup := by
    rw [Entries.names_mapValues]
    exact loaded.distinct
  calc reloaded modules
    _ = reloaded ((modules.mapValues Module.source).mapValues load) := by
      rw [loaded.mapValues_load]
    _ = (modules.mapValues Module.source).mapValues load := reloaded_mapValues_load distinct
    _ = modules := loaded.mapValues_load

theorem put
    (loaded : ModulesLoaded modules)
    (name : String)
    {source : String}
    {program : Program}
    (compiles : compile source = .ok program) :
    ModulesLoaded (modules.put name ⟨source, some program⟩) where
  distinct := Entries.nodup_names_put loaded.distinct name _
  compiled := by
    intro entry member
    rcases Entries.mem_of_mem_put member with there | rfl
    · exact loaded.compiled entry there
    · exact ⟨program, compiles, rfl⟩

end ModulesLoaded

end Language

namespace Session

open ScriptHost.Language

variable {μ : Type}

/-- Every module of the session holds the program that its source compiles to. -/
def IsLoaded (session : Session Program Unit μ) : Prop :=
  ModulesLoaded session.modules

theorem modules_parsed_of_isLoaded
    {session : Session Program Unit μ}
    (loaded : session.IsLoaded)
    (source : String)
    (program : Program) :
    (session.parsed source program).modules = session.modules :=
  (modules_parsed session source program).trans loaded.reloaded_eq

theorem script_parsed
    {session : Session Program Unit μ}
    (loaded : session.IsLoaded)
    (source : String)
    (program : Program) :
    (session.parsed source program).script = { session.script with program := some program } := by
  rw [script, modules_parsed_of_isLoaded loaded]
  rfl

theorem script_tried (session : Session Program Unit μ) (source : String) :
    (session.tried source).script = session.script := rfl

section Lasting

variable (observer : Option Observer)
variable (logger : Logger)

theorem lasting_isLoaded :
    Lasting (host observer logger) (IsLoaded : Session Program Unit μ → Prop) (fun _ => True)
      fun source found => ∃ program, Language.compile source = .ok program ∧
        found = some program := by
  constructor
  case ofScript =>
    intro first last loaded same
    have modules : last.modules = first.modules := congrArg Script.modules same
    rwa [IsLoaded, modules]
  case encoded => exact fun _ => trivial
  case failed => exact fun _ => trivial
  case compiles => exact engine_compile_eq_ok observer logger
  case setsProgram => exact fun loaded _ => loaded
  case putsModule =>
    rintro session source _ name loaded ⟨program, compiles, rfl⟩
    exact loaded.put name compiles
  case setsVariable => exact fun _ loaded _ => loaded
  case setsFunctions => exact fun _ loaded => loaded
  case evaluates =>
    intro session _ program _ debug
    exact (Interaction.yields_true _ _).imp fun _ _ later loaded => loaded

end Lasting

theorem isLoaded_of_arises
    {observer : Option Observer}
    {logger : Logger}
    {session : Session Program Unit μ}
    (arises : Arises (host observer logger) session) :
    session.IsLoaded :=
  (lasting_isLoaded observer logger).of_arises (fun _ _ _ => ModulesLoaded.empty)
    (fun _ _ _ _ loaded => loaded) arises

end Session

open Session ScriptHost.Language

/-- What loading a source does to a script, in every session that can come about.  The modules have
distinct names and hold what their sources compile to.  So parsing fails if and only if its own
source does not compile, and then the script is left as it was; otherwise the program is that of the
source and the rest of the script is left as it was.  Adding a module fails in the same case;
otherwise it sets this one entry, in its old place if the name was there. -/
theorem loading_of_arises
    {μ : Type}
    {observer : Option Observer}
    {logger : Logger}
    {session : Session Program Unit μ}
    (arises : Arises (host observer logger) session) :
    ModulesLoaded session.modules ∧
      (∀ source,
        let parsed := (parse (host observer logger) source).on session
        match Language.compile source with
        | .error fault => parsed.1 = .error (.malformed fault) ∧ parsed.2.script = session.script
        | .ok compiled =>
            parsed.1 = .ok () ∧
              parsed.2.script = { session.script with program := some compiled }) ∧
      ∀ name source,
        let added := (addModule (host observer logger) name source).on session
        match Language.compile source with
        | .error fault => added.1 = .error (.malformed fault) ∧ added.2.script = session.script
        | .ok compiled =>
            added.1 = .ok () ∧
              added.2.script = { session.script with modules := added.2.modules } ∧
              added.2.modules.names =
                (if name ∈ session.modules.names then session.modules.names
                  else session.modules.names ++ [name]) ∧
              ∀ other, added.2.modules.get? other =
                if other = name then some ⟨source, some compiled⟩
                else session.modules.get? other := by
  have loaded := isLoaded_of_arises arises
  refine ⟨loaded, ?_, ?_⟩
  · intro source parsed
    cases compiled : Language.compile source with
    | error fault =>
        have stopped : parsed = (.error (.malformed fault), session.tried source) :=
          on_parse_of_error observer logger session compiled
        rw [stopped]
        exact ⟨rfl, script_tried session source⟩
    | ok program =>
        have succeeded : parsed = (.ok (), session.parsed source program) :=
          on_parse observer logger session compiled loaded.modulesCompile
        rw [succeeded]
        exact ⟨rfl, script_parsed loaded source program⟩
  · intro name source added
    have added_eq : added = _ := on_addModule observer logger session name source
    cases compiled : Language.compile source with
    | error fault =>
        rw [compiled] at added_eq
        rw [added_eq]
        exact ⟨rfl, script_tried session source⟩
    | ok program =>
        rw [compiled] at added_eq
        rw [added_eq]
        have put : (session.storing [(name, source)]).modules =
            session.modules.put name ⟨source, some program⟩ := by
          simp [storing, Entries.mapValues, Entries.overwrite, load, compiled, Except.toOption]
        refine ⟨rfl, rfl, ?_, ?_⟩
        · rw [put]
          exact Entries.names_put session.modules name _
        · intro other
          rw [put, Entries.get?_put]
          simp only [eq_comm]

/-- A script with a module that a function replaces, before it parses what has no program. -/
def swappingOptions : SessionOptions Unit where
  source := none
  vars := .host []
  functions := [⟨none, "swap", ⟨.immediate, false, fun _ =>
    .perform (.addModule "m" "y") fun _ => .perform (.parse "[") fun _ => .finish (.ok .null)⟩⟩]
  modules := [("m", "x")]

def swappingSession : Session Program Unit Unit :=
  ((create (host none .printing) swappingOptions).on (.empty () () .shadow)).2

theorem loading_of_arises_swappingSession :
    ∃ session : Session Program Unit Unit,
      Arises (host none .printing) session ∧
        session.modules = [("m", ⟨"y", some [.expression (.variable "y")]⟩)] ∧
        ((parse (host none .printing) "[").on session).1 = .error (.malformed .unexpectedEnd) ∧
        ((parse (host none .printing) "[").on session).2.script = session.script ∧
        ((parse (host none .printing) "y").on session).2.script =
          { session.script with program := some [.expression (.variable "y")] } := by
  have created : ((create (host none .printing) swappingOptions).on
      (.empty () () .shadow)).1 = .ok () := by
    with_unfolding_all rfl
  have start : Arises (host none .printing) swappingSession := .created (Prod.ext created rfl)
  have swaps : Language.compile "swap()" = .ok [.expression (.call "swap" [])] := by
    with_unfolding_all rfl
  have parsed : ((performWith (host none .printing) (nested (host none .printing) 1)
      (.parse "swap()")).on swappingSession).2 =
        swappingSession.parsed "swap()" [.expression (.call "swap" [])] := by
    rw [performWith, Action.on_bind_of_ok (on_parse none .printing _ swaps
      (isLoaded_of_arises start).modulesCompile)]
    rfl
  have ready := start.later (.stepped swappingSession 1 (.parse "swap()"))
  rw [parsed] at ready
  have executed := ready.later (.stepped _ 1 (.execute false))
  have modules : ((performWith (host none .printing) (nested (host none .printing) 1)
      (.execute false)).on (swappingSession.parsed "swap()"
        [.expression (.call "swap" [])])).2.modules =
          [("m", ⟨"y", some [.expression (.variable "y")]⟩)] := by
    with_unfolding_all rfl
  have unfinished : Language.compile "[" = .error .unexpectedEnd := by
    with_unfolding_all rfl
  have compiled : Language.compile "y" = .ok [.expression (.variable "y")] := by
    with_unfolding_all rfl
  obtain ⟨-, parses, -⟩ := loading_of_arises executed
  have refused := parses "["
  have replaced := parses "y"
  rw [unfinished] at refused
  rw [compiled] at replaced
  exact ⟨_, executed, modules, refused.1, refused.2, replaced.2⟩

end ScriptHost

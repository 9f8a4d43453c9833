import Lash.RecencyCaches
import Lash.ScriptArtifacts

/-!
# The caches of compiled programs

A worker keeps the processes it has compiled under the process's ref and the ref of the
requirements, and the executor keeps the programs it has linked under their source, for any
surface that satisfies what the program was found to require. What a compiled program
embeds is more: the module it belongs to, and all that the linker read of the surface.

`caches_are_transparent`: where the lookups that are answered from a cache agree with those
the entries were computed for on what is embedded, nothing can be told from a fresh link.
-/

namespace ProgramCaches

open HostCatalogs Questions RecencyCaches ScriptArtifacts ScriptCompiler ScriptLinker
open List
open ScriptOps ScriptPrograms ScriptSyntax

/-! ## Compiled programs -/

inductive LashlangExecutionEntry where
  | main
  | process (ref : ProcessRef) (name : String)
deriving DecidableEq

structure LashlangExecutionContext where
  moduleRef : String
  entry : LashlangExecutionEntry
deriving DecidableEq

structure CompiledProgram where
  code : Code
  moduleContext : ModuleContext
  execution : LashlangExecutionContext

def compileLinkedProgram (main : Expr) (context : ModuleContext)
    (execution : LashlangExecutionContext) : CompiledProgram :=
  ⟨compileProgram ⟨some context, true, true⟩ main, context, execution⟩

def compileLinked (linked : LinkedModule) : CompiledProgram :=
  compileLinkedProgram linked.linkedProgram.main linked.artifact.context
    ⟨linked.artifact.moduleRef, .main⟩

/-- How a process ref is written for debugging. -/
def debugProcessRef (ref : ProcessRef) : String :=
  "ProcessRef \x7b component: ContentHash(\"" ++ ref.component ++ "\"), pos: "
    ++ toString ref.pos ++ " \x7d"

def compileModuleArtifactProcess (artifact : ModuleArtifact) (ref : ProcessRef) :
    Except RuntimeError CompiledProgram :=
  match artifact.processNameForRef ref with
  | none => .error (.valueError
      ("module artifact `" ++ artifact.moduleRef ++ "` does not export process ref "
        ++ debugProcessRef ref))
  | some name =>
    match artifact.canonicalIr.process name with
    | none => .error (.valueError
        ("module artifact `" ++ artifact.moduleRef ++ "` is missing process `" ++ name ++ "`"))
    | some process =>
      .ok (compileLinkedProgram process.body artifact.context
        ⟨artifact.moduleRef, .process ref name⟩)

/-! ## The cache of processes -/

def lashlangCompilerVersion : String := "0.1.0-alpha.75"

def lashlangVmAbiVersion : String := "lashlang-vm-abi-v1"

structure CompiledProcessCacheKey where
  processRef : ProcessRef
  hostRequirementsRef : String
  compilerVersion : String
  vmAbiVersion : String
deriving DecidableEq

def CompiledProcessCacheKey.new (processRef : ProcessRef) (hostRequirementsRef : String) :
    CompiledProcessCacheKey :=
  ⟨processRef, hostRequirementsRef, lashlangCompilerVersion, lashlangVmAbiVersion⟩

structure CachedCompiledProcess where
  key : CompiledProcessCacheKey
  compiled : CompiledProgram

structure ProcessLookup where
  artifact : ModuleArtifact
  processRef : ProcessRef
  hostRequirementsRef : String

namespace ProcessLookup

variable (lookup : ProcessLookup)

def key : CompiledProcessCacheKey :=
  .new lookup.processRef lookup.hostRequirementsRef

def matching (entry : CachedCompiledProcess) : Bool :=
  entry.key == lookup.key

def fresh : Except RuntimeError CompiledProgram :=
  compileModuleArtifactProcess lookup.artifact lookup.processRef

def compute : Except RuntimeError CachedCompiledProcess :=
  lookup.fresh.map fun compiled => ⟨lookup.key, compiled⟩

/-- The declaration that a lookup compiles. -/
def declaration : Option ProcessDecl :=
  (lookup.artifact.processNameForRef lookup.processRef).bind lookup.artifact.canonicalIr.process

/-- The artifacts are of one module, as far as the compiled process embeds it: its ref, the ref of
its requirements, its exports and the declaration itself. -/
structure SameModule (earlier later : ProcessLookup) : Prop where
  context : earlier.artifact.context = later.artifact.context
  declaration : earlier.declaration = later.declaration

end ProcessLookup

/-- The answers of `CompiledProcessCache` to a run of lookups. -/
def processAnswers (capacity : Nat) (lookups : List ProcessLookup) :
    List (Except RuntimeError CompiledProgram) :=
  ((Cache.withCapacity capacity).lookups ProcessLookup.matching ProcessLookup.compute lookups).map
    (·.map (·.compiled))

/-! ## The cache of linked programs -/

structure CompiledLinkedProgram where
  linked : LinkedModule
  compiled : CompiledProgram

structure CachedLinkedProgram where
  sourceHash : UInt64
  source : String
  program : CompiledLinkedProgram

structure ProgramLookup where
  source : String
  surface : LashlangHostEnvironment

inductive LinkedProgramCacheError (ParseError : Type) where
  | parse (error : ParseError)
  | link (failure : LinkFailure)

/-- What the cache calls: the hash of sources and of artifacts, and the parser. -/
structure Tools (ParseError : Type) where
  sha256 : String → String
  programSourceHash : String → UInt64
  parse : String → Except ParseError Program

open ProcessLookup ProgramLookup

section

variable {ParseError : Type} (tools : Tools ParseError)

namespace ProgramLookup

def matching (lookup : ProgramLookup) (entry : CachedLinkedProgram) : Bool :=
  entry.sourceHash == tools.programSourceHash lookup.source && entry.source == lookup.source
    && lookup.surface.satisfies entry.program.linked.artifact.hostRequirements

def fresh (lookup : ProgramLookup) :
    Except (LinkedProgramCacheError ParseError) CompiledLinkedProgram :=
  match tools.parse lookup.source with
  | .error error => .error (.parse error)
  | .ok program =>
    match (LinkedModule.link tools.sha256 program).answered (answer lookup.surface) with
    | .error failure => .error (.link failure)
    | .ok linked => .ok ⟨linked, compileLinked linked⟩

def compute (lookup : ProgramLookup) :
    Except (LinkedProgramCacheError ParseError) CachedLinkedProgram :=
  (lookup.fresh tools).map fun program =>
    ⟨tools.programSourceHash lookup.source, lookup.source, program⟩

/-- The later surface answers all that linking the source asks of the earlier one, and answers the
same. -/
def SameAnswers (earlier later : ProgramLookup) : Prop :=
  ∀ program, tools.parse earlier.source = .ok program →
    ∀ q ∈ (LinkedModule.link tools.sha256 program).asked (answer earlier.surface),
      answer later.surface q = answer earlier.surface q

end ProgramLookup

/-- The answers of `LinkedProgramCache` to a run of lookups. -/
def programAnswers (capacity : Nat) (lookups : List ProgramLookup) :
    List (Except (LinkedProgramCacheError ParseError) CompiledLinkedProgram) :=
  ((Cache.withCapacity capacity).lookups (ProgramLookup.matching tools)
    (ProgramLookup.compute tools) lookups).map (·.map (·.program))

/-! ## What a hit stands for -/

theorem ProcessLookup.fresh_of_sameModule {earlier later : ProcessLookup}
    (same : ProcessLookup.SameModule earlier later)
    (ref : earlier.processRef = later.processRef) : earlier.fresh = later.fresh := by
  obtain ⟨context, declaration⟩ := same
  have hmodule : earlier.artifact.moduleRef = later.artifact.moduleRef :=
    congrArg ModuleContext.moduleRef context
  have hexports : earlier.artifact.exports.entries = later.artifact.exports.entries :=
    congrArg ModuleContext.processRefs context
  have hname : earlier.artifact.processNameForRef earlier.processRef =
      later.artifact.processNameForRef later.processRef := by
    rw [ModuleArtifact.processNameForRef, ModuleArtifact.processNameForRef, hexports, ref]
  unfold ProcessLookup.declaration at declaration
  unfold fresh compileModuleArtifactProcess
  rw [← hname, ← context, ← hmodule, ← ref]
  rw [← hname] at declaration
  cases hfound : earlier.artifact.processNameForRef earlier.processRef with
  | none => rfl
  | some name =>
    simp only [hfound, Option.bind_some] at declaration
    simp only [declaration]

theorem ProcessLookup.compute_of_sameModule (earlier later : ProcessLookup)
    (entry : CachedCompiledProcess) (same : ProcessLookup.SameModule earlier later)
    (hit : later.matching entry = true) (filled : earlier.compute = .ok entry) :
    later.compute = .ok entry := by
  have hentry : entry.key = later.key := eq_of_beq hit
  have hkey : earlier.key = entry.key := by
    unfold compute at filled
    cases hfresh : earlier.fresh with
    | error error => simp [hfresh, Except.map] at filled
    | ok compiled =>
      rw [hfresh] at filled
      cases filled
      rfl
  have href : earlier.processRef = later.processRef :=
    congrArg CompiledProcessCacheKey.processRef (hkey.trans hentry)
  rw [← filled, compute, compute, fresh_of_sameModule same href, hkey.trans hentry]

theorem ProgramLookup.fresh_of_sameAnswers {earlier later : ProgramLookup}
    (same : ProgramLookup.SameAnswers tools earlier later)
    (source : earlier.source = later.source) : earlier.fresh tools = later.fresh tools := by
  unfold fresh
  rw [← source]
  cases hparse : tools.parse earlier.source with
  | error error => rfl
  | ok program =>
    have hlink : (LinkedModule.link tools.sha256 program).answered (answer later.surface) =
        (LinkedModule.link tools.sha256 program).answered (answer earlier.surface) :=
      Asking.answered_of_agree (same program hparse)
    simp only [hlink]

theorem ProgramLookup.compute_of_sameAnswers (earlier later : ProgramLookup)
    (entry : CachedLinkedProgram) (same : ProgramLookup.SameAnswers tools earlier later)
    (hit : later.matching tools entry = true) (filled : earlier.compute tools = .ok entry) :
    later.compute tools = .ok entry := by
  have hentry : entry.source = later.source := by
    simp only [matching, Bool.and_eq_true, beq_iff_eq] at hit
    exact hit.1.2
  have hsource : earlier.source = entry.source := by
    unfold compute at filled
    cases hfresh : earlier.fresh tools with
    | error error => simp [hfresh, Except.map] at filled
    | ok program =>
      rw [hfresh] at filled
      cases filled
      rfl
  rw [← filled, compute, compute,
    fresh_of_sameAnswers tools same (hsource.trans hentry), hsource.trans hentry]

/-- In every run of lookups in the two caches, of any capacities: when each lookup that finds an
entry comes with an artifact of the module the entry was compiled from, or with a surface that
answers the linker as the one the entry was linked under, every answer is what compiling the
process, or linking and compiling the source, gives. -/
theorem caches_are_transparent (processCapacity programCapacity : Nat)
    (processLookups : List ProcessLookup) (programLookups : List ProgramLookup)
    (processes : Cache.HitsAgree ProcessLookup.matching ProcessLookup.compute
      ProcessLookup.SameModule (.withCapacity processCapacity) processLookups)
    (programs : Cache.HitsAgree (ProgramLookup.matching tools) (ProgramLookup.compute tools)
      (ProgramLookup.SameAnswers tools) (.withCapacity programCapacity) programLookups) :
    processAnswers processCapacity processLookups = processLookups.map ProcessLookup.fresh ∧
      programAnswers tools programCapacity programLookups =
        programLookups.map (ProgramLookup.fresh tools) := by
  constructor
  · rw [processAnswers, Cache.lookups_of_agree compute_of_sameModule _ _ processes, map_map]
    refine map_congr_left fun lookup _ => ?_
    simp only [Function.comp_apply, ProcessLookup.compute]
    cases lookup.fresh <;> rfl
  · rw [programAnswers, Cache.lookups_of_agree (ProgramLookup.compute_of_sameAnswers tools) _ _
      programs, map_map]
    refine map_congr_left fun lookup _ => ?_
    simp only [Function.comp_apply, ProgramLookup.compute]
    cases lookup.fresh tools <;> rfl

end

/-! ## A run -/

def exampleTools : Tools String where
  sha256 text := text
  programSourceHash _ := 0
  parse source :=
    if source = "finish web" then
      .ok ⟨[], .block [.finish (.variable "web")], [], [⟨0, 10⟩]⟩
    else .error "expected expression"

/-- A host with the modules named, which have no operations. -/
def surfaceWith (modules : List String) : LashlangHostEnvironment where
  resources :=
    { LashlangHostCatalog.new with
      moduleInstances := .ofList (modules.map fun name => (name, ⟨[name], name, name, .empty⟩))
      resourceTypes := .ofList (modules.map fun name => (name, ⟨.empty⟩)) }
  abilities := ⟨true, false, false, false⟩
  languageFeatures := ⟨false⟩

/-- A lookup of the process `outer` in the module whose process `inner` finishes with the text. -/
def outerOf (text : String) : ProcessLookup :=
  let program : Program :=
    ⟨[.process ⟨"outer", [], [], none, none, .block [.startProcess "inner" []]⟩,
      .process ⟨"inner", [], [], none, none, .block [.finish (.string text)]⟩], .block [], [], []⟩
  let artifact := artifactOfProgramWithRequirements exampleTools.sha256 program
    { HostRequirements.none with abilities := ⟨true, false, false, false⟩ }
  ⟨artifact, (artifact.processRef "outer").getD ⟨"", 0⟩, artifact.hostRequirementsRef⟩

theorem caches_are_transparent_exampleRuns : processAnswers 2 [outerOf "old", outerOf "old"] =
        [outerOf "old", outerOf "old"].map ProcessLookup.fresh ∧
      programAnswers exampleTools 2
          [⟨"finish web", surfaceWith []⟩, ⟨"finish web", surfaceWith ["files"]⟩] =
        [⟨"finish web", surfaceWith []⟩, ⟨"finish web", surfaceWith ["files"]⟩].map
          (ProgramLookup.fresh exampleTools) := by
  refine caches_are_transparent exampleTools 2 2 _ _ ⟨fun entry h => ?_, fun entry h => ?_, trivial⟩
    ⟨fun entry h => ?_, fun entry h => ?_, trivial⟩
  · exact absurd (Cache.found_matches h).1 not_mem_nil
  · rcases Cache.mem_traced (Cache.found_matches h).1 with hold | ⟨hfirst, -⟩
    · exact absurd hold not_mem_nil
    · rw [hfirst]
      exact ⟨rfl, rfl⟩
  · exact absurd (Cache.found_matches h).1 not_mem_nil
  · rcases Cache.mem_traced (Cache.found_matches h).1 with hold | ⟨hfirst, -⟩
    · exact absurd hold not_mem_nil
    · rw [hfirst]
      intro program hparse q hasked
      cases hparse
      rw [show Asking.asked _ _ = [Question.labelAnnotations, .modulePath ["web"]] by
        decide +kernel] at hasked
      rcases mem_cons.mp hasked with rfl | hasked
      · rfl
      · rw [mem_singleton.mp hasked]
        rfl

def innerRef (compiled : CompiledProgram) : Option ProcessRef :=
  compiled.moduleContext.processRef "inner"

def readsVariable (program : CompiledLinkedProgram) : Bool :=
  match program.compiled.code.head? with
  | some (.loadName _) => true
  | _ => false

/-- The compiled `outer` of an old module, kept for a new one, starts the old `inner`; and a name
linked before the host had a module of the name stays a variable. -/
theorem caches_keep_older_modules : processAnswers 2 [outerOf "old", outerOf "new"] ≠
        [outerOf "old", outerOf "new"].map ProcessLookup.fresh ∧
      programAnswers exampleTools 2
          [⟨"finish web", surfaceWith []⟩, ⟨"finish web", surfaceWith ["web"]⟩] ≠
        [⟨"finish web", surfaceWith []⟩, ⟨"finish web", surfaceWith ["web"]⟩].map
          (ProgramLookup.fresh exampleTools) := by
  constructor
  · intro h
    have hrefs := congrArg (map fun answer => (answer.map innerRef).toOption) h
    revert hrefs
    decide +kernel
  · intro h
    have hreads := congrArg (map fun answer => (answer.map readsVariable).toOption) h
    revert hreads
    decide +kernel

end ProgramCaches

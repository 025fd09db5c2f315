import Landform.Command.Run
import Landform.Proofs.Graph.Failures
import Landform.Proofs.Validation

/-!
# Commands on graph files

A command that reads a graph file of the right shape exits with 0 or 1, and reports a file that is
refused in one line. What loading fails with otherwise, the command fails with as well. Settings
that are not the built-in ones may be at fault, too, whatever the graph is.

1. `graphFile?`, `demands`: what a command reads.
2. `ends_printLine`, `ends_deliver`: what printing and writing may fail with.
3. `OpensGraph`, `opensGraph`: what a command does with the graph of a file.
4. `Ending`, `ending_run`: how a run ends.
-/

namespace Landform.Command

/-! ## 1. What commands read -/

/-- The graph file that a command reads. -/
def graphFile? : Command → Option String
  | validate graph | compile graph _ | eval graph _ | sample graph _ _ => some graph
  | template .. | kinds => none

/-- Reads the settings that a command reads once it has a graph. -/
def demands (settings : Value) : Command → Except Error Unit
  | compile .. => do
    let _ ← Settings.setting settings "compiler" "water_level"
    let _ ← Settings.setting settings "compiler" "header"
  | eval .. => do
    let _ ← Settings.setting settings "evaluator" "max_depth"
  | sample _ scale resolution => do
    let scale ← Settings.settingOr settings "sampler" "scale" (scale.map .float)
    let resolution ← Settings.settingOr settings "sampler" "resolution" (resolution.map .int)
    let solidOnly ← Settings.setting settings "sampler" "solid_only"
    let _ ← Settings.setting settings "evaluator" "max_depth"
    let _ ← Voxel.Options.ofValues scale resolution solidOnly
  | validate _ | template .. | kinds => .ok ()

/-- Reads the settings of a command line and those that its command reads. -/
def Arguments.demands (a : Arguments) (files : Files) : Except Error Unit := do
  a.command.demands (← a.settings files)

/-- Whether a command line leaves the built-in settings as they are. -/
def Arguments.isPlain (a : Arguments) : Bool :=
  a.config.isNone && a.overrides.isEmpty

/-! ## 2. Printing and writing -/

section Actions

variable {allowed : Error → Prop}

theorem ends_lift {α : Type} {result : Except Error α} (fails : FailsOnly allowed result) :
    Ends (fun a => result = .ok a) allowed (Action.lift result) := by
  cases result with
  | ok a => exact Ends.pure rfl
  | error cause => exact Ends.throw fails

theorem ends_printLine (text : String) :
    Ends (fun _ => True) allowed (Action.printLine text) :=
  Ends.modify _

theorem ends_printMessages (label : String) (messages : List String) :
    Ends (fun _ => True) allowed (Action.printMessages label messages) :=
  Ends.forM messages fun _ _ => ends_printLine _

theorem failsOnly_write (missing : ∀ path, allowed (.missingFile path)) (files : Files)
    (path text : String) : FailsOnly allowed (files.write path text) := by
  unfold Files.write
  split
  · trivial
  · exact missing _

/-- The directory of the output may be missing. -/
theorem ends_deliver (missing : ∀ path, allowed (.missingFile path)) (output : Option String)
    (text : String) : Ends (fun _ => True) allowed (Action.deliver output text) := by
  unfold Action.deliver
  split
  · split
    · exact Ends.modify _
    · unfold Action.save
      refine Ends.get.bind fun c _ => ?_
      refine (ends_lift (failsOnly_write missing _ _ _)).bind fun files _ => ?_
      exact (Ends.set _).bind fun _ _ => ends_printLine _
  · exact Ends.modify _

end Actions

/-! ## 3. What commands do with a graph -/

/-- What a command may fail with once it has a graph: a cause that is reported, or one that its
settings are to blame for. -/
def Blamed (settings : Value) (c : Command) (cause : Error) : Prop :=
  isReported cause = true ∨ c.demands settings = .error cause

theorem failsOnly_demanded {α : Type} {settings : Value} {c : Command} {result : Except Error α}
    (demanded : ∀ cause, result = .error cause → c.demands settings = .error cause) :
    FailsOnly (Blamed settings c) result := by
  cases read : result with
  | ok a => trivial
  | error cause => exact .inr (demanded cause read)

/-- A command opens a graph file, and ends well with every graph but for its settings. -/
def OpensGraph (settings : Value) (c : Command) (path : String) : Prop :=
  ∃ rest : Graph → Action Nat, Action.perform settings c = Action.openGraph path >>= rest ∧
    ∀ g : Graph, g.Sound → Ends (· ≤ 1) (Blamed settings c) (rest g)

section Opening

variable (settings : Value) (path : String)

theorem opensGraph_validate : OpensGraph settings (.validate path) path := by
  refine ⟨_, rfl, fun g sound => ?_⟩
  have validated : FailsOnly (Blamed settings (.validate path)) g.validate := by
    rw [sound.validate_eq]
    trivial
  refine (ends_lift validated).bind fun findings _ => ?_
  refine (ends_printMessages _ _).bind fun _ _ => ?_
  refine (ends_printMessages _ _).bind fun _ _ => ?_
  refine (ends_printLine _).bind fun _ _ => Ends.pure ?_
  split
  · exact Nat.zero_le 1
  · exact Nat.le_refl 1

theorem failsOnly_compile {g : Graph} (sound : g.Sound) {allowed : Error → Prop}
    (options : Script.Options) : FailsOnly allowed (Script.compile g options) := by
  unfold Script.compile
  rw [sound.validate_eq]
  show FailsOnly allowed (if !g.findings.isValid then _ else _)
  split
  · trivial
  · split
    · trivial
    · trivial

theorem opensGraph_compile (output : Option String) :
    OpensGraph settings (.compile path output) path := by
  refine ⟨_, rfl, fun g sound => ?_⟩
  refine (ends_lift (failsOnly_demanded fun cause read => ?_)).bind fun waterLevel level => ?_
  · rw [demands, read]
    rfl
  refine (ends_lift (failsOnly_demanded fun cause read => ?_)).bind fun header _ => ?_
  · rw [demands, level, read]
    rfl
  refine (ends_lift (failsOnly_compile sound _)).bind fun compiled _ => ?_
  refine (ends_printMessages _ _).bind fun _ _ => ?_
  refine (ends_printMessages _ _).bind fun _ _ => ?_
  cases compiled.code with
  | none => exact Ends.pure (Nat.le_refl 1)
  | some code =>
    refine (ends_deliver (fun _ => .inl rfl) output code).bind fun _ _ => Ends.pure ?_
    split
    · exact Nat.zero_le 1
    · exact Nat.le_refl 1

theorem opensGraph_eval (point : Point) : OpensGraph settings (.eval path point) path := by
  refine ⟨_, rfl, fun g _ => ?_⟩
  refine (ends_lift (failsOnly_demanded fun cause read => ?_)).bind fun limit _ => ?_
  · rw [demands, read]
    rfl
  cases Action.terrainUnder g limit point with
  | none => exact (ends_printLine _).bind fun _ _ => Ends.pure (Nat.le_refl 1)
  | some t => exact (ends_printLine _).bind fun _ _ => Ends.pure (Nat.zero_le 1)

/-- A grid has too few steps, or it is there. -/
theorem failsOnly_sampleOf {allowed : Error → Prop}
    (few : ∀ shown, allowed (.resolutionTooSmall shown)) (terrainAt : Point → Option Terrain)
    (options : Voxel.Options) : FailsOnly allowed (Voxel.sampleOf terrainAt options) := by
  have steps : FailsOnly allowed options.steps := by
    unfold Voxel.Options.steps
    split
    · exact few _
    · split
      · trivial
      · trivial
  exact steps.bind fun _ _ => trivial

theorem opensGraph_sample (scale : Option Float) (resolution : Option Int) :
    OpensGraph settings (.sample path scale resolution) path := by
  refine ⟨_, rfl, fun g _ => ?_⟩
  refine (ends_lift (failsOnly_demanded fun cause read => ?_)).bind fun edge edgeRead => ?_
  · rw [demands, read]
    rfl
  refine (ends_lift (failsOnly_demanded fun cause read => ?_)).bind fun steps stepsRead => ?_
  · rw [demands, edgeRead, read]
    rfl
  refine (ends_lift (failsOnly_demanded fun cause read => ?_)).bind fun solidOnly solidRead => ?_
  · rw [demands, edgeRead, stepsRead, read]
    rfl
  refine (ends_lift (failsOnly_demanded fun cause read => ?_)).bind fun limit limitRead => ?_
  · rw [demands, edgeRead, stepsRead, solidRead, read]
    rfl
  refine (ends_lift (failsOnly_demanded fun cause read => ?_)).bind fun options _ => ?_
  · rw [demands, edgeRead, stepsRead, solidRead, limitRead]
    simp only [bind, Except.bind, read]
  refine (ends_lift (failsOnly_sampleOf (fun _ => .inl rfl) _ options)).bind fun grid _ => ?_
  refine (ends_printLine _).bind fun _ _ => ?_
  exact (Ends.forM _ fun _ _ => ends_printLine _).bind fun _ _ => Ends.pure (Nat.zero_le 1)

end Opening

theorem opensGraph (settings : Value) {path : String} {c : Command}
    (named : c.graphFile? = some path) : OpensGraph settings c path := by
  cases c with
  | validate graph =>
    cases named
    exact opensGraph_validate settings path
  | compile graph output =>
    cases named
    exact opensGraph_compile settings path output
  | eval graph point =>
    cases named
    exact opensGraph_eval settings path point
  | sample graph scale resolution =>
    cases named
    exact opensGraph_sample settings path scale resolution
  | template name seed output => cases named
  | kinds => cases named

/-! ## 4. Runs -/

/-- Numbers are refused as a resolution when they are too small, and for nothing else. -/
theorem failsOnly_options (x : Float) (n : Int) (solidOnly : Value) :
    FailsOnly (fun cause => isReported cause = true)
      (Voxel.Options.ofValues (.float x) (.int n) solidOnly) := by
  unfold Voxel.Options.ofValues
  dsimp only [Voxel.resolutionOf, Voxel.isLarge, Value.toFloat, bind, Except.bind]
  split
  · exact rfl
  · trivial

/-- The built-in settings hold what a command reads, so that only the options of its line may be
refused. -/
theorem isReported_of_demands {c : Command} {cause : Error}
    (failed : c.demands Settings.defaults = .error cause) : isReported cause = true := by
  cases c with
  | validate graph | template name seed output | kinds => cases failed
  | compile graph output | eval graph point => cases failed
  | sample graph scale resolution =>
    have reads : ∃ x n, demands Settings.defaults (.sample graph scale resolution) =
        (Voxel.Options.ofValues (.float x) (.int n) (.bool true)).map fun _ => () := by
      cases scale with
      | none =>
        cases resolution with
        | none => exact ⟨100, 16, rfl⟩
        | some n => exact ⟨100, n, rfl⟩
      | some x =>
        cases resolution with
        | none => exact ⟨x, 16, rfl⟩
        | some n => exact ⟨x, n, rfl⟩
    obtain ⟨x, n, same⟩ := reads
    have options := (failsOnly_options x n (.bool true)).map fun _ => ()
    rw [← same, failed] at options
    exact options

theorem settings_of_isPlain {a : Arguments} (plain : a.isPlain = true) (files : Files) :
    a.settings files = .ok Settings.defaults := by
  obtain ⟨config, overrides⟩ := Bool.and_eq_true_iff.mp plain
  unfold Arguments.settings Settings.load
  rw [Option.isNone_iff_eq_none.mp config, overrides]
  cases a.verbose with
  | true => rfl
  | false => rfl

theorem not_isPlain_of_settings {a : Arguments} {files : Files} {cause : Error}
    (failed : a.settings files = .error cause) : a.isPlain = false := by
  refine Bool.eq_false_iff.mpr fun plain => ?_
  rw [settings_of_isPlain plain] at failed
  cases failed

/-- The settings are to blame for what is not reported only if the command line chooses them. -/
theorem not_isPlain_of_demands {a : Arguments} {files : Files} {cause : Error}
    (failed : a.demands files = .error cause) (silent : isReported cause = false) :
    a.isPlain = false := by
  refine Bool.eq_false_iff.mpr fun plain => ?_
  rw [Arguments.demands, settings_of_isPlain plain] at failed
  rw [isReported_of_demands failed] at silent
  cases silent

/-- A command that opens a graph file goes on with the graph, or fails as loading does. -/
theorem run_openGraph (files : Files) {path : String} {config : Value}
    (opened : Settings.openFile files path = .ok config) (rest : Graph → Action Nat) :
    (Action.openGraph path >>= rest).run ⟨"", files⟩ =
      match Graph.ofValue config 0 with
      | .ok g => (rest g).run ⟨"", files⟩
      | .error cause => .error cause ⟨"", files⟩ := by
  have start : (Action.openGraph path).run ⟨"", files⟩ =
      (Action.lift (Graph.ofValue config 0)).run ⟨"", files⟩ := by
    show ((Action.lift (Settings.openFile files path)) >>= fun config =>
      Action.lift (Graph.ofValue config 0)).run ⟨"", files⟩ = _
    rw [opened]
    rfl
  show EStateM.bind (Action.openGraph path) rest ⟨"", files⟩ = _
  unfold EStateM.run at start
  rw [EStateM.bind, start]
  cases Graph.ofValue config 0 with
  | ok g => rfl
  | error cause => rfl

/-- How the run of a command on a graph file ends, by what loading the file gives: it ends with 0 or
1 for a graph, it reports a refusal and ends with 1, it fails where loading goes astray, and it may
fail with settings that the command line chooses. -/
inductive Ending (a : Arguments) (files : Files) : Except Error Graph → Except Error Report → Prop
  | answered {g : Graph} {report : Report} : report.exit ≤ 1 → report.stopped = false →
      Ending a files (.ok g) (.ok report)
  | refused {cause : Error} : cause.isPromised = true → Ending a files (.error cause)
      (.ok ⟨1, false, "", s!"error: {cause.report}\n", files⟩)
  | astray {cause : Error} : cause.isStray = true → Ending a files (.error cause) (.error cause)
  | misset {loaded : Except Error Graph} {cause : Error} : a.isPlain = false →
      a.demands files = .error cause → Ending a files loaded (.error cause)

theorem isReported_of_isPromised {cause : Error} (kind : cause.isPromised = true) :
    isReported cause = true := by
  unfold Error.isPromised at kind
  unfold isReported
  cases family : cause.family <;> rw [family] at kind <;> first | rfl | cases kind

theorem isReported_of_isStray {cause : Error} (kind : cause.isStray = true) :
    isReported cause = false := by
  unfold Error.isStray at kind
  unfold isReported
  cases family : cause.family <;> rw [family] at kind <;> first | rfl | cases kind

theorem ending_run {a : Arguments} {files : Files} {path : String} {config : Value}
    (named : a.command.graphFile? = some path) (opened : Settings.openFile files path = .ok config)
    (shaped : config.isWellShaped = true) :
    Ending a files (Graph.ofValue config 0) (a.run files) := by
  unfold Arguments.run
  cases settled : a.settings files with
  | error cause =>
    have demanded : a.demands files = .error cause := by
      rw [Arguments.demands, settled]
      rfl
    exact .misset (not_isPlain_of_settings settled) demanded
  | ok settings =>
    obtain ⟨rest, performs, ends⟩ := opensGraph settings named
    dsimp only [bind, Except.bind]
    rw [performs, run_openGraph files opened]
    have loaded := Graph.loaded_ofValue shaped 0
    cases result : Graph.ofValue config 0 with
    | error cause =>
      rw [result] at loaded
      dsimp only
      cases loaded with
      | refused kind =>
        rw [isReported_of_isPromised kind]
        exact .refused kind
      | stray kind read unfit =>
        rw [isReported_of_isStray kind]
        exact .astray kind
    | ok g =>
      have ended := ends g (Graph.sound_of_ofValue result) ⟨"", files⟩
      dsimp only
      cases ran : (rest g).run ⟨"", files⟩ with
      | ok exit console =>
        rw [ran] at ended
        exact .answered ended rfl
      | error cause console =>
        rw [ran] at ended
        dsimp only
        cases told : isReported cause with
        | true => exact .answered (Nat.le_refl 1) rfl
        | false =>
          have demanded : a.demands files = .error cause := by
            rw [Arguments.demands, settled]
            exact ended.resolve_left (by rw [told]; decide)
          exact .misset (not_isPlain_of_demands demanded told) demanded

/-- Data of the right shape is loaded or refused, unless it goes astray at a value that is unfit for
a number, and every command on a file with such data ends accordingly. -/
theorem ending_of_isWellShaped {config : Value} (shaped : config.isWellShaped = true) :
    (∀ seed, Graph.Loaded config (Graph.ofValue config seed)) ∧
    ∀ {args : List String} {files : Files} {a : Arguments} {path : String},
      Arguments.parse args = .ok a → a.command.graphFile? = some path →
      Settings.openFile files path = .ok config →
      Ending a files (Graph.ofValue config 0) (run args files) := by
  refine ⟨Graph.loaded_ofValue shaped, fun {args files a path} parsed named opened => ?_⟩
  unfold run
  rw [parsed]
  exact ending_run named opened shaped

/-- A file that holds a graph of one node, with some value as its power. -/
def poweredFile (power : String) : Files :=
  .ofTexts [("g.json", "\x7b\"nodes\": [\x7b\"id\": 1, \"kind\": \"lerp\", \"params\": " ++
    "\x7b\"power\": " ++ power ++ "\x7d\x7d], \"connections\": []\x7d")]

theorem exists_opened (files : Files)
    (shaped : ((Settings.openFile files "g.json").toOption.map Value.isWellShaped) = some true) :
    ∃ config, Settings.openFile files "g.json" = .ok config ∧ config.isWellShaped = true := by
  cases opened : Settings.openFile files "g.json" with
  | error cause =>
    rw [opened] at shaped
    cases shaped
  | ok config =>
    rw [opened] at shaped
    exact ⟨config, rfl, Option.some.inj shaped⟩

theorem worded_ending : ∃ config,
    Settings.openFile (poweredFile "\"much\"") "g.json" = .ok config ∧
    (∀ seed, Graph.Loaded config (Graph.ofValue config seed)) ∧
    Ending ⟨none, [], false, .validate "g.json"⟩ (poweredFile "\"much\"")
      (Graph.ofValue config 0) (run ["validate", "g.json"] (poweredFile "\"much\"")) := by
  obtain ⟨config, opened, shaped⟩ := exists_opened (poweredFile "\"much\"") (by decide +kernel)
  obtain ⟨loads, ends⟩ := ending_of_isWellShaped shaped
  exact ⟨config, opened, loads, ends rfl rfl opened⟩

/-- The cause that a computation fails with. -/
def cause? {α : Type} : Except Error α → Option Error
  | .ok _ => none
  | .error cause => some cause

theorem eq_error_of_cause? {α : Type} {result : Except Error α} {cause : Error}
    (fails : cause? result = some cause) : result = .error cause := by
  cases result with
  | ok a => cases fails
  | error found => rw [Option.some.inj fails]

/-- The power is null: loading fails with a cause that it does not promise, and so does the
command, without a report. -/
theorem null_escapes : ∃ config cause,
    Settings.openFile (poweredFile "null") "g.json" = .ok config ∧ config.isWellShaped = true ∧
    Graph.ofValue config 0 = .error cause ∧ cause.isPromised = false ∧
    run ["validate", "g.json"] (poweredFile "null") = .error cause := by
  obtain ⟨config, opened, shaped⟩ := exists_opened (poweredFile "null") (by decide +kernel)
  have loading : ((Settings.openFile (poweredFile "null") "g.json").toOption.bind fun config =>
      cause? (Graph.ofValue config 0)) = some (.noDecimal "NoneType") := by decide +kernel
  have running : cause? (run ["validate", "g.json"] (poweredFile "null")) =
      some (.noDecimal "NoneType") := by decide +kernel
  rw [opened] at loading
  exact ⟨config, .noDecimal "NoneType", opened, shaped, eq_error_of_cause? loading, rfl,
    eq_error_of_cause? running⟩

end Landform.Command

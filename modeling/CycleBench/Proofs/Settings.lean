import CycleBench.CommandLine.Perform
import CycleBench.Proofs.FileSystem

/-!
Settings of a testbench on a file system. The configuration is the default one or comes from a
file, the given settings take the place of its own, and only what comes out is checked. So the
settings either give one bench (`Settled`) or are refused for one reason (`Refused`).
-/

namespace CycleBench

theorem Config.validate_eq_error_iff {config : Config} {failure : Failure} :
    config.validate = .error failure ↔
      (config.maxSimTime = 0 ∧ failure = boundFailure "max_sim_time") ∨
        (config.maxSimTime ≠ 0 ∧ config.reset.window = 0 ∧
          failure = boundFailure "reset.window") := by
  unfold validate
  by_cases hbound : config.maxSimTime = 0
  · simp [hbound, eq_comm]
  · by_cases hwindow : config.reset.window = 0
    · simp [hbound, hwindow, eq_comm]
    · simp [hbound, hwindow]

namespace Testbench

theorem ofConfig_eq_error_iff {config : Config} {failure : Failure} :
    ofConfig config = .error failure ↔ config.validate = .error failure := by
  unfold ofConfig
  split
  · next h => rw [h, Except.error.injEq, Except.error.injEq]
  · next h => simp [h]

theorem ofConfig_eq_ok_iff {config : Config} {bench : Testbench} :
    ofConfig config = .ok bench ↔ bench.config = config := by
  unfold ofConfig
  split
  · next failure h =>
    refine ⟨nofun, fun hbench => ?_⟩
    have hbound := bench.maxSimTime_pos
    have hwindow := bench.window_pos
    rw [hbench] at hbound hwindow
    simp [Config.validate, Nat.ne_of_gt hbound, Nat.ne_of_gt hwindow] at h
  · refine ⟨fun h => ?_, fun h => ?_⟩
    · cases h
      rfl
    · cases bench
      simp only at h
      subst h
      rfl

end Testbench

namespace CommandLine

variable {S : Type} [FileSystem S]

namespace BenchOptions

/-- The configuration that the settings start from. -/
inductive Configured (options : BenchOptions) (s : S) : Config → Prop
  | standard (h : options.config = none) : Configured options s {}
  | file {path : String} {config : Config} (h : options.config = some path)
    (hload : Loaded Config.ofJson s path config) : Configured options s config

/-- The bench that the settings ask for. -/
def Settled (options : BenchOptions) (s : S) (bench : Testbench) : Prop :=
  ∃ config, options.Configured s config ∧ bench.config = options.override config

/-- Why the settings ask for no bench: there is no configuration to start from, or with the
given settings in place one of its bounds is zero. -/
inductive Refused (options : BenchOptions) (s : S) : Failure → Prop
  | config {path : String} {failure : Failure} (h : options.config = some path)
    (hload : LoadFails Config.ofJson s path failure) : Refused options s failure
  | bound {config : Config} (h : options.Configured s config)
    (hbound : (options.override config).maxSimTime = 0) :
    Refused options s (Config.boundFailure "max_sim_time")
  | window {config : Config} (h : options.Configured s config)
    (hbound : (options.override config).maxSimTime ≠ 0)
    (hwindow : (options.override config).reset.window = 0) :
    Refused options s (Config.boundFailure "reset.window")

/-- The configuration that the settings start from, or why there is none. -/
def start (options : BenchOptions) (s : S) : Except Failure Config :=
  match options.config with
  | some path => load Config.ofJson s path
  | none => .ok {}

/-- The bench that the settings ask for, or why they ask for none. -/
def settle (options : BenchOptions) (s : S) : Except Failure Testbench :=
  (options.start s).bind fun config => Testbench.ofConfig (options.override config)

variable {options : BenchOptions} {s : S}

theorem start_eq_ok_iff {config : Config} :
    options.start s = .ok config ↔ options.Configured s config := by
  unfold start
  constructor
  · intro h
    split at h
    · next path hpath => exact .file hpath (load_eq_ok_iff.mp h)
    · next hnone =>
      cases h
      exact .standard hnone
  · rintro (hnone | ⟨hpath, hload⟩)
    · simp only [hnone]
    · simp only [hpath]
      exact load_eq_ok_iff.mpr hload

theorem settle_of_configured {config : Config} (h : options.Configured s config) :
    options.settle s = Testbench.ofConfig (options.override config) := by
  unfold settle
  rw [start_eq_ok_iff.mpr h]
  rfl

theorem settle_eq_ok_iff {bench : Testbench} :
    options.settle s = .ok bench ↔ options.Settled s bench := by
  constructor
  · intro h
    cases hstart : options.start s with
    | error failure => simp [settle, hstart, Except.bind] at h
    | ok config =>
      have hconfig := start_eq_ok_iff.mp hstart
      rw [settle_of_configured hconfig] at h
      exact ⟨config, hconfig, Testbench.ofConfig_eq_ok_iff.mp h⟩
  · rintro ⟨config, hconfig, hbench⟩
    rw [settle_of_configured hconfig]
    exact Testbench.ofConfig_eq_ok_iff.mpr hbench

theorem settle_eq_error_iff {failure : Failure} :
    options.settle s = .error failure ↔ options.Refused s failure := by
  constructor
  · intro h
    cases hstart : options.start s with
    | error failure =>
      simp only [settle, hstart, Except.bind, Except.error.injEq] at h
      subst h
      unfold start at hstart
      split at hstart
      · next path hpath => exact .config hpath (load_eq_error_iff.mp hstart)
      · cases hstart
    | ok config =>
      have hconfig := start_eq_ok_iff.mp hstart
      rw [settle_of_configured hconfig, Testbench.ofConfig_eq_error_iff,
        Config.validate_eq_error_iff] at h
      obtain ⟨hbound, rfl⟩ | ⟨hbound, hwindow, rfl⟩ := h
      · exact .bound hconfig hbound
      · exact .window hconfig hbound hwindow
  · rintro (⟨hpath, hload⟩ | ⟨hconfig, hbound⟩ | ⟨hconfig, hbound, hwindow⟩)
    · simp only [settle, start, hpath, load_eq_error_iff.mpr hload]
      rfl
    · rw [settle_of_configured hconfig, Testbench.ofConfig_eq_error_iff,
        Config.validate_eq_error_iff]
      exact .inl ⟨hbound, rfl⟩
    · rw [settle_of_configured hconfig, Testbench.ofConfig_eq_error_iff,
        Config.validate_eq_error_iff]
      exact .inr ⟨hbound, hwindow, rfl⟩

/-- Setting up a bench touches neither the log nor the files. -/
theorem on_testbench (log : Log) :
    (options.testbench : Work (StateM S) Testbench).on log s =
      ((options.settle s, log), s) := by
  unfold testbench settle start
  cases options.config with
  | none => exact Work.on_bind_of_steady (Work.on_pure _) fun _ => Work.on_ofExcept _
  | some path =>
    exact Work.on_bind_of_steady (Work.on_configFile path) fun _ => Work.on_ofExcept _

theorem on_testbench_of_settled (log : Log) {bench : Testbench} (h : options.Settled s bench) :
    (options.testbench : Work (StateM S) Testbench).on log s = ((.ok bench, log), s) := by
  rw [on_testbench, settle_eq_ok_iff.mpr h]

theorem on_testbench_of_refused (log : Log) {failure : Failure} (h : options.Refused s failure) :
    (options.testbench : Work (StateM S) Testbench).on log s = ((.error failure, log), s) := by
  rw [on_testbench, settle_eq_error_iff.mpr h]

end BenchOptions

end CommandLine

end CycleBench

import CycleBench.Proofs.Paths
import CycleBench.Proofs.ReportText
import CycleBench.Proofs.RunLog
import CycleBench.Proofs.SuiteCommand

/-!
Suites in slices. The report of a slice goes behind those before it in the same file, so what is in
the file in the end does not tell where the suite was cut:

* `on_runAndSave`: what one slice does to the files;
* `on_runSlices`: what any number of slices does, from the first that is there;
* `slices_add_up`: slices leave what the whole suite leaves, and so do two groups on the command
  line, the second of which is appended;
* `full_disk_spoils_report`: on a disk that is full while a report is written, this does not hold.
-/

namespace CycleBench

/-! ## Saving twice -/

theorem SuiteReport.toUTF8_text_append (results results' : List CaseResult) :
    (mk (results ++ results')).text.toUTF8 =
      (mk results).text.toUTF8 ++ (mk results').text.toUTF8 := by
  simp only [text, List.map_append, String.join_append]
  exact String.toByteArray_append

/-- Data that is appended to what has been saved might have been saved with it. -/
theorem Host.saved_append (append : Bool) (old : Option ByteArray) (data data' : ByteArray) :
    saved true (some (saved append old data)) data' = saved append old (data ++ data') := by
  cases append
  · rfl
  · exact ByteArray.append_assoc

namespace Testbench

/-- Runs slices of a suite one after the other; only the first does not have to be appended. -/
def runSlices {m : Type → Type} [Monad m] [Host m] (bench : Testbench) (path : String) :
    Bool → List (List SuiteCase) → Work m Unit
  | _, [] => pure ()
  | append, tests :: later => do
    let _ ← bench.runAndSave append path tests
    bench.runSlices path true later

theorem runSuite_append_snd (bench : Testbench) (tests tests' : List SuiteCase) (log : Log) :
    (bench.runSuite (tests ++ tests') log).2 =
      (bench.runSuite tests' (bench.runSuite tests log).2).2 := by
  simp only [log_runSuite, List.flatMap_append, Log.extend_append]

variable {S : Type} [StablePaths S] (bench : Testbench) {append : Bool} {path : String}
  {file : FileSystem.File S} {s : S}

theorem on_runAndSave (tests : List SuiteCase) (log : Log)
    (h : FileSystem.target append s path = .ok file) :
    ∃ s', (bench.runAndSave append path tests : Work (StateM S) SuiteReport).on log s =
        ((.ok ⟨tests.map bench.resultOf⟩, (bench.runSuite tests log).2), s') ∧
      SavedAs path file (Host.saved append (FileSystem.content s file)
        (SuiteReport.mk (tests.map bench.resultOf)).text.toUTF8) s s' := by
  obtain ⟨s', hsave, hsaved⟩ := exists_savedAs (SuiteReport.mk (tests.map bench.resultOf)) h
  exact ⟨s', bench.on_runAndSave_of_save hsave, hsaved⟩

/-- The file holds what the slices say together, however they are cut. -/
theorem on_runSlices {slices : List (List SuiteCase)} (hslices : slices ≠ []) (log : Log)
    (h : FileSystem.target append s path = .ok file) :
    ∃ s', (bench.runSlices path append slices : Work (StateM S) Unit).on log s =
        ((.ok (), (bench.runSuite slices.flatten log).2), s') ∧
      SavedAs path file (Host.saved append (FileSystem.content s file)
        (SuiteReport.mk (slices.flatten.map bench.resultOf)).text.toUTF8) s s' := by
  induction slices generalizing append s log with
  | nil => exact absurd rfl hslices
  | cons tests later ih =>
    obtain ⟨s₁, hfirst, hsaved⟩ := on_runAndSave bench tests log h
    rw [runSlices]
    cases later with
    | nil =>
      rw [List.flatten_cons, List.flatten_nil, List.append_nil]
      exact ⟨s₁, (Work.on_bind_ok hfirst _).trans (Work.on_pure ()), hsaved⟩
    | cons next later =>
      -- the file is there now, and the rest of the slices is appended to what it holds
      obtain ⟨s', hrest, hsaved'⟩ := ih (List.cons_ne_nil next later)
        (bench.runSuite tests log).2 hsaved.target
      rw [hsaved.content, Host.saved_append] at hsaved'
      rw [List.flatten_cons, runSuite_append_snd, List.map_append, SuiteReport.toUTF8_text_append]
      exact ⟨s', (Work.on_bind_ok hfirst _).trans hrest, hsaved.trans hsaved'⟩

/-- A report that cannot be saved changes no file. -/
theorem eq_of_save_error {report : SuiteReport} {log : Log} {failure : Failure}
    (h : ((report.saveTo append path : Work (StateM S) Unit).on log s).1.1 = .error failure) :
    ((report.saveTo append path : Work (StateM S) Unit).on log s).2 = s ∧
      ∃ fault, failure = .file path fault := by
  cases htarget : FileSystem.target append s path with
  | error fault =>
    rw [Work.on_saveTo_of_error report htarget] at h ⊢
    exact ⟨rfl, fault, (Except.error.inj h).symm⟩
  | ok file =>
    obtain ⟨s', hsave, -⟩ := Work.on_saveTo_of_ok report htarget
    rw [hsave] at h
    cases h

end Testbench

/-! ## Groups one after the other -/

namespace CommandLine

variable {S : Type} [StablePaths S] {path : String} {file : FileSystem.File S} {held : ByteArray}
  {s s' : S}

/-- A bench whose configuration is in another file is still what is asked for. -/
theorem BenchOptions.Settled.of_savedAs {options : BenchOptions} {bench : Testbench}
    (h : options.Settled s bench) (hsaved : SavedAs path file held s s')
    (hconfig : ∀ config, options.config = some config → StablePaths.source s config ≠ .ok file) :
    options.Settled s' bench := by
  obtain ⟨config, hstart, hbench⟩ := h
  refine ⟨config, ?_, hbench⟩
  cases hstart with
  | standard hnone => exact .standard hnone
  | file hpath hload => exact .file hpath (hsaved.loaded (hconfig _ hpath) hload)

theorem SuiteOptions.execute_savedAs (options : SuiteOptions) {manifest : Manifest}
    {bench : Testbench} (threshold : Threshold)
    (h : Loaded Manifest.ofJson s options.manifest manifest) (hlist : options.list = false)
    (hselection : manifest.select options.selection ≠ [])
    (hbench : options.bench.Settled s bench)
    (hreport : FileSystem.target options.append s options.out = .ok file) :
    let done := ((Command.suite options).execute threshold : StateM S Transcript) s
    done.1.exit ≠ 2 ∧
      SavedAs options.out file (Host.saved options.append (FileSystem.content s file)
        (SuiteReport.mk ((manifest.select options.selection).map bench.resultOf)).text.toUTF8)
        s done.2 := by
  obtain ⟨s', hsave, hsaved⟩ :=
    exists_savedAs (.mk ((manifest.select options.selection).map bench.resultOf)) hreport
  obtain ⟨log, hperform⟩ := on_perform_of_save { threshold } h hlist hselection hbench hsave
  rw [Command.execute_of_ok (.suite options) hperform]
  exact ⟨exit_ne_two, hsaved⟩

/-- A group whose report is appended to that of another. -/
theorem SuiteOptions.execute_groups {settings : BenchOptions} {bench : Testbench}
    {source : String} {manifest : Manifest} (threshold threshold' : Threshold)
    (hbench : settings.Settled s bench) (h : Loaded Manifest.ofJson s source manifest)
    {first second : String} (hfirst : manifest.group first ≠ [])
    (hsecond : manifest.group second ≠ [])
    (hreport : FileSystem.target false s path = .ok file)
    (hsource : StablePaths.source s source ≠ .ok file)
    (hconfig : ∀ config, settings.config = some config →
      StablePaths.source s config ≠ .ok file) :
    let suite := fun group append => Command.suite
      { manifest := source, bench := settings, selection := .group group, out := path, append }
    let one := ((suite first false).execute threshold : StateM S Transcript) s
    let two := ((suite second true).execute threshold' : StateM S Transcript) one.2
    one.1.exit ≠ 2 ∧ two.1.exit ≠ 2 ∧
      SavedAs path file ((SuiteReport.mk ((manifest.group first).map bench.resultOf)).text ++
        (SuiteReport.mk ((manifest.group second).map bench.resultOf)).text).toUTF8 s two.2 := by
  intro suite one two
  obtain ⟨hone, hsaved⟩ := SuiteOptions.execute_savedAs
    ⟨source, settings, .group first, false, path, false⟩
    threshold h rfl hfirst hbench hreport
  obtain ⟨htwo, hsaved'⟩ := SuiteOptions.execute_savedAs
    ⟨source, settings, .group second, false, path, true⟩
    threshold' (hsaved.loaded hsource h) rfl hsecond
    (hbench.of_savedAs hsaved hconfig) hsaved.target
  rw [hsaved.content] at hsaved'
  have htext (text text' : String) : (text ++ text').toUTF8 = text.toUTF8 ++ text'.toUTF8 :=
    String.toByteArray_append
  rw [htext]
  exact ⟨hone, htwo, hsaved.trans hsaved'⟩

end CommandLine

/-- **A suite in slices adds up to the whole.** Whatever the file held before and wherever the suite
is cut, slices end like the whole suite, leave the same in every file and log the same. The file
then holds the report; only if that was to be appended, it holds it behind what it held before. No
other file changes, and none at all when a report cannot be saved, which on a file system shows when
its file is opened. On the command line, a group that is appended to the report of another leaves
the lines of both, in this order. -/
theorem Testbench.slices_add_up {S : Type} [StablePaths S] (bench : Testbench) :
    (∀ (slices : List (List SuiteCase)) (append : Bool) (path : String) (s : S)
      (file : FileSystem.File S) (log : Log), slices ≠ [] →
      FileSystem.target append s path = .ok file →
      let sliced := (bench.runSlices path append slices : Work (StateM S) Unit).on log s
      let whole :=
        (bench.runAndSave append path slices.flatten : Work (StateM S) SuiteReport).on log s
      let report := (bench.runSuite slices.flatten log).1
      let text := report.text.toUTF8
      sliced.1.1 = .ok () ∧ whole.1.1 = .ok report ∧ sliced.1.2 = whole.1.2 ∧
      (∀ any, FileSystem.content sliced.2 any = FileSystem.content whole.2 any) ∧
      (append = false ∨ FileSystem.content s file = none →
        FileSystem.content sliced.2 file = some text) ∧
      (∀ old, append = true → FileSystem.content s file = some old →
        FileSystem.content sliced.2 file = some (old ++ text)) ∧
      ∀ other, other ≠ file → FileSystem.content sliced.2 other = FileSystem.content s other) ∧
    (∀ (report : SuiteReport) (append : Bool) (path : String) (s : S) (log : Log)
      (failure : Failure),
      let saved := (report.saveTo append path : Work (StateM S) Unit).on log s
      saved.1.1 = .error failure → saved.2 = s ∧ ∃ fault, failure = .file path fault) ∧
    ∀ (settings : CommandLine.BenchOptions) (source path first second : String)
      (manifest : Manifest) (s : S) (file : FileSystem.File S) (verbosity verbosity' : Nat)
      (choice choice' : Option Threshold) (log : Log),
      settings.Settled s bench → Loaded Manifest.ofJson s source manifest →
      manifest.group first ≠ [] → manifest.group second ≠ [] →
      FileSystem.target false s path = .ok file → StablePaths.source s source ≠ .ok file →
      (∀ config, settings.config = some config → StablePaths.source s config ≠ .ok file) →
      let suite := fun group append => CommandLine.Command.suite
        { manifest := source, bench := settings, selection := .group group, out := path, append }
      let one := ((CommandLine.Invocation.mk verbosity (suite first false)).execute choice :
        StateM S CommandLine.Transcript) s
      let two := ((CommandLine.Invocation.mk verbosity' (suite second true)).execute choice' :
        StateM S CommandLine.Transcript) one.2
      let lines := fun group => (bench.runSuite (manifest.group group) log).1.text
      one.1.exit ≠ 2 ∧ two.1.exit ≠ 2 ∧
      FileSystem.content two.2 file = some (lines first ++ lines second).toUTF8 ∧
      ∀ other, other ≠ file → FileSystem.content two.2 other = FileSystem.content s other := by
  refine ⟨?_, ?_, ?_⟩
  · intro slices append path s file log hslices htarget sliced whole report text
    obtain ⟨s₁, hsliced, hsaved⟩ := on_runSlices bench hslices log htarget
    obtain ⟨s₂, hwhole, hsaved'⟩ := on_runAndSave bench slices.flatten log htarget
    have hreport : report = ⟨slices.flatten.map bench.resultOf⟩ :=
      bench.runSuite_fst slices.flatten log
    rw [← hreport] at hsaved hsaved' hwhole
    simp only [sliced, whole, hsliced, hwhole]
    refine ⟨trivial, trivial, trivial, fun any => ?_, ?_, ?_, hsaved.others⟩
    · by_cases hany : any = file
      · rw [hany, hsaved.content, hsaved'.content]
      · rw [hsaved.others any hany, hsaved'.others any hany]
    · rintro (rfl | hnone)
      · exact hsaved.content
      · rw [hsaved.content, hnone]
        cases append <;> simp [Host.saved, text]
    · rintro old rfl hold
      rw [hsaved.content, hold]
      rfl
  · intro report append path s log failure saved
    exact eq_of_save_error
  · intro settings source path first second manifest s file verbosity verbosity' choice choice' log
      hbench hmanifest hfirst hsecond htarget hsource hconfig suite one two lines
    obtain ⟨hone, htwo, hsaved⟩ := CommandLine.SuiteOptions.execute_groups
      (choice.getD (.ofVerbosity verbosity)) (choice'.getD (.ofVerbosity verbosity'))
      hbench hmanifest hfirst hsecond htarget hsource hconfig
    have hlines (group : String) : lines group =
        (SuiteReport.mk ((manifest.group group).map bench.resultOf)).text :=
      congrArg SuiteReport.text (bench.runSuite_fst (manifest.group group) log)
    rw [hlines, hlines]
    exact ⟨hone, htwo, hsaved.content, hsaved.others⟩

/-- A group and then another: the report that was there is gone, and no line is lost between. -/
theorem Testbench.groups_replace_stale_report :
    let settings : CommandLine.BenchOptions := { maxSimTime := some 8, resetWindow := some 2 }
    let files := (FileStore.empty.put ["m"] (.file
      ("[[[\"a\", \"x\", [0, 11, 1]], [\"b\", \"y\", [1, 3, 1]], " ++
        "[\"c\", \"x\", [0, 3, 1]]]]").toUTF8)).put ["result.txt"] (.file "stale\n".toUTF8)
    let suite := fun group append => CommandLine.Command.suite
      { manifest := "m", bench := settings, selection := .group group, append }
    let one := ((CommandLine.Invocation.mk 0 (suite "x" false)).execute none :
      StateM FileStore CommandLine.Transcript) files
    let two := ((CommandLine.Invocation.mk 0 (suite "y" true)).execute none :
      StateM FileStore CommandLine.Transcript) one.2
    two.2.content ["result.txt"] = some "a: PASS\nc: PASS\nb: FAIL\n".toUTF8 ∧
      two.2.content ["m"] = files.content ["m"] := by
  intro settings files suite one two
  let bench : Testbench := ⟨settings.override {}, by decide, by decide⟩
  let manifest : Manifest := ⟨[⟨"a", some "x", ⟨0, 11, 1⟩⟩, ⟨"b", some "y", ⟨1, 3, 1⟩⟩,
    ⟨"c", some "x", ⟨0, 3, 1⟩⟩]⟩
  have hmanifest : Loaded Manifest.ofJson files "m" manifest :=
    load_eq_ok_iff.mp (by decide +kernel)
  have htarget : files.target "result.txt" = .ok ["result.txt"] := by decide +kernel
  have hsource : files.source "m" ≠ .ok ["result.txt"] := by decide +kernel
  obtain ⟨-, -, hcommands⟩ := slices_add_up (S := FileStore) bench
  obtain ⟨-, -, hcontent, hothers⟩ := hcommands settings "m" "result.txt" "x" "y" manifest files
    ["result.txt"] 0 0 none none { threshold := none } ⟨{}, .standard rfl, rfl⟩ hmanifest nofun
    nofun htarget hsource nofun
  refine ⟨hcontent.trans ?_, hothers ["m"] (by decide : ["m"] ≠ ["result.txt"])⟩
  decide +kernel

/-! ## A disk with little room -/

/-- A store on a disk that takes so many bytes more. -/
structure LimitedDisk where
  store : FileStore
  room : Nat

namespace LimitedDisk

def noSpace : FileFault :=
  .other "No space left on device (os error 28)"

/-- Saves as much of the data as there is room for, and fails if that is not all. -/
def save (disk : LimitedDisk) (append : Bool) (path : String) (data : ByteArray) :
    Except FileFault Unit × LimitedDisk :=
  let part := data.extract 0 disk.room
  match (Host.save append path part : StateM FileStore _) disk.store with
  | (.error fault, _) => (.error fault, disk)
  | (.ok (), store) =>
    (if data.size ≤ disk.room then .ok () else .error noSpace,
      { store, room := disk.room - part.size })

instance : Host (StateM LimitedDisk) where
  read path := do return (← get).store.read path
  write path data := modifyGet fun disk => disk.save false path data
  append path data := modifyGet fun disk => disk.save true path data
  timed f := return (f (), none)

end LimitedDisk

/-- A write that fails when the file is open has changed it already, be the report written in place
of what the file held or behind it. And whatever has been written is read through every path that
leads to the file. -/
theorem Testbench.full_disk_spoils_report :
    let report : SuiteReport := ⟨[⟨"b", ⟨1, 3⟩, .fail, 5⟩]⟩
    let store := FileStore.empty.put ["result.txt"] (.file "ok\n".toUTF8)
    let disk : LimitedDisk := { store, room := 4 }
    let log : Log := { threshold := none }
    let replaced := (report.writeTo "result.txt" : Work (StateM LimitedDisk) Unit).on log disk
    let added := (report.appendTo "result.txt" : Work (StateM LimitedDisk) Unit).on log disk
    let written := (report.writeTo "result.txt" : Work (StateM FileStore) Unit).on log store
    (replaced.1.1 = .error (.file "result.txt" LimitedDisk.noSpace) ∧
      replaced.2.store.content ["result.txt"] = some "b: F".toUTF8) ∧
    (added.1.1 = .error (.file "result.txt" LimitedDisk.noSpace) ∧
      added.2.store.content ["result.txt"] = some "ok\nb: F".toUTF8) ∧
    written.1.1 = .ok () ∧ store.read "./result.txt" = .ok "ok\n".toUTF8 ∧
      written.2.read "./result.txt" = .ok "b: FAIL\n".toUTF8 := by
  decide +kernel

end CycleBench

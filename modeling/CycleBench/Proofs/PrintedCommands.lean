import CycleBench.Proofs.ToldLines

/-!
Printed commands. A line prints a command if every option of the command occurs on it with the value
that it has, in whatever order, and nothing else does; the options whose value is the usual one may
be left out, and the sections of the statistics may be spread over several options:

* `Command.PrintedBy`: the lines that print a command; there is one for every command that can be
  printed (`Command.exists_written`);
* `RunOptions.PrintedBy.ofLine_eq` and its like: what a printed line tells is what it prints;
* `reading_undoes_printing`: such a line is read as the command, however it is written.
-/

namespace CycleBench.CommandLine

/-! ## Lines that print a command -/

/-- An occurrence of the flag if it is set. -/
def flag? (name : String) (isSet : Bool) : Option Occurrence :=
  if isSet then some (.flag name) else none

/-- An occurrence of the option if it has a value. -/
def option? (name : String) (value? : Option String) : Option Occurrence :=
  value?.map (.option name)

/-- The option occurs with the text; it may be left out where its value is the usual one. -/
def Shown (line : List Occurrence) (name text : String) (usual : Prop) : Prop :=
  given name line = [.option name text] ∨ usual ∧ given name line = []

structure BenchOptions.PrintedBy (options : BenchOptions) (line : List Occurrence) : Prop where
  config : given "config" line = (option? "config" options.config).toList
  maxSimTime : given "max-sim-time" line =
    (option? "max-sim-time" (options.maxSimTime.map toString)).toList
  resetWindow : given "reset-window" line =
    (option? "reset-window" (options.resetWindow.map toString)).toList
  activeLow : given "active-low" line = (flag? "active-low" options.activeLow).toList
  traceSteps : given "trace-steps" line = (flag? "trace-steps" options.traceSteps).toList

structure RunOptions.PrintedBy (options : RunOptions) (line : List Occurrence) : Prop where
  bench : options.bench.PrintedBy line
  result : Shown line "result" (toString options.program.resultCode.toInt)
    (options.program.resultCode = 0)
  cause : Shown line "cause" (toString options.program.causeCode.toInt)
    (options.program.causeCode = 11)
  latency : Shown line "latency" (toString options.program.latency) (options.program.latency = 1000)
  probe : given "probe" line = (flag? "probe" options.probe).toList
  stats : given "stats" line = (flag? "stats" options.stats).toList
  /-- The sections are in their order, over as many options as one likes. -/
  sections : ∃ groups : List (List String), [] ∉ groups ∧ groups.flatten = options.sections ∧
    given "stats-sections" line =
      groups.map fun group => .option "stats-sections" (",".intercalate group)

structure PrintsTrap (trap : TrapRecord) (line : List Occurrence) : Prop where
  result : given "result" line = [.option "result" (toString trap.resultCode.toInt)]
  cause : given "cause" line = [.option "cause" (toString trap.causeCode.toInt)]

def groupName? : Selection → Option String
  | .group name => some name
  | _ => none

def singleName? : Selection → Option String
  | .single name => some name
  | _ => none

structure SuiteOptions.PrintedBy (options : SuiteOptions) (line : List Occurrence) : Prop where
  manifest : given "manifest" line = [.plain options.manifest]
  bench : options.bench.PrintedBy line
  group : given "group" line = (option? "group" (groupName? options.selection)).toList
  single : given "single" line = (option? "single" (singleName? options.selection)).toList
  list : given "list" line = (flag? "list" options.list).toList
  out : Shown line "out" options.out (options.out = "result.txt")
  append : given "append" line = (flag? "append" options.append).toList

def BenchOptions.names : List String :=
  ["config", "max-sim-time", "reset-window", "active-low", "trace-steps"]

namespace Command

/-- The name that the command is called by. -/
def word : Command → String
  | run _ => "run"
  | classify _ => "classify"
  | suite _ => "suite"

/-- The names of what may occur on a line of the command, the verbosity apart. -/
def names : Command → List String
  | run _ =>
    BenchOptions.names ++ ["result", "cause", "latency", "probe", "stats", "stats-sections"]
  | classify _ => ["result", "cause"]
  | suite _ => BenchOptions.names ++ ["manifest", "group", "single", "list", "out", "append"]

def ValuesPrintedBy (line : List Occurrence) : Command → Prop
  | run options => options.PrintedBy line
  | classify trap => PrintsTrap trap line
  | suite options => options.PrintedBy line

/-- The line prints the command, and asks this often for more of the log. -/
structure PrintedBy (command : Command) (verbosity : Nat) (line : List Occurrence) : Prop where
  names : ∀ o ∈ line, o.name ∈ "verbose" :: command.names
  verbose : given "verbose" line = List.replicate verbosity (.flag "verbose")
  values : command.ValuesPrintedBy line

end Command

/-- Numbers are of 64 bits, and a path is not empty. -/
structure BenchOptions.Printable (options : BenchOptions) : Prop where
  config : options.config ≠ some ""
  maxSimTime : ∀ n ∈ options.maxSimTime, n < Nat.pow 2 64
  resetWindow : ∀ n ∈ options.resetWindow, n < Nat.pow 2 64

structure RunOptions.Printable (options : RunOptions) : Prop where
  bench : options.bench.Printable
  latency : options.program.latency < Nat.pow 2 64
  sections : ∀ name ∈ options.sections, ',' ∉ name.toList

/-- The manifest has to stand in an argument of its own. -/
structure SuiteOptions.Printable (options : SuiteOptions) : Prop where
  manifest : options.manifest ≠ ""
  plain : options.manifest.toList.head? ≠ some '-'
  bench : options.bench.Printable
  out : options.out ≠ ""

/-- Commands that a command line can tell. -/
def Command.Printable : Command → Prop
  | run options => options.Printable
  | classify _ => True
  | suite options => options.Printable

/-! ## A line for every command -/

def BenchOptions.line (options : BenchOptions) : List Occurrence :=
  (option? "config" options.config).toList ++
  (option? "max-sim-time" (options.maxSimTime.map toString)).toList ++
  (option? "reset-window" (options.resetWindow.map toString)).toList ++
  (flag? "active-low" options.activeLow).toList ++ (flag? "trace-steps" options.traceSteps).toList

/-- The line with every value, and every section on its own. -/
def Command.line : Command → List Occurrence
  | run options =>
    options.bench.line ++ [
      .option "result" (toString options.program.resultCode.toInt),
      .option "cause" (toString options.program.causeCode.toInt),
      .option "latency" (toString options.program.latency)] ++
    (flag? "probe" options.probe).toList ++ (flag? "stats" options.stats).toList ++
    options.sections.map (.option "stats-sections")
  | classify trap => [
      .option "result" (toString trap.resultCode.toInt),
      .option "cause" (toString trap.causeCode.toInt)]
  | suite options =>
    .plain options.manifest :: options.bench.line ++
    (option? "group" (groupName? options.selection)).toList ++
    (option? "single" (singleName? options.selection)).toList ++
    (flag? "list" options.list).toList ++ [.option "out" options.out] ++
    (flag? "append" options.append).toList

section Given

variable (name other : String)

@[simp]
theorem given_option? (value? : Option String) : given name (option? other value?).toList =
    if other = name then (option? other value?).toList else [] := by
  by_cases h : other = name <;> cases value? <;> simp [option?, h]

@[simp]
theorem given_flag? (isSet : Bool) : given name (flag? other isSet).toList =
    if other = name then (flag? other isSet).toList else [] := by
  by_cases h : other = name <;> cases isSet <;> simp [flag?, h]

@[simp]
theorem given_options (values : List String) : given name (values.map (.option other)) =
    if other = name then values.map (.option other) else [] := by
  by_cases h : other = name <;> simp [given, List.filter_map, Function.comp_def, h]

end Given

theorem RunOptions.printedBy_line (options : RunOptions) :
    options.PrintedBy (Command.run options).line where
  bench := by constructor <;> simp [Command.line, BenchOptions.line]
  result := .inl (by simp [Command.line, BenchOptions.line])
  cause := .inl (by simp [Command.line, BenchOptions.line])
  latency := .inl (by simp [Command.line, BenchOptions.line])
  probe := by simp [Command.line, BenchOptions.line]
  stats := by simp [Command.line, BenchOptions.line]
  sections := by
    refine ⟨options.sections.map ([·]), by simp, ?_, ?_⟩
    · rw [← List.flatMap_def, List.flatMap_singleton']
    · simp [Command.line, BenchOptions.line, Function.comp_def]

theorem SuiteOptions.printedBy_line (options : SuiteOptions) :
    options.PrintedBy (Command.suite options).line where
  manifest := by simp [Command.line, BenchOptions.line]
  bench := by constructor <;> simp [Command.line, BenchOptions.line]
  group := by simp [Command.line, BenchOptions.line]
  single := by simp [Command.line, BenchOptions.line]
  list := by simp [Command.line, BenchOptions.line]
  out := .inl (by simp [Command.line, BenchOptions.line])
  append := by simp [Command.line, BenchOptions.line]

theorem Command.printedBy_line (command : Command) : command.PrintedBy 0 command.line := by
  refine ⟨fun o ho => by_contra fun hnot => ?_, ?_, ?_⟩
  · -- nothing has another name
    have hgiven : o ∈ given o.name command.line := mem_given.mpr ⟨ho, rfl⟩
    cases command <;>
      simp only [names, BenchOptions.names, List.mem_cons, List.cons_append, List.nil_append,
        List.not_mem_nil, or_false, not_or, eq_comm (a := o.name)] at hnot <;>
      simp [line, BenchOptions.line, hnot] at hgiven
  · cases command <;> simp [Command.line, BenchOptions.line]
  · cases command with
    | run options => exact options.printedBy_line
    | classify trap => constructor <;> simp [Command.line]
    | suite options => exact options.printedBy_line

/-- An occurrence as one argument. -/
def Occurrence.argument : Occurrence → String
  | flag name => "--" ++ name
  | option name value => "--" ++ name ++ "=" ++ value
  | plain value => value

theorem written_map_argument {line : List Occurrence}
    (h : ∀ value, .plain value ∈ line → value.toList.head? ≠ some '-') :
    Written line (line.map (·.argument)) := by
  induction line with
  | nil => exact .nil
  | cons o line ih =>
    have hspelled : o.Spelled [o.argument] := by
      cases o with
      | flag name => exact .flag name
      | option name value => exact .attached name value
      | plain value => exact .plain (h value (.head _))
    exact Written.cons hspelled (ih fun value hvalue => h value (.tail _ hvalue))

theorem Command.exists_written {command : Command} (h : command.Printable) :
    ∃ line arguments, command.PrintedBy 0 line ∧ Written line arguments := by
  refine ⟨_, _, command.printedBy_line, written_map_argument fun value hvalue => ?_⟩
  have hnames := command.printedBy_line.names _ hvalue
  cases command with
  | run options => simp [names, BenchOptions.names] at hnames
  | classify trap => simp [names] at hnames
  | suite options =>
    have hgiven := mem_given.mpr ⟨hvalue, Occurrence.name_plain value⟩
    rw [options.printedBy_line.manifest, List.mem_singleton] at hgiven
    cases hgiven
    exact h.plain

/-! ## What a printed line tells -/

section Reading

variable {name text : String} {line : List Occurrence} {o : Occurrence} {usual : Prop}

theorem lastValue_of_given {value? : Option String}
    (h : given name line = (option? name value?).toList) : lastValue name line = value? := by
  rw [lastValue, h]
  cases value? <;> rfl

theorem occurs_of_given {isSet : Bool} (h : given name line = (flag? name isSet).toList) :
    occurs name line = isSet := by
  rw [occurs, h]
  cases isSet <;> rfl

theorem Shown.read {α : Type} {parse : String → Option α} {a usualValue : α}
    (h : Shown line name text (a = usualValue)) (hparse : parse text = some a) :
    ((lastValue name line).bind parse).getD usualValue = a := by
  rcases h with h | ⟨rfl, h⟩
  · rw [lastValue, h]
    simp [hparse]
  · rw [lastValue, h]
    rfl

end Reading

theorem bind_natural64?_toString {n? : Option Nat} (h : ∀ n ∈ n?, n < Nat.pow 2 64) :
    (n?.map toString).bind Text.natural64? = n? := by
  cases n? with
  | none => rfl
  | some n => exact Text.natural64?_toString (h n rfl)

theorem BenchOptions.PrintedBy.ofLine_eq {options : BenchOptions} {line : List Occurrence}
    (h : options.PrintedBy line) (hvalid : options.Printable) : ofLine line = options := by
  unfold ofLine
  rw [lastValue_of_given h.config, lastValue_of_given h.maxSimTime,
    lastValue_of_given h.resetWindow, occurs_of_given h.activeLow, occurs_of_given h.traceSteps,
    bind_natural64?_toString hvalid.maxSimTime, bind_natural64?_toString hvalid.resetWindow]

theorem flatMap_split_intercalate {groups : List (List String)} (hne : [] ∉ groups)
    (h : ∀ name ∈ groups.flatten, ',' ∉ name.toList) :
    (groups.flatMap fun group => Text.split ',' (",".intercalate group)) = groups.flatten := by
  rw [← List.flatMap_id']
  refine List.flatMap_congr fun group hgroup => ?_
  refine Text.split_intercalate (fun hnil => hne (hnil ▸ hgroup)) fun name hname => ?_
  exact h name (List.mem_flatten_of_mem hgroup hname)

theorem RunOptions.PrintedBy.ofLine_eq {options : RunOptions} {line : List Occurrence}
    (h : options.PrintedBy line) (hvalid : options.Printable) : ofLine line = options := by
  obtain ⟨groups, hne, hflatten, hsections⟩ := h.sections
  have hnames : ∀ name ∈ groups.flatten, ',' ∉ name.toList := hflatten ▸ hvalid.sections
  unfold ofLine
  rw [h.bench.ofLine_eq hvalid.bench, h.result.read (Text.signedByte?_toString _),
    h.cause.read (Text.signedByte?_toString _),
    h.latency.read (Text.natural64?_toString hvalid.latency), occurs_of_given h.probe,
    occurs_of_given h.stats, hsections, List.flatMap_map]
  simp only [Occurrence.value_option, flatMap_split_intercalate hne hnames, hflatten]

theorem PrintsTrap.trapOf_eq {trap : TrapRecord} {line : List Occurrence}
    (h : PrintsTrap trap line) : trapOf line = trap := by
  have hresult : Shown line "result" _ (trap.resultCode = 0) := .inl h.result
  have hcause : Shown line "cause" _ (trap.causeCode = 0) := .inl h.cause
  unfold trapOf
  rw [hresult.read (Text.signedByte?_toString _), hcause.read (Text.signedByte?_toString _)]

theorem SuiteOptions.PrintedBy.group_or_single {options : SuiteOptions} {line : List Occurrence}
    (h : options.PrintedBy line) : given "group" line = [] ∨ given "single" line = [] := by
  rw [h.group, h.single]
  cases options.selection
  · exact .inl rfl
  · exact .inr rfl
  · exact .inl rfl

theorem SuiteOptions.PrintedBy.selectionOf_eq {options : SuiteOptions} {line : List Occurrence}
    (h : options.PrintedBy line) : selectionOf line = options.selection := by
  have hboth : (line.filter fun o => o.name = "group" ∨ o.name = "single") =
      given "group" line ++ given "single" line := by
    rcases h.group_or_single with hnone | hnone
    · rw [hnone, List.nil_append]
      refine List.filter_congr fun o ho => ?_
      simpa using fun hname => absurd (mem_given.mpr ⟨ho, hname⟩) (by simp [hnone])
    · rw [hnone, List.append_nil]
      refine List.filter_congr fun o ho => ?_
      simpa using fun hname => absurd (mem_given.mpr ⟨ho, hname⟩) (by simp [hnone])
  unfold selectionOf
  rw [hboth, h.group, h.single]
  cases options.selection <;> rfl

theorem SuiteOptions.PrintedBy.ofLine_eq {options : SuiteOptions} {line : List Occurrence}
    (h : options.PrintedBy line) (hvalid : options.Printable) : ofLine line = options := by
  have hmanifest : lastValue "manifest" line = some options.manifest := by
    rw [lastValue, h.manifest]
    rfl
  have hout : path? options.out = some options.out := if_neg hvalid.out
  unfold ofLine
  rw [hmanifest, h.bench.ofLine_eq hvalid.bench, h.selectionOf_eq, occurs_of_given h.list,
    h.out.read hout, occurs_of_given h.append]
  rfl

/-! ## Printed occurrences are accepted -/

/-- The occurrence is accepted, and is the only one of its name if it may not be repeated. -/
structure Accepted (Accepts : Occurrence → Prop) (line : List Occurrence) (o : Occurrence) :
    Prop where
  accepts : Accepts o
  given_eq : o.name ∉ repeatables → given o.name line = [o]

section Membership

variable {name text : String} {line : List Occurrence} {o : Occurrence}

theorem eq_of_mem_option {value? : Option String}
    (h : given name line = (option? name value?).toList) (ho : o ∈ given name line) :
    ∃ value, value? = some value ∧ o = .option name value ∧ given name line = [o] := by
  cases value? with
  | none =>
    rw [h] at ho
    cases ho
  | some value =>
    rw [h] at ho
    obtain rfl := List.mem_singleton.mp ho
    exact ⟨value, rfl, rfl, h⟩

theorem eq_of_mem_flag {isSet : Bool} (h : given name line = (flag? name isSet).toList)
    (ho : o ∈ given name line) : o = .flag name ∧ given name line = [o] := by
  cases isSet with
  | false =>
    rw [h] at ho
    cases ho
  | true =>
    rw [h] at ho
    obtain rfl := List.mem_singleton.mp ho
    exact ⟨rfl, h⟩

theorem Shown.eq_of_mem {usual : Prop} (h : Shown line name text usual)
    (ho : o ∈ given name line) : o = .option name text ∧ given name line = [o] := by
  rcases h with h | ⟨-, h⟩
  · rw [h, List.mem_singleton] at ho
    exact ⟨ho, ho ▸ h⟩
  · rw [h] at ho
    cases ho

end Membership

theorem BenchOptions.PrintedBy.accepted {options : BenchOptions} {line : List Occurrence}
    (h : options.PrintedBy line) (hvalid : options.Printable) {o : Occurrence} (ho : o ∈ line)
    (hname : o.name ∈ names) : Accepted Accepts line o := by
  have hgiven : o ∈ given o.name line := mem_given.mpr ⟨ho, rfl⟩
  simp only [names, List.mem_cons, List.not_mem_nil, or_false] at hname
  rcases hname with hname | hname | hname | hname | hname <;> rw [hname] at hgiven
  · obtain ⟨path, hpath, rfl, honly⟩ := eq_of_mem_option h.config hgiven
    exact ⟨.config fun hempty => hvalid.config (hempty ▸ hpath), fun _ => honly⟩
  · obtain ⟨_, htime, rfl, honly⟩ := eq_of_mem_option h.maxSimTime hgiven
    obtain ⟨n, hn, rfl⟩ := Option.map_eq_some_iff.mp htime
    exact ⟨.maxSimTime (Text.natural64?_toString (hvalid.maxSimTime n hn)), fun _ => honly⟩
  · obtain ⟨_, hwindow, rfl, honly⟩ := eq_of_mem_option h.resetWindow hgiven
    obtain ⟨n, hn, rfl⟩ := Option.map_eq_some_iff.mp hwindow
    exact ⟨.resetWindow (Text.natural64?_toString (hvalid.resetWindow n hn)), fun _ => honly⟩
  · obtain ⟨rfl, honly⟩ := eq_of_mem_flag h.activeLow hgiven
    exact ⟨.activeLow, fun _ => honly⟩
  · obtain ⟨rfl, honly⟩ := eq_of_mem_flag h.traceSteps hgiven
    exact ⟨.traceSteps, fun _ => honly⟩

section Occurrences

variable {line : List Occurrence} {o : Occurrence}

theorem RunOptions.PrintedBy.accepted {options : RunOptions} (h : options.PrintedBy line)
    (hvalid : options.Printable) (ho : o ∈ line) (hname : o.name ∈ (Command.run options).names) :
    Accepted Accepts line o := by
  have hgiven : o ∈ given o.name line := mem_given.mpr ⟨ho, rfl⟩
  rcases List.mem_append.mp hname with hname | hname
  · obtain ⟨haccepts, honly⟩ := h.bench.accepted hvalid.bench ho hname
    exact ⟨.bench haccepts, honly⟩
  simp only [List.mem_cons, List.not_mem_nil, or_false] at hname
  rcases hname with hname | hname | hname | hname | hname | hname <;> rw [hname] at hgiven
  · obtain ⟨rfl, honly⟩ := h.result.eq_of_mem hgiven
    exact ⟨.result (Text.signedByte?_toString _), fun _ => honly⟩
  · obtain ⟨rfl, honly⟩ := h.cause.eq_of_mem hgiven
    exact ⟨.cause (Text.signedByte?_toString _), fun _ => honly⟩
  · obtain ⟨rfl, honly⟩ := h.latency.eq_of_mem hgiven
    exact ⟨.latency (Text.natural64?_toString hvalid.latency), fun _ => honly⟩
  · obtain ⟨rfl, honly⟩ := eq_of_mem_flag h.probe hgiven
    exact ⟨.probe, fun _ => honly⟩
  · obtain ⟨rfl, honly⟩ := eq_of_mem_flag h.stats hgiven
    exact ⟨.stats, fun _ => honly⟩
  · obtain ⟨groups, -, -, hsections⟩ := h.sections
    rw [hsections] at hgiven
    obtain ⟨group, -, rfl⟩ := List.mem_map.mp hgiven
    exact ⟨.sections _, fun hnot => absurd (.tail _ (.head _)) hnot⟩

theorem PrintsTrap.accepted {trap : TrapRecord} (h : PrintsTrap trap line) (ho : o ∈ line)
    (hname : o.name ∈ (Command.classify trap).names) : Accepted AcceptsTrap line o := by
  have hgiven : o ∈ given o.name line := mem_given.mpr ⟨ho, rfl⟩
  simp only [Command.names, List.mem_cons, List.not_mem_nil, or_false] at hname
  rcases hname with hname | hname <;> rw [hname] at hgiven
  · rw [h.result, List.mem_singleton] at hgiven
    subst hgiven
    exact ⟨.result (Text.signedByte?_toString _), fun _ => h.result⟩
  · rw [h.cause, List.mem_singleton] at hgiven
    subst hgiven
    exact ⟨.cause (Text.signedByte?_toString _), fun _ => h.cause⟩

theorem SuiteOptions.PrintedBy.accepted {options : SuiteOptions} (h : options.PrintedBy line)
    (hvalid : options.Printable) (ho : o ∈ line) (hname : o.name ∈ (Command.suite options).names) :
    Accepted Accepts line o := by
  have hgiven : o ∈ given o.name line := mem_given.mpr ⟨ho, rfl⟩
  rcases List.mem_append.mp hname with hname | hname
  · obtain ⟨haccepts, honly⟩ := h.bench.accepted hvalid.bench ho hname
    exact ⟨.bench haccepts, honly⟩
  simp only [List.mem_cons, List.not_mem_nil, or_false] at hname
  rcases hname with hname | hname | hname | hname | hname | hname <;> rw [hname] at hgiven
  · rw [h.manifest, List.mem_singleton] at hgiven
    subst hgiven
    exact ⟨.manifest hvalid.manifest, fun _ => h.manifest⟩
  · obtain ⟨name, -, rfl, honly⟩ := eq_of_mem_option h.group hgiven
    exact ⟨.group name, fun _ => honly⟩
  · obtain ⟨name, -, rfl, honly⟩ := eq_of_mem_option h.single hgiven
    exact ⟨.single name, fun _ => honly⟩
  · obtain ⟨rfl, honly⟩ := eq_of_mem_flag h.list hgiven
    exact ⟨.list, fun _ => honly⟩
  · obtain ⟨rfl, honly⟩ := h.out.eq_of_mem hgiven
    exact ⟨.out hvalid.out, fun _ => honly⟩
  · obtain ⟨rfl, honly⟩ := eq_of_mem_flag h.append hgiven
    exact ⟨.append, fun _ => honly⟩

/-- Besides the values of the command there is only the verbosity. -/
theorem Command.PrintedBy.accepted {command : Command} {verbosity : Nat}
    {Accepts : Occurrence → Prop} (h : command.PrintedBy verbosity line)
    (hverbose : Accepts (.flag "verbose"))
    (hvalues : o.name ∈ command.names → Accepted Accepts line o) (ho : o ∈ line) :
    Accepted Accepts line o := by
  rcases List.mem_cons.mp (h.names o ho) with hname | hname
  · have hgiven : o ∈ given "verbose" line := mem_given.mpr ⟨ho, hname⟩
    rw [h.verbose] at hgiven
    obtain rfl := List.eq_of_mem_replicate hgiven
    exact ⟨hverbose, fun hnot => absurd (.head _) hnot⟩
  · exact hvalues hname

end Occurrences

/-! ## Lines that meet a grammar -/

section Lines

variable {β : Type} {grammar : Grammar (Nat × β)} {tell : List Occurrence → Nat × β}
  {line : List Occurrence}

/-- Everything on the line is told, what is required is on it, and nothing excludes or repeats
another thing. -/
structure Meets (grammar : Grammar (Nat × β)) (tell : List Occurrence → Nat × β)
    (line : List Occurrence) : Prop where
  legible : grammar.Legible
  tells : ∀ o ∈ line, grammar.Tells tell o
  once : ∀ o ∈ line, o.name ∉ repeatables → given o.name line = [o]
  exclusive : ∀ pair ∈ grammar.exclusive, given pair.1 line = [] ∨ given pair.2 line = []
  required : ∀ spec ∈ grammar.options ++ grammar.positional.toList, spec.required = true →
    given spec.name line ≠ []

theorem mem_names_iff {name : String} : name ∈ line.map (·.name) ↔ given name line ≠ [] := by
  simp [given, List.filter_eq_nil_iff]

/-- Occurrences that are alone with their names do not repeat each other. -/
theorem unrepeated_of_once (h : ∀ o ∈ line, o.name ∉ repeatables → given o.name line = [o]) :
    Grammar.Unrepeated line := by
  refine List.pairwise_iff_forall_sublist.mpr fun {o o'} hsublist hname => ?_
  by_contra hnot
  have honly := h o (hsublist.subset (.head _)) hnot
  have htwo : ([o, o'].filter (·.name = o.name)).Sublist (given o.name line) := hsublist.filter _
  simp [honly, ← hname] at htwo

namespace Meets

variable (h : Meets grammar tell line)

include h

theorem fits : ∀ o ∈ line, ∃ spec, o.Fits grammar spec :=
  fun o ho => (h.tells o ho).imp fun _ => And.left

theorem read {initial : β} (hinitial : tell [] = (0, initial)) {arguments : List String}
    (hwritten : Written line arguments) :
    readCommand grammar initial arguments = .ok (tell line) := by
  rw [readCommand_written h.legible hwritten h.fits, ← hinitial,
    Grammar.foldlM_give h.legible h.tells (unrepeated_of_once h.once)]
  refine Grammar.complete_eq_ok (fun pair hpair => ?_) fun spec hspec hrequired => ?_
  · simp only [List.mem_reverse, mem_names_iff]
    exact fun hfirst => not_not.mpr ((h.exclusive pair hpair).resolve_left hfirst)
  · simp only [List.mem_reverse, mem_names_iff]
    exact h.required spec hspec hrequired

/-- Nothing can be added beside what it repeats, or what it excludes. -/
theorem refuse {initial : β} {before after : List Occurrence} {o added : Occurrence}
    {arguments : List String} (hsplit : before ++ after = line) (ho : o ∈ line)
    (hadded : ∃ spec, added.Fits grammar spec)
    (hclash : added.name = o.name ∧ o.name ∉ repeatables ∨
      (o.name, added.name) ∈ grammar.exclusive ∨ (added.name, o.name) ∈ grammar.exclusive)
    (hwritten : Written (before ++ added :: after) arguments) :
    ∃ error, readCommand grammar initial arguments = .error (.usage error) := by
  have hmem {o' : Occurrence} : o' ∈ before ++ added :: after ↔ o' = added ∨ o' ∈ line := by
    rw [← hsplit, List.mem_append, List.mem_append, List.mem_cons, or_left_comm]
  have hfits : ∀ o' ∈ before ++ added :: after, ∃ spec, o'.Fits grammar spec := by
    intro o' ho'
    rcases hmem.mp ho' with rfl | hline
    · exact hadded
    · exact h.fits o' hline
  have haddedName := List.mem_map_of_mem (f := Occurrence.name) (hmem.mpr (.inl rfl))
  have hname := List.mem_map_of_mem (f := Occurrence.name) (hmem.mpr (.inr ho))
  rcases hclash with ⟨hsame, hnot⟩ | hexclusive | hexclusive
  · refine usage_of_repeated h.legible hwritten hfits fun hunrepeated => hnot ?_
    obtain ⟨-, hbehind, hbefore⟩ := List.pairwise_append.mp hunrepeated
    rcases List.mem_append.mp (hsplit ▸ ho) with ho | ho
    · exact hbefore o ho added (.head _) hsame.symm
    · exact hsame ▸ (List.pairwise_cons.mp hbehind).1 o ho hsame
  · exact usage_of_exclusive h.legible hwritten hfits hexclusive hname haddedName
  · exact usage_of_exclusive h.legible hwritten hfits hexclusive haddedName hname

end Meets

end Lines

section Commands

variable {verbosity : Nat} {line : List Occurrence}

theorem Command.PrintedBy.meets_run {options : RunOptions} (hvalid : options.Printable)
    (h : (run options).PrintedBy verbosity line) :
    Meets runGrammar (withVerbosity RunOptions.ofLine) line := by
  have haccepted : ∀ o ∈ line, Accepted RunOptions.Accepts line o :=
    fun _ ho => h.accepted .verbose (h.values.accepted hvalid ho) ho
  have hrequired : ∀ spec ∈ runGrammar.options ++ runGrammar.positional.toList,
      spec.required = false := by decide
  exact ⟨runGrammar_legible, fun o ho => (haccepted o ho).accepts.tells,
    fun o ho => (haccepted o ho).given_eq, nofun,
    fun spec hspec hneeded => absurd hneeded (by simp [hrequired spec hspec])⟩

theorem Command.PrintedBy.meets_classify {trap : TrapRecord}
    (h : (classify trap).PrintedBy verbosity line) :
    Meets classifyGrammar (withVerbosity trapOf) line := by
  have haccepted : ∀ o ∈ line, Accepted AcceptsTrap line o :=
    fun _ ho => h.accepted .verbose (h.values.accepted ho) ho
  have hrequired : ∀ spec ∈ classifyGrammar.options ++ classifyGrammar.positional.toList,
      spec.required = true → spec.name = "result" ∨ spec.name = "cause" := by decide
  refine ⟨classifyGrammar_legible, fun o ho => (haccepted o ho).accepts.tells,
    fun o ho => (haccepted o ho).given_eq, nofun, fun spec hspec hneeded => ?_⟩
  rcases hrequired spec hspec hneeded with hname | hname
  · rw [hname, h.values.result]
    exact List.cons_ne_nil _ _
  · rw [hname, h.values.cause]
    exact List.cons_ne_nil _ _

theorem Command.PrintedBy.meets_suite {options : SuiteOptions} (hvalid : options.Printable)
    (h : (suite options).PrintedBy verbosity line) :
    Meets suiteGrammar (withVerbosity SuiteOptions.ofLine) line := by
  have haccepted : ∀ o ∈ line, Accepted SuiteOptions.Accepts line o :=
    fun _ ho => h.accepted .verbose (h.values.accepted hvalid ho) ho
  have hrequired : ∀ spec ∈ suiteGrammar.options ++ suiteGrammar.positional.toList,
      spec.required = true → spec.name = "manifest" := by decide
  refine ⟨suiteGrammar_legible, fun o ho => (haccepted o ho).accepts.tells,
    fun o ho => (haccepted o ho).given_eq, ?_, fun spec hspec hneeded => ?_⟩
  · exact List.forall_mem_singleton.mpr h.values.group_or_single
  · rw [hrequired spec hspec hneeded, h.values.manifest]
    exact List.cons_ne_nil _ _

end Commands

/-! ## Reading and printing -/

/-- An occurrence that cannot be added beside another one: a second one of an option that may not be
repeated, with whatever value, and a single case beside a group. -/
inductive Clashes : Occurrence → Occurrence → Prop
  | again {o : Occurrence} (h : o.name ∉ repeatables) (value : String) :
    Clashes o (o.withValue value)
  | single (group single : String) : Clashes (.option "group" group) (.option "single" single)
  | group (single group : String) : Clashes (.option "single" single) (.option "group" group)

section Invocations

variable {β : Type} {grammar : Grammar (Nat × β)} {tell : List Occurrence → Nat × β}
  {line : List Occurrence} {initial : β} {word : String} {wrap : β → Command}

/-- The arguments behind the word are read by the grammar. -/
def Invocation.ReadsBy (word : String) (grammar : Grammar (Nat × β)) (initial : β)
    (wrap : β → Command) : Prop :=
  ∀ arguments, Invocation.read (word :: arguments) =
    (readCommand grammar initial arguments).map fun values => ⟨values.1, wrap values.2⟩

theorem Invocation.readsBy_of_readNamed
    (htop : ∀ arguments, topGrammar.read true (word :: arguments) { values := 0 } =
      .ok ({ values := 0 }, some (word, arguments)))
    (hnamed : ∀ arguments, readNamed word arguments =
      (readCommand grammar initial arguments).map (Prod.map id wrap)) :
    ReadsBy word grammar initial wrap := by
  intro arguments
  rw [Invocation.read, htop]
  simp only [bind, Except.bind, hnamed]
  cases readCommand grammar initial arguments with
  | error halt => rfl
  | ok values =>
    simp only [Except.map, Prod.map, id, pure, Except.pure]
    split
    · next hnone => rw [hnone]
    · rfl

theorem Invocation.readsBy_run : ReadsBy "run" runGrammar {} .run :=
  readsBy_of_readNamed (fun _ => rfl) fun arguments => by
    rw [readNamed]
    cases readCommand runGrammar {} arguments <;> rfl

theorem Invocation.readsBy_classify : ReadsBy "classify" classifyGrammar ⟨0, 0⟩ .classify :=
  readsBy_of_readNamed (fun _ => rfl) fun arguments => by
    rw [readNamed]
    cases readCommand classifyGrammar ⟨0, 0⟩ arguments <;> rfl

theorem Invocation.readsBy_suite : ReadsBy "suite" suiteGrammar { manifest := "" } .suite :=
  readsBy_of_readNamed (fun _ => rfl) fun arguments => by
    rw [readNamed]
    cases readCommand suiteGrammar { manifest := "" } arguments <;> rfl

/-- What holds of the arguments of a command holds of the whole command line. -/
theorem Meets.invocation {verbosity : Nat} {values : β} (h : Meets grammar tell line)
    (hinitial : tell [] = (0, initial)) (htold : tell line = (verbosity, values))
    (hreads : Invocation.ReadsBy word grammar initial wrap)
    (hgroup : ∀ o ∈ line, o.name = "group" ∨ o.name = "single" →
      ("group", "single") ∈ grammar.exclusive ∧ ∀ name ∈ ["group", "single"], ∀ value,
        ∃ spec, (Occurrence.option name value).Fits grammar spec) :
    (∀ arguments, Written line arguments →
      Invocation.read (word :: arguments) = .ok ⟨verbosity, wrap values⟩) ∧
    ∀ before after o added arguments, before ++ after = line → o ∈ line → Clashes o added →
      Written (before ++ added :: after) arguments →
        ∃ error, Invocation.read (word :: arguments) = .error (.usage error) := by
  refine ⟨fun arguments hwritten => ?_,
    fun before after o added arguments hsplit ho hclash hwritten => ?_⟩
  · rw [hreads, h.read hinitial hwritten, htold]
    rfl
  · suffices hrefused : ∃ error, readCommand grammar initial arguments = .error (.usage error) by
      obtain ⟨error, herror⟩ := hrefused
      exact ⟨error, by rw [hreads, herror]; rfl⟩
    cases hclash with
    | again hnot value =>
      refine h.refuse hsplit ho ?_ (.inl ⟨o.name_withValue value, hnot⟩) hwritten
      exact (h.fits o ho).imp fun _ hfits => hfits.withValue value
    | single group single =>
      obtain ⟨hexclusive, hfits⟩ := hgroup _ ho (.inl rfl)
      exact h.refuse hsplit ho (hfits _ (.tail _ (.head _)) _) (.inr (.inl hexclusive)) hwritten
    | group single group =>
      obtain ⟨hexclusive, hfits⟩ := hgroup _ ho (.inr rfl)
      exact h.refuse hsplit ho (hfits _ (.head _) _) (.inr (.inr hexclusive)) hwritten

end Invocations

/-- **Reading undoes printing**: a line that prints a command is read as the command, whatever the
order of its options and however they are spelled; with one more that clashes with one on the line,
it is refused. -/
theorem reading_undoes_printing {command : Command} {verbosity : Nat} {line : List Occurrence}
    (hvalid : command.Printable) (hprinted : command.PrintedBy verbosity line) :
    (∀ arguments, Written line arguments →
      Invocation.read (command.word :: arguments) = .ok ⟨verbosity, command⟩) ∧
    ∀ before after o added arguments, before ++ after = line → o ∈ line → Clashes o added →
      Written (before ++ added :: after) arguments →
        ∃ error, Invocation.read (command.word :: arguments) = .error (.usage error) := by
  have htold {α : Type} {tell : List Occurrence → α} {values : α} (hvalues : tell line = values) :
      withVerbosity tell line = (verbosity, values) := by
    rw [withVerbosity, hvalues, hprinted.verbose, List.length_replicate]
  cases command with
  | run options =>
    refine (hprinted.meets_run hvalid).invocation rfl (htold (hprinted.values.ofLine_eq hvalid))
      Invocation.readsBy_run fun o ho hname => ?_
    have hnames := hprinted.names o ho
    rcases hname with hname | hname <;> simp [Command.names, BenchOptions.names, hname] at hnames
  | classify trap =>
    refine hprinted.meets_classify.invocation rfl (htold hprinted.values.trapOf_eq)
      Invocation.readsBy_classify fun o ho hname => ?_
    have hnames := hprinted.names o ho
    rcases hname with hname | hname <;> simp [Command.names, hname] at hnames
  | suite options =>
    refine (hprinted.meets_suite hvalid).invocation rfl (htold (hprinted.values.ofLine_eq hvalid))
      Invocation.readsBy_suite fun o ho _ => ⟨.head _, fun name hname value => ?_⟩
    simp only [List.mem_cons, List.not_mem_nil, or_false] at hname
    rcases hname with rfl | rfl
    · exact ⟨_, .option rfl rfl⟩
    · exact ⟨_, .option rfl rfl⟩

theorem printed_run_is_read :
    let options : RunOptions := {
      bench := { config := some "a=b.json" }
      program := { resultCode := -5 }
      probe := true
      sections := ["summary", "reset", "summary"] }
    let line : List Occurrence := [.option "stats-sections" "summary,reset", .option "result" "-5",
      .flag "probe", .option "config" "a=b.json", .option "stats-sections" "summary",
      .flag "verbose", .option "latency" "1000"]
    (Command.run options).Printable ∧ (Command.run options).PrintedBy 1 line ∧
    Invocation.read ["run", "--stats-sections", "summary,reset", "--result", "-5", "--probe",
      "--config=a=b.json", "--stats-sections=summary", "-v", "--latency=1000"] =
        .ok ⟨1, .run options⟩ ∧
    ∃ error, Invocation.read ["run", "--stats-sections", "summary,reset", "--result", "-5",
      "--probe", "--config=a=b.json", "--stats-sections=summary", "-v", "--result", "7",
      "--latency=1000"] = .error (.usage error) := by
  intro options line
  have hvalid : (Command.run options).Printable := ⟨⟨by decide, nofun, nofun⟩, by decide, by decide⟩
  have hbench : options.bench.PrintedBy line :=
    ⟨by decide, by decide, by decide, by decide, by decide⟩
  have hsections : given "stats-sections" line =
      [["summary", "reset"], ["summary"]].map fun group =>
        .option "stats-sections" (",".intercalate group) := by decide
  have hvalues : options.PrintedBy line :=
    ⟨hbench, .inl (by decide), .inr (by decide), .inl (by decide), by decide, by decide,
      _, by decide, rfl, hsections⟩
  have hprinted : (Command.run options).PrintedBy 1 line := ⟨by decide, by decide, hvalues⟩
  have hbefore : Written (line.take 6) ["--stats-sections", "summary,reset", "--result", "-5",
      "--probe", "--config=a=b.json", "--stats-sections=summary", "-v"] :=
    .cons (.separate (.inl (by decide))) <| .cons (.separate (.inr ⟨by decide, 5, rfl⟩)) <|
    .cons (.flag _) <| .cons (.attached _ _) <| .cons (.attached _ _) <|
    .cons (.letterFlag (.head _)) .nil
  have hlatency : Written [.option "latency" "1000"] ["--latency=1000"] :=
    .cons (.attached _ _) .nil
  have hadded : Written [.option "result" "7", .option "latency" "1000"]
      ["--result", "7", "--latency=1000"] := .cons (.separate (.inl (by decide))) hlatency
  obtain ⟨hread, hrefused⟩ := reading_undoes_printing hvalid hprinted
  refine ⟨hvalid, hprinted, hread _ (hbefore.append hlatency), ?_⟩
  exact hrefused (line.take 6) [.option "latency" "1000"] (.option "result" "-5")
    (.option "result" "7") _ rfl (.tail _ (.head _)) (.again (by decide) "7")
    (hbefore.append hadded)

example : Invocation.read ["suite", "t.json", "-g", "am", "-s", "add"] =
    .error (.usage (.conflicting "group" "single")) := by
  decide

end CycleBench.CommandLine

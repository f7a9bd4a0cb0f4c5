import CycleBench.Document.Config
import CycleBench.Proofs.Json.Records
import CycleBench.Proofs.Json.Scalars

/-!
Configurations in documents. A configuration is read from exactly the texts that spell one
(`ofJson_accepts_grammar`): an object or a list with at most one well-typed value for each field,
the fields that are left out taking their defaults.
-/

namespace CycleBench

open Json

/-! ## What documents say -/

/-- The names of a polarity in documents. -/
def Polarity.names : Polarity → List String
  | activeHigh => ["ActiveHigh", "high", "active_high"]
  | activeLow => ["ActiveLow", "low", "active_low"]

/-- A polarity by one of its names, as a string or as the only key of an object. -/
def Polarity.Given (x : Value) (polarity : Polarity) : Prop :=
  ∃ pieces name, (x = .string pieces ∨ x = .object [(pieces, .null)]) ∧
    Decodes pieces name.toList ∧ name ∈ polarity.names

def Reset.Given (x : Value) (reset : Reset) : Prop :=
  ∃ window polarity, Assigns ["window", "polarity"] x [window, polarity] ∧
    Holds IsNatural64 (some 100) window reset.window ∧
    Holds Polarity.Given (some .activeHigh) polarity reset.polarity

def SignalNames.Given (x : Value) (signals : SignalNames) : Prop :=
  ∃ clock reset, Assigns ["clock", "reset"] x [clock, reset] ∧
    Holds IsString (some "clk") clock signals.clock ∧
    Holds IsString (some "arst") reset signals.reset

/-- A field of a configuration is what is given for it, or its default. -/
def Config.Given (x : Value) (config : Config) : Prop :=
  ∃ maxSimTime reset signals traceSteps,
    Assigns ["max_sim_time", "reset", "signals", "trace_steps"] x
      [maxSimTime, reset, signals, traceSteps] ∧
    Holds IsNatural64 (some 10000000) maxSimTime config.maxSimTime ∧
    Holds Reset.Given (some { window := 100, polarity := .activeHigh }) reset config.reset ∧
    Holds SignalNames.Given (some { clock := "clk", reset := "arst" }) signals config.signals ∧
    Holds IsBoolean (some false) traceSteps config.traceSteps

/-! ## Readers -/

namespace Polarity

theorem choice_iff {name : String} {polarity : Polarity} :
    choices.lookup name = some polarity ↔ name ∈ polarity.names := by
  constructor
  · intro h
    obtain ⟨before, behind, hchoices, -⟩ := List.lookup_eq_some_iff.mp h
    have hmem : (name, polarity) ∈ choices := hchoices ▸ by simp
    simp only [choices, List.mem_cons, Prod.mk.injEq, List.not_mem_nil, or_false] at hmem
    rcases hmem with ⟨rfl, rfl⟩ | ⟨rfl, rfl⟩ | ⟨rfl, rfl⟩ | ⟨rfl, rfl⟩ | ⟨rfl, rfl⟩ | ⟨rfl, rfl⟩ <;>
      decide
  · cases polarity <;> simp only [names, List.mem_cons, List.not_mem_nil, or_false] <;>
      rintro (rfl | rfl | rfl) <;> rfl

theorem names_iff_given {x : Value} {polarity : Polarity} :
    choices.Names x polarity ↔ Given x polarity := by
  simp only [Given, Choices.Names, choice_iff]

theorem given_unique {x : Value} {p p' : Polarity} (h : Given x p) (h' : Given x p') : p = p' :=
  Choices.names_unique (names_iff_given.mpr h) (names_iff_given.mpr h')

theorem denotes_document : Polarity.document.Denotes Given :=
  Choices.denotes_reader.congr fun _ _ => names_iff_given

end Polarity

namespace Reset

def slots : List (Slot Reset) := [
  { name := "window", reader := natural64, Means := IsNatural64, default := some 100,
    get := Reset.window, put := fun n reset => { reset with window := n } },
  { name := "polarity", reader := Polarity.document, Means := Polarity.Given,
    default := some .activeHigh, get := Reset.polarity,
    put := fun p reset => { reset with polarity := p } }]

theorem lawful_slots : Slot.Lawful slots {} where
  nodup := by decide
  denotes := by simp [slots, denotes_natural64, Polarity.denotes_document]
  unique := List.forall_mem_cons.mpr ⟨IsNatural64.unique,
    List.forall_mem_singleton.mpr Polarity.given_unique⟩
  get_put := by simp [slots]
  get_put_of_ne := by simp [slots]
  get_initial := by simp [slots]
  ext {a a'} h := by
    cases a
    cases a'
    simpa [slots] using h

theorem given_iff {x : Value} {reset : Reset} : Slot.Given slots x reset ↔ Given x reset := by
  simp [Slot.Given, slots, Given, List.forall₂_cons_left_iff]

theorem denotes_document : Reset.document.Denotes Given :=
  (Slot.denotes_record lawful_slots "ResetConfig").congr fun _ _ => given_iff

theorem given_unique {x : Value} {reset reset' : Reset} (h : Given x reset)
    (h' : Given x reset') : reset = reset' :=
  lawful_slots.given_unique (given_iff.mpr h) (given_iff.mpr h')

end Reset

namespace SignalNames

def slots : List (Slot SignalNames) := [
  { name := "clock", reader := string, Means := IsString, default := some "clk",
    get := SignalNames.clock, put := fun name signals => { signals with clock := name } },
  { name := "reset", reader := string, Means := IsString, default := some "arst",
    get := SignalNames.reset, put := fun name signals => { signals with reset := name } }]

theorem lawful_slots : Slot.Lawful slots {} where
  nodup := by decide
  denotes := by simp [slots, denotes_string]
  unique := List.forall_mem_cons.mpr ⟨IsString.unique,
    List.forall_mem_singleton.mpr IsString.unique⟩
  get_put := by simp [slots]
  get_put_of_ne := by simp [slots]
  get_initial := by simp [slots]
  ext {a a'} h := by
    cases a
    cases a'
    simpa [slots] using h

theorem given_iff {x : Value} {signals : SignalNames} :
    Slot.Given slots x signals ↔ Given x signals := by
  simp [Slot.Given, slots, Given, List.forall₂_cons_left_iff]

theorem denotes_document : SignalNames.document.Denotes Given :=
  (Slot.denotes_record lawful_slots "SignalNames").congr fun _ _ => given_iff

theorem given_unique {x : Value} {signals signals' : SignalNames} (h : Given x signals)
    (h' : Given x signals') : signals = signals' :=
  lawful_slots.given_unique (given_iff.mpr h) (given_iff.mpr h')

end SignalNames

namespace Config

def slots : List (Slot Config) := [
  { name := "max_sim_time", reader := natural64, Means := IsNatural64, default := some 10000000,
    get := Config.maxSimTime, put := fun n config => { config with maxSimTime := n } },
  { name := "reset", reader := Reset.document, Means := Reset.Given, default := some {},
    get := Config.reset, put := fun reset config => { config with reset } },
  { name := "signals", reader := SignalNames.document, Means := SignalNames.Given,
    default := some {}, get := Config.signals,
    put := fun signals config => { config with signals } },
  { name := "trace_steps", reader := boolean, Means := IsBoolean, default := some false,
    get := Config.traceSteps, put := fun b config => { config with traceSteps := b } }]

theorem lawful_slots : Slot.Lawful slots {} where
  nodup := by decide
  denotes := by
    simp [slots, denotes_natural64, Reset.denotes_document, SignalNames.denotes_document,
      denotes_boolean]
  unique := List.forall_mem_cons.mpr ⟨IsNatural64.unique, List.forall_mem_cons.mpr
    ⟨Reset.given_unique, List.forall_mem_cons.mpr ⟨SignalNames.given_unique,
      List.forall_mem_singleton.mpr IsBoolean.unique⟩⟩⟩
  get_put := by simp [slots]
  get_put_of_ne := by simp [slots]
  get_initial := by simp [slots]
  ext {a a'} h := by
    cases a
    cases a'
    simpa [slots] using h

theorem given_iff {x : Value} {config : Config} : Slot.Given slots x config ↔ Given x config := by
  simp [Slot.Given, slots, Given, List.forall₂_cons_left_iff]

theorem denotes_document : Config.document.Denotes Given :=
  (Slot.denotes_record lawful_slots "TestbenchConfig").congr fun _ _ => given_iff

theorem given_unique {x : Value} {config config' : Config} (h : Given x config)
    (h' : Given x config') : config = config' :=
  lawful_slots.given_unique (given_iff.mpr h) (given_iff.mpr h')

end Config

/-! ## Whole documents -/

namespace Config

theorem ofJson_eq_ok_iff {text : String} {config : Config} :
    Config.ofJson text = .ok config ↔ ∃ x, IsDocument text.toList x ∧ Given x config := by
  rw [← parse_eq_ok_iff denotes_document, ofJson]
  cases parse document text <;> simp [Except.mapError]

/-- **A configuration is read from the texts that spell one, and from no others.** Any other text
is refused as no such document, and a text that gives no field is the standard configuration. -/
theorem ofJson_accepts_grammar (text : String) :
    (∀ config, Config.ofJson text = .ok config ↔
      ∃ x, IsDocument text.toList x ∧ Given x config) ∧
    ((∀ x config, IsDocument text.toList x → ¬ Given x config) →
      ∃ error, Config.ofJson text = .error (.parse error)) ∧
    ∀ x, IsDocument text.toList x →
      Assigns ["max_sim_time", "reset", "signals", "trace_steps"] x [none, none, none, none] →
      Config.ofJson text = .ok {} := by
  refine ⟨fun config => ofJson_eq_ok_iff, fun hnone => ?_, fun x hx hassigns => ?_⟩
  · cases h : parse document text with
    | ok config =>
      obtain ⟨x, hx, hconfig⟩ := (parse_eq_ok_iff denotes_document).mp h
      exact absurd hconfig (hnone x config hx)
    | error error => exact ⟨error, by rw [ofJson, h, Except.mapError]⟩
  · exact ofJson_eq_ok_iff.mpr ⟨x, hx, none, none, none, none, hassigns, rfl, rfl, rfl, rfl⟩

-- A number that no machine holds is passed over; a list gives the first field only.
example : Config.ofJson " \x7b\"later\": [\x7b\"a\": 1e400\x7d], \"reset\": [5]\x7d\n" =
    .ok { reset := { window := 5 } } := by
  decide +kernel

end Config

end CycleBench

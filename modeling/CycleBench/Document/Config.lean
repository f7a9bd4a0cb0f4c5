import CycleBench.Config
import CycleBench.Json.Choice
import CycleBench.Json.Sequence

/-!
Configurations in documents: records whose fields may all be left out.
-/

namespace CycleBench

def Polarity.choices : Json.Choices Polarity :=
  [("ActiveHigh", .activeHigh), ("active_high", .activeHigh), ("high", .activeHigh),
    ("ActiveLow", .activeLow), ("active_low", .activeLow), ("low", .activeLow)]

def Polarity.document : Json.Reader Polarity :=
  Polarity.choices.reader

def Reset.document : Json.Reader Reset :=
  Json.Record.reader {
    name := "ResetConfig"
    initial := {}
    fields := [
      .optional "window" Json.natural64 fun n reset => { reset with window := n },
      .optional "polarity" Polarity.document fun p reset => { reset with polarity := p }] }

def SignalNames.document : Json.Reader SignalNames :=
  Json.Record.reader {
    name := "SignalNames"
    initial := {}
    fields := [
      .optional "clock" Json.string fun name signals => { signals with clock := name },
      .optional "reset" Json.string fun name signals => { signals with reset := name }] }

namespace Config

def document : Json.Reader Config :=
  Json.Record.reader {
    name := "TestbenchConfig"
    initial := {}
    fields := [
      .optional "max_sim_time" Json.natural64 fun n config => { config with maxSimTime := n },
      .optional "reset" Reset.document fun reset config => { config with reset },
      .optional "signals" SignalNames.document fun signals config => { config with signals },
      .optional "trace_steps" Json.boolean fun b config => { config with traceSteps := b }] }

/-- The configuration in a document; its bounds are not checked. -/
def ofJson (text : String) : Except Failure Config :=
  (Json.parse document text).mapError .parse

end Config

end CycleBench

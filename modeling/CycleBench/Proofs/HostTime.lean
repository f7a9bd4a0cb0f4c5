import CycleBench.Proofs.RunCommand
import CycleBench.Text.Split

/-!
The time on the host in what a run prints. Two lines of the statistics depend on it, and nothing
else does: with those lines masked the output is the same however long the run took
(`RunOptions.maskedLines_reply`).
-/

namespace CycleBench

/-! ## Masking -/

/-- A line without what depends on the time on the host. -/
def maskedLine (line : List Char) : List Char :=
  if "host_seconds ".toList.isPrefixOf line then "host_seconds             # s".toList
  else if "sim_freq ".toList.isPrefixOf line then "sim_freq                 # kHz".toList
  else line

/-- The lines of an output, masked. -/
def maskedLines (output : String) : List (List Char) :=
  (Text.splitChars '\n' output.toList).map maskedLine

theorem maskedLines_append (before after : String) :
    maskedLines (before ++ "\n" ++ after) = maskedLines before ++ maskedLines after := by
  have h : (before ++ "\n" ++ after).toList = before.toList ++ '\n' :: after.toList := by
    simp [String.toList_append]
  rw [maskedLines, h, Text.splitChars_append, List.map_append]
  rfl

/-- A single line. -/
theorem maskedLines_of_notMem {line : String} (h : '\n' ∉ line.toList) :
    maskedLines line = [maskedLine line.toList] := by
  rw [maskedLines, Text.splitChars_of_notMem h]
  rfl

theorem newline_notMem_natural (n : Nat) : '\n' ∉ (toString n).toList := by
  intro h
  have hdigit := Nat.isDigit_of_mem_toDigits (by decide) (by decide)
    (by simpa [Nat.repr] using h : '\n' ∈ Nat.toDigits 10 n)
  exact absurd hdigit (by decide)

theorem newline_notMem_textFixed (x : Binary64) (places : Nat) :
    '\n' ∉ (x.textFixed places).toList := by
  simp only [Binary64.textFixed, String.toList_append, List.mem_append, String.toList_ofList,
    List.mem_replicate]
  rintro (((h | h) | h) | h)
  · exact newline_notMem_natural _ h
  · exact absurd h (by decide)
  · exact absurd h.2 (by decide)
  · exact newline_notMem_natural _ h

namespace Stats

theorem newline_notMem_fixedText (places : Nat) (value : Option Binary64) :
    '\n' ∉ (fixedText places value).toList := by
  cases value with
  | none => exact (by decide : '\n' ∉ "inf".toList)
  | some x => exact newline_notMem_textFixed x places

theorem newline_notMem_hostSeconds (host : Option Nat) : '\n' ∉ (hostSeconds host).toList := by
  cases host with
  | none => exact (by decide : '\n' ∉ "#".toList)
  | some nanoseconds => exact newline_notMem_fixedText 4 _

theorem newline_notMem_hostFrequency (stats : Stats) (host : Option Nat) :
    '\n' ∉ (stats.hostFrequency host).toList := by
  cases host with
  | none => exact (by decide : '\n' ∉ "#".toList)
  | some nanoseconds =>
    simp only [hostFrequency]
    split
    · exact (by decide : '\n' ∉ "0.00".toList)
    · exact newline_notMem_fixedText 2 _

theorem maskedLines_seconds (host : Option Nat) :
    maskedLines ("host_seconds             " ++ hostSeconds host ++ " s") =
      ["host_seconds             # s".toList] := by
  have h : '\n' ∉ ("host_seconds             " ++ hostSeconds host ++ " s").toList := by
    simp [String.toList_append, newline_notMem_hostSeconds]
  rw [maskedLines_of_notMem h]
  simp [maskedLine, String.toList_append]

theorem maskedLines_frequency (stats : Stats) (host : Option Nat) :
    maskedLines ("sim_freq                 " ++ stats.hostFrequency host ++ " kHz") =
      ["sim_freq                 # kHz".toList] := by
  have h : '\n' ∉ ("sim_freq                 " ++ stats.hostFrequency host ++ " kHz").toList := by
    simp [String.toList_append, newline_notMem_hostFrequency]
  rw [maskedLines_of_notMem h]
  simp [maskedLine, String.toList_append]

/-- The two lines of the summary that depend on the host, and what is around them. -/
theorem summaryPart_append (stats : Stats) (host : Option Nat) (rest : String) :
    stats.summaryPart host ++ rest =
      "\n" ++ doubleRule ++ "TESTBENCH RUN STATISTICS\n" ++
        String.ofList (List.replicate 58 '=') ++ "\n" ++
      (("host_seconds             " ++ hostSeconds host ++ " s") ++ "\n" ++
      (("sim_time                 " ++ toString stats.simTime ++ "\n" ++
        "sim_cycles               " ++ toString stats.posedges) ++ "\n" ++
      (("sim_freq                 " ++ stats.hostFrequency host ++ " kHz") ++ "\n" ++
      (singleRule ++ rest)))) := by
  -- each of these texts holds the end of a line
  have hrule (rest : String) :
      doubleRule ++ rest = String.ofList (List.replicate 58 '=') ++ ("\n" ++ rest) := by
    rw [← String.append_assoc]
    rfl
  have hseconds (rest : String) : " s\n" ++ rest = " s" ++ ("\n" ++ rest) := by
    rw [← String.append_assoc]
    rfl
  have hfrequency (rest : String) : " kHz\n" ++ rest = " kHz" ++ ("\n" ++ rest) := by
    rw [← String.append_assoc]
    rfl
  unfold summaryPart
  simp only [String.append_assoc, hrule, hseconds, hfrequency]

theorem maskedLines_summaryPart (stats : Stats) (host : Option Nat) (rest : String) :
    maskedLines (stats.summaryPart host ++ rest) =
      maskedLines (stats.summaryPart none ++ rest) := by
  simp only [summaryPart_append, maskedLines_append, maskedLines_seconds, maskedLines_frequency]

theorem maskedLines_table (stats : Stats) (host : Option Nat) (names : List String) :
    maskedLines (stats.table host names) = maskedLines (stats.table none names) := by
  simp only [table, String.append_assoc]
  split
  · exact maskedLines_summaryPart ..
  · rfl

end Stats

namespace CommandLine.RunOptions

/-- **Masked outputs tell no time.** What is said of a run is the same however long it took, but
for the lines that are masked. -/
theorem maskedLines_reply (options : RunOptions) (outcome : Outcome) (elapsed : Option Nat) :
    maskedLines (options.reply outcome elapsed).output =
      maskedLines (options.reply outcome none).output := by
  simp only [reply, maskedLines_append, details]
  split
  · simp only [maskedLines_append, Stats.maskedLines_table]
  · rfl

end CommandLine.RunOptions

end CycleBench

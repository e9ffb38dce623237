import EdfPipeline.Gui.Client
import EdfPipeline.Library.NumberArray

/-!
# Documents of numbers

A document format in which every report is read back as it was: the figures of
the classes one after the other, as one array of numbers.
-/

set_option autoImplicit false

namespace EdfPipeline.Gui

open MetricsServer NumberArray

def optionNumber : Option Nat → Nat
  | none => 0
  | some value => value + 1

def numberOption : Nat → Option Nat
  | 0 => none
  | value + 1 => some value

@[simp] theorem numberOption_optionNumber (value : Option Nat) :
    numberOption (optionNumber value) = value := by
  cases value <;> rfl

/-- The average is written as a fraction, its sign by the place of the numerator. -/
def snapshotNumbers (snapshot : FlowSnapshot) : List Nat :=
  let statistics := snapshot.statistics
  [statistics.packetCount, statistics.avgLatency.num.toNat, (-statistics.avgLatency.num).toNat,
    statistics.avgLatency.den, optionNumber statistics.minLatency,
    optionNumber statistics.maxLatency, optionNumber statistics.p50, optionNumber statistics.p95,
    optionNumber statistics.p99, optionNumber statistics.p999, optionNumber statistics.p100,
    optionNumber statistics.stdDev, statistics.deadlineMisses, snapshot.expectedMaxLatency,
    snapshot.ingressDrops, snapshot.edfHeapDrops, snapshot.edfOutputDrops, snapshot.totalDrops]

/-- The figures of a class, if it has any. -/
def classNumbers : Option FlowSnapshot → List Nat
  | none => [0]
  | some snapshot => 1 :: snapshotNumbers snapshot

def readClass : List Nat → Option (Option FlowSnapshot × List Nat)
  | 0 :: rest => some (none, rest)
  | 1 :: packetCount :: positive :: negative :: den :: minLatency :: maxLatency :: p50 :: p95 ::
      p99 :: p999 :: p100 :: stdDev :: deadlineMisses :: expectedMaxLatency :: ingressDrops ::
      edfHeapDrops :: edfOutputDrops :: totalDrops :: rest =>
      let statistics : MetricsSnapshot :=
        { packetCount
          avgLatency := ((positive - negative : Int) : ℚ) / den
          minLatency := numberOption minLatency
          maxLatency := numberOption maxLatency
          p50 := numberOption p50
          p95 := numberOption p95
          p99 := numberOption p99
          p999 := numberOption p999
          p100 := numberOption p100
          stdDev := numberOption stdDev
          deadlineMisses }
      some (some ⟨statistics, expectedMaxLatency, ingressDrops, edfHeapDrops, edfOutputDrops,
        totalDrops⟩, rest)
  | _ => none

theorem fraction_eq (value : ℚ) :
    (((value.num.toNat : Int) - ((-value.num).toNat : Int) : Int) : ℚ) / value.den = value := by
  have signed : (value.num.toNat : Int) - ((-value.num).toNat : Int) = value.num := by omega
  rw [signed]
  exact Rat.num_div_den value

theorem readClass_classNumbers (entry : Option FlowSnapshot) (rest : List Nat) :
    readClass (classNumbers entry ++ rest) = some (entry, rest) := by
  cases entry with
  | none => rfl
  | some snapshot =>
      obtain ⟨statistics, expected, ingress, heap, output, total⟩ := snapshot
      simp only [classNumbers, snapshotNumbers, List.cons_append, List.nil_append, readClass,
        numberOption_optionNumber, fraction_eq]

def reportNumbers (report : Report) : List Nat :=
  classNumbers (report .high) ++ (classNumbers (report .medium) ++
    (classNumbers (report .low) ++ (classNumbers (report .bestEffort) ++ [])))

def readReport (numbers : List Nat) : Option Report :=
  (readClass numbers).bind fun (high, numbers) =>
    (readClass numbers).bind fun (medium, numbers) =>
      (readClass numbers).bind fun (low, numbers) =>
        (readClass numbers).map fun (bestEffort, _) => fun
          | .high => high
          | .medium => medium
          | .low => low
          | .bestEffort => bestEffort

theorem readReport_reportNumbers (report : Report) : readReport (reportNumbers report) = some report := by
  simp only [readReport, reportNumbers, readClass_classNumbers, Option.bind_some, Option.map_some]
  refine congrArg some (funext fun priority => ?_)
  cases priority <;> rfl

theorem reportNumbers_ne_nil (report : Report) : reportNumbers report ≠ [] := by
  unfold reportNumbers
  cases report .high <;> simp [classNumbers]

/-- The order of the classes is fixed. -/
def documents : Platform Report where
  toString _ report := some (write (reportNumbers report))
  fromStr line := (read line).bind readReport
  capacity := 128
  holds := by decide

theorem documents_lawful : documents.Lawful id where
  oneLine := by
    intro order report json made
    cases made
    exact newline_notMem _
  line := by
    intro order report json made
    cases made
    change (read (write (reportNumbers report) ++ [NumberArray.newline])).bind readReport = some report
    rw [read_line (reportNumbers_ne_nil report), Option.bind_some, readReport_reportNumbers]
  unended := by
    intro order report json made
    cases made
    change (read (write (reportNumbers report))).bind readReport = some report
    rw [read_write (reportNumbers_ne_nil report), Option.bind_some, readReport_reportNumbers]
  cut := by
    intro order report json part made within cut
    cases made
    change (read part).bind readReport = none
    rw [read_cut within cut, Option.bind_none]

end EdfPipeline.Gui

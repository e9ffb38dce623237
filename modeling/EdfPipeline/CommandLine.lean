import Mathlib.Data.List.Basic

/-!
# The command line

Options come in one argument, as in `--scheduler=multi`, or in two. The two
spellings have a table of schedulers each, and that of the second one lacks the
multi-channel scheduler.
-/

set_option autoImplicit false

namespace EdfPipeline

inductive SchedulerKind where
  | single
  | multiWorker
  | global
  | globalVD
  | clairvoyant
  | mcEdfElastic
  | singleCpuEdf
  deriving DecidableEq, Repr

namespace CommandLine

structure CliOptions where
  scheduler : SchedulerKind
  metricsBind : String
  deriving DecidableEq, Repr

def CliOptions.default : CliOptions where
  scheduler := .single
  metricsBind := "127.0.0.1:9999"

def normalizeMetricsBind (value : String) : String :=
  if ':' ∈ value.toList then value else value ++ ":9999"

/-- The table for an option in one argument. A value it lacks leaves the scheduler as it is. -/
def joinedScheduler (value : String) : Option SchedulerKind :=
  match value.toLower with
  | "multi" | "multi-worker" | "multi_worker" => some .multiWorker
  | "gedf" | "g-edf" | "global" => some .global
  | "gedf-vd" | "g-edf-vd" | "global-vd" => some .globalVD
  | "cedf" | "clairvoyant" => some .clairvoyant
  | "mcedf" | "mc-edf" | "mc-edf-elastic" => some .mcEdfElastic
  | "single-cpu-edf" | "single_cpu_edf" => some .singleCpuEdf
  | "single" | "legacy" => some .single
  | _ => none

/-- The table for an option in two arguments. -/
def splitScheduler (value : String) : Option SchedulerKind :=
  match value.toLower with
  | "multi" | "multi-worker" | "multi_worker" => some .multiWorker
  | "gedf" | "g-edf" | "global" => some .global
  | "gedf-vd" | "g-edf-vd" | "global-vd" => some .globalVD
  | "cedf" | "clairvoyant" => some .clairvoyant
  | "single-cpu-edf" | "single_cpu_edf" => some .singleCpuEdf
  | "single" | "legacy" => some .single
  | _ => none

def CliOptions.setScheduler (options : CliOptions) (chosen : Option SchedulerKind) : CliOptions :=
  { options with scheduler := chosen.getD options.scheduler }

def CliOptions.setMetricsBind (options : CliOptions) (value : String) : CliOptions :=
  { options with metricsBind := normalizeMetricsBind value }

/-- `str::split_once` at the first equals sign. -/
def splitOnce (arg : String) : Option (String × String) :=
  if '=' ∈ arg.toList then
    some (String.ofList (arg.toList.takeWhile (· ≠ '=')),
      String.ofList (arg.toList.dropWhile (· ≠ '=')).tail)
  else none

def parseArgs (options : CliOptions) : List String → CliOptions
  | [] => options
  | arg :: args =>
      match splitOnce arg with
      | some (key, value) =>
          match key with
          | "--scheduler" => parseArgs (options.setScheduler (joinedScheduler value)) args
          | "--metrics-bind" | "--metrics-host" => parseArgs (options.setMetricsBind value) args
          | _ => parseArgs options args
      | none =>
          if arg = "--scheduler" then
            match args with
            | value :: args => parseArgs (options.setScheduler (splitScheduler value)) args
            | [] => options
          else if arg = "--metrics-bind" ∨ arg = "--metrics-host" then
            match args with
            | value :: args => parseArgs (options.setMetricsBind value) args
            | [] => options
          else parseArgs options args

/-- The first argument is the name of the program. -/
def parseCliOptions (args : List String) : CliOptions := parseArgs .default (args.drop 1)

/-! ## The options read -/

inductive CliOption where
  | joined (key value : String)
  | split (key value : String)
  deriving DecidableEq, Repr

def optionKeys : List String := ["--scheduler", "--metrics-bind", "--metrics-host"]

def readOptions : List String → List CliOption
  | [] => []
  | arg :: args =>
      match splitOnce arg with
      | some (key, value) => .joined key value :: readOptions args
      | none =>
          if arg ∈ optionKeys then
            match args with
            | value :: args => .split arg value :: readOptions args
            | [] => []
          else readOptions args

def CliOption.scheduler : CliOption → Option SchedulerKind
  | .joined key value => if key = "--scheduler" then joinedScheduler value else none
  | .split key value => if key = "--scheduler" then splitScheduler value else none

def CliOption.key : CliOption → String
  | .joined key _ | .split key _ => key

def CliOption.value : CliOption → String
  | .joined _ value | .split _ value => value

def CliOptions.apply (options : CliOptions) (option : CliOption) : CliOptions where
  scheduler := option.scheduler.getD options.scheduler
  metricsBind :=
    if option.key = "--metrics-bind" ∨ option.key = "--metrics-host" then
      normalizeMetricsBind option.value
    else options.metricsBind

section Reading

variable {arg : String} {args : List String}

theorem readOptions_joined {key value : String} (found : splitOnce arg = some (key, value)) :
    readOptions (arg :: args) = .joined key value :: readOptions args := by
  conv_lhs => unfold readOptions
  rw [found]

theorem readOptions_split {value : String} (whole : splitOnce arg = none) (key : arg ∈ optionKeys) :
    readOptions (arg :: value :: args) = .split arg value :: readOptions args := by
  rw [readOptions, whole]
  exact if_pos key

theorem readOptions_cut (whole : splitOnce arg = none) (key : arg ∈ optionKeys) :
    readOptions [arg] = [] := by
  unfold readOptions
  rw [whole]
  exact if_pos key

theorem readOptions_ignored (whole : splitOnce arg = none) (other : arg ∉ optionKeys) :
    readOptions (arg :: args) = readOptions args := by
  conv_lhs => unfold readOptions
  rw [whole]
  exact if_neg other

end Reading

theorem apply_joined_scheduler (options : CliOptions) (value : String) :
    options.apply (.joined "--scheduler" value) = options.setScheduler (joinedScheduler value) := by
  simp [CliOptions.apply, CliOption.scheduler, CliOption.key, CliOptions.setScheduler]

theorem apply_split_scheduler (options : CliOptions) (value : String) :
    options.apply (.split "--scheduler" value) = options.setScheduler (splitScheduler value) := by
  simp [CliOptions.apply, CliOption.scheduler, CliOption.key, CliOptions.setScheduler]

theorem apply_metrics {key : String} (metrics : key = "--metrics-bind" ∨ key = "--metrics-host")
    (options : CliOptions) (value : String) :
    options.apply (.joined key value) = options.setMetricsBind value ∧
      options.apply (.split key value) = options.setMetricsBind value := by
  rcases metrics with rfl | rfl <;>
    simp [CliOptions.apply, CliOption.scheduler, CliOption.key, CliOption.value,
      CliOptions.setMetricsBind]

theorem apply_unknown {key : String} (other : key ∉ optionKeys) (options : CliOptions)
    (value : String) : options.apply (.joined key value) = options := by
  simp only [optionKeys, List.mem_cons, List.not_mem_nil, or_false, not_or] at other
  simp [CliOptions.apply, CliOption.scheduler, CliOption.key, other]

/-- The loop applies the options it reads, one after the other. -/
theorem parseArgs_eq_foldl (options : CliOptions) (args : List String) :
    parseArgs options args = (readOptions args).foldl CliOptions.apply options := by
  fun_induction parseArgs options args with
  | case1 options => rfl
  | case2 options arg args value found ih =>
      rw [ih, readOptions_joined found, List.foldl_cons, apply_joined_scheduler]
  | case3 options arg args value found ih =>
      rw [ih, readOptions_joined found, List.foldl_cons, (apply_metrics (.inl rfl) options _).1]
  | case4 options arg args value found ih =>
      rw [ih, readOptions_joined found, List.foldl_cons, (apply_metrics (.inr rfl) options _).1]
  | case5 options arg args key value found scheduler bind host ih =>
      have other : key ∉ optionKeys := by
        simp only [optionKeys, List.mem_cons, List.not_mem_nil, or_false, not_or]
        exact ⟨scheduler, bind, host⟩
      rw [ih, readOptions_joined found, List.foldl_cons, apply_unknown other]
  | case6 options value args whole ih =>
      rw [ih, readOptions_split whole (by decide), List.foldl_cons, apply_split_scheduler]
  | case7 options whole => rw [readOptions_cut whole (by decide), List.foldl_nil]
  | case8 options arg whole notScheduler metrics value args ih =>
      have key : arg ∈ optionKeys := by
        rcases metrics with rfl | rfl <;> decide
      rw [ih, readOptions_split whole key, List.foldl_cons, (apply_metrics metrics options _).2]
  | case9 options arg whole notScheduler metrics =>
      have key : arg ∈ optionKeys := by
        rcases metrics with rfl | rfl <;> decide
      rw [readOptions_cut whole key, List.foldl_nil]
  | case10 options arg args whole notScheduler notMetrics ih =>
      have other : arg ∉ optionKeys := by
        simp only [optionKeys, List.mem_cons, List.not_mem_nil, or_false, not_or]
        exact ⟨notScheduler, not_or.mp notMetrics⟩
      rw [ih, readOptions_ignored whole other]

/-! ## The two spellings -/

/-- Having read these arguments, the loop reads an option and not the value of one. -/
inductive AtOption : List String → Prop where
  | start : AtOption []
  | joined {arg key value : String} {args : List String}
      (found : splitOnce arg = some (key, value)) (rest : AtOption args) : AtOption (arg :: args)
  | split {key value : String} {args : List String} (known : key ∈ optionKeys)
      (rest : AtOption args) : AtOption (key :: value :: args)
  | ignored {arg : String} {args : List String} (whole : splitOnce arg = none)
      (other : arg ∉ optionKeys) (rest : AtOption args) : AtOption (arg :: args)

theorem splitOnce_joined {key : String} (plain : '=' ∉ key.toList) (value : String) :
    splitOnce (key ++ "=" ++ value) = some (key, value) := by
  have chars : (key ++ "=" ++ value).toList = key.toList ++ '=' :: value.toList := by simp
  have before : ∀ char ∈ key.toList, (decide (char ≠ '=')) = true := by
    intro char member
    exact decide_eq_true fun same => plain (same ▸ member)
  rw [splitOnce, chars, if_pos (by simp), List.takeWhile_append_of_pos before,
    List.dropWhile_append_of_pos before]
  simp

theorem keys_plain {key : String} (known : key ∈ optionKeys) : '=' ∉ key.toList := by
  have table : ∀ key ∈ optionKeys, '=' ∉ key.toList := by decide
  exact table key known

theorem splitOnce_key {key : String} (known : key ∈ optionKeys) : splitOnce key = none :=
  if_neg (keys_plain known)

theorem AtOption.readOptions_append {before : List String} (position : AtOption before)
    (after : List String) : readOptions (before ++ after) = readOptions before ++ readOptions after := by
  induction position with
  | start => rfl
  | joined found rest ih =>
      rw [List.cons_append, readOptions_joined found, readOptions_joined found, ih, List.cons_append]
  | split known rest ih =>
      rw [List.cons_append, List.cons_append, readOptions_split (splitOnce_key known) known,
        readOptions_split (splitOnce_key known) known, ih, List.cons_append]
  | ignored whole other rest ih =>
      rw [List.cons_append, readOptions_ignored whole other, readOptions_ignored whole other, ih]

/-- The schedulers these arguments set, in their order. -/
def schedulersSet (args : List String) : List SchedulerKind :=
  (readOptions args).filterMap CliOption.scheduler

theorem foldl_scheduler (options : CliOptions) (read : List CliOption) :
    (read.foldl CliOptions.apply options).scheduler =
      (read.filterMap CliOption.scheduler).getLast?.getD options.scheduler := by
  induction read generalizing options with
  | nil => rfl
  | cons option rest ih =>
      rw [List.foldl_cons, ih]
      cases set : option.scheduler with
      | none => rw [List.filterMap_cons_none set, CliOptions.apply, set, Option.getD_none]
      | some scheduler =>
          rw [List.filterMap_cons_some set, List.getLast?_cons, CliOptions.apply, set]
          rfl

theorem foldl_metricsBind {options other : CliOptions} (same : options.metricsBind = other.metricsBind)
    (read : List CliOption) :
    (read.foldl CliOptions.apply options).metricsBind =
      (read.foldl CliOptions.apply other).metricsBind := by
  induction read generalizing options other with
  | nil => exact same
  | cons option rest ih =>
      refine ih ?_
      simp only [CliOptions.apply, same]

/-- The names of the multi-channel scheduler. -/
def multiChannelNames : List String := ["mcedf", "mc-edf", "mc-edf-elastic"]

theorem tables_multiChannel {value : String} (named : value.toLower ∈ multiChannelNames) :
    joinedScheduler value = some .mcEdfElastic ∧ splitScheduler value = none := by
  simp only [multiChannelNames, List.mem_cons, List.not_mem_nil, or_false] at named
  rcases named with same | same | same <;> simp [joinedScheduler, splitScheduler, same]

theorem tables_agree {value : String} (other : value.toLower ∉ multiChannelNames) :
    splitScheduler value = joinedScheduler value := by
  simp only [multiChannelNames, List.mem_cons, List.not_mem_nil, or_false, not_or] at other
  unfold joinedScheduler splitScheduler
  split <;> simp_all

/-- The spellings have the same effect unless they name the multi-channel scheduler,
no later option sets a scheduler and the last one set before is another one. -/
def SameEffect (before after : List String) (key value : String) : Prop :=
  key = "--scheduler" → value.toLower ∈ multiChannelNames →
    schedulersSet after ≠ [] ∨ (schedulersSet before).getLast? = some .mcEdfElastic

instance (before after : List String) (key value : String) :
    Decidable (SameEffect before after key value) :=
  inferInstanceAs (Decidable (_ → _ → _ ∨ _))

/-- Both spellings at the same place in what is read. -/
theorem parse_spellings {before : List String} (position : AtOption before) {key : String}
    (known : key ∈ optionKeys) (program value : String) (after : List String) :
    parseCliOptions (program :: before ++ (key ++ "=" ++ value) :: after) =
        (readOptions after).foldl CliOptions.apply
          ((parseArgs .default before).apply (.joined key value)) ∧
      parseCliOptions (program :: before ++ key :: value :: after) =
        (readOptions after).foldl CliOptions.apply
          ((parseArgs .default before).apply (.split key value)) := by
  constructor
  · change parseArgs .default (before ++ _) = _
    rw [parseArgs_eq_foldl, position.readOptions_append,
      readOptions_joined (splitOnce_joined (keys_plain known) value), List.foldl_append,
      List.foldl_cons, parseArgs_eq_foldl .default before]
  · change parseArgs .default (before ++ _) = _
    rw [parseArgs_eq_foldl, position.readOptions_append,
      readOptions_split (splitOnce_key known) known, List.foldl_append, List.foldl_cons,
      parseArgs_eq_foldl .default before]

theorem CliOptions.eq_iff_scheduler {options other : CliOptions}
    (same : options.metricsBind = other.metricsBind) :
    options = other ↔ options.scheduler = other.scheduler := by
  cases options
  cases other
  cases same
  simp

/-- A choice before the last one only matters if there is no later one. -/
theorem getD_last_eq_iff {later : List SchedulerKind} {first second : SchedulerKind} :
    later.getLast?.getD first = later.getLast?.getD second ↔ later ≠ [] ∨ first = second := by
  cases last : later.getLast? with
  | none => simp [List.getLast?_eq_none_iff.mp last]
  | some scheduler =>
      have nonempty : later ≠ [] := by
        intro empty
        simp [empty] at last
      simp [nonempty]

/-- The scheduler in force after some arguments is the multi-channel one only if they set it. -/
theorem multiChannel_chosen (before : List String) :
    SchedulerKind.mcEdfElastic = (parseArgs .default before).scheduler ↔
      (schedulersSet before).getLast? = some .mcEdfElastic := by
  rw [parseArgs_eq_foldl, foldl_scheduler]
  change _ = (schedulersSet before).getLast?.getD .single ↔ _
  cases (schedulersSet before).getLast? with
  | none => simp
  | some scheduler => simp [eq_comm]

/-- The two spellings of an option give the same result exactly if they have the same effect. -/
theorem spellings_agree_iff {before : List String} (position : AtOption before) {key : String}
    (known : key ∈ optionKeys) (program value : String) (after : List String) :
    parseCliOptions (program :: before ++ (key ++ "=" ++ value) :: after) =
        parseCliOptions (program :: before ++ key :: value :: after) ↔
      SameEffect before after key value := by
  obtain ⟨joined, split⟩ := parse_spellings position known program value after
  rw [joined, split]
  by_cases scheduler : key = "--scheduler"
  · subst scheduler
    rw [apply_joined_scheduler, apply_split_scheduler]
    by_cases named : value.toLower ∈ multiChannelNames
    · obtain ⟨first, second⟩ := tables_multiChannel named
      rw [first, second]
      have bind (chosen : Option SchedulerKind) :
          ((parseArgs .default before).setScheduler chosen).metricsBind =
            (parseArgs .default before).metricsBind := rfl
      have same := foldl_metricsBind ((bind (some .mcEdfElastic)).trans (bind none).symm)
        (readOptions after)
      rw [CliOptions.eq_iff_scheduler same, foldl_scheduler, foldl_scheduler]
      refine getD_last_eq_iff.trans ?_
      change _ ∨ SchedulerKind.mcEdfElastic = (parseArgs .default before).scheduler ↔ _
      rw [multiChannel_chosen]
      exact ⟨fun agree _ _ => agree, fun agree => agree rfl named⟩
    · rw [tables_agree named]
      exact iff_of_true rfl fun _ multiChannel => absurd multiChannel named
  · have metrics : key = "--metrics-bind" ∨ key = "--metrics-host" := by
      simpa [optionKeys, scheduler] using known
    obtain ⟨first, second⟩ := apply_metrics metrics (parseArgs .default before) value
    rw [first, second]
    exact iff_of_true rfl fun here => absurd here scheduler

/-- The multi-channel scheduler is asked for in both spellings. -/
theorem multiChannel_ignored :
    ¬ (parseCliOptions (["edf-pipeline"] ++ ("--scheduler" ++ "=" ++ "mc-edf") :: []) =
      parseCliOptions (["edf-pipeline"] ++ "--scheduler" :: "mc-edf" :: [])) ∧
    (parseCliOptions ["edf-pipeline", "--scheduler=mc-edf"]).scheduler = .mcEdfElastic ∧
    (parseCliOptions ["edf-pipeline", "--scheduler", "mc-edf"]).scheduler = .single := by
  decide +kernel

/-- A later option settles what the two spellings of an earlier one leave open. -/
theorem overridden_spellings_agree :
    parseCliOptions (["edf-pipeline", "--metrics-host", "0.0.0.0"] ++
        ("--scheduler" ++ "=" ++ "MC-EDF") :: ["--scheduler=multi"]) =
      parseCliOptions (["edf-pipeline", "--metrics-host", "0.0.0.0"] ++
        "--scheduler" :: "MC-EDF" :: ["--scheduler=multi"]) := by
  have position : AtOption ["--metrics-host", "0.0.0.0"] := .split (by decide) .start
  exact (spellings_agree_iff position (by decide) "edf-pipeline" "MC-EDF" ["--scheduler=multi"]).mpr
    (by decide +kernel)

end CommandLine

end EdfPipeline

import Mathlib
import SqfLayout.CommandLine

/-! The count of errors that a check gives, and what it reports on the way. -/
namespace SqfLayout.CommandLine

/-- Something that a check counts: a path that leads nowhere or a directory that is closed, or a file that
cannot be read, is not split into tokens or does not have the layout. -/
inductive Failure
  | lost (path : Text) (problem : ReadProblem)
  | unread (filename : Text) (problem : ReadProblem)
  | unlexed (filename source : Text) (fault : LexicalFault)
  | rejected (filename source : Text) (violation : Violation)
  deriving DecidableEq, Repr

/-- What is written for a failure. -/
def Failure.report : Failure → Text
  | .lost path problem => (LoadingFailure.ofRead path problem).concise ++ "\n"
  | .unread filename problem => (LoadingFailure.ofRead filename problem).concise ++ "\n"
  | .unlexed filename source fault => (fault.violation.diagnostic filename source).full ++ "\n\n"
  | .rejected filename source violation => (violation.diagnostic filename source).full ++ "\n\n"

/-- A file that is read, lexes and has the layout. -/
def Conformant (c : Convention) (contents : Contents) : Prop :=
  ∃ source tokens h, contents = .ok source ∧ Token.stream source = .ok tokens ∧
    Layout.validate c tokens = .ok h

/-- The failure that a file is. Of other files it knows nothing. -/
def failure? (c : Convention) (filename : Text) : Contents → Option Failure
  | .error problem => some (.unread filename problem)
  | .ok source =>
    match Token.stream source with
    | .error fault => some (.unlexed filename source fault)
    | .ok tokens =>
      match Layout.validate c tokens with
      | .error violation => some (.rejected filename source violation)
      | .ok _ => none

def failuresAt (lookup : Lookup) (c : Convention) (extension path : Text) : List Failure :=
  match lookup.discover extension path with
  | .error problem => [.lost path problem]
  | .ok files => (lookup.unreadable path).map (fun d => .lost d.path d.problem) ++
      files.flatMap fun file => (failure? c file.1 file.2).toList

/-- All failures of a check, in the order of its paths and of the files below each. -/
def failures (lookup : Lookup) (c : Convention) (options : CheckOptions) : List Failure :=
  options.paths.flatMap (failuresAt lookup c options.extension)

def isLost (lookup : Lookup) (extension path : Text) : Bool :=
  !(lookup.discover extension path).toBool

/-- The files that a path leads to, none if it leads nowhere. -/
def filesAt (lookup : Lookup) (extension path : Text) : List (Text × Contents) :=
  (lookup.discover extension path).toOption.getD []

theorem failure?_eq_none_iff {c : Convention} {filename : Text} {contents : Contents} :
    failure? c filename contents = none ↔ Conformant c contents := by
  unfold failure? Conformant
  cases contents with
  | error problem => simp
  | ok source =>
    cases hstream : Token.stream source with
    | error fault => simp [hstream]
    | ok tokens => cases hvalidate : Layout.validate c tokens <;> simp [hstream, hvalidate]

instance (c : Convention) (contents : Contents) : Decidable (Conformant c contents) :=
  decidable_of_iff ((failure? c [] contents).isNone = true) <| by
    rw [Option.isNone_iff_eq_none, failure?_eq_none_iff]

/-- The number of paths that lead nowhere, of directories that are closed, and of files that are not
conformant. A file that two paths lead to counts twice; in a tree that can be read nothing is closed. -/
def errorCount (lookup : Lookup) (c : Convention) (options : CheckOptions) : Nat :=
  options.paths.countP (isLost lookup options.extension) +
    (options.paths.flatMap lookup.unreadable).length +
    (options.paths.flatMap (filesAt lookup options.extension)).countP fun file => !decide (Conformant c file.2)

namespace Output

/-- What is reported on standard error, piece by piece. -/
def reports (output : Output) : List Text :=
  output.filterMap fun
    | .err text => some text
    | _ => none

/-- The lines of a log are neither reports nor output. -/
def Silent (output : Output) : Prop := ∀ p ∈ output, ∃ level line, p = .log level line

private theorem reports_append (a b : Output) : reports (a ++ b) = reports a ++ reports b :=
  List.filterMap_append

private theorem stdout_append (a b : Output) : stdout (a ++ b) = stdout a ++ stdout b := by
  simp [stdout]

private theorem reports_out (text : Text) (output : Output) : reports (.out text :: output) = reports output := rfl

private theorem stdout_out (text : Text) (output : Output) : stdout (.out text :: output) = text ++ stdout output :=
  rfl

private theorem Silent.reports_eq {output : Output} (h : output.Silent) : output.reports = [] := by
  refine List.filterMap_eq_nil_iff.2 fun p hp => ?_
  obtain ⟨_, _, rfl⟩ := h p hp
  rfl

private theorem Silent.stdout_eq {output : Output} (h : output.Silent) : output.stdout = [] := by
  refine List.flatMap_eq_nil_iff.2 fun p hp => ?_
  obtain ⟨_, _, rfl⟩ := h p hp
  rfl

end Output

section
variable {lookup : Lookup} {c : Convention}

private theorem total_append (parts parts' : List (Output × Nat)) : total (parts ++ parts') =
    ((total parts).1 ++ (total parts').1, (total parts).2 + (total parts').2) := by
  induction parts with
  | nil => simp [total]
  | cons part parts ih => simp_all [total, Nat.add_assoc]

/-- The output and the count of a part of a check are those of the given failures. -/
structure Tells (part : Output × Nat) (told : List Failure) : Prop where
  count : part.2 = told.length
  reports : part.1.reports = told.map Failure.report
  stdout : part.1.stdout = []

namespace Tells
variable {a b : Output} {m n : Nat} {told more : List Failure}

private theorem append (h : Tells (a, m) told) (h' : Tells (b, n) more) : Tells (a ++ b, m + n) (told ++ more) where
  count := by
    have hm : m = told.length := h.count
    have hn : n = more.length := h'.count
    rw [List.length_append, hm, hn]
  reports := by rw [Output.reports_append, h.reports, h'.reports, List.map_append]
  stdout := by
    rw [Output.stdout_append, h.stdout, h'.stdout]
    rfl

private theorem silent (h : a.Silent) : Tells (a, 0) [] := ⟨rfl, h.reports_eq, h.stdout_eq⟩

private theorem behind_silent (h : Tells (b, n) more) (ha : a.Silent) : Tells (a ++ b, n) more := by
  simpa using (silent ha).append h

private theorem behind_log {level : Level} {line : Text} (h : Tells (a, m) told) :
    Tells (.log level line :: a, m) told :=
  h.behind_silent (List.forall_mem_singleton.2 ⟨level, line, rfl⟩)

private theorem one (failure : Failure) : Tells ([.err failure.report], 1) [failure] := ⟨rfl, rfl, rfl⟩

private theorem total {ι : Type} {part : ι → Output × Nat} {told : ι → List Failure} {parts : List ι}
    (h : ∀ i ∈ parts, Tells (part i) (told i)) :
    Tells (CommandLine.total (parts.map part)) (parts.flatMap told) := by
  induction parts with
  | nil => exact ⟨rfl, rfl, rfl⟩
  | cons i parts ih =>
    obtain ⟨hhead, hrest⟩ := List.forall_mem_cons.1 h
    exact append hhead (ih hrest)

end Tells

private theorem tells_checkFile (c : Convention) (filename : Text) (contents : Contents) :
    Tells (checkFile c filename contents) (failure? c filename contents).toList := by
  unfold checkFile failure?
  cases contents with
  | error problem => exact (Tells.one (.unread filename problem)).behind_log
  | ok source =>
    dsimp only
    cases hstream : Token.stream source with
    | error fault =>
      have hchecked : checkText c filename source =
          ([.err (Failure.unlexed filename source fault).report], false) := by
        simp only [checkText, hstream, Failure.report]
      rw [hchecked]
      exact (Tells.one _).behind_log
    | ok tokens =>
      let log : Output := (Layout.log c tokens).map fun e => .log .debug (e.message filename)
      have hlog : log.Silent := by
        intro p hp
        obtain ⟨e, -, rfl⟩ := List.mem_map.1 hp
        exact ⟨_, _, rfl⟩
      cases hvalidate : Layout.validate c tokens with
      | error violation =>
        have hchecked : checkText c filename source =
            (log ++ [.err (Failure.rejected filename source violation).report], false) := by
          simp only [checkText, hstream, hvalidate, Failure.report, log]
        simp only [hchecked, hvalidate]
        exact ((Tells.silent hlog).append (Tells.one _)).behind_log
      | ok h =>
        have hchecked : checkText c filename source = (log, true) := by
          simp only [checkText, hstream, hvalidate, log]
        simp only [hchecked, hvalidate]
        exact (Tells.silent hlog).behind_log

private theorem tells_checkPath (lookup : Lookup) (c : Convention) (extension path : Text) :
    Tells (checkPath lookup c extension path) (failuresAt lookup c extension path) := by
  unfold checkPath failuresAt
  cases lookup.discover extension path with
  | error problem => exact Tells.one (.lost path problem)
  | ok files =>
    have hlost (path : Text) (problem : ReadProblem) : Tells (checkLost path problem) [.lost path problem] :=
      Tells.one (.lost path problem)
    have hclosed := Tells.total fun d (_ : d ∈ lookup.unreadable path) => hlost d.path d.problem
    have hfiles := Tells.total fun file (_ : file ∈ files) => tells_checkFile c file.1 file.2
    have hwarnings : Output.Silent ((lookup.unreadable path).map warning) := by
      intro p hp
      obtain ⟨d, -, rfl⟩ := List.mem_map.1 hp
      exact ⟨_, _, rfl⟩
    rw [← List.map_eq_flatMap] at hclosed
    dsimp only
    rw [total_append]
    exact (hclosed.append hfiles).behind_log.behind_silent hwarnings

private theorem unreadable_of_error {extension path : Text} {problem : ReadProblem}
    (h : lookup.discover extension path = .error problem) : lookup.unreadable path = [] := by
  unfold Lookup.discover at h
  unfold Lookup.unreadable
  cases hfound : lookup path with
  | error => rfl
  | ok node =>
    cases node with
    | file | closed => rfl
    | directory => simp [hfound] at h

/-- One failure is counted for each path that leads nowhere, each closed directory and each file that is not
conformant. -/
private theorem length_failures (lookup : Lookup) (c : Convention) (options : CheckOptions) :
    (failures lookup c options).length = errorCount lookup c options := by
  have hfile : ∀ file : Text × Contents, (failure? c file.1 file.2).toList.length =
      if Conformant c file.2 then 0 else 1 := by
    intro file
    split
    · rename_i hconformant
      rw [failure?_eq_none_iff.2 hconformant]
      rfl
    · rename_i hconformant
      obtain ⟨failure, hfailure⟩ := Option.ne_none_iff_exists'.1 (mt failure?_eq_none_iff.1 hconformant)
      rw [hfailure]
      rfl
  have hfiles : ∀ files : List (Text × Contents),
      (files.flatMap fun file => (failure? c file.1 file.2).toList).length =
        files.countP fun file => !decide (Conformant c file.2) := by
    intro files
    induction files with
    | nil => rfl
    | cons file files ih =>
      rw [List.flatMap_cons, List.length_append, ih, hfile, List.countP_cons]
      by_cases hconformant : Conformant c file.2 <;> simp [hconformant, Nat.add_comm]
  unfold failures errorCount
  induction options.paths with
  | nil => rfl
  | cons path paths ih =>
    have hpath : (failuresAt lookup c options.extension path).length =
        (if isLost lookup options.extension path then 1 else 0) + (lookup.unreadable path).length +
          (filesAt lookup options.extension path).countP fun file => !decide (Conformant c file.2) := by
      unfold failuresAt isLost filesAt
      cases hfound : lookup.discover options.extension path with
      | error problem => simp [Except.toBool, Except.toOption, unreadable_of_error hfound]
      | ok files => simpa [Except.toBool, Except.toOption] using hfiles files
    rw [List.flatMap_cons, List.length_append, ih, List.countP_cons, List.flatMap_cons, List.flatMap_cons,
      List.length_append, List.countP_append, hpath]
    omega

private theorem silent_of_conventionFor {option? : Option Text} {loading : Output}
    (h : conventionFor lookup option? = .ok (c, loading)) : loading.Silent := by
  unfold conventionFor at h
  split at h
  · cases h
    exact List.forall_mem_nil _
  · split at h
    · cases h
    · cases h
      exact List.forall_mem_singleton.2 ⟨_, _, rfl⟩

private theorem shown_reports (debug : Bool) (output : Output) : (output.shown debug).reports = output.reports := by
  unfold Output.shown Output.reports
  rw [List.filterMap_filter]
  congr 1
  funext p
  cases p <;> simp

private theorem shown_stdout (debug : Bool) (output : Output) : (output.shown debug).stdout = output.stdout := by
  induction output with
  | nil => rfl
  | cons p output ih =>
    unfold Output.shown at ih ⊢
    cases p with
    | out text => exact congrArg (text ++ ·) ih
    | err | help => exact ih
    | log level line =>
      by_cases hshown : (debug || decide (level = .warn)) = true
      · rw [List.filter_cons, if_pos hshown]
        exact ih
      · rw [List.filter_cons, if_neg hshown]
        exact ih

private theorem tells_check {options : CheckOptions} {loading : Output}
    (h : conventionFor lookup options.convention? = .ok (c, loading)) :
    (CommandLine.check lookup options).exit = min (errorCount lookup c options) 255 ∧
    (CommandLine.check lookup options).output.reports = (failures lookup c options).map Failure.report ∧
    (CommandLine.check lookup options).output.stdout = "Validating SQF...\nValidating finished with " ++
      Text.ofNat (errorCount lookup c options) ++ " errors.\n" := by
  have htells := Tells.total fun path (_ : path ∈ options.paths) =>
    tells_checkPath lookup c options.extension path
  have hsilent := silent_of_conventionFor h
  rw [← length_failures]
  unfold CommandLine.check
  rw [h]
  dsimp only
  refine ⟨?_, ?_, ?_⟩
  · rw [htells.count]
    rfl
  · rw [List.append_assoc, Output.reports_append, hsilent.reports_eq, List.nil_append, List.cons_append,
      Output.reports_out, Output.reports_append, htells.reports]
    exact List.append_nil _
  · rw [List.append_assoc, Output.stdout_append, hsilent.stdout_eq, List.nil_append, List.cons_append,
      Output.stdout_out, Output.stdout_append, htells.stdout, htells.count, List.nil_append,
      Output.stdout_out, ← List.append_assoc, ← List.append_assoc, ← List.append_assoc]
    have hjoin : Text.ofString "Validating SQF...\n" ++ Text.ofString "Validating finished with " =
        Text.ofString "Validating SQF...\nValidating finished with " := by decide +kernel
    rw [hjoin]
    exact List.append_nil _

/-- A check counts nothing if and only if it finds every path, nothing that is closed and nothing but
conformant files. -/
theorem errorCount_eq_zero_iff {options : CheckOptions} : errorCount lookup c options = 0 ↔
    ∀ path ∈ options.paths, lookup.unreadable path = [] ∧ ∃ files,
      lookup.discover options.extension path = .ok files ∧ ∀ file ∈ files, Conformant c file.2 := by
  have hpath : ∀ path, isLost lookup options.extension path = false ∧
      (∀ file ∈ filesAt lookup options.extension path, Conformant c file.2) ↔
      ∃ files, lookup.discover options.extension path = .ok files ∧ ∀ file ∈ files, Conformant c file.2 := by
    intro path
    unfold isLost filesAt
    cases lookup.discover options.extension path <;> simp [Except.toBool, Except.toOption]
  unfold errorCount
  simp only [Nat.add_eq_zero_iff, List.countP_eq_zero, List.mem_flatMap, List.length_eq_zero_iff,
    List.flatMap_eq_nil_iff, ← hpath]
  constructor
  · rintro ⟨⟨hfound, hopen⟩, hconformant⟩ path hmem
    refine ⟨hopen path hmem, Bool.eq_false_iff.2 (hfound path hmem), fun file hfile => ?_⟩
    simpa using hconformant file ⟨path, hmem, hfile⟩
  · intro h
    refine ⟨⟨fun path hmem => Bool.eq_false_iff.1 (h path hmem).2.1, fun path hmem => (h path hmem).1⟩, ?_⟩
    rintro file ⟨path, hmem, hfile⟩
    simpa using (h path hmem).2.2 file hfile

private theorem errorCount_perm {options options' : CheckOptions}
    (hextension : options'.extension = options.extension)
    (h : options'.paths.Perm options.paths) : errorCount lookup c options' = errorCount lookup c options := by
  unfold errorCount
  rw [hextension, h.countP_eq, (h.flatMap_right _).countP_eq, (h.flatMap_right _).length_eq]

/-- The end of a check, what it prints and what it reports, each failing path or file on its own. The
exit status is zero exactly when nothing fails, and does not depend on the order of the paths. -/
theorem run_check {arguments : List Text} {debug : Bool} {options : CheckOptions} {loading : Output}
    (harguments : Command.ofArguments false arguments = .ok (.check debug options))
    (hconvention : conventionFor lookup options.convention? = .ok (c, loading)) :
    (run lookup arguments).exit = min (errorCount lookup c options) 255 ∧
    (run lookup arguments).output.stdout = "Validating SQF...\nValidating finished with " ++
      Text.ofNat (errorCount lookup c options) ++ " errors.\n" ∧
    (run lookup arguments).output.reports = (failures lookup c options).map Failure.report ∧
    (failures lookup c options).length = errorCount lookup c options ∧
    ((run lookup arguments).exit = 0 ↔ ∀ path ∈ options.paths, lookup.unreadable path = [] ∧ ∃ files,
      lookup.discover options.extension path = .ok files ∧ ∀ file ∈ files, Conformant c file.2) ∧
    ∀ arguments' debug' paths, paths.Perm options.paths →
      Command.ofArguments false arguments' = .ok (.check debug' { options with paths := paths }) →
      (run lookup arguments').exit = (run lookup arguments).exit ∧
        (run lookup arguments').output.stdout = (run lookup arguments).output.stdout := by
  have hrun : ∀ {arguments debug} {options : CheckOptions},
      Command.ofArguments false arguments = .ok (.check debug options) →
      run lookup arguments = (CommandLine.check lookup options).shown debug := by
    intro arguments debug options h
    unfold run
    rw [h]
    rfl
  obtain ⟨hexit, hreports, hstdout⟩ := tells_check hconvention
  rw [hrun harguments]
  refine ⟨hexit, (shown_stdout _ _).trans hstdout, (shown_reports _ _).trans hreports,
    length_failures lookup c options, ?_, fun arguments' debug' paths hperm harguments' => ?_⟩
  · rw [← errorCount_eq_zero_iff]
    show (CommandLine.check lookup options).exit = 0 ↔ _
    rw [hexit]
    omega
  · have hcount : errorCount lookup c { options with paths := paths } = errorCount lookup c options :=
      errorCount_perm rfl hperm
    obtain ⟨hexit', -, hstdout'⟩ := @tells_check lookup c { options with paths := paths } _ hconvention
    rw [hrun harguments']
    refine ⟨hexit'.trans ?_, (shown_stdout _ _).trans (hstdout'.trans ?_)⟩
    · rw [hcount]
      exact hexit.symm
    · rw [hcount]
      exact ((shown_stdout _ _).trans hstdout).symm

end

/-- A file that is no text and one that breaks off inside a number. -/
def brokenFiles : Lookup :=
  Node.find (.directory [("b.sqf", .file (.ok "1e")), ("a.sqf", .file (.error .invalidData))])

theorem run_check_brokenFiles : (run brokenFiles ["check", "gone", "a.sqf", "b.sqf"]).exit = 3 ∧
    (run brokenFiles ["check", "a.sqf", "gone", "b.sqf"]).exit = 3 ∧
    (run brokenFiles ["check", "gone", "a.sqf", "b.sqf"]).output.stdout =
      "Validating SQF...\nValidating finished with 3 errors.\n" := by
  have harguments : Command.ofArguments false ["check", "gone", "a.sqf", "b.sqf"] =
      .ok (.check false ⟨none, "sqf", ["gone", "a.sqf", "b.sqf"]⟩) := by cbv
  have hswapped : Command.ofArguments false ["check", "a.sqf", "gone", "b.sqf"] =
      .ok (.check false ⟨none, "sqf", ["a.sqf", "gone", "b.sqf"]⟩) := by cbv
  have hcount : errorCount brokenFiles .standard ⟨none, "sqf", ["gone", "a.sqf", "b.sqf"]⟩ = 3 := by
    cbv
  obtain ⟨hexit, hstdout, -, -, -, hperm⟩ := @run_check brokenFiles _ _ _ _ _ harguments rfl
  obtain ⟨hexit', -⟩ := hperm _ _ _ (.swap _ _ _) hswapped
  rw [hcount] at hexit hstdout
  refine ⟨hexit, hexit'.trans hexit, hstdout.trans ?_⟩
  decide +kernel

end SqfLayout.CommandLine

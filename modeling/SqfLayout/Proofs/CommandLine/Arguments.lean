import Mathlib.Data.List.Basic
import SqfLayout.CommandLine.Arguments

/-! Arguments for every check that can be asked for. -/
namespace SqfLayout.CommandLine

/-- Arguments that ask for a check. The paths stand behind `--`, so that none is taken for an option. -/
def CheckOptions.arguments (debug : Bool) (options : CheckOptions) : List Text :=
  ("check" : Text) :: (if debug then ["--debug"] else [] : List Text) ++
    options.convention?.toList.map (fun path => "--convention" ++ '=' :: path) ++
    ("--extension" ++ '=' :: options.extension) :: "--" :: options.paths

namespace Settings
variable {s s' : Settings} {header : Bool} {rest : List Text}

private theorem read_assigned {option value : Text} (hoption : knows header option = true)
    (hset : set s option value = .ok s') : read header s ((option ++ '=' :: value) :: rest) = read header s' rest := by
  have hnames : option = "--convention" ∨ option = "--author" ∨ option = "--extension" := by
    cases header <;> simp_all [knows] <;> tauto
  have hname : (option ++ '=' :: value).takeWhile (· ≠ '=') = option ∧
      (option ++ '=' :: value).dropWhile (· ≠ '=') = '=' :: value := by
    rcases hnames with rfl | rfl | rfl <;> simp
  rw [read.eq_def]
  simp only [hname.1, hname.2, List.tail_cons, hset, hoption]
  rcases hnames with rfl | rfl | rfl <;> simp [asksHelp, asksVersion, asksFor, looksLikeOption, knows]

private theorem foldlM_addPath {paths : List Text} (hpaths : ∀ path ∈ paths, path ≠ []) :
    paths.foldlM (addPath false) s = .ok { s with paths := s.paths ++ paths } := by
  induction paths generalizing s with
  | nil => simp [pure, Except.pure]
  | cons path paths ih =>
    obtain ⟨hpath, hpaths⟩ := List.forall_mem_cons.1 hpaths
    have hadd : addPath false s path = .ok { s with paths := s.paths ++ [path] } := by
      simp [addPath, hpath]
    rw [List.foldlM_cons, hadd]
    simpa [bind, Except.bind] using ih (s := { s with paths := s.paths ++ [path] }) hpaths

end Settings

/-- Every convention, every extension and all paths can be asked for, if none of the paths is empty. -/
theorem ofArguments_arguments (debug : Bool) {options : CheckOptions} (hconvention : options.convention? ≠ some [])
    (hne : options.paths ≠ []) (hpaths : ∀ path ∈ options.paths, path ≠ []) :
    Command.ofArguments false (options.arguments debug) = .ok (.check debug options) := by
  obtain ⟨convention?, extension, paths⟩ := options
  have hend (s : Settings) : Settings.read false s ("--" :: paths) =
      .ok (.settings { s with paths := s.paths ++ paths }) := by
    rw [Settings.read.eq_def]
    simp [Settings.foldlM_addPath hpaths, Except.map]
  have hextension (s : Settings) (hs : s.extension? = none) :
      Settings.read false s (("--extension" ++ '=' :: extension) :: "--" :: paths) =
        .ok (.settings { s with extension? := some extension, paths := s.paths ++ paths }) := by
    have hset : Settings.set s "--extension" extension = .ok { s with extension? := some extension } := by
      simp [Settings.set, hs]
    rw [Settings.read_assigned (by simp [Settings.knows]) hset, hend]
  have hloaded (s : Settings) (hs : s.extension? = none ∧ s.convention? = none) :
      Settings.read false s (convention?.toList.map (fun path => "--convention" ++ '=' :: path) ++
        ("--extension" ++ '=' :: extension) :: "--" :: paths) = .ok (.settings
          { s with convention? := convention?, extension? := some extension, paths := s.paths ++ paths }) := by
    obtain ⟨debug, _, _, author?, before⟩ := s
    obtain ⟨rfl, rfl⟩ := hs
    cases convention? with
    | none => exact hextension _ rfl
    | some path =>
      have hset : Settings.set ⟨debug, none, none, author?, before⟩ "--convention" path =
          .ok ⟨debug, some path, none, author?, before⟩ := by
        have hpath : path ≠ [] := by simpa using hconvention
        simp [Settings.set, hpath]
      exact (Settings.read_assigned (by simp [Settings.knows]) hset).trans (hextension _ rfl)
  have hread : Settings.read false .empty ((if debug then ["--debug"] else [] : List Text) ++
      convention?.toList.map (fun path => "--convention" ++ '=' :: path) ++
        ("--extension" ++ '=' :: extension) :: "--" :: paths) = .ok (.settings
          ⟨debug, convention?, some extension, none, paths⟩) := by
    rw [List.append_assoc]
    cases debug with
    | false => exact hloaded .empty ⟨rfl, rfl⟩
    | true =>
      rw [if_pos rfl, List.singleton_append, Settings.read.eq_def]
      simpa [Settings.empty] using hloaded ⟨true, none, none, none, []⟩ ⟨rfl, rfl⟩
  rw [CheckOptions.arguments, List.cons_append, List.cons_append, Command.ofArguments.eq_def]
  simp only [hread]
  simp [asksHelp, asksVersion, asksFor, hne]

end SqfLayout.CommandLine

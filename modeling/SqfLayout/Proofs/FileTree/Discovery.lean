import Mathlib
import SqfLayout.Proofs.FileTree

/-! The search for files below a path: which it finds, and in what order. -/
namespace SqfLayout

namespace Path

/-- A point that is not the first character, and behind it, up to the end of the name, the
extension. -/
def HasExtension (extension name : Text) : Prop :=
  ∃ front, front ≠ [] ∧ '.' ∉ extension ∧ name = front ++ '.' :: extension

/-- The components of a path that say where it leads. An empty one, or a single point, does so only
at the start. -/
def parts (path : Text) : List Text :=
  if path = [] then [] else
    match components path with
    | [] => []
    | first :: rest => first :: rest.filter fun part => part ≠ [] ∧ part ≠ ['.']

/-- Components that are no names come first: the root, what stands for the directory itself, and what
stands for the one above. -/
def rank (part : Text) : Nat :=
  if part = [] then 0 else if part = ['.'] then 1 else if part = ['.', '.'] then 2 else 3

/-- The order of components; that of names is the order of their code points. -/
def Before (a b : Text) : Prop := rank a < rank b ∨ rank a = rank b ∧ a < b

/-- The order of paths, component by component. -/
def Precedes (p q : Text) : Prop := List.Lex Before (parts p) (parts q)

private theorem IsName.rank_eq {name : Text} (h : IsName name) : rank name = 3 := by
  simp [rank, h.ne_nil, h.ne_here, h.ne_above]

private theorem not_before_self (part : Text) : ¬ Before part part := by
  rintro (h | ⟨_, h⟩)
  · exact Nat.lt_irrefl _ h
  · exact List.lt_irrefl part h

private theorem not_precedes_self (path : Text) : ¬ Precedes path path :=
  List.lex_irrefl not_before_self (parts path)

private theorem parts_join {directory name : Text} (hdirectory : directory ≠ []) (hname : IsName name) :
    parts (join directory name) = parts directory ++ [name] := by
  have hkept : [name].filter (fun part => part ≠ [] ∧ part ≠ ['.']) = [name] := by
    simp [hname.ne_nil, hname.ne_here]
  unfold parts
  rw [if_neg hdirectory, if_neg (join_ne_nil hname)]
  rcases components_join hdirectory hname with hjoin | ⟨front, hne, hfront, hjoin⟩
  · obtain ⟨first, rest, hparts⟩ := List.exists_cons_of_ne_nil (components_ne_nil directory)
    rw [hjoin, hparts]
    simp only [List.cons_append, List.filter_append, hkept]
  · obtain ⟨first, rest, rfl⟩ := List.exists_cons_of_ne_nil hne
    rw [hjoin, hfront]
    simp only [List.cons_append, List.filter_append, hkept]
    simp

private theorem parts_under {path : Text} (hpath : path ≠ []) {names : List Text}
    (hnames : ∀ name ∈ names, IsName name) : parts (under path names) = parts path ++ names := by
  induction names generalizing path with
  | nil => simp
  | cons name names ih =>
    have hname : IsName name := hnames name (by simp)
    rw [under_cons, ih (join_ne_nil hname) fun n hn => hnames n (by simp [hn]),
      parts_join hpath hname, List.append_assoc]
    rfl

theorem extension?_eq_some_iff {extension name : Text} :
    extension? name = some extension ↔ HasExtension extension name := by
  constructor
  · intro h
    simp only [extension?, Option.ite_none_right_eq_some, Option.some.injEq] at h
    obtain ⟨hlength, rfl⟩ := h
    have hsplit := List.takeWhile_append_dropWhile (p := fun c => decide (c ≠ '.')) (l := name.reverse)
    have hpoint : '.' ∉ name.reverse.takeWhile fun c => decide (c ≠ '.') := by
      intro hmem
      simpa using List.all_eq_true.1 List.all_takeWhile _ hmem
    have hcount := congrArg List.length hsplit
    rw [List.length_append, List.length_reverse] at hcount
    cases hbehind : name.reverse.dropWhile fun c => decide (c ≠ '.') with
    | nil =>
      rw [hbehind, List.length_nil] at hcount
      omega
    | cons d front =>
      have hd : d = '.' := by
        have hhead := List.head?_dropWhile_not (fun c => decide (c ≠ '.')) name.reverse
        rw [hbehind] at hhead
        simpa using hhead
      rw [hbehind, List.length_cons] at hcount
      have hfront : front ≠ [] := by
        rintro rfl
        rw [List.length_nil] at hcount
        omega
      refine ⟨front.reverse, by simpa using hfront, by simpa using hpoint, ?_⟩
      rw [hbehind, hd] at hsplit
      have hname := congrArg List.reverse hsplit
      simpa using hname.symm
  · rintro ⟨front, hfront, hpoint, rfl⟩
    have hbehind : (front ++ '.' :: extension).reverse.takeWhile (fun c => decide (c ≠ '.')) =
        extension.reverse := by
      rw [List.reverse_append, List.reverse_cons, List.append_assoc,
        List.takeWhile_append_of_pos (by simpa using fun c hc => ne_of_mem_of_not_mem hc hpoint)]
      simp
    have hlength : 0 < front.length := List.length_pos_iff.2 hfront
    rw [extension?, hbehind, if_pos (by simp; omega), List.reverse_reverse]

end Path

namespace Node
open SqfLayout.Path (IsName HasExtension Precedes under)

/-- What a search below a directory finds: the files below it whose names have the extension, each
once and in the order of their paths. -/
structure Finds (extension path : Text) (directory : Node) (files : List (Text × Contents)) :
    Prop where
  mem_iff : ∀ p contents, (p, contents) ∈ files ↔
    ∃ above name, directory.Holds (above ++ [name]) (.file contents) ∧
      HasExtension extension name ∧ p = under path (above ++ [name])
  ordered : files.Pairwise fun a b => Precedes a.1 b.1
  once : (files.map (·.1)).Nodup

variable {node : Node} {extension : Text}

private theorem mem_gather {α : Type} {leaf : Text → Text → Node → List α} {a : α}
    (hleaf : ∀ path name entries, leaf path name (.directory entries) = []) (hnode : node.Proper)
    (path name : Text) : a ∈ node.gather leaf path name ↔
      ∃ names last, node.Holds names last ∧ a ∈ leaf (under path names) (names.getLastD name) last := by
  induction hnode generalizing path name with
  | file | closed =>
    constructor
    · exact fun h => ⟨[], _, .here _, h⟩
    · rintro ⟨names, last, hholds, h⟩
      cases hholds
      exact h
  | @directory entries _ hapart _ ih =>
    obtain ⟨sorted, hperm, _, hgather⟩ := exists_gather hapart
    rw [hgather, List.mem_flatMap]
    constructor
    · rintro ⟨e, he, hmem⟩
      have hentry : e ∈ entries := hperm.mem_iff.1 he
      obtain ⟨names, last, hholds, h⟩ := (ih e hentry _ _).1 hmem
      exact ⟨e.1 :: names, last, .inside hentry hholds, by rwa [List.getLastD_cons]⟩
    · rintro ⟨names, last, hholds, h⟩
      cases hholds with
      | here =>
        rw [hleaf] at h
        cases h
      | @inside _ first child _ names hentry hholds =>
        rw [List.getLastD_cons] at h
        exact ⟨(first, child), hperm.mem_iff.2 hentry, (ih _ hentry _ _).2 ⟨names, last, hholds, h⟩⟩

private theorem mem_filesBelow {p : Text} {contents : Contents} (hnode : node.Proper) (path name : Text) :
    (p, contents) ∈ node.filesBelow extension path name ↔
      ∃ names, node.Holds names (.file contents) ∧ HasExtension extension (names.getLastD name) ∧
        p = under path names := by
  rw [filesBelow, mem_gather (fun _ _ _ => rfl) hnode]
  refine exists_congr fun names => ⟨?_, fun ⟨hholds, hext, hp⟩ => ⟨_, hholds, ?_⟩⟩
  · rintro ⟨last, hholds, h⟩
    cases last with
    | file found =>
      obtain ⟨hext, rfl, rfl⟩ : Path.extension? (names.getLastD name) = some extension ∧
          p = under path names ∧ contents = found := by simpa using h
      exact ⟨hholds, Path.extension?_eq_some_iff.1 hext, rfl⟩
    | directory | closed => cases h
  · have hext := Path.extension?_eq_some_iff.2 hext
    show _ ∈ if _ then _ else _
    rw [if_pos hext, hp]
    exact List.mem_singleton.2 rfl

private theorem mem_unreadable {lookup : Lookup} {path : Text} {entries : List (Text × Node)} {d : ClosedDirectory}
    (hnode : (Node.directory entries).Proper) (hpath : lookup path = .ok (.directory entries)) :
    d ∈ lookup.unreadable path ↔ ∃ names,
      (Node.directory entries).Holds names (.closed d.problem d.reason) ∧ d.path = under path names := by
  rw [Lookup.unreadable, hpath]
  dsimp only
  rw [closedBelow, mem_gather (fun _ _ _ => rfl) hnode]
  refine exists_congr fun names => ⟨?_, fun ⟨hholds, hd⟩ => ⟨_, hholds, ?_⟩⟩
  · rintro ⟨last, hholds, h⟩
    cases last with
    | closed problem reason =>
      obtain rfl := List.mem_singleton.1 h
      exact ⟨hholds, rfl⟩
    | file | directory => cases h
  · rw [← hd]
    exact List.mem_singleton.2 rfl

/-- In a tree that can be read nothing is left out. -/
theorem unreadable_eq_nil_iff {lookup : Lookup} {path : Text} {entries : List (Text × Node)}
    (hnode : (Node.directory entries).Proper) (hpath : lookup path = .ok (.directory entries)) :
    lookup.unreadable path = [] ↔ ∀ names problem reason,
      ¬ (Node.directory entries).Holds names (.closed problem reason) := by
  rw [List.eq_nil_iff_forall_not_mem]
  constructor
  · intro h names problem reason hholds
    exact h ⟨under path names, problem, reason⟩ ((mem_unreadable hnode hpath).2 ⟨names, hholds, rfl⟩)
  · intro h d hd
    obtain ⟨names, hholds, -⟩ := (mem_unreadable hnode hpath).1 hd
    exact h names _ _ hholds

/-- Below the entries of a directory the paths are in the order of the names, as they go on with
them. -/
private theorem pairwise_filesBelow (extension : Text) (hnode : node.Proper) {path : Text} (hpath : path ≠ [])
    (name : Text) :
    (node.filesBelow extension path name).Pairwise fun a b => Precedes a.1 b.1 := by
  induction hnode generalizing path name with
  | file contents =>
    rw [filesBelow_file]
    split
    · exact List.pairwise_singleton _ _
    · exact List.Pairwise.nil
  | closed => exact List.Pairwise.nil
  | @directory entries hnames hapart hinside ih =>
    obtain ⟨sorted, hperm, hlt, hfiles⟩ := exists_filesBelow hapart
    have hparts : ∀ e ∈ sorted, ∀ file ∈ filesBelow extension (Path.join path e.1) e.1 e.2,
        ∃ names, Path.parts file.1 = Path.parts path ++ e.1 :: names := by
      intro e he file hfile
      have hentry : e ∈ entries := hperm.mem_iff.1 he
      obtain ⟨names, hholds, _, hunder⟩ := (mem_filesBelow (hinside e hentry) _ _).1 hfile
      have hbelow : ∀ name ∈ e.1 :: names, IsName name := by
        simpa [hnames e hentry] using (hinside e hentry).isName_of_holds hholds
      refine ⟨names, ?_⟩
      rw [hunder, ← Path.under_cons, Path.parts_under hpath hbelow]
    rw [hfiles, List.pairwise_flatMap]
    refine ⟨fun e he => ?_, hlt.imp_of_mem ?_⟩
    · have hentry : e ∈ entries := hperm.mem_iff.1 he
      exact ih e hentry (Path.join_ne_nil (hnames e hentry)) _
    · intro a b ha hb hab x hx y hy
      obtain ⟨more, hx⟩ := hparts a ha x hx
      obtain ⟨more', hy⟩ := hparts b hb y hy
      have hranks : Path.rank a.1 = Path.rank b.1 := by
        rw [(hnames a (hperm.mem_iff.1 ha)).rank_eq, (hnames b (hperm.mem_iff.1 hb)).rank_eq]
      rw [Precedes, hx, hy]
      exact List.Lex.append_left _ (.rel (.inr ⟨hranks, hab⟩)) _

private theorem finds_filesBelow (extension : Text) {entries : List (Text × Node)}
    (hnode : (Node.directory entries).Proper) {path : Text} (hpath : path ≠ []) :
    Finds extension path (.directory entries)
      (filesBelow extension path [] (.directory entries)) := by
  have hordered := pairwise_filesBelow extension hnode hpath []
  refine ⟨fun p contents => ?_, hordered, List.pairwise_map.2 (hordered.imp ?_)⟩
  · rw [mem_filesBelow hnode]
    constructor
    · rintro ⟨names, hholds, hext, hp⟩
      rcases List.eq_nil_or_concat names with rfl | ⟨above, name, rfl⟩
      · cases hholds
      · rw [List.concat_eq_append] at hholds hext hp
        exact ⟨above, name, hholds, by simpa using hext, hp⟩
    · rintro ⟨above, name, hholds, hext, hp⟩
      exact ⟨above ++ [name], hholds, by simpa using hext, hp⟩
  · intro a b hab heq
    rw [heq] at hab
    exact Path.not_precedes_self _ hab

/-- What is found does not depend on the order in which directories list their entries. -/
private theorem discover_of_agree {lookup lookup' : Lookup} {path : Text} (h : Agree (lookup path) (lookup' path))
    (hproper : ∀ node, lookup path = .ok node → node.Proper) (extension : Text) :
    lookup'.discover extension path = lookup.discover extension path := by
  unfold Lookup.discover
  generalize lookup path = found at h hproper
  generalize lookup' path = found' at h
  cases h with
  | error problem => rfl
  | @ok node node' hsame =>
    have hbelow : node.filesBelow extension path [] = node'.filesBelow extension path [] :=
      hsame.gather (hproper node rfl) _ path []
    cases hsame with
    | file | closed => rfl
    | directory again hinside horder => exact congrArg Except.ok hbelow.symm

/-- Below a proper tree, a path that leads nowhere is an error; a file is found alone, whatever its
extension; and below a directory exactly the files with the extension are found. Their paths lead to
them, so that none is a directory. The order in which directories list their entries does not
matter. The path need not start at that tree: the same holds for any path that is looked up in any way. -/
theorem discover_of_proper {root : Node} (hroot : root.Proper) (extension path : Text) :
    (∀ problem, root.find path = .error problem →
      Lookup.discover root.find extension path = .error problem) ∧
    (∀ contents, root.find path = .ok (.file contents) →
      Lookup.discover root.find extension path = .ok [(path, contents)]) ∧
    (∀ entries, root.find path = .ok (.directory entries) →
      ∃ files, Lookup.discover root.find extension path = .ok files ∧
        Finds extension path (.directory entries) files ∧
        ∀ p contents, (p, contents) ∈ files → root.find p = .ok (.file contents)) ∧
    (∀ root', Relists root root' →
      Lookup.discover root'.find extension path = Lookup.discover root.find extension path) ∧
    ∀ lookup : Lookup, path ≠ [] → (∀ node, lookup path = .ok node → node.Proper) →
      (∀ problem, lookup path = .error problem → lookup.discover extension path = .error problem) ∧
      (∀ contents, lookup path = .ok (.file contents) →
        lookup.discover extension path = .ok [(path, contents)]) ∧
      (∀ entries, lookup path = .ok (.directory entries) →
        ∃ files, lookup.discover extension path = .ok files ∧
          Finds extension path (.directory entries) files) ∧
      ∀ lookup' : Lookup, Agree (lookup path) (lookup' path) →
        lookup'.discover extension path = lookup.discover extension path := by
  have hfile (lookup : Lookup) (contents) (h : lookup path = .ok (.file contents)) :
      lookup.discover extension path = .ok [(path, contents)] := by rw [Lookup.discover, h]
  have hlost (lookup : Lookup) (problem) (h : lookup path = .error problem) :
      lookup.discover extension path = .error problem := by rw [Lookup.discover, h]
  have hfollow (node : Node) (h : root.find path = .ok node) : node.Proper :=
    .of_follow (find_eq_ok_iff.1 h).2 (by simp) hroot
  refine ⟨hlost root.find, hfile root.find, fun entries h => ?_, fun root' hagain => ?_,
    fun lookup hpath hproper => ⟨hlost lookup, hfile lookup, fun entries h => ?_, fun lookup' hagree => ?_⟩⟩
  · have hdirectory : (Node.directory entries).Proper := hfollow _ h
    have hfinds := finds_filesBelow extension hdirectory (find_eq_ok_iff.1 h).1.1
    refine ⟨_, by rw [Lookup.discover, h], hfinds, fun p contents hmem => ?_⟩
    obtain ⟨above, name, hholds, _, rfl⟩ := (hfinds.mem_iff p contents).1 hmem
    exact find_under hholds hdirectory h
  · exact discover_of_agree (hagain.find hroot path) hfollow extension
  · exact ⟨_, by rw [Lookup.discover, h], finds_filesBelow extension (hproper _ h) hpath⟩
  · exact discover_of_agree hagree hproper extension

/-- A directory with files of two extensions and a directory that is named like a file. -/
def mixedEntries : List (Text × Node) :=
  [("b.sqf", .directory [("b.txt", .file (.ok "1")), ("a.sqf", .file (.ok "2"))]),
    ("a.b.sqf", .file (.ok "3")), (".sqf", .file (.ok "4"))]

/-- A tree in which that directory is found. -/
def mixedTree : Node := .directory [("mod", .directory mixedEntries)]

private theorem mixedTree_proper : mixedTree.Proper := by
  have hfile (contents : Contents) : (Node.file contents).Proper := .file contents
  have hmod : (Node.directory mixedEntries).Proper := by
    simp only [mixedEntries, proper_directory_iff, List.forall_mem_cons, List.not_mem_nil,
      false_implies, implies_true, and_true, hfile]
    decide +kernel
  exact proper_directory_iff.2 ⟨by decide +kernel, by decide +kernel, by simpa using hmod⟩

theorem discover_mixedTree : mixedTree.find "mod/" = .ok (.directory mixedEntries) ∧
    ∃ files, Lookup.discover mixedTree.find "sqf" "mod/" = .ok files ∧
      Finds "sqf" "mod/" (.directory mixedEntries) files ∧
      ∀ p contents, (p, contents) ∈ files → mixedTree.find p = .ok (.file contents) := by
  have hfound : mixedTree.find "mod/" = .ok (.directory mixedEntries) := by cbv
  exact ⟨hfound, (discover_of_proper mixedTree_proper "sqf" "mod/").2.2.1 mixedEntries hfound⟩

end Node
end SqfLayout

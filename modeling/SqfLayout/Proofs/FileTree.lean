import Mathlib.Data.List.Nodup
import SqfLayout.FileTree

/-! Trees of directories: what lies below a directory, and what a path with one more name leads to. -/
namespace SqfLayout

namespace Path

/-- A name that an entry of a directory can have. -/
structure IsName (name : Text) : Prop where
  ne_nil : name ≠ []
  no_slash : '/' ∉ name
  no_zero : '\x00' ∉ name
  ne_here : name ≠ ['.']
  ne_above : name ≠ ['.', '.']

instance (name : Text) : Decidable (IsName name) :=
  decidable_of_iff
    (name ≠ [] ∧ '/' ∉ name ∧ '\x00' ∉ name ∧ name ≠ ['.'] ∧ name ≠ ['.', '.'])
    ⟨fun ⟨hne, hslash, hzero, hhere, habove⟩ => ⟨hne, hslash, hzero, hhere, habove⟩,
      fun h => ⟨h.ne_nil, h.no_slash, h.no_zero, h.ne_here, h.ne_above⟩⟩

/-- The path of what lies below a directory, by the names on the way. -/
def under (path : Text) (names : List Text) : Text := names.foldl join path

@[simp] theorem under_nil (path : Text) : under path [] = path := rfl

@[simp] theorem under_cons (path name : Text) (names : List Text) :
    under path (name :: names) = under (join path name) names := rfl

theorem components_ne_nil (t : Text) : components t ≠ [] := by
  cases t with
  | nil => simp [components]
  | cons c t =>
    rw [components]
    split
    · simp
    · cases h : components t with
      | nil => exact absurd h (components_ne_nil t)
      | cons part parts => simp

private theorem components_of_not_mem {t : Text} (h : '/' ∉ t) : components t = [t] := by
  induction t with
  | nil => rfl
  | cons c t ih =>
    simp only [List.mem_cons, not_or] at h
    rw [components, if_neg (Ne.symm h.1), ih h.2]
    rfl

private theorem components_append (t u : Text) :
    components (t ++ '/' :: u) = components t ++ components u := by
  induction t with
  | nil => simp [components]
  | cons c t ih =>
    rw [List.cons_append, components, components, ih]
    split
    · rfl
    · obtain ⟨part, parts, h⟩ := List.exists_cons_of_ne_nil (components_ne_nil t)
      rw [h]
      rfl

theorem components_join {directory name : Text} (hdirectory : directory ≠ []) (hname : IsName name) :
    components (join directory name) = components directory ++ [name] ∨
      ∃ front, front ≠ [] ∧ components directory = front ++ [[]] ∧
        components (join directory name) = front ++ [name] := by
  have hone : components name = [name] := components_of_not_mem hname.no_slash
  have hempty : directory.isEmpty = false := by simpa using hdirectory
  by_cases hlast : directory.getLast? = some '/'
  · right
    obtain ⟨front, rfl⟩ := List.getLast?_eq_some_iff.1 hlast
    refine ⟨components front, components_ne_nil front, components_append front [], ?_⟩
    rw [join, if_pos (by simp), List.append_assoc]
    exact (components_append front name).trans (by rw [hone])
  · left
    rw [join, if_neg (by simp [hempty, hlast]), components_append, hone]

theorem join_ne_nil {directory name : Text} (hname : IsName name) : join directory name ≠ [] := by
  rw [join]
  split
  · simp [hname.ne_nil]
  · simp

end Path

namespace Node
open SqfLayout.Path (IsName under)

/-- A tree as it can stand on a disk: the entries of a directory have names, no two the same. -/
inductive Proper : Node → Prop
  | file (contents : Contents) : Proper (.file contents)
  | closed (problem : ReadProblem) (reason : Text) : Proper (.closed problem reason)
  | directory {entries : List (Text × Node)} (hnames : ∀ e ∈ entries, IsName e.1)
      (hapart : (entries.map (·.1)).Nodup) (hinside : ∀ e ∈ entries, Proper e.2) :
      Proper (.directory entries)

/-- The node that names lead to, each an entry of the one before. -/
inductive Holds : Node → List Text → Node → Prop
  | here (node : Node) : Holds node [] node
  | inside {entries : List (Text × Node)} {name : Text} {child leaf : Node} {names : List Text}
      (hentry : (name, child) ∈ entries) (hleaf : Holds child names leaf) :
      Holds (.directory entries) (name :: names) leaf

/-- The same tree with the entries of its directories listed in any other order. -/
inductive Relists : Node → Node → Prop
  | file (contents : Contents) : Relists (.file contents) (.file contents)
  | closed (problem : ReadProblem) (reason : Text) : Relists (.closed problem reason) (.closed problem reason)
  | directory {entries entries' : List (Text × Node)} (again : Text × Node → Node)
      (hinside : ∀ e ∈ entries, Relists e.2 (again e))
      (horder : (entries.map fun e => (e.1, again e)).Perm entries') :
      Relists (.directory entries) (.directory entries')

section
variable {entries : List (Text × Node)} {name : Text} {child node leaf : Node}

/-- Where no two entries have the same name, a name stands for the entry that has it. -/
theorem child?_eq_some_iff (hapart : (entries.map (·.1)).Nodup) :
    child? name entries = some child ↔ (name, child) ∈ entries := by
  rw [child?]
  induction entries with
  | nil => simp
  | cons e entries ih =>
    obtain ⟨other, node⟩ := e
    simp only [List.map_cons, List.nodup_cons] at hapart
    rw [List.lookup_cons]
    by_cases hname : name = other
    · have hnot : (other, child) ∉ entries := fun hmem => hapart.1 (List.mem_map_of_mem hmem)
      subst hname
      simp [hnot, eq_comm]
    · have hne : (name == other) = false := beq_eq_false_iff_ne.2 hname
      simp [hne, hname, ih hapart.2]

theorem proper_directory_iff : (Node.directory entries).Proper ↔
    (∀ e ∈ entries, IsName e.1) ∧ (entries.map (·.1)).Nodup ∧ ∀ e ∈ entries, e.2.Proper := by
  constructor
  · intro h
    cases h with
    | directory hnames hapart hinside => exact ⟨hnames, hapart, hinside⟩
  · rintro ⟨hnames, hapart, hinside⟩
    exact .directory hnames hapart hinside

theorem Proper.isName_of_holds {names : List Text} (h : node.Holds names leaf)
    (hnode : node.Proper) : ∀ name ∈ names, IsName name := by
  induction h with
  | here => simp
  | inside hentry _ ih =>
    obtain ⟨hnames, _, hinside⟩ := proper_directory_iff.1 hnode
    simpa [hnames _ hentry] using ih (hinside _ hentry)

theorem Proper.put (hleaf : leaf.Proper) {names : List Text} (hnames : ∀ name ∈ names, IsName name)
    (hnode : node.Proper) : (put leaf node names).Proper := by
  have hempty : (Node.directory []).Proper := proper_directory_iff.2 (by simp)
  induction names generalizing node with
  | nil =>
    unfold Node.put
    split
    · exact hnode
    · exact hleaf
  | cons name names ih =>
    have hname : IsName name := hnames name (by simp)
    have hmore : ∀ name ∈ names, IsName name := fun n hn => hnames n (by simp [hn])
    unfold Node.put
    cases node with
    | file | closed =>
      have hinside := ih hmore hempty
      exact proper_directory_iff.2 ⟨by simpa using hname, by simp, by simpa [child?] using hinside⟩
    | directory entries =>
      obtain ⟨hentries, hapart, hinside⟩ := proper_directory_iff.1 hnode
      have hchild : ((child? name entries).getD (Node.directory [])).Proper := by
        cases hfound : child? name entries with
        | none => exact hempty
        | some child => exact hinside _ ((child?_eq_some_iff hapart).1 hfound)
      refine proper_directory_iff.2 ⟨?_, ?_, ?_⟩
      · simpa [hname] using fun n c hmem _ => hentries (n, c) hmem
      · simp only [List.map_cons, List.nodup_cons]
        exact ⟨by simp, hapart.sublist (List.filter_sublist.map _)⟩
      · have hothers : ∀ n c, (n, c) ∈ entries → ¬ n = name → c.Proper :=
          fun n c hmem _ => hinside (n, c) hmem
        simpa [ih hmore hchild] using hothers

end

/-! Following a path. -/

/-- The last component of a path is looked up in what the others lead to. Of the directories above
nothing more is needed, as it does not lead back. -/
private theorem follow_concat {last : Text} (hlast : last ≠ ['.', '.']) (above : List Node) (node : Node)
    (names : List Text) :
    follow above node (names ++ [last]) =
      (follow above node names).bind fun found => follow [] found [last] := by
  fun_induction follow above node names with
  | case1 above node =>
    cases node with
    | file | closed => rfl
    | directory entries => simp only [List.nil_append, follow, Except.bind, if_neg hlast]
  | case2 => simp [follow, Except.bind]
  | case3 => simp [follow, Except.bind]
  | case4 above name rest entries hstays ih => simp [follow, hstays, ih]
  | case5 => simp_all [follow]
  | case6 => simp_all [follow]
  | case7 => simp_all [follow, Except.bind]
  | case8 => simp_all [follow, Except.bind]

section
variable {root node leaf : Node} {entries : List (Text × Node)} {path name : Text}

/-- A path that is followed anywhere does not start with a slash. -/
theorem find_eq_ok_iff : root.find path = .ok node ↔
    (path ≠ [] ∧ '\x00' ∉ path ∧ path.head? ≠ some '/') ∧
      follow [] root (Path.components path) = .ok node := by
  unfold find
  by_cases hempty : path = []
  · simp [hempty]
  · by_cases hzero : '\x00' ∈ path
    · simp [hempty, hzero]
    · by_cases hslash : path.head? = some '/'
      · simp [hempty, hzero, hslash]
      · simp [hempty, hzero, hslash]

private theorem find_join (hpath : root.find path = .ok (.directory entries)) (hname : IsName name)
    (hentry : child? name entries = some leaf) : root.find (Path.join path name) = .ok leaf := by
  obtain ⟨⟨hne, hzero, hslash⟩, hfollow⟩ := find_eq_ok_iff.1 hpath
  have hlast : follow [] (.directory entries) [name] = .ok leaf := by
    simp [follow, hname.ne_nil, hname.ne_here, hname.ne_above, hentry]
  refine find_eq_ok_iff.2 ⟨⟨Path.join_ne_nil hname, ?_, ?_⟩, ?_⟩
  · rw [Path.join]
    split
    · simp [hzero, hname.no_zero]
    · simp [hzero, hname.no_zero]
  · obtain ⟨c, path, rfl⟩ := List.exists_cons_of_ne_nil hne
    rw [Path.join]
    split
    · simpa using hslash
    · simpa using hslash
  · rcases Path.components_join hne hname with hcomponents | ⟨front, _, hfront, hcomponents⟩
    · rw [hcomponents, follow_concat hname.ne_above, hfollow]
      exact hlast
    · -- The slash at the end of the path only asks for a directory.
      rw [hfront, follow_concat (by simp)] at hfollow
      rw [hcomponents, follow_concat hname.ne_above]
      cases hfound : follow [] root front with
      | error problem => simp [hfound, Except.bind] at hfollow
      | ok found =>
        cases found with
        | file | closed => simp [hfound, Except.bind, follow] at hfollow
        | directory entries' =>
          obtain rfl : entries' = entries := by simpa [hfound, Except.bind, follow] using hfollow
          exact hlast

theorem find_under {names : List Text} (hleaf : node.Holds names leaf) (hnode : node.Proper)
    (hpath : root.find path = .ok node) : root.find (under path names) = .ok leaf := by
  induction hleaf generalizing path with
  | here => exact hpath
  | inside hentry _ ih =>
    obtain ⟨hnames, hapart, hinside⟩ := proper_directory_iff.1 hnode
    have hchild := find_join hpath (hnames _ hentry) ((child?_eq_some_iff hapart).2 hentry)
    exact ih (hinside _ hentry) hchild

/-- Below a proper directory, and above it, all is proper. -/
theorem Proper.of_follow {above : List Node} {names : List Text}
    (h : follow above node names = .ok leaf) (habove : ∀ n ∈ above, n.Proper) (hnode : node.Proper) :
    leaf.Proper := by
  fun_induction follow above node names with
  | case1 =>
    cases h
    exact hnode
  | case2 => cases h
  | case3 => cases h
  | case4 _ _ _ _ _ ih => exact ih h habove hnode
  | case5 _ _ _ ih => exact ih h (by simp) hnode
  | case6 _ _ _ _ _ ih => exact ih h (fun n hn => habove n (by simp [hn])) (habove _ (by simp))
  | case7 => cases h
  | case8 above name rest entries _ _ child hchild ih =>
    obtain ⟨_, hapart, hinside⟩ := proper_directory_iff.1 hnode
    have hproper := hinside _ ((child?_eq_some_iff hapart).1 hchild)
    exact ih h (by simpa [hnode] using habove) hproper

end

/-! Listing the entries of directories in another order. -/

/-- Two lookups agree: both find nothing, for one reason, or the same tree up to the order of
entries. -/
inductive Agree : Except ReadProblem Node → Except ReadProblem Node → Prop
  | error (problem : ReadProblem) : Agree (.error problem) (.error problem)
  | ok {node node' : Node} (h : Relists node node') : Agree (.ok node) (.ok node')

section
variable {node node' : Node}

private theorem Proper.of_relists (h : Relists node node') (hnode : node.Proper) : node'.Proper := by
  induction h with
  | file contents => exact .file contents
  | closed problem reason => exact .closed problem reason
  | directory again _ horder ih =>
    obtain ⟨hnames, hapart, hinside⟩ := proper_directory_iff.1 hnode
    refine proper_directory_iff.2 ⟨fun e he => ?_, ?_, fun e he => ?_⟩
    · obtain ⟨d, hd, rfl⟩ := List.mem_map.1 (horder.mem_iff.2 he)
      exact hnames d hd
    · have hsame := (horder.map (·.1)).nodup_iff.1
      rw [List.map_map] at hsame
      exact hsame hapart
    · obtain ⟨d, hd, rfl⟩ := List.mem_map.1 (horder.mem_iff.2 he)
      exact ih d hd (hinside d hd)

private theorem child?_relisted {entries entries' : List (Text × Node)} {again : Text × Node → Node}
    (hapart : (entries.map (·.1)).Nodup) (hapart' : (entries'.map (·.1)).Nodup)
    (horder : (entries.map fun e => (e.1, again e)).Perm entries') (name : Text) :
    child? name entries' = (child? name entries).map fun child => again (name, child) := by
  cases hchild : child? name entries with
  | some child =>
    have hentry := (child?_eq_some_iff hapart).1 hchild
    have hmem : (name, again (name, child)) ∈ entries' :=
      horder.mem_iff.1 (List.mem_map.2 ⟨_, hentry, rfl⟩)
    exact (child?_eq_some_iff hapart').2 hmem
  | none =>
    cases hchild' : child? name entries' with
    | none => rfl
    | some child' =>
      have hmem := horder.mem_iff.2 ((child?_eq_some_iff hapart').1 hchild')
      obtain ⟨⟨other, child⟩, hentry, heq⟩ := List.mem_map.1 hmem
      obtain rfl : other = name := (Prod.mk.inj heq).1
      rw [(child?_eq_some_iff hapart).2 hentry] at hchild
      cases hchild

private theorem Relists.follow {above above' : List Node} (habove : List.Forall₂ Relists above above')
    (h : Relists node node') (hproper : ∀ n ∈ above, n.Proper) (hnode : node.Proper)
    (names : List Text) : Agree (node.follow above names) (node'.follow above' names) := by
  induction names generalizing above above' node node' with
  | nil => exact .ok h
  | cons name rest ih =>
    have hnode' := hnode.of_relists h
    cases h with
    | file contents => exact .error _
    | closed problem reason => exact .error _
    | @directory entries entries' again hinside horder =>
      have hdirectory : Relists (.directory entries) (.directory entries') :=
        .directory again hinside horder
      unfold Node.follow
      by_cases hstays : name = [] ∨ name = ['.']
      · simp only [if_pos hstays]
        exact ih habove hdirectory hproper hnode
      · simp only [if_neg hstays]
        by_cases hback : name = ['.', '.']
        · simp only [if_pos hback]
          cases habove with
          | nil => exact ih .nil hdirectory (by simp) hnode
          | cons hparent hmore =>
            exact ih hmore hparent (fun n hn => hproper n (by simp [hn])) (hproper _ (by simp))
        · obtain ⟨_, hapart, hchildren⟩ := proper_directory_iff.1 hnode
          have hapart' := (proper_directory_iff.1 hnode').2.1
          simp only [if_neg hback, child?_relisted hapart hapart' horder name]
          cases hchild : child? name entries with
          | none => exact .error _
          | some child =>
            have hentry := (child?_eq_some_iff hapart).1 hchild
            exact ih (.cons hdirectory habove) (hinside _ hentry) (by simpa [hnode] using hproper)
              (hchildren _ hentry)

theorem Relists.find (h : Relists node node') (hnode : node.Proper) (path : Text) :
    Agree (node.find path) (node'.find path) := by
  unfold Node.find
  split
  · exact .error _
  · split
    · exact .error _
    · split
      · exact .error _
      · exact h.follow .nil (by simp) hnode _

end

/-! What lies below a directory. -/

theorem filesBelow_file (extension path name : Text) (contents : Contents) :
    filesBelow extension path name (.file contents) =
      if Path.extension? name = some extension then [(path, contents)] else [] := rfl

section
variable {α : Type}

private theorem gatherEntries_eq_map (leaf : Text → Text → Node → List α) (path : Text)
    (entries : List (Text × Node)) :
    gatherEntries leaf path entries = entries.map fun e => (e.1, gather leaf (Path.join path e.1) e.1 e.2) := by
  induction entries with
  | nil => rfl
  | cons e entries ih =>
    obtain ⟨name, node⟩ := e
    rw [gatherEntries, ih]
    rfl

/-- What is found below a directory is found below its entries, in the order of their names. -/
theorem exists_gather {entries : List (Text × Node)} (hapart : (entries.map (·.1)).Nodup) :
    ∃ sorted : List (Text × Node), sorted.Perm entries ∧ sorted.Pairwise (fun a b => a.1 < b.1) ∧
      ∀ {α : Type} (leaf : Text → Text → Node → List α) path name, gather leaf path name (.directory entries) =
        sorted.flatMap fun e => gather leaf (Path.join path e.1) e.1 e.2 := by
  have hperm := List.mergeSort_perm entries fun a b => decide (a.1 ≤ b.1)
  refine ⟨entries.mergeSort fun a b => decide (a.1 ≤ b.1), hperm, ?_, ?_⟩
  · have hsorted := @List.pairwise_mergeSort _ (fun a b : Text × Node => decide (a.1 ≤ b.1))
      (fun a b c hab hbc => by
        simp only [decide_eq_true_eq] at hab hbc ⊢
        exact Std.le_trans hab hbc)
      (fun a b => by
        simp only [Bool.or_eq_true, decide_eq_true_eq]
        exact Std.le_total) entries
    have hdistinct := List.pairwise_map.1 ((hperm.map (·.1)).nodup_iff.2 hapart)
    refine (hsorted.and hdistinct).imp fun h => ?_
    exact Std.lt_of_le_of_ne (decide_eq_true_eq.mp h.1) h.2
  · intro α leaf path name
    show ((gatherEntries leaf path entries).mergeSort fun a b => decide (a.1 ≤ b.1)).flatMap (·.2) = _
    rw [gatherEntries_eq_map, ← List.map_mergeSort (r := fun a b => decide (a.1 ≤ b.1)), List.flatMap_map]
    · simp

theorem exists_filesBelow {entries : List (Text × Node)} (hapart : (entries.map (·.1)).Nodup) :
    ∃ sorted : List (Text × Node), sorted.Perm entries ∧ sorted.Pairwise (fun a b => a.1 < b.1) ∧
      ∀ extension path name, filesBelow extension path name (.directory entries) =
        sorted.flatMap fun e => filesBelow extension (Path.join path e.1) e.1 e.2 := by
  obtain ⟨sorted, hperm, hlt, hgather⟩ := exists_gather hapart
  exact ⟨sorted, hperm, hlt, fun extension => hgather _⟩

theorem Relists.gather {node node' : Node} (h : Relists node node') (hnode : node.Proper)
    (leaf : Text → Text → Node → List α) (path name : Text) :
    node.gather leaf path name = node'.gather leaf path name := by
  induction h generalizing path name with
  | file | closed => rfl
  | @directory entries entries' again hinside horder ih =>
    obtain ⟨_, hapart, hchildren⟩ := proper_directory_iff.1 hnode
    have hnode' := hnode.of_relists (.directory again hinside horder)
    obtain ⟨sorted, hperm, hlt, hgather⟩ := exists_gather hapart
    obtain ⟨sorted', hperm', hlt', hgather'⟩ := exists_gather (proper_directory_iff.1 hnode').2.1
    -- Sorted by distinct names, the two listings differ in the nodes below only.
    have hsorted : sorted' = sorted.map fun e => (e.1, again e) := by
      refine List.Perm.eq_of_pairwise ?_ hlt' (List.pairwise_map.2 hlt) ?_
      · intro a b _ _ hab hba
        exact absurd hab (Std.not_gt_of_lt hba)
      · exact hperm'.trans (horder.symm.trans (hperm.map _).symm)
    rw [hgather, hgather', hsorted, List.flatMap_map]
    refine List.flatMap_congr fun e he => ?_
    have hentry : e ∈ entries := hperm.mem_iff.1 he
    exact ih e hentry (hchildren e hentry) _ _

end

end Node
end SqfLayout
